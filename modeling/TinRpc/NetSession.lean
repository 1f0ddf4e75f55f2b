import TinRpc.FrameCodec
import TinRpc.Messages

/-!
# The game client's session

`NetSession` of `godot_client/scripts/game/net_session.gd` with its `RpcClient`, as a machine. What
`_dispatch_frame` is called with waits in `frames`: a signal's handlers may make any call before the
next frame is dispatched. What the peer says of itself and what its calls return is part of a step,
as is how many rounds a decoder is given.
-/

namespace TinRpc

/-- `request_kind`. -/
inductive RequestKind
  | register | login | selectMap | move | gather | building | voxel | craft
  deriving DecidableEq

/-- A call that sends a request, with strings and floats as they are written. -/
inductive ClientRequest
  | register (username password : String)
  | login (username password : String)
  | selectMap (roomId : String) (mapId : Int64)
  | sendMove (position : ProtoBridge.Vector3) (yaw : List UInt8) (appearance : Int64)
  | gather (resourceId : String)
  | placeBuilding (buildingType : Int64) (position : ProtoBridge.Vector3) (yaw : List UInt8)
  | editVoxel (edit : ProtoBridge.VoxelEdit)
  | craft (recipeId : Int64)

namespace ClientRequest

open ProtoBridge

def method : ClientRequest → String
  | register .. => "Register"
  | login .. => "Login"
  | selectMap .. => "SelectMap"
  | sendMove .. => "Move"
  | gather _ => "Gather"
  | placeBuilding .. => "PlaceBuilding"
  | editVoxel _ => "VoxelEdit"
  | craft _ => "Craft"

def body : ClientRequest → List UInt8
  | register username password => encodeCredentials (utf8 username) (utf8 password)
  | login username password => encodeCredentials (utf8 username) (utf8 password)
  | selectMap roomId mapId => encodeSelectMapReq (utf8 roomId) mapId
  | sendMove position yaw appearance => encodeMoveReq position yaw appearance
  | gather resourceId => encodeGatherReq (utf8 resourceId)
  | placeBuilding buildingType position yaw => encodePlaceBuildingReq buildingType position yaw
  | editVoxel edit => encodeVoxelEdit edit
  | craft recipeId => encodeCraftReq recipeId

def kind : ClientRequest → RequestKind
  | register .. => .register
  | login .. => .login
  | selectMap .. => .selectMap
  | sendMove .. => .move
  | gather _ => .gather
  | placeBuilding .. => .building
  | editVoxel _ => .voxel
  | craft _ => .craft

end ClientRequest

namespace RequestKind

/-- The decoder `_on_response` takes an answer to. -/
def decoder : RequestKind → ProtoBridge.Decoder
  | register => .message .registerRes
  | login => .message .loginRes
  | selectMap => .message .selectMapRes
  | move => .message .moveRes
  | gather => .message (.actionRes true)
  | building => .message (.actionRes false)
  | voxel => .message .voxelEditRes
  | craft => .message (.actionRes false)

/-- The message with which a request completes that the server answered with an error. -/
def refusal : RequestKind → String
  | register => "服务器拒绝注册"
  | login => "服务器拒绝登录"
  | selectMap => "服务器拒绝房间选择"
  | move => "服务器拒绝移动请求"
  | gather => "服务器拒绝采集请求"
  | building => "服务器拒绝建造请求"
  | voxel => "服务器拒绝方块操作"
  | craft => "服务器拒绝制作请求"

open ProtoBridge in
/-- What that decoder is to return for an answer of the server, if it answers such a request. -/
def result {F : Type} [FloatBits F] : (kind : RequestKind) → Response F → Option kind.decoder.Result
  | register, .register success errorMsg playerId => some ⟨success, utf8 errorMsg, utf8 playerId⟩
  | login, .login success errorMsg info =>
    some ⟨success, (info.map fun i => utf8 i.1).getD [], utf8 errorMsg⟩
  | selectMap, .selectMap success mapId errorMsg => some ⟨success, int mapId, utf8 errorMsg⟩
  | move, .move success errorMsg corrected =>
    some ⟨success, utf8 errorMsg, (corrected.map fun p => Vector3.of p.1 p.2.1 p.2.2).getD {}⟩
  | gather, .gather success errorMsg resource inventory =>
    some ⟨success, utf8 errorMsg, .of inventory, some (.of resource)⟩
  | building, .placeBuilding success errorMsg b inventory =>
    some ⟨success, utf8 errorMsg, .of inventory, some (.of b)⟩
  | voxel, .voxelEdit success errorMsg _ inventory =>
    some ⟨success, utf8 errorMsg, .ofOption inventory⟩
  | craft, .craft success errorMsg inventory =>
    some ⟨success, utf8 errorMsg, .ofOption inventory, none⟩
  | _, _ => none

end RequestKind

/-- The decoder `_on_notify` takes a notification to. -/
def notifyDecoder (method : List UInt8) : Option ProtoBridge.Decoder :=
  if method = utf8 "WorldStateNtf" then some (.message .worldState)
  else if method = utf8 "PlayerEnterNtf" then some (.message .playerTransform)
  else if method = utf8 "PlayerLeaveNtf" then some (.message .worldPlayerLeave)
  else if method = utf8 "ResourceChangedNtf" then some .resourceChanged
  else if method = utf8 "BuildingPlacedNtf" then some .buildingPlaced
  else if method = utf8 "VoxelEditNtf" then some .voxelEditNtf
  else none

/-- A signal of the session. The one that completes a request passes what its decoder returned, or
the message of a refusal; a notification is known by its decoder. -/
inductive Signal
  | connected
  | disconnected
  | completed (kind : RequestKind) (result : kind.decoder.Result)
  | refused (kind : RequestKind) (errorMsg : String)
  | notified (d : ProtoBridge.Decoder) (result : d.Result)
  | transportError (method : List UInt8)

/-- `StreamPeerTCP.get_status`. -/
inductive PeerStatus
  | none | connecting | connected | error
  deriving DecidableEq

/-- The session. What it has put on the stream, the requests sent and those completed, with their
ids, and the ids taken are kept for the proofs. -/
structure NetSession where
  peer : Bool := false
  receiveBuffer : List UInt8 := []
  nextRequestId : ℕ := 1
  isConnected : Bool := false
  pendingRequests : ℕ → Option RequestKind := fun _ => none
  moveRequestInFlight : Bool := false
  frames : List FrameCodec.Frame := []
  signals : List Signal := []
  stream : List UInt8 := []
  sends : List (ℕ × RequestKind) := []
  completions : List (ℕ × RequestKind) := []
  taken : ℕ := 0

namespace NetSession

variable (s : NetSession)

def emit (signals : List Signal) : NetSession := { s with signals := s.signals ++ signals }

/-- `_on_disconnected`. -/
def onDisconnected : NetSession :=
  emit { s with pendingRequests := fun _ => none, moveRequestInFlight := false } [.disconnected]

/-- `_handle_disconnected`. -/
def handleDisconnected : NetSession :=
  if s.isConnected then onDisconnected { s with isConnected := false } else s

/-- `connect_to_host`. -/
def connectToHost : NetSession := { s with peer := true, receiveBuffer := [], isConnected := false }

/-- `disconnect_from_host`. -/
def disconnectFromHost : NetSession := if s.peer then s.handleDisconnected else s

/-- `_take_request_id`: the id and the state behind it. -/
def takeRequestId : ℕ × NetSession :=
  let next := (s.nextRequestId + 1) &&& 0xFFFFFFFF
  (s.nextRequestId,
    { s with nextRequestId := if next = 0 then 1 else next, taken := s.taken + 1 })

/-- `send_request`, with what the peer says of itself and whether `put_data` succeeds: the id it
returns, 0 if nothing was sent. -/
def sendRequest (method : String) (body : List UInt8) (status : PeerStatus) (put : Bool) :
    ℕ × NetSession :=
  if s.peer = false ∨ status ≠ .connected then (0, s)
  else
    let (requestId, s) := s.takeRequestId
    let frame := FrameCodec.encode requestId FrameCodec.typeRequest (utf8 method) body
    if frame.isEmpty || !put then (0, s) else (requestId, { s with stream := s.stream ++ frame })

/-- `_send`. -/
def send (r : ClientRequest) (status : PeerStatus) (put : Bool) : ℕ × NetSession :=
  let (requestId, s) := s.sendRequest r.method r.body status put
  if requestId ≠ 0 then
    (requestId, { s with
      pendingRequests := Function.update s.pendingRequests requestId (some r.kind)
      sends := s.sends ++ [(requestId, r.kind)] })
  else (requestId, s)

/-- The calls that send a request; `send_move` is the one with a guard. -/
def request (r : ClientRequest) (status : PeerStatus) (put : Bool) : NetSession :=
  if r.kind = .move then
    if s.moveRequestInFlight then s
    else
      let (requestId, s) := s.send r status put
      if requestId ≠ 0 then { s with moveRequestInFlight := true } else s
  else (s.send r status put).2

/-- What the state of the peer makes of a connection in `poll`, before anything is read. -/
def pollStatus (pollError : Bool) (status : PeerStatus) : NetSession :=
  if s.peer = false then s
  else if pollError then s.handleDisconnected
  else if status = .connected then
    if s.isConnected then s else emit { s with isConnected := true } [.connected]
  else if s.isConnected || status = .error then s.handleDisconnected
  else s

/-- `_read_available_bytes`, with what each `get_data` returns, `none` where it fails. -/
def readAvailableBytes (s : NetSession) (reads : List (Option (List UInt8))) : NetSession :=
  match reads with
  | [] =>
    let decoded := FrameCodec.decodeFrames s.receiveBuffer
    { s with receiveBuffer := decoded.leftover, frames := s.frames ++ decoded.frames }
  | none :: _ => s.handleDisconnected
  | some bytes :: reads =>
    readAvailableBytes { s with receiveBuffer := s.receiveBuffer ++ bytes } reads

/-- `_on_response`; a decoder that does not return takes the client with it, and one that is
abandoned the signal. -/
def onResponse (n requestId : ℕ) (method body : List UInt8) (isError : Bool) : Option NetSession :=
  match s.pendingRequests requestId with
  | none => some s
  | some kind =>
    let s := { s with
      pendingRequests := Function.update s.pendingRequests requestId none
      moveRequestInFlight := if kind = .move then false else s.moveRequestInFlight
      completions := s.completions ++ [(requestId, kind)] }
    if isError then some (s.emit [.transportError method, .refused kind kind.refusal])
    else match kind.decoder.call n body with
      | .returned result => some (s.emit [.completed kind result])
      | .aborted => some s
      | .running => none

/-- `_on_notify`. -/
def onNotify (n : ℕ) (method body : List UInt8) : Option NetSession :=
  match notifyDecoder method with
  | none => some s
  | some d => match d.call n body with
    | .returned result => some (s.emit [.notified d result])
    | .aborted => some s
    | .running => none

/-- `_dispatch_frame`. -/
def dispatchFrame (n : ℕ) (f : FrameCodec.Frame) : Option NetSession :=
  if f.msgType = FrameCodec.typeRequest ∨ f.requestId = 0 then s.onNotify n f.method f.body
  else s.onResponse n f.requestId f.method f.body (f.msgType = FrameCodec.typeError)

end NetSession

/-- What happens to a session. -/
inductive SessionEvent
  | connectToServer
  | disconnectFromServer
  | request (r : ClientRequest) (status : PeerStatus) (put : Bool)
  | pollStatus (pollError : Bool) (status : PeerStatus)
  | read (reads : List (Option (List UInt8)))
  | dispatch (n : ℕ)

open NetSession in
def sessionStep (s : NetSession) : SessionEvent → Option NetSession
  | .connectToServer => some s.connectToHost
  | .disconnectFromServer => some s.disconnectFromHost
  | .request r status put => some (s.request r status put)
  | .pollStatus pollError status => some (s.pollStatus pollError status)
  | .read reads => some (s.readAvailableBytes reads)
  | .dispatch n => match s.frames with
    | [] => none
    | f :: frames => dispatchFrame { s with frames } n f

end TinRpc
