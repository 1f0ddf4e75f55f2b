import TinRpc.Connection
import TinRpc.NetSession

/-!
# A client and the server's connection with it

A session of the game client and the `Connection` that the server has accepted for it, with the
bytes that are on their way between them. The kernel may give either side any part of what has
arrived, and the client may lose the connection, or make another one, with anything still on its
way.
-/

namespace TinRpc

/-! ## Frames -/

section Frames

variable {F : Type} [FloatBits F] [WorldProto F]

/-- The frame a message goes out in. -/
def Message.frame : Message F → Rpc.Frame
  | response requestId r =>
    ⟨UInt32.ofNat requestId, .response, utf8 (Game.response r).1, Game.responseBody r⟩
  | error requestId method => ⟨UInt32.ofNat requestId, .error, utf8 method, []⟩
  | push p =>
    ⟨0, .response, utf8 (Game.push p).1, WorldProto.serializeToString F (Game.push p).2⟩
  | roomEvent data => ⟨0, .response, utf8 "RoomEvent", data⟩

/-- What is serialized for a message. -/
def Message.filled : Message F → List Protobuf.Item
  | response _ r => (Game.response r).2
  | push p => (Game.push p).2
  | error _ _ | roomEvent _ => []

/-- A message that can be serialized and fits a frame. -/
structure Message.Legal (m : Message F) : Prop where
  fits : Protobuf.Fits m.filled
  frame : m.frame.Legal

instance (m : Message F) : Decidable m.Legal :=
  decidable_of_iff (Protobuf.Fits m.filled ∧ m.frame.Legal)
    ⟨fun h => ⟨h.1, h.2⟩, fun h => ⟨h.1, h.2⟩⟩

/-- What `OnServerFrame` is called with, where the method is text. -/
def Rpc.Frame.request (f : Rpc.Frame) : Option (ℕ × Request F) :=
  (String.fromUTF8? ⟨f.methodName.toArray⟩).map fun method =>
    (f.requestId.toNat, Game.request method f.body)

end Frames

/-- A response of the kind that a request is answered with. -/
def Request.answeredBy {F : Type} : Request F → Response F → Bool
  | .register _, .register .. => true
  | .login _, .login .. => true
  | .selectMap _, .selectMap .. => true
  | .move _, .move .. => true
  | .voxelEdit _, .voxelEdit .. => true
  | .craft _, .craft .. => true
  | .gather _, .gather .. => true
  | .placeBuilding _, .placeBuilding .. => true
  | .other .., .other .. => true
  | _, _ => false

/-- A message answers a request that was served, or none. -/
def Message.Answers {F : Type} (served : List (ℕ × Request F)) : Message F → Prop
  | response requestId r => ∃ q ∈ served, q.1 = requestId ∧ q.2.answeredBy r = true
  | error requestId _ => ∃ q ∈ served, q.1 = requestId
  | push _ => True
  | roomEvent _ => True

instance {F : Type} (served : List (ℕ × Request F)) : (m : Message F) →
    Decidable (m.Answers served)
  | .response requestId r => inferInstanceAs
    (Decidable (∃ q ∈ served, q.1 = requestId ∧ q.2.answeredBy r = true))
  | .error requestId _ => inferInstanceAs (Decidable (∃ q ∈ served, q.1 = requestId))
  | .push _ => .isTrue trivial
  | .roomEvent _ => .isTrue trivial

/-! ## The two ends -/

/-- The bytes that a session reads in an event. -/
def SessionEvent.arriving : SessionEvent → List UInt8
  | read reads => got reads
  | _ => []
where
  got : List (Option (List UInt8)) → List UInt8
    | some bytes :: reads => bytes ++ got reads
    | _ => []

/-- The two ends and the bytes in between. The requests asked, the messages sent and the requests
served are kept for the proofs. -/
structure Link (F : Type) where
  session : NetSession := {}
  connection : Rpc.Connection := {}
  toServer : List UInt8 := []
  toClient : List UInt8 := []
  asked : List (ℕ × ClientRequest) := []
  sent : List (Message F) := []
  served : List (ℕ × Request F) := []

inductive LinkEvent (F : Type)
  | client (e : SessionEvent)
  | send (m : Message F) (r : Rpc.Sent)
  | onWrite (rs : List Rpc.Sent)
  | onRead (rs : List Rpc.Recv)
  | onClose

/-- The request that an event makes. -/
def SessionEvent.asking : SessionEvent → List ClientRequest
  | request r _ _ => [r]
  | _ => []

namespace Link

variable {F : Type} [FloatBits F] [WorldProto F] (l : Link F)

/-- An event of the client. It reads what has arrived only, and a new connection starts with nothing
on its way. -/
def client (e : SessionEvent) : Option (Link F) :=
  (sessionStep l.session e).bind fun session =>
    match e with
    | .connectToServer =>
      some { l with session, connection := {}, toServer := [], toClient := [] }
    | _ =>
      if e.arriving <+: l.toClient then
        some { l with
          session
          toClient := l.toClient.drop e.arriving.length
          toServer := l.toServer ++ session.stream.drop l.session.stream.length
          asked := l.asked ++ (session.sends.drop l.session.sends.length).flatMap fun c =>
            e.asking.map fun r => (c.1, r) }
      else none

/-- The connection has done something: what the kernel took is on its way, and the frames that were
cut off are served. -/
def turn (connection : Rpc.Connection) : Link F :=
  { l with
    connection
    toClient := l.toClient ++ connection.accepted.drop l.connection.accepted.length
    served := l.served ++
      (connection.handled.drop l.connection.handled.length).filterMap fun f => f.bind (·.request) }

def call (c : Rpc.Connection.Call) : Option (Link F) := (l.connection.step c).map l.turn

def step (l : Link F) : LinkEvent F → Option (Link F)
  | .client e => l.client e
  | .send m r => call { l with sent := l.sent ++ [m] } (.send m.frame.encode r)
  | .onWrite rs => l.call (.onWrite rs)
  | .onRead rs =>
    if Rpc.received rs <+: l.toServer then
      call { l with toServer := l.toServer.drop (Rpc.received rs).length } (.onRead rs)
    else none
  | .onClose => l.call .onClose

/-- The server sends what can be serialized and fits a frame, and answers what it has served. -/
def ok (l : Link F) : LinkEvent F → Prop
  | .send m _ => m.Legal ∧ m.Answers l.served
  | _ => True

instance (l : Link F) : (e : LinkEvent F) → Decidable (l.ok e)
  | .send m _ => inferInstanceAs (Decidable (m.Legal ∧ m.Answers l.served))
  | .client _ | .onWrite _ | .onRead _ | .onClose => .isTrue trivial

end Link

end TinRpc
