import TinRpc.Rooms

/-!
# The room service

`RoomServiceImpl` of `src/game/room_service.cpp`, with `Broadcast` of `src/game/broadcast.cpp` and
the notifying operations of `RoomManager`. A handler gives the rooms after it, the response that it
serializes (none where the body does not parse) and the room events it broadcasts, each with its
receiver. Times are in milliseconds.
-/

namespace TinRpc

/-! ## Messages -/

/-- `RoomInfo`, as far as `ToProto` fills it. -/
structure RoomInfo where
  roomId : String
  playerCount : Int32
  maxPlayers : Int32
  roomState : RoomStatus
  deriving DecidableEq

/-- The messages of `proto/game.proto` that the room and match services serialize. -/
inductive LobbyMessage
  | createRoomRes (success : Bool) (roomInfo : Option RoomInfo) (errorMsg : String)
      (errorCode : ErrorCode)
  | joinRoomRes (success : Bool) (roomInfo : Option RoomInfo) (errorMsg : String)
      (errorCode : ErrorCode)
  | leaveRoomRes (success : Bool) (errorMsg : String) (errorCode : ErrorCode)
  | sendMessageRes (success : Bool) (errorMsg : String) (errorCode : ErrorCode)
  | getRoomListRes (rooms : List RoomInfo)
  | startGameRes (success : Bool) (errorMsg : String) (errorCode : ErrorCode)
  | sendInputRes (success : Bool) (errorMsg : String) (errorCode : ErrorCode)
  | stopGameRes (success : Bool) (errorMsg : String) (errorCode : ErrorCode)
  | matchPlayerRes (success : Bool)
  | cancelMatchRes (success : Bool)
  | getMetricsRes (success : Bool) (activeConnections : ℤ) (totalRooms totalRequests : ℕ)
      (matchQueueSize errorCount : ℕ)
  | playerJoinNtf (roomId playerId : String) (playerCount : Int32)
  | playerLeaveNtf (roomId playerId : String) (playerCount : Int32)
  | gameStartNtf (roomId : String) (timestamp : ℤ)
  | roomBroadcastMsg (roomId senderId content : String) (timestamp : ℤ)
  | matchFoundNtf (roomId playerId opponentId : String) (timeoutSec : ℤ)

structure CreateRoomReq where
  playerId : String
  roomName : String
  maxPlayers : Int32

structure JoinRoomReq where
  playerId : String
  roomId : String

structure LeaveRoomReq where
  playerId : String
  roomId : String

structure SendMessageReq where
  roomId : String
  senderId : String
  content : String

structure StartGameReq where
  roomId : String
  playerId : String

structure StopGameReq where
  roomId : String
  playerId : String

structure PlayerInputReq where
  frameNo : UInt32
  playerId : String
  inputData : List UInt8

/-- Receivers with what is sent to them. -/
abbrev Events := List (String × LobbyMessage)

/-- What a handler leaves behind, answers and broadcasts. -/
structure Handled (S : Type) where
  state : S
  rsp : Option LobbyMessage
  events : Events := []

/-! ## Broadcasts -/

namespace GameRoom

/-- `GameRoom::ToProto`. -/
def toProto (r : GameRoom) : RoomInfo := ⟨r.roomId, r.playerCount, r.maxPlayers, r.state⟩

end GameRoom

namespace RoomManager

variable (m : RoomManager)

/-- `Broadcast::BroadcastToRoom`. -/
def broadcastToRoom (roomId : String) (data : LobbyMessage) : Events :=
  match m.getRoom roomId with
  | none => []
  | some room => room.players.map fun p => (p, data)

/-- `Broadcast::BroadcastToRoomExcept`. -/
def broadcastToRoomExcept (roomId exclude : String) (data : LobbyMessage) : Events :=
  match m.getRoom roomId with
  | none => []
  | some room => (room.players.filter fun p => p ≠ exclude).map fun p => (p, data)

/-- `RoomManager::JoinRoomAndNotify`. -/
def joinRoomAndNotify (roomId playerId : String) : RoomManager × Result × Events :=
  let r := m.joinRoom roomId playerId
  if r.2.ok then
    (r.1, .success, match r.1.getRoom roomId with
      | none => []
      | some room => r.1.broadcastToRoomExcept roomId playerId
          (.playerJoinNtf roomId playerId room.playerCount))
  else (r.1, r.2, [])

/-- `RoomManager::LeaveRoomAndNotify`. -/
def leaveRoomAndNotify (roomId playerId : String) : RoomManager × Result × Events :=
  let r := m.leaveRoom roomId playerId
  if r.2.ok then
    (r.1, .success, match r.1.getRoom roomId with
      | none => []
      | some room =>
        if room.state = .destroyed then []
        else r.1.broadcastToRoom roomId (.playerLeaveNtf roomId playerId room.playerCount))
  else (r.1, r.2, [])

/-- `RoomManager::StartGameAndNotify`. -/
def startGameAndNotify (roomId requesterId : String) (now : ℤ) : RoomManager × Result × Events :=
  let r := m.startGame roomId requesterId
  if r.2.ok then (r.1, .success, r.1.broadcastToRoom roomId (.gameStartNtf roomId now))
  else (r.1, r.2, [])

end RoomManager

/-! ## Handlers -/

/-- `kDefaultRoomTimeoutMs`. -/
def kDefaultRoomTimeoutMs : ℤ := 300000

/-- A steady clock that reads `now` milliseconds, in nanoseconds. -/
def steady (now : ℤ) : ℤ := now * 1000000

namespace RoomServiceImpl

variable (m : RoomManager) (now : ℤ)

/-- `RoomServiceImpl::CreateRoom`. -/
def createRoom (req : Option CreateRoomReq) : Handled RoomManager :=
  match req with
  | none => ⟨m, none, []⟩
  | some req =>
    let maxPlayers := if 0 < req.maxPlayers then req.maxPlayers else 4
    let r := m.createRoom req.playerId maxPlayers kDefaultRoomTimeoutMs (steady now)
    if r.2.ok then
      let m := r.1.atRoom r.2.roomId (·.setState .waiting)
      ⟨m, some (.createRoomRes true ((m.getRoom r.2.roomId).map (·.toProto)) "" .none), []⟩
    else ⟨r.1, some (.createRoomRes false none "创建房间失败" r.2.code), []⟩

def joinErrorMsg : ErrorCode → String
  | .roomNotFound => "房间不存在"
  | .roomFull => "房间已满"
  | .roomNotJoinable => "房间状态不允许加入"
  | .playerAlreadyInRoom => "玩家已在房间中"
  | _ => "加入失败"

/-- `RoomServiceImpl::JoinRoom`. -/
def joinRoom (req : Option JoinRoomReq) : Handled RoomManager :=
  match req with
  | none => ⟨m, none, []⟩
  | some req =>
    let (m, result, events) := m.joinRoomAndNotify req.roomId req.playerId
    if result.ok then
      ⟨m, some (.joinRoomRes true ((m.getRoom req.roomId).map (·.toProto)) "" .none), events⟩
    else ⟨m, some (.joinRoomRes false none (joinErrorMsg result.code) result.code), events⟩

def leaveErrorMsg : ErrorCode → String
  | .roomNotFound => "房间不存在"
  | .playerNotInRoom => "玩家不在房间中"
  | _ => "离开失败"

/-- `RoomServiceImpl::LeaveRoom`. -/
def leaveRoom (req : Option LeaveRoomReq) : Handled RoomManager :=
  match req with
  | none => ⟨m, none, []⟩
  | some req =>
    let (m, result, events) := m.leaveRoomAndNotify req.roomId req.playerId
    if result.ok then ⟨m, some (.leaveRoomRes true "" .none), events⟩
    else ⟨m, some (.leaveRoomRes false (leaveErrorMsg result.code) result.code), events⟩

/-- `RoomServiceImpl::SendMessage`. -/
def sendMessage (req : Option SendMessageReq) : Handled RoomManager :=
  match req with
  | none => ⟨m, none, []⟩
  | some req =>
    match m.getRoom req.roomId with
    | none => ⟨m, some (.sendMessageRes false "房间不存在" .roomNotFound), []⟩
    | some _ => ⟨m, some (.sendMessageRes true "" .none),
        m.broadcastToRoomExcept req.roomId req.senderId
          (.roomBroadcastMsg req.roomId req.senderId req.content now)⟩

/-- `RoomServiceImpl::GetRoomList`; an empty body is not parsed. -/
def getRoomList (parsed : Bool) : Handled RoomManager :=
  if parsed then
    let rooms := m.getAllRoomIds.filterMap m.getRoom
    ⟨m, some (.getRoomListRes
      ((rooms.filter fun room => room.state ≠ .destroyed).map (·.toProto))), []⟩
  else ⟨m, none, []⟩

def startErrorMsg : ErrorCode → String
  | .roomNotFound => "房间不存在"
  | .notOwner => "不是房主，无权开始游戏"
  | .wrongRoomState => "房间状态不允许开始游戏"
  | _ => "开始游戏失败"

/-- What a successful `StartGame` does to the room. -/
def startRoom (room : GameRoom) : GameRoom :=
  let room := if room.hasFrameSync then room else room.initFrameSync 20 120
  room.setFrameCallback.startFrameSync (steady now)

/-- `RoomServiceImpl::StartGame`. -/
def startGame (req : Option StartGameReq) : Handled RoomManager :=
  match req with
  | none => ⟨m, none, []⟩
  | some req =>
    let (m, result, events) := m.startGameAndNotify req.roomId req.playerId now
    if result.ok then
      ⟨m.atRoom req.roomId (startRoom now), some (.startGameRes true "" .none), events⟩
    else ⟨m, some (.startGameRes false (startErrorMsg result.code) result.code), events⟩

/-- `RoomServiceImpl::SendInput`. -/
def sendInput (req : Option PlayerInputReq) : Handled RoomManager :=
  match req with
  | none => ⟨m, none, []⟩
  | some req =>
    let roomId := m.getPlayerRoom req.playerId
    if roomId = "" then ⟨m, some (.sendInputRes false "玩家不在任何房间中" .playerNotInRoom), []⟩
    else match m.getRoom roomId with
      | none => ⟨m, some (.sendInputRes false "房间不存在" .roomNotFound), []⟩
      | some _ =>
        ⟨m.atRoom roomId (·.onPlayerFrameInput req.frameNo req.playerId req.inputData),
          some (.sendInputRes true "" .none), []⟩

/-- `RoomServiceImpl::StopGame`. -/
def stopGame (req : Option StopGameReq) : Handled RoomManager :=
  match req with
  | none => ⟨m, none, []⟩
  | some req =>
    match m.getRoom req.roomId with
    | none => ⟨m, some (.stopGameRes false "房间不存在" .roomNotFound), []⟩
    | some _ =>
      ⟨m.atRoom req.roomId fun room => room.stopFrameSync.setState .finished,
        some (.stopGameRes true "" .none), []⟩

end RoomServiceImpl

end TinRpc
