import TinRpc.Match
import TinRpc.RoomService
import TinRpc.Service

/-!
# The lobby

The part of `GameService` that rooms and matching are in: the methods registered on `dispatch_`, the
match callback `OnMatchFound`, what a disconnect does there, and the timers. Nothing in the server
calls `Tick` on `timer_` or `CheckRoomTimeout`; they are operations of the lobby all the same. One
clock is read, in milliseconds. What protoc generates from `proto/game.proto` is a parameter.
-/

namespace TinRpc

structure MatchPlayerReq (E : Type) where
  playerId : String
  eloScore : E

/-- `ParseFromArray` of the requests, and `SerializeToString`. -/
class GameProto (E : Type) where
  createRoomReq : List UInt8 → Option CreateRoomReq
  joinRoomReq : List UInt8 → Option JoinRoomReq
  leaveRoomReq : List UInt8 → Option LeaveRoomReq
  sendMessageReq : List UInt8 → Option SendMessageReq
  getRoomListReq : List UInt8 → Bool
  startGameReq : List UInt8 → Option StartGameReq
  playerInputReq : List UInt8 → Option PlayerInputReq
  stopGameReq : List UInt8 → Option StopGameReq
  matchPlayerReq : List UInt8 → Option (MatchPlayerReq E)
  cancelMatchReq : List UInt8 → Option String
  serialize : LobbyMessage → List UInt8

/-- A body parsed by the handler of its method. -/
inductive LobbyRequest (E : Type)
  | createRoom (req : Option CreateRoomReq)
  | joinRoom (req : Option JoinRoomReq)
  | leaveRoom (req : Option LeaveRoomReq)
  | sendMessage (req : Option SendMessageReq)
  | getRoomList (parsed : Bool)
  | startGame (req : Option StartGameReq)
  | sendInput (req : Option PlayerInputReq)
  | stopGame (req : Option StopGameReq)
  | getMetrics
  | enterMatch (req : Option (MatchPlayerReq E))
  | cancelMatch (req : Option String)

/-- The methods registered on `dispatch_`. -/
def LobbyRequest.read {E : Type} [GameProto E] (method : String) (body : List UInt8) :
    Option (LobbyRequest E) :=
  match method with
  | "CreateRoom" => some (.createRoom (GameProto.createRoomReq E body))
  | "JoinRoom" => some (.joinRoom (GameProto.joinRoomReq E body))
  | "LeaveRoom" => some (.leaveRoom (GameProto.leaveRoomReq E body))
  | "SendMessage" => some (.sendMessage (GameProto.sendMessageReq E body))
  | "GetRoomList" => some (.getRoomList (body.isEmpty || GameProto.getRoomListReq E body))
  | "StartGame" => some (.startGame (GameProto.startGameReq E body))
  | "SendInput" => some (.sendInput (GameProto.playerInputReq E body))
  | "StopGame" => some (.stopGame (GameProto.stopGameReq E body))
  | "GetMetrics" => some .getMetrics
  | "EnterMatch" => some (.enterMatch (GameProto.matchPlayerReq body))
  | "CancelMatch" => some (.cancelMatch (GameProto.cancelMatchReq E body))
  | _ => none

/-- What the timer of a match holds. -/
structure MatchTimeout (E : Type) where
  roomId : String
  p1 : String
  p2 : String
  score1 : E
  score2 : E
  deriving DecidableEq

/-- `room_mgr_`, `match_queue_` and `timer_`. -/
structure GameLobby (E : Type) where
  roomMgr : RoomManager := {}
  matchQueue : MatchQueue E
  timer : TimerManager (MatchTimeout E) := {}

namespace GameLobby

variable {E : Type} [Doubles E]

/-- The lobby of a new service. -/
def new : GameLobby E := { matchQueue := MatchQueue.new }

variable (g : GameLobby E) (now : ℤ)

/-! ## Matches -/

/-- `GameService::OnMatchFound`. -/
def onMatchFound (m : Matched E) : GameLobby E × Events :=
  let r := g.roomMgr.createRoom m.p1 2 kDefaultRoomTimeoutMs (steady now)
  if r.2.ok then
    let rid := r.2.roomId
    let mgr := ((r.1.atRoom rid (·.setState .waiting)).joinRoom rid m.p2).1
    ({ g with
        roomMgr := mgr
        timer := (g.timer.schedule (steady now) 30000
          (some ⟨rid, m.p1, m.p2, m.s1, m.s2⟩)).1 },
      mgr.broadcastToRoomExcept rid m.p2 (.matchFoundNtf rid m.p1 m.p2 30) ++
        mgr.broadcastToRoomExcept rid m.p1 (.matchFoundNtf rid m.p2 m.p1 30))
  else ({ g with roomMgr := r.1 }, [])

/-- The match callback for each of the matches in turn. -/
def onMatches : List (Matched E) → GameLobby E → GameLobby E × Events
  | [], g => (g, [])
  | m :: ms, g =>
    let r := g.onMatchFound now m
    let rest := onMatches ms r.1
    (rest.1, r.2 ++ rest.2)

/-- `TryMatch` with the match callback. -/
def tryMatch : GameLobby E × Events :=
  let r := g.matchQueue.tryMatch now
  onMatches now r.2 { g with matchQueue := r.1 }

def enterQueue (playerId : String) (eloScore : E) : GameLobby E :=
  { g with matchQueue := g.matchQueue.enterQueue now playerId eloScore }

/-- The handler of `EnterMatch`. -/
def enterMatch (req : Option (MatchPlayerReq E)) : Handled (GameLobby E) :=
  match req with
  | none => ⟨g, none, []⟩
  | some req =>
    let r := (g.enterQueue now req.playerId req.eloScore).tryMatch now
    ⟨r.1, some (.matchPlayerRes true), r.2⟩

omit [Doubles E] in
/-- The handler of `CancelMatch`. -/
def cancelMatch (req : Option String) : Handled (GameLobby E) :=
  match req with
  | none => ⟨g, none, []⟩
  | some playerId =>
    ⟨{ g with matchQueue := g.matchQueue.cancelMatch playerId }, some (.cancelMatchRes true), []⟩

omit [Doubles E] in
/-- The handler of `GetMetrics`. -/
def getMetrics (metrics : Metrics) : Handled (GameLobby E) :=
  ⟨g, some (.getMetricsRes true metrics.activeConnections g.roomMgr.getAllRoomIds.length
    metrics.totalRequests g.matchQueue.queue.length metrics.errorCount), []⟩

/-! ## Dispatch and disconnects -/

omit [Doubles E] in
/-- The lobby with what a handler of the room service left of its rooms. -/
def withRooms (r : Handled RoomManager) : Handled (GameLobby E) :=
  ⟨{ g with roomMgr := r.state }, r.rsp, r.events⟩

/-- The handler of a request. -/
def handle (metrics : Metrics) : LobbyRequest E → Handled (GameLobby E)
  | .createRoom req => g.withRooms (RoomServiceImpl.createRoom g.roomMgr now req)
  | .joinRoom req => g.withRooms (RoomServiceImpl.joinRoom g.roomMgr req)
  | .leaveRoom req => g.withRooms (RoomServiceImpl.leaveRoom g.roomMgr req)
  | .sendMessage req => g.withRooms (RoomServiceImpl.sendMessage g.roomMgr now req)
  | .getRoomList parsed => g.withRooms (RoomServiceImpl.getRoomList g.roomMgr parsed)
  | .startGame req => g.withRooms (RoomServiceImpl.startGame g.roomMgr now req)
  | .sendInput req => g.withRooms (RoomServiceImpl.sendInput g.roomMgr req)
  | .stopGame req => g.withRooms (RoomServiceImpl.stopGame g.roomMgr req)
  | .getMetrics => g.getMetrics metrics
  | .enterMatch req => g.enterMatch now req
  | .cancelMatch req => g.cancelMatch req

omit [Doubles E] in
/-- What `OnPlayerDisconnected` does in the lobby. -/
def drop (playerId : String) : GameLobby E × Events :=
  let roomId := g.roomMgr.getPlayerRoom playerId
  let r := if roomId = "" then (g.roomMgr, [])
    else
      let r := g.roomMgr.leaveRoomAndNotify roomId playerId
      (r.1, r.2.2)
  ({ g with roomMgr := r.1, matchQueue := g.matchQueue.cancelMatch playerId }, r.2)

/-! ## Timers -/

/-- The callback of a match's timer. -/
def matchTimeout (t : MatchTimeout E) : GameLobby E :=
  match g.roomMgr.getRoom t.roomId with
  | none => g
  | some room =>
    if room.state = .playing then g
    else ({ g with roomMgr := (g.roomMgr.removeRoom t.roomId).1 }.enterQueue now t.p1
      t.score1).enterQueue now t.p2 t.score2

/-- The loop of `TimerManager::Tick`. -/
def tickLoop : ℕ → GameLobby E → GameLobby E
  | 0, g => g
  | n + 1, g =>
    match g.timer.popDue (steady now) with
    | none => g
    | some (t, tm) =>
      let g := { g with timer := tm }
      match t.cancelled, t.callback with
      | false, some cb => tickLoop n (g.matchTimeout now cb)
      | _, _ => tickLoop n g

/-- `timer_.Tick()`. -/
def tick : GameLobby E :=
  let g := { g with timer := g.timer.cleanCancelled }
  tickLoop now g.timer.heap.length g

end GameLobby

instance {E : Type} [Doubles E] [GameProto E] : Lobby (GameLobby E) where
  call g metrics now method body :=
    match LobbyRequest.read method body with
    | none => (g, none, [])
    | some request =>
      let r := g.handle now metrics request
      (r.state, r.rsp.map (GameProto.serialize E),
        r.events.map fun e => (e.1, GameProto.serialize E e.2))
  drop g _ playerId :=
    let r := g.drop playerId
    (r.1, r.2.map fun e => (e.1, GameProto.serialize E e.2))

namespace GameLobby

/-! ## Runs -/

/-- What happens in a lobby: a request, a disconnect, and what the timers may do. -/
inductive Op (E : Type)
  | request (r : LobbyRequest E) (metrics : Metrics) (now : ℤ)
  | drop (playerId : String)
  | enterQueue (playerId : String) (eloScore : E) (now : ℤ)
  | tryMatch (now : ℤ)
  | tick (now : ℤ)
  | checkRoomTimeout (now : ℤ)

def step {E : Type} [Doubles E] (g : GameLobby E) : Op E → Option (GameLobby E)
  | .request r metrics now => some (g.handle now metrics r).state
  | .drop playerId => some (g.drop playerId).1
  | .enterQueue playerId eloScore now => some (g.enterQueue now playerId eloScore)
  | .tryMatch now => some (g.tryMatch now).1
  | .tick now => some (g.tick now)
  | .checkRoomTimeout now => some { g with
      roomMgr := (g.roomMgr.checkRoomTimeout (steady now)).1 }

end GameLobby

end TinRpc
