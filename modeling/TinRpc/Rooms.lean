import TinRpc.FrameSync
import TinRpc.TimerManager

/-!
# Rooms

`GameRoom` of `src/game/game_room.cpp` and `RoomManager` of `src/game/room_manager.cpp`. What the
steady clock reads is given to the operations that ask for it. The callbacks of a room's timers hold
pointers to the room their timer is in and to its frame sync, so they are run on that room.
-/

namespace TinRpc

/-- `RoomStatus`. -/
inductive RoomStatus
  | unspecified | idle | waiting | playing | finished | destroyed
  deriving DecidableEq, Repr

/-- `ErrorCode`. -/
inductive ErrorCode
  | none | roomNotFound | roomFull | roomNotJoinable | playerAlreadyInRoom | playerNotInRoom
  | notOwner | wrongRoomState
  deriving DecidableEq, Repr

/-- `Result`. -/
structure Result where
  ok : Bool := true
  code : ErrorCode := .none
  roomId : String := ""
  deriving DecidableEq, Repr

namespace Result

def success : Result := {}
def failure (c : ErrorCode) : Result := { ok := false, code := c }
def createSuccess (rid : String) : Result := { roomId := rid }

end Result

/-- What a room's timers may call: the timeout set up by `CreateRoom`, and the tick set up by
`RescheduleTick`. -/
inductive RoomCallback
  | timeout
  | frameTick (intervalMs : ℤ)
  deriving DecidableEq, Repr

structure GameRoom where
  roomId : String
  ownerId : String
  state : RoomStatus := .idle
  players : List String
  maxPlayers : Int32
  timer : TimerManager RoomCallback := {}
  frameSync : Option FrameSyncManager := none

namespace GameRoom

/-- The constructor: the owner joins. -/
def new (roomId ownerId : String) (maxPlayers : Int32) : GameRoom :=
  { roomId := roomId, ownerId := ownerId, players := [ownerId], maxPlayers := maxPlayers }

/-- `player_count`, the size cast to `int`. -/
def playerCount (r : GameRoom) : Int32 := Int32.ofNat r.players.length

def isFull (r : GameRoom) : Bool := decide (r.maxPlayers ≤ r.playerCount)

def hasPlayer (r : GameRoom) (playerId : String) : Bool := decide (playerId ∈ r.players)

/-- `GameRoom::AddPlayer`. -/
def addPlayer (r : GameRoom) (playerId : String) : GameRoom × Result :=
  if r.state ≠ .idle ∧ r.state ≠ .waiting then (r, .failure .roomNotJoinable)
  else if r.isFull then (r, .failure .roomFull)
  else if r.hasPlayer playerId then (r, .failure .playerAlreadyInRoom)
  else ({ r with players := r.players ++ [playerId] }, .success)

/-- `GameRoom::RemovePlayer`. -/
def removePlayer (r : GameRoom) (playerId : String) : GameRoom × Result :=
  if playerId ∈ r.players then
    let players := r.players.erase playerId
    ({ r with players := players, state := if players = [] then .destroyed else r.state },
      .success)
  else (r, .failure .playerNotInRoom)

/-- `GameRoom::SetState`. -/
def setState (r : GameRoom) (state : RoomStatus) : GameRoom := { r with state := state }

/-! ## Frame sync -/

/-- `GameRoom::InitFrameSync`. -/
def initFrameSync (r : GameRoom) (fps : ℤ) (historySize : ℕ) : GameRoom :=
  let fs := FrameSyncManager.new historySize historySize
  { r with frameSync := some { fs with tickIntervalMs := 1000 / fps } }

/-- `GameRoom::HasFrameSync`. -/
def hasFrameSync (r : GameRoom) : Bool := r.frameSync.isSome

/-- `RescheduleTick`. -/
def rescheduleTick (r : GameRoom) (now intervalMs : ℤ) : GameRoom :=
  { r with timer := (r.timer.schedule now intervalMs (some (.frameTick intervalMs))).1 }

/-- `GetFrameSync()->SetFrameCallback`. -/
def setFrameCallback (r : GameRoom) : GameRoom :=
  { r with frameSync := r.frameSync.map .setFrameCallback }

/-- `GameRoom::StartFrameSync` with `FrameSyncManager::Start`. -/
def startFrameSync (r : GameRoom) (now : ℤ) : GameRoom :=
  match r.frameSync with
  | none => r
  | some fs =>
    if fs.running then r
    else { r with frameSync := some { fs with running := true } }.rescheduleTick now
      fs.tickIntervalMs

/-- `GameRoom::StopFrameSync`. -/
def stopFrameSync (r : GameRoom) : GameRoom := { r with frameSync := r.frameSync.map .stop }

/-- `GameRoom::OnPlayerFrameInput`. -/
def onPlayerFrameInput (r : GameRoom) (frameNo : UInt32) (playerId : String)
    (input : List UInt8) : GameRoom :=
  { r with frameSync := r.frameSync.map fun fs => fs.onPlayerInput frameNo playerId input }

/-! ## Timers -/

/-- A callback of the room's timers. -/
def runCallback (r : GameRoom) (now : ℤ) : RoomCallback → GameRoom
  | .timeout => if r.state = .playing then r else r.setState .destroyed
  | .frameTick intervalMs => match r.frameSync with
    | none => r
    | some fs =>
      if fs.running then { r with frameSync := some fs.tick.1 }.rescheduleTick now intervalMs
      else r

/-- The loop of `TimerManager::Tick`; each round takes a timer off. -/
def tickLoop (now : ℤ) : ℕ → GameRoom → GameRoom
  | 0, r => r
  | n + 1, r =>
    match r.timer.popDue now with
    | none => r
    | some (t, tm) =>
      let r := { r with timer := tm }
      match t.cancelled, t.callback with
      | false, some cb => tickLoop now n (r.runCallback now cb)
      | _, _ => tickLoop now n r

/-- `timer().Tick()`. -/
def tick (r : GameRoom) (now : ℤ) : GameRoom :=
  let r := { r with timer := r.timer.cleanCancelled }
  tickLoop now r.timer.heap.length r

end GameRoom

structure RoomManager where
  rooms : Table String GameRoom := ∅
  playerRoom : Table String String := ∅
  roomIdCounter : UInt64 := 1

namespace RoomManager

/-- A room number in decimal, with zeros before it up to three places. -/
def roomName (n : UInt64) : String :=
  "room_" ++ String.ofList (List.leftpad 3 '0' (toString n.toNat).toList)

/-- `RoomManager::GenerateRoomId`. -/
def generateRoomId (m : RoomManager) : RoomManager × String :=
  ({ m with roomIdCounter := m.roomIdCounter + 1 }, roomName m.roomIdCounter)

/-- `RoomManager::RemovePlayerFromMap`. -/
def removePlayerFromMap (m : RoomManager) (playerId : String) : RoomManager :=
  { m with playerRoom := m.playerRoom.erase playerId }

/-- `RoomManager::ClearRoomPlayers`. -/
def clearRoomPlayers (m : RoomManager) (room : GameRoom) : RoomManager :=
  { m with playerRoom := room.players.foldl (fun pr pid => pr.erase pid) m.playerRoom }

/-- `RoomManager::GetRoom`. -/
def getRoom (m : RoomManager) (roomId : String) : Option GameRoom := m.rooms.lookup roomId

/-- What is done to the room that `GetRoom` points to. -/
def atRoom (m : RoomManager) (roomId : String) (f : GameRoom → GameRoom) : RoomManager :=
  { m with rooms := m.rooms.modify roomId f }

/-- `RoomManager::GetPlayerRoom`, empty for a player in no room. -/
def getPlayerRoom (m : RoomManager) (playerId : String) : String :=
  (m.playerRoom.lookup playerId).getD ""

/-- `RoomManager::GetAllRoomIds`. -/
def getAllRoomIds (m : RoomManager) : List String := m.rooms.entries.map fun e => e.1

/-- `RoomManager::CreateRoom`. -/
def createRoom (m : RoomManager) (playerId : String) (maxPlayers : Int32) (timeoutMs now : ℤ) :
    RoomManager × Result :=
  if (m.playerRoom.lookup playerId).isSome then (m, .failure .playerAlreadyInRoom)
  else
    let (m, roomId) := m.generateRoomId
    let room := GameRoom.new roomId playerId maxPlayers
    let room :=
      if 0 < timeoutMs then
        { room with timer := (room.timer.schedule now timeoutMs (some .timeout)).1 }
      else room
    ({ m with
        playerRoom := m.playerRoom.insert playerId roomId
        rooms := m.rooms.insert roomId room },
      .createSuccess roomId)

/-- `RoomManager::JoinRoom`. -/
def joinRoom (m : RoomManager) (roomId playerId : String) : RoomManager × Result :=
  match m.rooms.lookup roomId with
  | none => (m, .failure .roomNotFound)
  | some room =>
    if (m.playerRoom.lookup playerId).any (· ≠ roomId) then (m, .failure .playerAlreadyInRoom)
    else
      let r := room.addPlayer playerId
      if r.2.ok then
        ({ m with
            rooms := m.rooms.insert roomId r.1
            playerRoom := m.playerRoom.insert playerId roomId }, .success)
      else (m, r.2)

/-- `RoomManager::LeaveRoom`. -/
def leaveRoom (m : RoomManager) (roomId playerId : String) : RoomManager × Result :=
  match m.rooms.lookup roomId with
  | none => (m, .failure .roomNotFound)
  | some room =>
    let r := room.removePlayer playerId
    if r.2.ok then
      ({ m with rooms := m.rooms.insert roomId r.1 }.removePlayerFromMap playerId, .success)
    else (m, r.2)

/-- `RoomManager::StartGame`. -/
def startGame (m : RoomManager) (roomId requesterId : String) : RoomManager × Result :=
  match m.rooms.lookup roomId with
  | none => (m, .failure .roomNotFound)
  | some room =>
    if requesterId ≠ room.ownerId then (m, .failure .notOwner)
    else if room.state ≠ .waiting then (m, .failure .wrongRoomState)
    else ({ m with rooms := m.rooms.insert roomId { room with state := .playing } }, .success)

/-- `RoomManager::RemoveRoom`. -/
def removeRoom (m : RoomManager) (roomId : String) : RoomManager × Bool :=
  match m.rooms.lookup roomId with
  | none => (m, false)
  | some room =>
    let m := m.clearRoomPlayers room
    ({ m with rooms := m.rooms.erase roomId }, true)

/-- The loop of `CleanupDestroyed` over the rooms, with the number of rooms removed. -/
def cleanupLoop : RoomManager → List (Sigma fun _ : String => GameRoom) → RoomManager × ℕ
  | m, [] => (m, 0)
  | m, ⟨roomId, room⟩ :: rest =>
    if room.state = .destroyed then
      let m := m.clearRoomPlayers room
      let r := cleanupLoop { m with rooms := m.rooms.erase roomId } rest
      (r.1, r.2 + 1)
    else cleanupLoop m rest

/-- `RoomManager::CleanupDestroyed`. -/
def cleanupDestroyed (m : RoomManager) : RoomManager × ℕ := m.cleanupLoop m.rooms.entries

/-- `RoomManager::CheckRoomTimeout`. -/
def checkRoomTimeout (m : RoomManager) (now : ℤ) : RoomManager × ℕ :=
  { m with rooms := m.rooms.mapValues fun room : GameRoom => room.tick now }.cleanupDestroyed

/-! ## Runs -/

/-- A call on the room manager. -/
inductive Op
  | createRoom (playerId : String) (maxPlayers : Int32) (timeoutMs now : ℤ)
  | joinRoom (roomId playerId : String)
  | leaveRoom (roomId playerId : String)
  | startGame (roomId requesterId : String)
  | removeRoom (roomId : String)
  | cleanupDestroyed
  | checkRoomTimeout (now : ℤ)
  deriving DecidableEq, Repr

/-- One call, beside the room ids handed out so far. -/
def apply (s : RoomManager × List String) : Op → RoomManager × List String
  | .createRoom playerId maxPlayers timeoutMs now =>
    let r := s.1.createRoom playerId maxPlayers timeoutMs now
    (r.1, if r.2.ok then s.2 ++ [r.2.roomId] else s.2)
  | .joinRoom roomId playerId => ((s.1.joinRoom roomId playerId).1, s.2)
  | .leaveRoom roomId playerId => ((s.1.leaveRoom roomId playerId).1, s.2)
  | .startGame roomId requesterId => ((s.1.startGame roomId requesterId).1, s.2)
  | .removeRoom roomId => ((s.1.removeRoom roomId).1, s.2)
  | .cleanupDestroyed => (s.1.cleanupDestroyed.1, s.2)
  | .checkRoomTimeout now => ((s.1.checkRoomTimeout now).1, s.2)

/-- Calls on a new room manager. -/
def run (ops : List Op) : RoomManager × List String := ops.foldl apply ({}, [])

/-- Rooms are created for at least one player. -/
def Op.HasPlace : Op → Prop
  | .createRoom _ maxPlayers _ _ => 1 ≤ maxPlayers
  | _ => True

instance (op : Op) : Decidable op.HasPlace :=
  match op with
  | .createRoom _ maxPlayers _ _ => inferInstanceAs (Decidable (1 ≤ maxPlayers))
  | .joinRoom .. => .isTrue trivial
  | .leaveRoom .. => .isTrue trivial
  | .startGame .. => .isTrue trivial
  | .removeRoom _ => .isTrue trivial
  | .cleanupDestroyed => .isTrue trivial
  | .checkRoomTimeout _ => .isTrue trivial

end RoomManager

end TinRpc
