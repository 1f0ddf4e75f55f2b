import TinRpc.RoomService

/-!
# Runs of the room service

The room service answers requests, players disconnect, the room manager is called directly, and the
timers of rooms are driven. `CheckRoomTimeout` drives those of all rooms and cleans up at once. The
frames that a room's tick broadcasts are left out of the events.
-/

namespace TinRpc

namespace RoomServiceImpl

/-- What happens to the rooms. -/
inductive Op
  | createRoom (req : Option CreateRoomReq) (now : ℤ)
  | joinRoom (req : Option JoinRoomReq)
  | leaveRoom (req : Option LeaveRoomReq)
  | sendMessage (req : Option SendMessageReq) (now : ℤ)
  | getRoomList (parsed : Bool)
  | startGame (req : Option StartGameReq) (now : ℤ)
  | sendInput (req : Option PlayerInputReq)
  | stopGame (req : Option StopGameReq)
  | disconnect (playerId : String)
  | manager (op : RoomManager.Op)
  | drive (roomId : String) (now : ℤ)

/-- The room cleanup of `OnPlayerDisconnected`. -/
def disconnect (m : RoomManager) (playerId : String) : RoomManager × Events :=
  let roomId := m.getPlayerRoom playerId
  if roomId = "" then (m, [])
  else
    let r := m.leaveRoomAndNotify roomId playerId
    (r.1, r.2.2)

/-- The rooms after it, and the room events that are sent. -/
def perform (m : RoomManager) : Op → RoomManager × Events
  | .createRoom req now => let r := createRoom m now req; (r.state, r.events)
  | .joinRoom req => let r := joinRoom m req; (r.state, r.events)
  | .leaveRoom req => let r := leaveRoom m req; (r.state, r.events)
  | .sendMessage req now => let r := sendMessage m now req; (r.state, r.events)
  | .getRoomList parsed => let r := getRoomList m parsed; (r.state, r.events)
  | .startGame req now => let r := startGame m now req; (r.state, r.events)
  | .sendInput req => let r := sendInput m req; (r.state, r.events)
  | .stopGame req => let r := stopGame m req; (r.state, r.events)
  | .disconnect playerId => disconnect m playerId
  | .manager op => ((RoomManager.apply (m, []) op).1, [])
  | .drive roomId now => (m.atRoom roomId (·.tick now), [])

def step (m : RoomManager) (op : Op) : Option RoomManager := some (perform m op).1

/-! ## Who asks for what -/

namespace Op

/-- Who gets a new room if he is in none. -/
def opener : Op → Option String
  | .createRoom (some req) _ => some req.playerId
  | .manager (.createRoom playerId _ _ _) => some playerId
  | _ => none

/-- Which room a player asks to join. -/
def joiner : Op → Option (String × String)
  | .joinRoom (some req) => some (req.roomId, req.playerId)
  | .manager (.joinRoom roomId playerId) => some (roomId, playerId)
  | _ => none

/-- Which room a player asks to leave, or leaves by a disconnect. -/
def leaver (m : RoomManager) : Op → Option (String × String)
  | .leaveRoom (some req) => some (req.roomId, req.playerId)
  | .disconnect playerId =>
    if m.getPlayerRoom playerId = "" then none else some (m.getPlayerRoom playerId, playerId)
  | .manager (.leaveRoom roomId playerId) => some (roomId, playerId)
  | _ => none

/-- In which room a player asks to start the game. -/
def starter : Op → Option (String × String)
  | .startGame (some req) _ => some (req.roomId, req.playerId)
  | .manager (.startGame roomId requesterId) => some (roomId, requesterId)
  | _ => none

/-- In which room the game is stopped. -/
def stopped : Op → Option String
  | .stopGame (some req) => some req.roomId
  | _ => none

/-- When the timers of a room are driven. -/
def driven (roomId : String) : Op → Option ℤ
  | .drive r now => if r = roomId then some now else none
  | .manager (.checkRoomTimeout now) => some now
  | _ => none

/-- Whether rooms that are DESTROYED are taken out. -/
def cleans : Op → Bool
  | .manager .cleanupDestroyed => true
  | .manager (.checkRoomTimeout _) => true
  | _ => false

end Op

end RoomServiceImpl

end TinRpc
