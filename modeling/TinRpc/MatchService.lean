import TinRpc.Lobby
import TinRpc.RoomRuns

/-!
# The match service

`MatchService` of `src/game/match_service.cpp`, over the same rooms, queue and timers as the lobby.
It does what `GameService` does, except that the time to accept a match is a parameter and that the
`MatchFoundNtf` it fills in is not sent. In a run, each round of the loop of `Tick` is an event of
its own; cancelled timers are dropped first.
-/

namespace TinRpc

namespace MatchService

variable {E : Type} [Doubles E] (roomTimeoutMs : ℤ) (g : GameLobby E) (now : ℤ)

/-- `MatchService::OnMatchSuccess`. -/
def onMatchSuccess (m : Matched E) : GameLobby E :=
  let r := g.roomMgr.createRoom m.p1 2 kDefaultRoomTimeoutMs (steady now)
  if r.2.ok then
    let rid := r.2.roomId
    { g with
      roomMgr := ((r.1.atRoom rid (·.setState .waiting)).joinRoom rid m.p2).1
      timer := (g.timer.schedule (steady now) roomTimeoutMs
        (some ⟨rid, m.p1, m.p2, m.s1, m.s2⟩)).1 }
  else { g with roomMgr := r.1 }

/-- The match callback for each of the matches in turn. -/
def onMatches : List (Matched E) → GameLobby E → GameLobby E
  | [], g => g
  | m :: ms, g => onMatches ms (onMatchSuccess roomTimeoutMs g now m)

/-- `MatchService::TryMatch`. -/
def tryMatch : GameLobby E :=
  let r := g.matchQueue.tryMatch now
  onMatches roomTimeoutMs now r.2 { g with matchQueue := r.1 }

/-- One round of the loop of `TimerManager::Tick`. -/
def fire : GameLobby E :=
  match g.timer.popDue (steady now) with
  | none => g
  | some (t, tm) =>
    let g := { g with timer := tm }
    match t.cancelled, t.callback with
    | false, some cb => g.matchTimeout now cb
    | _, _ => g

/-! ## Runs -/

/-- A call on the match service, something that happens to the rooms, and the timers. -/
inductive Op (E : Type)
  | enterQueue (playerId : String) (eloScore : E) (now : ℤ)
  | cancelMatch (playerId : String)
  | tryMatch (now : ℤ)
  | rooms (op : RoomServiceImpl.Op)
  | clean
  | fire (now : ℤ)

/-- The lobby after it, and the room events that are sent. -/
def perform (g : GameLobby E) : Op E → GameLobby E × Events
  | .enterQueue playerId eloScore now => (g.enterQueue now playerId eloScore, [])
  | .cancelMatch playerId => ({ g with matchQueue := g.matchQueue.cancelMatch playerId }, [])
  | .tryMatch now => (tryMatch roomTimeoutMs g now, [])
  | .rooms op =>
    let r := RoomServiceImpl.perform g.roomMgr op
    ({ g with roomMgr := r.1 }, r.2)
  | .clean => ({ g with timer := g.timer.cleanCancelled }, [])
  | .fire now => (fire g now, [])

def step (g : GameLobby E) (op : Op E) : Option (GameLobby E) := some (perform roomTimeoutMs g op).1

end MatchService

end TinRpc
