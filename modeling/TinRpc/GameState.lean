import Mathlib.Data.List.Sort
import Mathlib.Data.String.Basic
import TinRpc.FrameSync

/-!
# The game state

`tickLogic` of `src/game/game_state.cpp`. The entries of an input map stand in the order its
iterators give them.
-/

namespace TinRpc

/-- `MoveDir`. -/
inductive MoveDir
  | none
  | up
  | down
  | left
  | right
  deriving DecidableEq, Repr

structure PlayerPos where
  playerId : String
  x : Int32 := 0
  y : Int32 := 0
  deriving DecidableEq, Repr

structure GameState where
  frameNo : UInt32 := 0
  players : List PlayerPos := []
  deriving DecidableEq, Repr

/-- `ParseMoveDir`. -/
def parseMoveDir : List UInt8 → MoveDir
  | [] => .none
  | 1 :: _ => .up
  | 2 :: _ => .down
  | 3 :: _ => .left
  | 4 :: _ => .right
  | _ :: _ => .none

/-- `ApplyMove`. -/
def applyMove (pos : PlayerPos) (dir : MoveDir) (step : Int32) : PlayerPos :=
  match dir with
  | .up => { pos with y := pos.y - step }
  | .down => { pos with y := pos.y + step }
  | .left => { pos with x := pos.x - step }
  | .right => { pos with x := pos.x + step }
  | .none => pos

/-- `EnsurePlayerExists`. -/
def ensurePlayerExists (state : GameState) (playerId : String) : GameState :=
  if state.players.any (·.playerId = playerId) then state
  else { state with players := state.players ++ [{ playerId := playerId }] }

/-- `std::sort` by `player_id`. -/
def sortPlayers (players : List PlayerPos) : List PlayerPos :=
  players.insertionSort fun a b => a.playerId ≤ b.playerId

/-- The last loop of `tickLogic`, for one player. -/
def applyInput (inputs : FrameInputs) (p : PlayerPos) : PlayerPos :=
  match inputs.lookup p.playerId with
  | none => p
  | some input => applyMove p (parseMoveDir input) 1

/-- `tickLogic`. -/
def tickLogic (inputs : FrameInputs) (currentState : GameState) : GameState :=
  let next := { currentState with frameNo := currentState.frameNo + 1 }
  let next := inputs.keys.foldl ensurePlayerExists next
  { next with players := (sortPlayers next.players).map (applyInput inputs) }

/-! ## Position correction -/

/-- `PlayerCorrection`. -/
structure PlayerCorrection where
  playerId : String
  serverX : Int32 := 0
  serverY : Int32 := 0
  clientX : Int32 := 0
  clientY : Int32 := 0
  deltaX : Int32 := 0
  deltaY : Int32 := 0
  deriving DecidableEq, Repr

/-- `FindPlayerPos`: the coordinates of the first player with the id. -/
def findPlayerPos (state : GameState) (id : String) : Option (Int32 × Int32) :=
  (state.players.find? (·.playerId = id)).map fun p => (p.x, p.y)

/-- The loop of `CompareStates`, for one player: the correction it needs, if it needs one. -/
def comparePlayer (predicted : GameState) (sp : PlayerPos) : Option PlayerCorrection :=
  let found := findPlayerPos predicted sp.playerId
  let (cx, cy) := found.getD (0, 0)
  if found = none ∨ cx ≠ sp.x ∨ cy ≠ sp.y then
    some
      { playerId := sp.playerId
        serverX := sp.x
        serverY := sp.y
        clientX := cx
        clientY := cy
        deltaX := sp.x - cx
        deltaY := sp.y - cy }
  else none

/-- `CompareStates`. -/
def compareStates (authoritative predicted : GameState) : List PlayerCorrection :=
  authoritative.players.filterMap (comparePlayer predicted)

end TinRpc
