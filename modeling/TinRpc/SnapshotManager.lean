import TinRpc.GameState

/-!
# The snapshot manager

`SnapshotManager` of `src/game/snapshot_manager.cpp`. The `deque` is a list, front first.
-/

namespace TinRpc

open SortedList (lowerBound)

/-- `SnapshotManager::Snapshot`. -/
structure Snapshot where
  frameNo : UInt32 := 0
  state : GameState
  deriving DecidableEq, Repr

structure SnapshotManager where
  snapshots : List Snapshot := []
  maxSnapshots : ℕ := 60

namespace SnapshotManager

/-- The `std::lower_bound` of `FindSnapshot` and `SaveSnapshot`. -/
def lowerBoundFrame (m : SnapshotManager) (frameNo : UInt32) : ℕ :=
  lowerBound (fun s : Snapshot => decide (s.frameNo < frameNo)) m.snapshots

/-- `SnapshotManager::FindSnapshot`. -/
def findSnapshot (m : SnapshotManager) (frameNo : UInt32) : Option Snapshot :=
  match m.snapshots[m.lowerBoundFrame frameNo]? with
  | some s => if s.frameNo = frameNo then some s else none
  | none => none

/-- `SnapshotManager::SaveSnapshot`. -/
def saveSnapshot (m : SnapshotManager) (frameNo : UInt32) (state : GameState) : SnapshotManager :=
  let snap : Snapshot := ⟨frameNo, state⟩
  let it := m.lowerBoundFrame frameNo
  let snapshots :=
    match m.snapshots[it]? with
    | some s =>
      if s.frameNo = frameNo then m.snapshots.set it snap
      else m.snapshots.take it ++ snap :: m.snapshots.drop it
    | none => m.snapshots.take it ++ snap :: m.snapshots.drop it
  { m with snapshots := snapshots.drop (snapshots.length - m.maxSnapshots) }

/-- `SnapshotManager::GetSnapshot`. -/
def getSnapshot (m : SnapshotManager) (frameNo : UInt32) : Option GameState :=
  (m.findSnapshot frameNo).map (·.state)

/-- `SnapshotManager::RestoreFromSnapshot`. -/
def restoreFromSnapshot (m : SnapshotManager) (frameNo : UInt32) : GameState :=
  (m.getSnapshot frameNo).getD { frameNo := 0 }

/-- `SnapshotManager::Count`. -/
def count (m : SnapshotManager) : ℕ := m.snapshots.length

/-- `SnapshotManager::Clear`. -/
def clear (m : SnapshotManager) : SnapshotManager := { m with snapshots := [] }

/-! ## Runs -/

/-- A call that changes the manager. -/
inductive Op
  | saveSnapshot (frameNo : UInt32) (state : GameState)
  | clear
  deriving DecidableEq, Repr

def apply (m : SnapshotManager) : Op → SnapshotManager
  | .saveSnapshot frameNo state => m.saveSnapshot frameNo state
  | .clear => m.clear

/-- Calls on a new manager. -/
def run (maxSnapshots : ℕ) (ops : List Op) : SnapshotManager :=
  ops.foldl apply { maxSnapshots := maxSnapshots }

end SnapshotManager

end TinRpc
