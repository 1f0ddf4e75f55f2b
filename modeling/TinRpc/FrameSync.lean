import Mathlib.Algebra.Group.Nat.Defs
import TinRpc.Lib.SortedList
import TinRpc.Lib.Table

/-!
# Frame sync

`InputBuffer` of `src/game/input_buffer.cpp` and `FrameSyncManager` of `src/game/frame_sync.cpp`.
A `deque` is a list, front first. A tick gives, beside the new state, what it recorded, returned and
passed to the frame callback.
-/

namespace TinRpc

open SortedList (lowerBound)

/-- `FrameSyncManager::FrameInputs`: what each player sent for a frame. -/
abbrev FrameInputs := Table String (List UInt8)

/-- `InputBuffer::FrameInput`. -/
structure FrameInput where
  frameNo : UInt32
  players : FrameInputs

structure InputBuffer where
  buffer : List FrameInput := []
  maxFrames : ℕ

namespace InputBuffer

/-- The `std::lower_bound` of `FindFrame` and `AddInput`. -/
def lowerBoundFrame (b : InputBuffer) (frameNo : UInt32) : ℕ :=
  lowerBound (fun fi : FrameInput => decide (fi.frameNo < frameNo)) b.buffer

/-- `InputBuffer::FindFrame`: the place of the frame and the frame. -/
def findFrame (b : InputBuffer) (frameNo : UInt32) : Option (ℕ × FrameInput) :=
  let it := b.lowerBoundFrame frameNo
  match b.buffer[it]? with
  | some fi => if fi.frameNo = frameNo then some (it, fi) else none
  | none => none

/-- `InputBuffer::AddInput`. -/
def addInput (b : InputBuffer) (frameNo : UInt32) (playerId : String) (input : List UInt8) :
    InputBuffer :=
  let it := b.lowerBoundFrame frameNo
  let new : FrameInput := ⟨frameNo, AList.insert playerId input ∅⟩
  let buffer :=
    match b.buffer[it]? with
    | some fi =>
      if fi.frameNo = frameNo then
        b.buffer.set it { fi with players := fi.players.insert playerId input }
      else b.buffer.take it ++ new :: b.buffer.drop it
    | none => b.buffer.take it ++ new :: b.buffer.drop it
  { b with buffer := buffer.drop (buffer.length - b.maxFrames) }

/-- `InputBuffer::GetInput`. -/
def getInput (b : InputBuffer) (frameNo : UInt32) : InputBuffer × FrameInputs :=
  match b.findFrame frameNo with
  | none => (b, ∅)
  | some (it, fi) => ({ b with buffer := b.buffer.eraseIdx it }, fi.players)

/-- `InputBuffer::ClearUpTo`. -/
def clearUpTo (b : InputBuffer) (frameNo : UInt32) : InputBuffer :=
  { b with buffer := b.buffer.dropWhile fun fi => fi.frameNo < frameNo }

/-- `InputBuffer::Clear`. -/
def clear (b : InputBuffer) : InputBuffer := { b with buffer := [] }

end InputBuffer

/-- `FrameSyncManager::FrameRecord`. -/
structure FrameRecord where
  frameNo : UInt32
  inputs : FrameInputs

structure FrameSyncManager where
  inputBuffer : InputBuffer
  tickIntervalMs : ℤ := 50
  frameNo : UInt32 := 0
  running : Bool := false
  frameHistory : List FrameRecord := []
  maxHistorySize : ℕ
  /-- Whether a frame callback is set. -/
  frameCallback : Bool := false

/-- What a tick does outside the manager: the record it appends, the number it returns, and the
call of the frame callback. -/
structure Ticked where
  record : FrameRecord
  count : ℕ
  callback : Option (UInt32 × FrameInputs)

namespace FrameSyncManager

/-- A new manager over a new input buffer; `InitFrameSync` gives both the same size. -/
def new (maxFrames historySize : ℕ) : FrameSyncManager :=
  { inputBuffer := { maxFrames := maxFrames }, maxHistorySize := historySize }

/-- `FrameSyncManager::SetFrameCallback`. -/
def setFrameCallback (s : FrameSyncManager) : FrameSyncManager := { s with frameCallback := true }

/-- `FrameSyncManager::Stop`. -/
def stop (s : FrameSyncManager) : FrameSyncManager := { s with running := false }

/-- `FrameSyncManager::OnPlayerInput`. -/
def onPlayerInput (s : FrameSyncManager) (frameNo : UInt32) (playerId : String)
    (input : List UInt8) : FrameSyncManager :=
  { s with inputBuffer := s.inputBuffer.addInput frameNo playerId input }

/-- `FrameSyncManager::Tick`. -/
def tick (s : FrameSyncManager) : FrameSyncManager × Ticked :=
  let frameNo := s.frameNo + 1
  let (inputBuffer, inputs) := s.inputBuffer.getInput frameNo
  let record : FrameRecord := ⟨frameNo, inputs⟩
  let history := s.frameHistory ++ [record]
  ({ s with
      inputBuffer := inputBuffer
      frameNo := frameNo
      frameHistory := history.drop (history.length - s.maxHistorySize) },
    { record := record
      count := inputs.entries.length
      callback :=
        if s.frameCallback ∧ inputs.entries ≠ [] then some (frameNo, inputs) else none })

/-- The loop of `GetCatchUpFrames` over the history. -/
def catchUpLoop (start stop : UInt32) : List FrameRecord → List FrameRecord
  | [] => []
  | record :: rest =>
    let tail := if stop < record.frameNo then [] else catchUpLoop start stop rest
    if start ≤ record.frameNo ∧ record.frameNo ≤ stop then record :: tail else tail

/-- `FrameSyncManager::GetCatchUpFrames`. -/
def getCatchUpFrames (s : FrameSyncManager) (clientFrameNo : UInt32) : List FrameRecord :=
  if s.frameNo ≤ clientFrameNo then []
  else catchUpLoop (clientFrameNo + 1) (min (clientFrameNo + 3) s.frameNo) s.frameHistory

/-! ## Runs -/

/-- A call on the manager. -/
inductive Op
  | onPlayerInput (frameNo : UInt32) (playerId : String) (input : List UInt8)
  | tick
  deriving DecidableEq, Repr

/-- One call, beside what the ticks so far did. -/
def apply (s : FrameSyncManager × List Ticked) : Op → FrameSyncManager × List Ticked
  | .onPlayerInput frameNo playerId input => (s.1.onPlayerInput frameNo playerId input, s.2)
  | .tick => (s.1.tick.1, s.2 ++ [s.1.tick.2])

/-- Calls on the manager `StartGame` sets up. -/
def run (maxFrames historySize : ℕ) (ops : List Op) : FrameSyncManager × List Ticked :=
  ops.foldl apply ((new maxFrames historySize).setFrameCallback, [])

/-- The number of ticks among the calls. -/
def ticks (ops : List Op) : ℕ := ops.countP fun op => decide (op = .tick)

@[simp] theorem ticks_nil : ticks [] = 0 := rfl

@[simp] theorem ticks_onPlayerInput (k : UInt32) (p : String) (d : List UInt8) (ops : List Op) :
    ticks (.onPlayerInput k p d :: ops) = ticks ops := by
  simp [ticks]

@[simp] theorem ticks_tick (ops : List Op) : ticks (.tick :: ops) = ticks ops + 1 := by
  simp [ticks]

@[simp] theorem ticks_append (a b : List Op) : ticks (a ++ b) = ticks a + ticks b :=
  List.countP_append

end FrameSyncManager

end TinRpc
