import Mathlib.Data.List.Basic
import Mathlib.Algebra.Group.Nat.Defs

/-!
# Timers

`TimerManager` of `src/game/timer_manager.cpp`. The heap is the list of its timers in the order they
come off it; of timers with equal deadlines the one scheduled first comes off first. Times are the
steady clock's nanoseconds. A callback is a value of `α`, run by whoever ticks.
-/

namespace TinRpc

/-- `TimerManager::Timer`; a cancelled one has lost its callback. -/
structure Timer (α : Type) where
  id : UInt64
  deadline : ℤ
  callback : Option α
  cancelled : Bool
  deriving DecidableEq, Repr

structure TimerManager (α : Type) where
  nextId : UInt64 := 1
  heap : List (Timer α) := []
  deriving DecidableEq, Repr

namespace TimerManager

variable {α : Type}

/-- `std::push_heap`. -/
def pushHeap (t : Timer α) : List (Timer α) → List (Timer α)
  | [] => [t]
  | u :: us => if u.deadline ≤ t.deadline then u :: pushHeap t us else t :: u :: us

/-- `TimerManager::Schedule` of a deadline that fits the clock, as the timers of the matches have.
`TimerHeap.schedule` is the one of any deadline. -/
def schedule (tm : TimerManager α) (now delayMs : ℤ) (callback : Option α) :
    TimerManager α × UInt64 :=
  let t : Timer α := ⟨tm.nextId, now + delayMs * 1000000, callback, false⟩
  ({ nextId := tm.nextId + 1, heap := pushHeap t tm.heap }, t.id)

/-- `TimerManager::Cancel`: the first timer with this id is marked. -/
def cancel (tm : TimerManager α) (timerId : UInt64) : TimerManager α :=
  { tm with heap := go tm.heap }
where
  go : List (Timer α) → List (Timer α)
    | [] => []
    | t :: ts =>
      if t.id = timerId then { t with cancelled := true, callback := none } :: ts else t :: go ts

/-- `TimerManager::CleanCancelled`. -/
def cleanCancelled (tm : TimerManager α) : TimerManager α :=
  { tm with heap := tm.heap.dropWhile (·.cancelled) }

/-- The head of `Tick`'s loop: the timer at the top of the heap, taken off if its time has come. -/
def popDue (tm : TimerManager α) (now : ℤ) : Option (Timer α × TimerManager α) :=
  match tm.heap with
  | [] => none
  | t :: ts => if t.deadline ≤ now then some (t, { tm with heap := ts }) else none

end TimerManager

end TinRpc
