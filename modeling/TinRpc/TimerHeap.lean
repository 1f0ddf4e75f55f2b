import TinRpc.Lib.Heap
import TinRpc.TimerManager

/-!
# The timer heap

`TimerManager` of `src/game/timer_manager.cpp` over its vector, with the heap operations of the
standard library a parameter, as a machine. Its user calls `Schedule`, `Cancel` and `Tick`; while
`Tick` runs a callback that may call `Schedule` and `Cancel` as it likes. One step is one call, or
one turn of `Tick`'s loop up to the next callback. A callback is known by the number of the
`Schedule` call that gave it. The clock and the deadlines are `int64_t` nanoseconds, which wrap.
-/

namespace TinRpc

namespace TimerHeap

/-! ## The operations -/

section Operations

variable {α : Type} (std : StdHeap (Timer.deadline (α := α)))

/-- `Schedule` once the deadline is known. -/
def push (tm : TimerManager α) (deadline : ℤ) (callback : Option α) : TimerManager α × UInt64 :=
  let t : Timer α := ⟨tm.nextId, deadline, callback, false⟩
  ({ nextId := tm.nextId + 1, heap := std.pushHeap (tm.heap ++ [t]) }, t.id)

/-- The deadline of a delay, in the nanoseconds of `steady_clock`. -/
def deadline (now delayMs : ℤ) : ℤ := (now + delayMs * 1000000).bmod (2 ^ 64)

/-- `TimerManager::Schedule`. -/
def schedule (tm : TimerManager α) (now delayMs : ℤ) (callback : Option α) :
    TimerManager α × UInt64 :=
  push std tm (deadline now delayMs) callback

/-- The loop of `CleanCancelled`, which takes a timer off the heap in each turn. -/
def cleaned : ℕ → List (Timer α) → List (Timer α)
  | 0, heap => heap
  | _, [] => []
  | n + 1, t :: ts => if t.cancelled then cleaned n (std.popped (t :: ts)) else t :: ts

/-- `TimerManager::CleanCancelled`. -/
def cleanCancelled (tm : TimerManager α) : TimerManager α :=
  { tm with heap := cleaned std tm.heap.length tm.heap }

/-- The head of `Tick`'s loop: the timer at the front is moved out of the heap, which then drops the
place it was in. -/
def popDue (tm : TimerManager α) (now : ℤ) : Option (Timer α × TimerManager α) :=
  match tm.heap with
  | [] => none
  | t :: ts =>
    if t.deadline ≤ now then
      some (t, { tm with heap := std.popped ({ t with callback := none } :: ts) })
    else none

/-- The callback that `Cancel` releases. -/
def released (tm : TimerManager α) (timerId : UInt64) : Option α :=
  (tm.heap.find? fun t => t.id = timerId).bind (·.callback)

end Operations

/-! ## Runs -/

/-- What happened: a timer got its number and its id and was to be due at a time, `Cancel` was
called and released a callback or none, `Tick` read the clock, ran a callback, returned. -/
inductive Entry
  | scheduled (n : ℕ) (id : UInt64) (deadline : ℤ)
  | cancelled (id : UInt64) (hit : Option ℕ)
  | ticking (now : ℤ)
  | fired (n : ℕ)
  | ticked (result : ℕ)
  deriving DecidableEq

/-- A `Tick` underway: the time it read, its count, and whether it is inside a callback. -/
structure Tick where
  now : ℤ
  fired : ℕ
  running : Bool

structure Timers where
  tm : TimerManager ℕ := {}
  tick : Option Tick := none
  /-- The number of `Schedule` calls. -/
  calls : ℕ := 0
  /-- What happened, the last first. -/
  log : List Entry := []

inductive Event
  | schedule (now delayMs : ℤ)
  | cancel (timerId : UInt64)
  | tick (now : ℤ)
  | resume

variable (std : StdHeap (Timer.deadline (α := ℕ)))

/-- The user or a callback has control. -/
def Timers.free (s : Timers) : Bool :=
  match s.tick with
  | none => true
  | some t => t.running

/-- One turn of the loop, after the callback that was running has returned. -/
def resume (s : Timers) (t : Tick) : Timers :=
  let fired := if t.running then t.fired + 1 else t.fired
  match popDue std s.tm t.now with
  | none => { s with tick := none, log := .ticked fired :: s.log }
  | some (timer, tm) => match if timer.cancelled then none else timer.callback with
    | none => { s with tm, tick := some ⟨t.now, fired, false⟩ }
    | some n => { s with tm, tick := some ⟨t.now, fired, true⟩, log := .fired n :: s.log }

def step (s : Timers) : Event → Option Timers
  | .schedule now delayMs =>
    if s.free then
      let (tm, id) := schedule std s.tm now delayMs (some s.calls)
      some { s with
        tm, calls := s.calls + 1
        log := .scheduled s.calls id (now + delayMs * 1000000) :: s.log }
    else none
  | .cancel timerId =>
    if s.free then
      some { s with
        tm := s.tm.cancel timerId
        log := .cancelled timerId (released s.tm timerId) :: s.log }
    else none
  | .tick now => match s.tick with
    | some _ => none
    | none => some { s with
        tm := cleanCancelled std s.tm, tick := some ⟨now, 0, false⟩, log := .ticking now :: s.log }
  | .resume => s.tick.map (resume std s)

end TimerHeap

end TinRpc
