import TinRpc.FrameSync
import TinRpc.TimerHeap

/-!
# The frame timer

`Start`, `Stop` and `RescheduleTick` of `src/game/frame_sync.cpp` over the timer heap, as a machine.
The room calls the frame manager and drives its `TimerManager`; while a closure of `RescheduleTick`
runs the frame manager's `Tick`, the frame callback has control. One step is one call, or one turn
of the loop of `TimerManager::Tick` up to the frame manager's `Tick`, or what the closure does after
it. Whatever reads the clock is given the time it reads. A timer's callback is the interval it has
captured.
-/

namespace TinRpc.FrameTimer

/-- Where `TimerManager::Tick` is: not running, at the head of its loop, or inside a closure that
has called `FrameSyncManager::Tick`, with the time it read. -/
inductive Phase
  | idle
  | looping (now : ℤ)
  | inside (now intervalMs : ℤ) (callback : Bool)
  deriving DecidableEq

/-- A `Tick` of the frame manager that a timer made, with the manager's flag at that time. -/
structure Entry where
  time : ℤ
  running : Bool
  deriving DecidableEq

structure Loop where
  sync : FrameSyncManager
  timer : TimerManager ℤ := {}
  phase : Phase := .idle
  /-- When the clock was last read. -/
  clock : ℤ
  /-- The ticks that timers made, the last first. -/
  log : List Entry := []

inductive Event
  | start (now : ℤ)
  | stop
  | onPlayerInput (frameNo : UInt32) (playerId : String) (input : List UInt8)
  | tick (now : ℤ)
  | turn (now : ℤ)
  | resume (now : ℤ)

/-- A new frame manager over a new timer manager. -/
def init (intervalMs : ℤ) (maxFrames historySize : ℕ) (frameCallback : Bool) (now : ℤ) : Loop where
  sync := { FrameSyncManager.new maxFrames historySize with
    tickIntervalMs := intervalMs, frameCallback := frameCallback }
  clock := now

variable (std : StdHeap (Timer.deadline (α := ℤ)))

/-- `RescheduleTick`. An `int` of milliseconds takes no clock that runs for less than 292 years
beyond `int64_t` nanoseconds, so the deadline is exact. -/
def rescheduleTick (timer : TimerManager ℤ) (now intervalMs : ℤ) : TimerManager ℤ :=
  (TimerHeap.push std timer (now + intervalMs * 1000000) (some intervalMs)).1

/-- `FrameSyncManager::Start`. -/
def start (s : Loop) (now : ℤ) : Loop :=
  if s.sync.running then s
  else { s with
    sync := { s.sync with running := true }
    timer := rescheduleTick std s.timer now s.sync.tickIntervalMs }

/-- The closure of `RescheduleTick` up to the end of the frame manager's `Tick`. -/
def closure (s : Loop) (now ran intervalMs : ℤ) : Loop :=
  if ¬s.sync.running then s
  else
    let (sync, ticked) := s.sync.tick
    { s with
      sync := sync
      phase := .inside now intervalMs ticked.callback.isSome
      log := ⟨ran, s.sync.running⟩ :: s.log }

/-- A turn of the loop of `TimerManager::Tick`, which has read the time `now`. -/
def turn (s : Loop) (now ran : ℤ) : Loop :=
  match TimerHeap.popDue std s.timer now with
  | none => { s with phase := .idle }
  | some (t, timer) => match if t.cancelled then none else t.callback with
    | none => { s with timer := timer }
    | some intervalMs => closure { s with timer := timer } now ran intervalMs

/-- The room or the frame callback has control. -/
def Loop.free (s : Loop) : Bool :=
  match s.phase with
  | .idle => true
  | .looping _ => false
  | .inside _ _ callback => callback

/-- The clock is read. -/
def Loop.read (s : Loop) (now : ℤ) : Option Loop :=
  if s.clock ≤ now then some { s with clock := now } else none

def step (s : Loop) : Event → Option Loop
  | .start now => if s.free then (s.read now).map fun s => start std s now else none
  | .stop => if s.free then some { s with sync := s.sync.stop } else none
  | .onPlayerInput frameNo playerId input =>
    if s.free then some { s with sync := s.sync.onPlayerInput frameNo playerId input } else none
  | .tick now => match s.phase with
    | .idle => (s.read now).map fun s =>
      { s with timer := TimerHeap.cleanCancelled std s.timer, phase := .looping now }
    | _ => none
  | .turn ran => match s.phase with
    | .looping now => (s.read ran).map fun s => turn std s now ran
    | _ => none
  | .resume ran => match s.phase with
    | .inside now intervalMs _ => (s.read ran).map fun s =>
      { s with timer := rescheduleTick std s.timer ran intervalMs, phase := .looping now }
    | _ => none

end TinRpc.FrameTimer
