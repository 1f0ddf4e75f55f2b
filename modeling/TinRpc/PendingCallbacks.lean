import Mathlib.Data.List.Basic

/-!
# Callbacks for the event loop

What `EventLoop` of `src/event_loop.cpp` does about callbacks that other threads pass to
`RunInLoop`: `pending_callbacks_`, the eventfd `wakeup_fd_`, which is watched level-triggered, and
the part of `Run` that empties them. A section that holds the lock is one step. Of the eventfd it
matters whether its counter is zero.
-/

namespace TinRpc.Rpc

/-- Where `Run` is. -/
inductive LoopPhase (Fn : Type)
  /-- Not called, or returned. -/
  | idle
  /-- At `while (running_)`. -/
  | checking
  /-- In `epoll_wait`. -/
  | polling
  /-- At `eventfd_read`. -/
  | reading
  /-- At `callbacks.swap(pending_callbacks_)`. -/
  | swapping
  /-- In the loop over `callbacks`, with those left. -/
  | calling (callbacks : List Fn)

/-- The callbacks that `Run` has taken and not called. -/
def LoopPhase.batch {Fn : Type} : LoopPhase Fn → List Fn
  | .calling callbacks => callbacks
  | _ => []

/-- What an `EventLoop` has for callbacks that come from other threads. -/
structure PendingCallbacks (Fn : Type) where
  /-- `pending_callbacks_`. -/
  pending : List Fn := []
  /-- There is something to read from `wakeup_fd_`. -/
  signalled : Bool := false
  /-- The calls that are still to write to `wakeup_fd_`. -/
  writers : ℕ := 0
  running : Bool := false
  phase : LoopPhase Fn := .idle
  /-- The callbacks passed to `RunInLoop` so far, and those called. -/
  posted : List Fn := []
  called : List Fn := []

namespace PendingCallbacks

variable {Fn : Type}

inductive Event (Fn : Type)
  /-- `RunInLoop`, as far as it holds the lock. -/
  | runInLoop (fn : Fn)
  /-- `eventfd_write`, of `RunInLoop` or `Stop`. -/
  | write
  /-- `EventLoop::Stop`, before it writes. -/
  | stop
  /-- `Run` is called. -/
  | run
  | check
  /-- `epoll_wait` returns, with `wakeup_fd_` among the events or not. -/
  | poll (wakeup : Bool)
  /-- `epoll_wait` fails. -/
  | fail
  | read
  | swap
  /-- The next callback is called, or there is none left. -/
  | call

def step (l : PendingCallbacks Fn) : Event Fn → Option (PendingCallbacks Fn)
  | .runInLoop fn => some
      { l with pending := l.pending ++ [fn], writers := l.writers + 1, posted := l.posted ++ [fn] }
  | .write =>
    if 0 < l.writers then some { l with writers := l.writers - 1, signalled := true } else none
  | .stop => some { l with running := false, writers := l.writers + 1 }
  | .run =>
    match l.phase with
    | .idle => some { l with running := true, phase := .checking }
    | _ => none
  | .check =>
    match l.phase with
    | .checking => some { l with phase := if l.running then .polling else .idle }
    | _ => none
  | .poll wakeup =>
    match l.phase with
    | .polling =>
      if wakeup then if l.signalled then some { l with phase := .reading } else none
      else some { l with phase := .checking }
    | _ => none
  | .fail =>
    match l.phase with
    | .polling => some { l with phase := .idle }
    | _ => none
  | .read =>
    match l.phase with
    | .reading => some { l with signalled := false, phase := .swapping }
    | _ => none
  | .swap =>
    match l.phase with
    | .swapping => some { l with pending := [], phase := .calling l.pending }
    | _ => none
  | .call =>
    match l.phase with
    | .calling [] => some { l with phase := .checking }
    | .calling (fn :: rest) => some { l with called := l.called ++ [fn], phase := .calling rest }
    | _ => none

end PendingCallbacks

end TinRpc.Rpc
