import TinRpc.Lib.WorkQueue
import TinRpc.PendingCallbacks

/-!
# The database worker

`DbWorker` of `src/game/db_worker.cpp`, as it is after `Start`: one thread that takes tasks from
`q_`, and the loop that its tasks pass callbacks to. A section that holds a lock is one step.
-/

namespace TinRpc

/-- `DbWorker` with its loop. A callback comes with the number of the task that passed it on. -/
structure DbWorker (Task Fn : Type) where
  /-- `q_`, `mu_`, `cv_`, `stop_` and `thr_`. -/
  thread : WorkQueue Unit Task := {}
  loop : Rpc.PendingCallbacks (ℕ × Fn) := {}
  /-- An exception has left `WorkerLoop`. -/
  terminated : Bool := false

namespace DbWorker

variable {Task Fn : Type}

/-- After the constructor and `Start`. -/
def start : DbWorker Task Fn := {}

inductive Event (Task Fn : Type)
  /-- `Post`, as far as it holds the lock. -/
  | post (task : Task)
  /-- `cv_.notify_one()` of a call of `Post`. -/
  | notifyOne (woken : Option Unit)
  /-- `Stop`, as far as it holds the lock. -/
  | stop
  /-- `cv_.notify_all()`. -/
  | notifyAll
  /-- `thr_.join()` returns, and `Stop`. -/
  | join
  /-- `WorkerLoop` has the lock. -/
  | workerLoop
  /-- `task()` calls `PostToLoop`. -/
  | postToLoop (fn : Fn)
  | taskReturns
  | taskThrows
  /-- A wait ends that was not notified. -/
  | wakeup
  /-- What happens to the loop; only tasks call its `RunInLoop`. -/
  | loop (e : Rpc.PendingCallbacks.Event (ℕ × Fn))

/-- What an event is for the thread and its queue. -/
def Event.move : Event Task Fn → Option (WorkQueue.Move Unit Task)
  | .post t => some (.post t)
  | .notifyOne woken => some (.notifyOne woken)
  | .stop => some .close
  | .notifyAll => some .notifyAll
  | .join => some .join
  | .workerLoop => some (.iterate ())
  | .taskReturns => some (.finish ())
  | .wakeup => some (.wake ())
  | .postToLoop _ => none
  | .taskThrows => none
  | .loop _ => none

/-- What the task that runs does but return, and what happens to the loop. -/
def taskOrLoop (d : DbWorker Task Fn) : Event Task Fn → Option (DbWorker Task Fn)
  | .postToLoop fn =>
    if (d.thread.phase ()).task.isSome then
      (d.loop.step (.runInLoop (d.thread.started.length, fn))).map fun loop => { d with loop }
    else none
  | .taskThrows =>
    if (d.thread.phase ()).task.isSome then some { d with terminated := true } else none
  | .loop (.runInLoop _) => none
  | .loop e => (d.loop.step e).map fun loop => { d with loop }
  | _ => none

def step (d : DbWorker Task Fn) (e : Event Task Fn) : Option (DbWorker Task Fn) :=
  if d.terminated then none
  else
    match e.move with
    | some m => (d.thread.step m).map fun thread => { d with thread }
    | none => d.taskOrLoop e

end DbWorker

end TinRpc
