import TinRpc.Lib.WorkQueue

/-!
# The thread pool

`ThreadPool` of `src/thread_pool.cpp`: the queue `tasks_` with `mutex_`, `cv_` and `stop_`, served
by the threads `workers_`. `num_workers` is any number; by default it is what
`std::thread::hardware_concurrency()` returns, which is zero where that is not known.
-/

namespace TinRpc.Rpc

/-- How a task ends. -/
inductive Outcome
  | returned
  | threw
  deriving DecidableEq, Repr

abbrev ThreadPool (numWorkers : ℕ) (Task : Type) := WorkQueue (Fin numWorkers) Task

namespace ThreadPool

variable {numWorkers : ℕ} {Task : Type}

/-- `ThreadPool::ThreadPool`. -/
def create (numWorkers : ℕ) (Task : Type) : ThreadPool numWorkers Task := {}

inductive Event (numWorkers : ℕ) (Task : Type)
  /-- `Enqueue`, as far as it holds the lock. -/
  | enqueue (task : Task)
  /-- `cv_.notify_one()` of a call of `Enqueue`. -/
  | notifyOne (woken : Option (Fin numWorkers))
  /-- `Shutdown`, as far as it holds the lock. -/
  | shutdown
  /-- `cv_.notify_all()`. -/
  | notifyAll
  /-- `Shutdown` has joined the workers and returns. -/
  | join
  /-- `WorkerLoop` has the lock: it evaluates the predicate of the wait, and goes on or waits. -/
  | workerLoop (i : Fin numWorkers)
  /-- `task()` ends. -/
  | task (i : Fin numWorkers) (outcome : Outcome)
  /-- A wait ends that was not notified. -/
  | wakeup (i : Fin numWorkers)

/-- What an event is for the queue. An exception of a task is caught, and the worker goes on. -/
def Event.move : Event numWorkers Task → WorkQueue.Move (Fin numWorkers) Task
  | .enqueue t => .post t
  | .notifyOne woken => .notifyOne woken
  | .shutdown => .close
  | .notifyAll => .notifyAll
  | .join => .join
  | .workerLoop i => .iterate i
  | .task i .returned => .finish i
  | .task i .threw => .finish i
  | .wakeup i => .wake i

def step (s : ThreadPool numWorkers Task) (e : Event numWorkers Task) :
    Option (ThreadPool numWorkers Task) :=
  WorkQueue.step s e.move

end ThreadPool

end TinRpc.Rpc
