import TinRpc.ThreadPool
import TinRpc.Lib.Draining

/-!
# A thread pool drains if it has a worker

With a worker every task accepted is executed once and `Shutdown` waits for it. Without one no task
is executed, and `Shutdown`, which has no thread to join, returns.
-/

namespace TinRpc.Rpc.ThreadPool

open Transition

variable {numWorkers : ℕ} {Task : Type} {s : ThreadPool numWorkers Task}

theorem projects_move : Projects (@step numWorkers Task) WorkQueue.step id
    fun _ e => some e.move := fun _ _ _ h => h

/-- A course of the pool as one of its queue. -/
def queueCourse (r : Course (@step numWorkers Task)) :
    Course (WorkQueue.step (W := Fin numWorkers) (T := Task)) :=
  r.map id (fun _ e => some e.move) projects_move

/-- What the pool promises at any time. -/
structure Promise (s : ThreadPool numWorkers Task) : Prop where
  /-- A task accepted waits, or is executed, or was executed, once. -/
  once : (s.accepted : Multiset Task) = s.finished + s.busy + s.queue
  /-- What is enqueued after `Shutdown` is not accepted. -/
  refuses : s.stop = true → ∀ s', Reach step anyEvent s s' → s'.accepted = s.accepted
  /-- `Shutdown` returns when all tasks have finished. -/
  returned : s.closing = .joined → s.finished.Perm s.accepted

/-- What the pool does as time goes on: every task accepted is executed, an execution ends, and
`Shutdown` returns. -/
structure Progress (r : Course (@step numWorkers Task)) : Prop where
  executes : ∀ n, ∃ m, n ≤ m ∧ (r.state n).accepted <+: (r.state m).started
  ends : ∀ n i t, (r.state n).phase i = .running t → ∃ m, n ≤ m ∧
    (r.state m).phase i = .running t ∧ ∃ outcome, r.event m = some (.task i outcome)
  returns : ∀ n, (r.state n).stop = true → ∃ m, n ≤ m ∧ (r.state m).closing = .joined

/-- The contract of a pool, for all ways its threads may be scheduled. -/
def Drains (numWorkers : ℕ) (Task : Type) : Prop :=
  (∀ s, Reach step anyEvent (create numWorkers Task) s → s.Promise) ∧
    ∀ r : Course (@step numWorkers Task),
      r.state 0 = create numWorkers Task → WorkQueue.Attended (queueCourse r) → Progress r

theorem sound (h : Reach step anyEvent (create numWorkers Task) s) : s.Sound :=
  WorkQueue.sound_reach (h.map projects_move)

theorem promise [Nonempty (Fin numWorkers)]
    (h : Reach step anyEvent (create numWorkers Task) s) : Promise s := by
  have hsound := sound h
  refine ⟨?_, fun hstop s' h' => WorkQueue.accepted_reach (h'.map projects_move) hstop,
    fun hc => (hsound.drained hc).2⟩
  rw [← hsound.count, ← hsound.order, Multiset.coe_add]

theorem progress [Nonempty (Fin numWorkers)]
    {r : Course (@step numWorkers Task)}
    (h₀ : r.state 0 = create numWorkers Task) (hr : WorkQueue.Attended (queueCourse r)) :
    Progress r := by
  refine ⟨fun n => hr.all_taken h₀ n, fun n i t hi => ?_, fun n hstop => hr.returns h₀ hstop⟩
  obtain ⟨m, hnm, hrunning, hevent⟩ := hr.ends (n := n) (i := i) hi
  refine ⟨m, hnm, hrunning, ?_⟩
  obtain ⟨e, he, hmove⟩ := Option.bind_eq_some_iff.1 hevent
  cases e with
  | task j outcome =>
    have hji : j = i := by cases outcome <;> exact WorkQueue.Move.finish.inj (Option.some.inj hmove)
    exact ⟨outcome, hji ▸ he⟩
  | _ => cases hmove

/-- Without a worker a task is accepted, and `Shutdown` returns before it is executed. -/
theorem undrained (task : Task) : ∃ s, Reach step anyEvent (create 0 Task) s ∧
    s.closing = .joined ∧ s.accepted = [task] ∧ s.finished = [] := by
  let closed : ThreadPool 0 Task := { (create 0 Task).post task with closing := .closed }
  let notified : ThreadPool 0 Task := { closed.wakeAll with closing := .notified }
  refine ⟨{ notified with closing := .joined }, ?_, rfl, rfl, rfl⟩
  have hclosed : Reach step anyEvent (create 0 Task) closed :=
    .next (.one (.enqueue task) trivial rfl) (e := .shutdown) trivial rfl
  have hnotified : Reach step anyEvent (create 0 Task) notified :=
    hclosed.next (e := .notifyAll) trivial rfl
  exact hnotified.next (e := .join) trivial rfl

theorem not_drains_zero (task : Task) : ¬Drains 0 Task := by
  intro h
  obtain ⟨s, hreach, hjoined, haccepted, hfinished⟩ := undrained task
  have hperm := (h.1 s hreach).returned hjoined
  rw [haccepted, hfinished] at hperm
  cases hperm.length_eq

/-- A pool drains exactly if it has a worker. -/
theorem drains_iff [Inhabited Task] : Drains numWorkers Task ↔ 1 ≤ numWorkers := by
  constructor
  · intro h
    rcases Nat.eq_zero_or_pos numWorkers with rfl | hpos
    · exact absurd h (not_drains_zero default)
    · exact hpos
  · intro hpos
    have : Nonempty (Fin numWorkers) := ⟨⟨0, hpos⟩⟩
    exact ⟨fun s hs => promise hs, fun r h₀ hr => progress h₀ hr⟩

/-- A pool of no workers accepts task 7, and `Shutdown` returns without it. -/
theorem not_drains_none : ¬Drains 0 ℕ ∧ ∃ s, Reach step anyEvent (create 0 ℕ) s ∧
    s.closing = .joined ∧ s.accepted = [7] ∧ s.finished = [] :=
  ⟨not_drains_zero 7, undrained 7⟩

end TinRpc.Rpc.ThreadPool
