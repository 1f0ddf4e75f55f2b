import TinRpc.DbWorker
import TinRpc.Lib.Draining
import TinRpc.Proofs.PendingCallbacks

/-!
# The database worker delivers

The one thread takes the tasks in the order they were accepted and ends each before it takes the
next. So the callbacks of an earlier task are passed on before those of a later one, and the loop
calls them in that order.
-/

namespace TinRpc.DbWorker

open Transition
open Rpc (PendingCallbacks)

variable {Task Fn : Type} {d d' : DbWorker Task Fn} {e : Event Task Fn}

/-- What an event is for the loop. -/
def Event.forLoop (d : DbWorker Task Fn) :
    Event Task Fn → Option (PendingCallbacks.Event (ℕ × Fn))
  | .postToLoop fn => some (.runInLoop (d.thread.started.length, fn))
  | .loop e => some e
  | _ => none

theorem step_cases (he : d.step e = some d') :
    (∃ m thread, e.move = some m ∧ d.thread.step m = some thread ∧ d' = { d with thread }) ∨
    (∃ fn loop, e = .postToLoop fn ∧
      d.loop.step (.runInLoop (d.thread.started.length, fn)) = some loop ∧
      d' = { d with loop }) ∨
    (∃ e' loop, e = .loop e' ∧ (∀ fn, e' ≠ .runInLoop fn) ∧ d.loop.step e' = some loop ∧
      d' = { d with loop }) ∨
    (e = .taskThrows ∧ d' = { d with terminated := true }) := by
  unfold step at he
  split_ifs at he
  rcases hm : e.move with _ | m
  · simp only [hm] at he
    cases e with
    | postToLoop fn =>
      obtain ⟨-, he⟩ := Option.ite_none_right_eq_some.1 he
      obtain ⟨loop, hloop, rfl⟩ := Option.map_eq_some_iff.1 he
      exact .inr (.inl ⟨fn, loop, rfl, hloop, rfl⟩)
    | taskThrows =>
      obtain ⟨-, he⟩ := Option.ite_none_right_eq_some.1 he
      exact .inr (.inr (.inr ⟨rfl, (Option.some.inj he).symm⟩))
    | loop e' =>
      have hother : ∀ fn, e' ≠ .runInLoop fn := by
        rintro fn rfl
        cases he
      have hd' : (d.loop.step e').map (fun loop => { d with loop }) = some d' := by
        cases e' <;> first | exact he | exact absurd rfl (hother _)
      obtain ⟨loop, hloop, rfl⟩ := Option.map_eq_some_iff.1 hd'
      exact .inr (.inr (.inl ⟨e', loop, rfl, hother, hloop, rfl⟩))
    | _ => cases hm
  · simp only [hm] at he
    obtain ⟨thread, hthread, rfl⟩ := Option.map_eq_some_iff.1 he
    exact .inl ⟨m, thread, rfl, hthread, rfl⟩

theorem forLoop_eq_none {m : WorkQueue.Move Unit Task} (hm : e.move = some m) :
    e.forLoop d = none := by
  cases e <;> first | rfl | cases hm

theorem projects_thread :
    Projects (@step Task Fn) WorkQueue.step thread fun _ e => e.move := by
  intro d e d' he
  rcases step_cases he with ⟨m, thread, hm, hthread, rfl⟩ | ⟨fn, loop, rfl, -, rfl⟩ |
    ⟨e', loop, rfl, -, -, rfl⟩ | ⟨rfl, rfl⟩
  · simp only [hm]
    exact hthread
  · rfl
  · rfl
  · rfl

theorem projects_loop :
    Projects (@step Task Fn) PendingCallbacks.step loop fun d e => e.forLoop d := by
  intro d e d' he
  rcases step_cases he with ⟨m, thread, hm, -, rfl⟩ | ⟨fn, loop, rfl, hloop, rfl⟩ |
    ⟨e', loop, rfl, -, hloop, rfl⟩ | ⟨rfl, rfl⟩
  · simp only [forLoop_eq_none hm]
    rfl
  · exact hloop
  · exact hloop
  · rfl

/-- A course of the worker as one of its thread, and as one of the loop. -/
def threadCourse (r : Course (@step Task Fn)) :
    Course (WorkQueue.step (W := Unit) (T := Task)) :=
  r.map thread (fun _ e => e.move) projects_thread

def loopCourse (r : Course (@step Task Fn)) :
    Course (@PendingCallbacks.step (ℕ × Fn)) :=
  r.map loop (fun d e => e.forLoop d) projects_loop

/-- Callbacks are passed on in the order of the tasks they come from. -/
structure Tagged (d : DbWorker Task Fn) : Prop where
  sorted : (d.loop.posted.map Prod.fst).Pairwise (· ≤ ·)
  le : ∀ n ∈ d.loop.posted.map Prod.fst, n ≤ d.thread.started.length

theorem Tagged.step (h : d.Tagged) (he : d.step e = some d') : d'.Tagged := by
  rcases step_cases he with ⟨m, thread, -, hthread, rfl⟩ | ⟨fn, loop, -, hloop, rfl⟩ |
    ⟨e', loop, -, hother, hloop, rfl⟩ | ⟨-, rfl⟩
  · have hmore := (WorkQueue.logs_step hthread).2.1.length_le
    exact ⟨h.sorted, fun n hn => (h.le n hn).trans hmore⟩
  · obtain rfl := Option.some.inj hloop
    have hposted : (d.loop.posted ++ [(d.thread.started.length, fn)]).map Prod.fst =
        d.loop.posted.map Prod.fst ++ [d.thread.started.length] := by
      rw [List.map_append]
      rfl
    refine ⟨?_, fun n hn => ?_⟩
    · simp only [hposted]
      refine List.pairwise_append.2 ⟨h.sorted, List.pairwise_singleton _ _, fun n hn m hm => ?_⟩
      rw [List.mem_singleton.1 hm]
      exact h.le n hn
    · simp only [hposted, List.mem_append, List.mem_singleton] at hn
      rcases hn with hn | rfl
      · exact h.le n hn
      · exact le_rfl
  · have hposted : loop.posted = d.loop.posted := by
      rcases PendingCallbacks.step_cases hloop with ⟨fn, h, -⟩ | ⟨-, -, rfl⟩ | ⟨-, -, rfl⟩ |
        ⟨_, _, -, -, rfl⟩ | hquiet
      · exact absurd h (hother fn)
      · rfl
      · rfl
      · rfl
      · exact hquiet.posted
    exact ⟨by rw [hposted]; exact h.sorted, by rw [hposted]; exact h.le⟩
  · exact ⟨h.sorted, h.le⟩

/-- What was accepted is executed and what was passed on is called, once and in order. -/
structure Delivered (d : DbWorker Task Fn) : Prop where
  /-- The tasks that ended, the one that runs and those that wait. -/
  executed : d.thread.finished ++ (d.thread.phase ()).task.toList ++ d.thread.queue =
    d.thread.accepted
  /-- What is posted after `Stop` is not accepted. -/
  refuses : d.thread.stop = true → ∀ d', Reach step anyEvent d d' →
    d'.thread.accepted = d.thread.accepted
  /-- `Stop` returns when all tasks have ended. -/
  returned : d.thread.closing = .joined → d.thread.finished = d.thread.accepted
  /-- The callbacks that were called, those that `Run` has taken and those that are pending. -/
  callbacks : d.loop.called ++ d.loop.phase.batch ++ d.loop.pending = d.loop.posted
  /-- Callbacks are called in the order of the tasks that passed them on. -/
  sorted : (d.loop.called.map Prod.fst).Pairwise (· ≤ ·)
  /-- The task that runs, which passes callbacks on, is the one its callbacks are numbered by. -/
  numbered : ∀ t, d.thread.phase () = .running t →
    d.thread.accepted[d.thread.started.length - 1]? = some t

theorem delivered (h : Reach step anyEvent start d) : Delivered d := by
  have hthread : Reach WorkQueue.step anyEvent {} d.thread := h.map projects_thread
  have hsound := WorkQueue.sound_reach hthread
  have hsingle := WorkQueue.single_reach hthread
  have hloop := PendingCallbacks.sound_reach (h.map projects_loop)
  have htagged : d.Tagged :=
    h.invariant ⟨List.Pairwise.nil, nofun⟩ fun _ _ _ hs _ he => hs.step he
  have hexecuted : d.thread.finished ++ (d.thread.phase ()).task.toList ++ d.thread.queue =
      d.thread.accepted := by
    rw [hsingle]
    exact hsound.order
  refine ⟨hexecuted, fun hstop d' h' => WorkQueue.accepted_reach (h'.map projects_thread) hstop,
    fun hc => ?_, hloop.order, ?_, fun t ht => ?_⟩
  · rw [hsound.joined hc (), (hsound.drained hc).1] at hexecuted
    exact (List.append_nil _).symm.trans ((List.append_nil _).symm.trans hexecuted)
  · have hsorted := htagged.sorted
    rw [← hloop.order, List.append_assoc, List.map_append] at hsorted
    exact (List.pairwise_append.1 hsorted).1
  · rw [ht] at hsingle
    change d.thread.finished ++ [t] = _ at hsingle
    rw [← hsound.order, ← hsingle]
    simp

/-- What the worker does as time goes on: every task accepted ends, and `Stop` returns; if the loop
is served too, every callback is called. -/
structure Delivers (r : Course (@step Task Fn)) : Prop where
  executes : ∀ n, ∃ m, n ≤ m ∧ (r.state n).thread.accepted <+: (r.state m).thread.finished
  returns : ∀ n, (r.state n).thread.stop = true →
    ∃ m, n ≤ m ∧ (r.state m).thread.closing = .joined
  calls : PendingCallbacks.Served (loopCourse r) →
    ∀ n, ∃ m, n ≤ m ∧ (r.state n).loop.posted <+: (r.state m).loop.called

theorem delivers {r : Course (@step Task Fn)} (h₀ : r.state 0 = start)
    (hr : WorkQueue.Attended (threadCourse r)) : Delivers r := by
  have hthread₀ : (threadCourse r).state 0 = {} := congrArg thread h₀
  have hloop₀ : (loopCourse r).state 0 = {} := congrArg loop h₀
  have hsingle : ∀ n, ((threadCourse r).state n).finished ++
      (((threadCourse r).state n).phase ()).task.toList = ((threadCourse r).state n).started :=
    fun n => WorkQueue.single_reach (hthread₀ ▸ (threadCourse r).reach n)
  refine ⟨fun n => ?_, fun n hstop => hr.returns hthread₀ hstop,
    fun hserved n => hserved.all_called hloop₀ n⟩
  obtain ⟨m, hnm, hprefix⟩ := hr.all_taken hthread₀ n
  rcases hp : ((threadCourse r).state m).phase () with _ | _ | t | _
  case running =>
    obtain ⟨k, hmk, hrunning, hevent⟩ := hr.ends hp
    obtain ⟨t', ht', hfinish⟩ := WorkQueue.step_finish.1 (WorkQueue.step_event hevent)
    rw [hrunning] at ht'
    obtain rfl := Phase.running.inj ht'
    have hfinished : ((threadCourse r).state (k + 1)).finished =
        ((threadCourse r).state k).started := by
      rw [← hfinish, ← hsingle k, hrunning]
      rfl
    refine ⟨k + 1, by omega, ?_⟩
    change _ <+: ((threadCourse r).state (k + 1)).finished
    rw [hfinished]
    exact hprefix.trans (WorkQueue.started_mono hmk)
  all_goals
    have hall := hsingle m
    rw [hp] at hall
    change _ ++ [] = _ at hall
    rw [List.append_nil] at hall
    exact ⟨m, hnm, hall ▸ hprefix⟩

/-- In every run the tasks accepted end once each, in order, and before `Stop` returns, and their
callbacks are called in order. In a run that schedules the threads they all end, and `Stop`
returns. -/
theorem tasks_delivered :
    (∀ d : DbWorker Task Fn, Reach step anyEvent start d → Delivered d) ∧
      ∀ r : Course (@step Task Fn), r.state 0 = start →
        WorkQueue.Attended (threadCourse r) → Delivers r :=
  ⟨fun _ h => delivered h, fun _ h₀ hr => delivers h₀ hr⟩

/-- Two tasks, of which the first passes callback 10 on, a call of `Stop`, and a task too late. -/
def twoTasks : List (Event ℕ ℕ) :=
  [.post 1, .workerLoop, .postToLoop 10, .post 2, .taskReturns, .workerLoop, .loop .write,
    .loop .run, .loop .check, .loop (.poll true), .loop .read, .loop .swap, .loop .call,
    .taskReturns, .workerLoop, .notifyOne (some ()), .notifyOne none, .stop, .post 3, .notifyAll,
    .workerLoop, .join]

theorem tasks_delivered_two : ∃ (d : DbWorker ℕ ℕ) (r : Course (@step ℕ ℕ)), Delivered d ∧
    d.thread.finished = [1, 2] ∧ d.thread.refused = [3] ∧ d.loop.called = [(1, 10)] ∧
    r.state 0 = start ∧ r.state twoTasks.length = d ∧ Delivers r ∧
    PendingCallbacks.Served (loopCourse r) := by
  have hrun : (twoTasks.foldlM step start).map (fun d =>
      (decide (d.thread.finished = [1, 2] ∧ d.thread.refused = [3] ∧ d.loop.called = [(1, 10)]),
        decide (d.thread.closing = .joined ∧ d.thread.phase () = .exited ∧ d.thread.notices = 0),
        decide (d.loop.writers = 0 ∧ d.loop.signalled = false ∧ (d.loop.step .swap).isNone ∧
          d.loop.phase.batch = []))) = some (true, true, true) := by decide +kernel
  obtain ⟨d, hd, hstate⟩ := Option.map_eq_some_iff.1 hrun
  simp only [Prod.mk.injEq, decide_eq_true_eq] at hstate
  obtain ⟨⟨hfinished, hrefused, hcalled⟩, ⟨hclosing, hphase, hnotices⟩, hwriters, hsignalled, hswap,
    hbatch⟩ := hstate
  have hrests : ∀ m, twoTasks.length ≤ m → (Course.ofList twoTasks hd).state m = d := fun m hm =>
    Course.ofList_rests hd hm
  have hthread : ∀ m, twoTasks.length ≤ m →
      (threadCourse (Course.ofList twoTasks hd)).state m = d.thread := fun m hm =>
    congrArg thread (hrests m hm)
  have hloop : ∀ m, twoTasks.length ≤ m →
      (loopCourse (Course.ofList twoTasks hd)).state m = d.loop := fun m hm =>
    congrArg loop (hrests m hm)
  have hattended : WorkQueue.Attended (threadCourse (Course.ofList twoTasks hd)) := {
    worker := fun i => Course.fair_of_rest hthread fun h => h.2 hphase
    notifyOne := Course.fair_of_rest hthread (by omega)
    notifyAll := Course.fair_of_rest hthread (by rw [hclosing]; decide)
    join := Course.fair_of_rest hthread (by rw [hclosing]; simp) }
  have hserved : PendingCallbacks.Served (loopCourse (Course.ofList twoTasks hd)) := {
    write := Course.fair_of_rest hloop (by omega)
    read := Course.fair_of_rest hloop (by rw [hsignalled]; decide)
    swap := Course.fair_of_rest hloop fun h => by
      unfold PendingCallbacks.step at hswap
      rw [h] at hswap
      cases hswap
    call := Course.fair_of_rest hloop (fun h => h hbatch) }
  have hreach : Reach step anyEvent start d := hrests _ le_rfl ▸ (Course.ofList twoTasks hd).reach _
  exact ⟨d, Course.ofList twoTasks hd, tasks_delivered.1 d hreach, hfinished, hrefused, hcalled,
    rfl, hrests _ le_rfl, tasks_delivered.2 _ rfl hattended, hserved⟩

end TinRpc.DbWorker
