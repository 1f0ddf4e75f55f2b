import TinRpc.Lib.Fairness
import Mathlib.Algebra.BigOperators.Group.Finset.Basic
import Mathlib.Data.Fintype.Basic
import Mathlib.Data.Multiset.AddSub

/-!
# A queue of tasks served by workers

A monitor: a queue of tasks and a flag under one lock, workers that sleep on a condition variable
while the queue is empty, and one call that closes the queue, wakes the workers and waits until
they are gone. What is done while the lock is held is one move, and so is each notification, which
comes after the lock is released. A sleeping worker may also wake by itself.
-/

/-- Where a worker is in its loop. -/
inductive Phase (T : Type*)
  | ready
  | waiting
  | running (task : T)
  | exited
  deriving Repr

/-- How far the call that closes the queue has come. -/
inductive Closing
  | opened
  | closed
  | notified
  | joined
  deriving DecidableEq, Repr

structure WorkQueue (W T : Type*) where
  queue : List T := []
  closing : Closing := .opened
  phase : W → Phase T := fun _ => .ready
  /-- The notifications of one worker that are still to come. -/
  notices : ℕ := 0
  /-- The tasks posted so far that went to the queue, and those that did not. -/
  accepted : List T := []
  refused : List T := []
  /-- The tasks taken from the queue so far, and those that have ended. -/
  started : List T := []
  finished : List T := []

namespace Phase

variable {T : Type*}

instance (p : Phase T) : Decidable (p = .waiting) :=
  match p with
  | .waiting => .isTrue rfl
  | .ready => .isFalse nofun
  | .running _ => .isFalse nofun
  | .exited => .isFalse nofun

instance (p : Phase T) : Decidable (p = .ready) :=
  match p with
  | .ready => .isTrue rfl
  | .waiting => .isFalse nofun
  | .running _ => .isFalse nofun
  | .exited => .isFalse nofun

instance (p : Phase T) : Decidable (p = .exited) :=
  match p with
  | .exited => .isTrue rfl
  | .ready => .isFalse nofun
  | .waiting => .isFalse nofun
  | .running _ => .isFalse nofun

/-- The worker has something to do: it is about to take the lock, or runs a task. -/
def Active (p : Phase T) : Prop := p ≠ .waiting ∧ p ≠ .exited

theorem active_ready : (ready : Phase T).Active := ⟨nofun, nofun⟩

theorem active_running (t : T) : (running t).Active := ⟨nofun, nofun⟩

def task : Phase T → Option T
  | .running t => some t
  | _ => none

/-- The task of a phase, counted. -/
def held : Phase T → Multiset T
  | .running t => {t}
  | _ => 0

end Phase

namespace WorkQueue

variable {W T : Type*}

/-- The flag. -/
def stop (s : WorkQueue W T) : Bool := s.closing ≠ .opened

def post (s : WorkQueue W T) (t : T) : WorkQueue W T :=
  if s.stop then { s with refused := s.refused ++ [t] }
  else
    { s with
      queue := s.queue ++ [t], notices := s.notices + 1, accepted := s.accepted ++ [t] }

def wakeAll (s : WorkQueue W T) : WorkQueue W T :=
  { s with phase := fun i => if s.phase i = .waiting then .ready else s.phase i }

variable [DecidableEq W]

def setPhase (s : WorkQueue W T) (i : W) (p : Phase T) : WorkQueue W T :=
  { s with phase := Function.update s.phase i p }

def take (s : WorkQueue W T) (i : W) (t : T) (ts : List T) : WorkQueue W T :=
  { s.setPhase i (.running t) with queue := ts, started := s.started ++ [t] }

/-- A worker with the lock: it takes a task, or sleeps, or leaves. -/
def iterate (s : WorkQueue W T) (i : W) : WorkQueue W T :=
  match s.queue with
  | [] => s.setPhase i (if s.stop then .exited else .waiting)
  | t :: ts => s.take i t ts

def finish (s : WorkQueue W T) (i : W) (t : T) : WorkQueue W T :=
  { s.setPhase i .ready with finished := s.finished ++ [t] }

inductive Move (W T : Type*)
  | post (t : T)
  /-- A notification wakes a worker, if one sleeps. -/
  | notifyOne (woken : Option W)
  | close
  | notifyAll
  | join
  | iterate (i : W)
  /-- The task a worker runs ends. -/
  | finish (i : W)
  /-- A worker wakes that was not notified. -/
  | wake (i : W)

variable [Fintype W]

def step (s : WorkQueue W T) : Move W T → Option (WorkQueue W T)
  | .post t => some (s.post t)
  | .notifyOne (some i) =>
    if 0 < s.notices ∧ s.phase i = .waiting then
      some { s.setPhase i .ready with notices := s.notices - 1 }
    else none
  | .notifyOne none =>
    if 0 < s.notices ∧ ∀ i, s.phase i ≠ .waiting then some { s with notices := s.notices - 1 }
    else none
  | .close => if s.closing = .opened then some { s with closing := .closed } else none
  | .notifyAll =>
    if s.closing = .closed then some { s.wakeAll with closing := .notified } else none
  | .join =>
    if s.closing = .notified ∧ ∀ i, s.phase i = .exited then some { s with closing := .joined }
    else none
  | .iterate i => if s.phase i = .ready then some (s.iterate i) else none
  | .finish i => (s.phase i).task.map (s.finish i)
  | .wake i => if s.phase i = .waiting then some (s.setPhase i .ready) else none

/-- The tasks that are being run. -/
def busy (s : WorkQueue W T) : Multiset T := ∑ i, (s.phase i).held

/-- What holds of a queue at any time. -/
structure Sound (s : WorkQueue W T) : Prop where
  /-- Tasks are taken in the order they were accepted. -/
  order : s.started ++ s.queue = s.accepted
  count : (s.started : Multiset T) = (s.finished : Multiset T) + s.busy
  /-- A worker leaves a closed queue that is empty. -/
  exited : ∀ i, s.phase i = .exited → s.stop = true ∧ s.queue = []
  /-- No worker sleeps while there is a task, unless a notification is to come or another worker
  will look. -/
  awake : ∀ i, s.phase i = .waiting → s.queue ≠ [] → 0 < s.notices ∨ ∃ j, (s.phase j).Active
  /-- No worker sleeps once all were notified. -/
  notified : s.closing = .notified ∨ s.closing = .joined → ∀ i, s.phase i ≠ .waiting
  joined : s.closing = .joined → ∀ i, s.phase i = .exited

variable (s : WorkQueue W T)

omit [Fintype W] in
@[simp] theorem setPhase_phase (i j : W) (p : Phase T) :
    (s.setPhase i p).phase j = if j = i then p else s.phase j := by
  simp [setPhase, Function.update_apply]

omit [DecidableEq W] [Fintype W] in
theorem wakeAll_phase (i : W) :
    s.wakeAll.phase i = if s.phase i = .waiting then .ready else s.phase i := rfl

theorem busy_setPhase (i : W) (p : Phase T) :
    (s.setPhase i p).busy + (s.phase i).held = s.busy + p.held := by
  have hsum : ∀ w : WorkQueue W T, w.busy = (w.phase i).held +
      ∑ j ∈ Finset.univ.erase i, (w.phase j).held := fun w =>
    (Finset.add_sum_erase _ _ (Finset.mem_univ i)).symm
  have hothers : ∑ j ∈ Finset.univ.erase i, ((s.setPhase i p).phase j).held =
      ∑ j ∈ Finset.univ.erase i, (s.phase j).held := by
    refine Finset.sum_congr rfl fun j hj => ?_
    rw [setPhase_phase, if_neg (Finset.ne_of_mem_erase hj)]
  rw [hsum (s.setPhase i p), hsum s, hothers, setPhase_phase, if_pos rfl, add_right_comm,
    add_comm p.held, add_right_comm]

omit [DecidableEq W] in
theorem busy_wakeAll : s.wakeAll.busy = s.busy := by
  refine Finset.sum_congr rfl fun i _ => ?_
  rw [wakeAll_phase]
  split_ifs with h
  · rw [h]
    rfl
  · rfl

variable {s}

theorem busy_take {i : W} {t : T} {ts : List T} (hi : s.phase i = .ready) :
    (s.take i t ts).busy = s.busy + {t} := by
  have hbusy := s.busy_setPhase i (.running t)
  rw [hi] at hbusy
  exact (add_zero _).symm.trans hbusy

theorem busy_finish {i : W} {t : T} (hi : s.phase i = .running t) :
    (s.finish i t).busy + {t} = s.busy := by
  have hbusy := s.busy_setPhase i .ready
  rw [hi] at hbusy
  exact hbusy.trans (add_zero _)

/-- A worker that holds no task goes on without one. -/
theorem busy_idle {i : W} {p : Phase T} (hi : (s.phase i).held = 0) (hp : p.held = 0) :
    (s.setPhase i p).busy = s.busy := by
  simpa [hi, hp] using s.busy_setPhase i p

omit [DecidableEq W] in
/-- Nothing is done yet. -/
theorem Sound.start : Sound ({} : WorkQueue W T) where
  order := rfl
  count := by simp [busy, Phase.held]
  exited i h := nomatch h
  awake i h := nomatch h
  notified h := by rcases h with h | h <;> cases h
  joined h := nomatch h

namespace Sound

omit [DecidableEq W] in
theorem post (h : s.Sound) (t : T) : (s.post t).Sound := by
  unfold WorkQueue.post
  split_ifs with hstop
  · exact ⟨h.order, h.count, h.exited, h.awake, h.notified, h.joined⟩
  · refine ⟨?_, h.count, fun i hi => absurd (h.exited i hi).1 hstop, fun i hi _ => ?_, h.notified,
      h.joined⟩
    · rw [← h.order, List.append_assoc]
    · exact .inl (Nat.succ_pos _)

/-- A worker that has not left becomes active. -/
theorem activate (h : s.Sound) {s' : WorkQueue W T} {i : W} {p : Phase T} (hp : p.Active)
    (hi : s.phase i ≠ .exited) (hphase : s'.phase = (s.setPhase i p).phase)
    (hclosing : s'.closing = s.closing) (hqueue : s.queue = [] → s'.queue = [])
    (horder : s'.started ++ s'.queue = s'.accepted)
    (hcount : (s'.started : Multiset T) = (s'.finished : Multiset T) + s'.busy) : s'.Sound := by
  refine ⟨horder, hcount, fun j hj => ?_, fun j _ _ => .inr ⟨i, ?_⟩, fun hc j => ?_, fun hc => ?_⟩
  · rw [hphase, setPhase_phase] at hj
    split_ifs at hj
    · exact absurd hj hp.2
    · obtain ⟨hstop, hempty⟩ := h.exited j hj
      rw [stop, hclosing]
      exact ⟨hstop, hqueue hempty⟩
  · rw [hphase, setPhase_phase, if_pos rfl]
    exact hp
  · rw [hphase, setPhase_phase]
    split_ifs
    · exact hp.1
    · exact h.notified (hclosing ▸ hc) j
  · exact absurd (h.joined (hclosing ▸ hc) i) hi

theorem wake (h : s.Sound) {i : W} (hi : s.phase i = .waiting) : (s.setPhase i .ready).Sound := by
  refine h.activate (p := .ready) Phase.active_ready (by rw [hi]; exact nofun) rfl rfl id h.order ?_
  rw [busy_idle (by rw [hi]; rfl) rfl]
  exact h.count

theorem take (h : s.Sound) {i : W} {t : T} {ts : List T} (hi : s.phase i = .ready)
    (hqueue : s.queue = t :: ts) : (s.take i t ts).Sound := by
  refine h.activate (p := .running t) (Phase.active_running t) (by rw [hi]; exact nofun) rfl rfl
    (fun hempty => ?_) ?_ ?_
  · rw [hqueue] at hempty
    cases hempty
  · have horder := h.order
    rw [hqueue] at horder
    exact (List.append_assoc _ _ _).trans horder
  · rw [busy_take hi, ← add_assoc]
    change ((s.started ++ [t] : List T) : Multiset T) = _
    rw [← Multiset.coe_add, h.count]
    rfl

theorem finish (h : s.Sound) {i : W} {t : T} (hi : s.phase i = .running t) :
    (s.finish i t).Sound := by
  refine h.activate (p := .ready) Phase.active_ready (by rw [hi]; exact nofun) rfl rfl id h.order ?_
  change _ = ((s.finished ++ [t] : List T) : Multiset T) + _
  rw [← Multiset.coe_add, add_assoc, Multiset.coe_singleton, add_comm ({t} : Multiset T), busy_finish hi]
  exact h.count

/-- A worker finds the queue empty. -/
theorem idle (h : s.Sound) {i : W} (hi : s.phase i = .ready) (hqueue : s.queue = []) :
    (s.setPhase i (if s.stop then .exited else .waiting)).Sound := by
  have hopen : s.closing ≠ .joined := fun hc => absurd (h.joined hc i) (by rw [hi]; exact nofun)
  have hheld : (if s.stop then .exited else .waiting : Phase T).held = 0 := by split_ifs <;> rfl
  refine ⟨h.order, ?_, fun j hj => ?_, fun j _ hne => absurd hqueue hne, fun hc j => ?_,
    fun hc => absurd hc hopen⟩
  · rw [busy_idle (by rw [hi]; rfl) hheld]
    exact h.count
  · rw [setPhase_phase] at hj
    split_ifs at hj with hji hstop
    · exact ⟨hstop, hqueue⟩
    · exact h.exited j hj
  · have hstop : s.stop = true := by
      rcases hc with hc | hc
      · exact decide_eq_true (by rw [show s.closing = _ from hc]; exact nofun)
      · exact absurd hc hopen
    rw [setPhase_phase, if_pos hstop]
    split_ifs
    · exact nofun
    · exact h.notified hc j

theorem iterate (h : s.Sound) {i : W} (hi : s.phase i = .ready) : (s.iterate i).Sound := by
  unfold WorkQueue.iterate
  rcases hqueue : s.queue with _ | ⟨t, ts⟩
  · exact h.idle hi hqueue
  · exact h.take hi hqueue

omit [DecidableEq W] in
/-- A notification is used up, with a worker awake or none to wake. -/
theorem noticed (h : s.Sound) (hawake : ∀ i, s.phase i = .waiting → ∃ j, (s.phase j).Active) :
    Sound { s with notices := s.notices - 1 } :=
  ⟨h.order, h.count, h.exited, fun i hi _ => .inr (hawake i hi), h.notified, h.joined⟩

omit [DecidableEq W] in
theorem close (h : s.Sound) (hc : s.closing = .opened) : Sound { s with closing := .closed } := by
  refine ⟨h.order, h.count, fun i hi => ?_, h.awake, fun hc' => ?_, nofun⟩
  · have hstop := (h.exited i hi).1
    rw [stop, hc] at hstop
    cases hstop
  · rcases hc' with hc' | hc' <;> cases hc'

omit [DecidableEq W] in
theorem notifyAll (h : s.Sound) :
    Sound { s.wakeAll with closing := .notified } := by
  have hphase : ∀ i, s.wakeAll.phase i ≠ .waiting := by
    intro i
    rw [wakeAll_phase]
    split_ifs with hi
    · exact nofun
    · exact hi
  refine ⟨h.order, s.busy_wakeAll ▸ h.count, fun i hi => ⟨rfl, ?_⟩,
    fun i hi => absurd hi (hphase i), fun _ => hphase, nofun⟩
  change s.wakeAll.phase i = .exited at hi
  rw [wakeAll_phase] at hi
  split_ifs at hi
  exact (h.exited i hi).2

omit [DecidableEq W] in
theorem join (h : s.Sound) (hc : s.closing = .notified) (hexited : ∀ i, s.phase i = .exited) :
    Sound { s with closing := .joined } :=
  ⟨h.order, h.count, fun i hi => ⟨rfl, (h.exited i hi).2⟩, h.awake, fun _ => h.notified (.inl hc),
    fun _ => hexited⟩

end Sound

/-! ## Steps -/

variable {s' : WorkQueue W T} {e : Move W T}

theorem step_post {t : T} : s.step (.post t) = some s' ↔ s.post t = s' := Option.some_inj

theorem step_notify_some {i : W} : s.step (.notifyOne (some i)) = some s' ↔
    (0 < s.notices ∧ s.phase i = .waiting) ∧
      { s.setPhase i .ready with notices := s.notices - 1 } = s' := by
  change (if _ then some _ else none) = some s' ↔ _
  rw [Option.ite_none_right_eq_some, Option.some_inj]

theorem step_notify_none : s.step (.notifyOne none) = some s' ↔
    (0 < s.notices ∧ ∀ i, s.phase i ≠ .waiting) ∧ { s with notices := s.notices - 1 } = s' := by
  change (if _ then some _ else none) = some s' ↔ _
  rw [Option.ite_none_right_eq_some, Option.some_inj]

theorem step_close : s.step .close = some s' ↔
    s.closing = .opened ∧ { s with closing := .closed } = s' := by
  change (if _ then some _ else none) = some s' ↔ _
  rw [Option.ite_none_right_eq_some, Option.some_inj]

theorem step_notifyAll : s.step .notifyAll = some s' ↔
    s.closing = .closed ∧ { s.wakeAll with closing := .notified } = s' := by
  change (if _ then some _ else none) = some s' ↔ _
  rw [Option.ite_none_right_eq_some, Option.some_inj]

theorem step_join : s.step .join = some s' ↔
    (s.closing = .notified ∧ ∀ i, s.phase i = .exited) ∧ { s with closing := .joined } = s' := by
  change (if _ then some _ else none) = some s' ↔ _
  rw [Option.ite_none_right_eq_some, Option.some_inj]

theorem step_iterate {i : W} :
    s.step (.iterate i) = some s' ↔ s.phase i = .ready ∧ s.iterate i = s' := by
  change (if _ then some _ else none) = some s' ↔ _
  rw [Option.ite_none_right_eq_some, Option.some_inj]

theorem step_finish {i : W} :
    s.step (.finish i) = some s' ↔ ∃ t, s.phase i = .running t ∧ s.finish i t = s' := by
  change (s.phase i).task.map (s.finish i) = some s' ↔ _
  rw [Option.map_eq_some_iff]
  refine exists_congr fun t => and_congr_left fun _ => ?_
  cases s.phase i <;> simp [Phase.task]

theorem step_wake {i : W} :
    s.step (.wake i) = some s' ↔ s.phase i = .waiting ∧ s.setPhase i .ready = s' := by
  change (if _ then some _ else none) = some s' ↔ _
  rw [Option.ite_none_right_eq_some, Option.some_inj]

theorem Sound.step (h : s.Sound) (he : s.step e = some s') : s'.Sound := by
  cases e with
  | post t => exact step_post.1 he ▸ h.post t
  | notifyOne woken =>
    cases woken with
    | none =>
      obtain ⟨⟨-, hnone⟩, rfl⟩ := step_notify_none.1 he
      exact h.noticed fun i hi => absurd hi (hnone i)
    | some i =>
      obtain ⟨⟨-, hi⟩, rfl⟩ := step_notify_some.1 he
      refine (h.wake hi).noticed fun _ _ => ⟨i, ?_⟩
      rw [setPhase_phase, if_pos rfl]
      exact Phase.active_ready
  | close =>
    obtain ⟨hc, rfl⟩ := step_close.1 he
    exact h.close hc
  | notifyAll =>
    obtain ⟨-, rfl⟩ := step_notifyAll.1 he
    exact h.notifyAll
  | join =>
    obtain ⟨⟨hc, hexited⟩, rfl⟩ := step_join.1 he
    exact h.join hc hexited
  | iterate i =>
    obtain ⟨hi, rfl⟩ := step_iterate.1 he
    exact h.iterate hi
  | finish i =>
    obtain ⟨t, hi, rfl⟩ := step_finish.1 he
    exact h.finish hi
  | wake i =>
    obtain ⟨hi, rfl⟩ := step_wake.1 he
    exact h.wake hi

/-- A step that no task goes through. -/
structure Quiet (s s' : WorkQueue W T) : Prop where
  queue : s'.queue = s.queue
  accepted : s'.accepted = s.accepted
  started : s'.started = s.started
  finished : s'.finished = s.finished
  stop : s.stop = true → s'.stop = true
  phase : ∀ i, s'.phase i = s.phase i ∨ (s.phase i = .waiting ∧ s'.phase i = .ready)

theorem step_cases (he : s.step e = some s') :
    (∃ t, e = .post t ∧ s' = s.post t) ∨
      (∃ i, e = .iterate i ∧ s.phase i = .ready ∧ s' = s.iterate i) ∨
      (∃ i t, e = .finish i ∧ s.phase i = .running t ∧ s' = s.finish i t) ∨ s.Quiet s' := by
  have hwoken : ∀ {i : W}, s.phase i = .waiting → ∀ j,
      (s.setPhase i .ready).phase j = s.phase j ∨
        (s.phase j = .waiting ∧ (s.setPhase i .ready).phase j = .ready) := by
    intro i hi j
    rw [setPhase_phase]
    split_ifs with hji
    · exact .inr ⟨hji ▸ hi, rfl⟩
    · exact .inl rfl
  cases e with
  | post t => exact .inl ⟨t, rfl, (step_post.1 he).symm⟩
  | notifyOne woken =>
    cases woken with
    | none =>
      obtain ⟨-, rfl⟩ := step_notify_none.1 he
      exact .inr (.inr (.inr ⟨rfl, rfl, rfl, rfl, id, fun _ => .inl rfl⟩))
    | some i =>
      obtain ⟨⟨-, hi⟩, rfl⟩ := step_notify_some.1 he
      exact .inr (.inr (.inr ⟨rfl, rfl, rfl, rfl, id, hwoken hi⟩))
  | close =>
    obtain ⟨-, rfl⟩ := step_close.1 he
    exact .inr (.inr (.inr ⟨rfl, rfl, rfl, rfl, fun _ => rfl, fun _ => .inl rfl⟩))
  | notifyAll =>
    obtain ⟨-, rfl⟩ := step_notifyAll.1 he
    refine .inr (.inr (.inr ⟨rfl, rfl, rfl, rfl, fun _ => rfl, fun i => ?_⟩))
    by_cases hi : s.phase i = .waiting
    · exact .inr ⟨hi, (s.wakeAll_phase i).trans (if_pos hi)⟩
    · exact .inl ((s.wakeAll_phase i).trans (if_neg hi))
  | join =>
    obtain ⟨-, rfl⟩ := step_join.1 he
    exact .inr (.inr (.inr ⟨rfl, rfl, rfl, rfl, fun _ => rfl, fun _ => .inl rfl⟩))
  | iterate i =>
    obtain ⟨hi, rfl⟩ := step_iterate.1 he
    exact .inr (.inl ⟨i, rfl, hi, rfl⟩)
  | finish i =>
    obtain ⟨t, hi, rfl⟩ := step_finish.1 he
    exact .inr (.inr (.inl ⟨i, t, rfl, hi, rfl⟩))
  | wake i =>
    obtain ⟨hi, rfl⟩ := step_wake.1 he
    exact .inr (.inr (.inr ⟨rfl, rfl, rfl, rfl, id, hwoken hi⟩))

omit [DecidableEq W] [Fintype W] in
theorem post_phase (t : T) (i : W) : (s.post t).phase i = s.phase i := by
  unfold post
  split_ifs <;> rfl

/-- What a worker does is its own, but for being woken. -/
theorem phase_step (he : s.step e = some s') (i : W) :
    s'.phase i = s.phase i ∨ (s.phase i = .waiting ∧ s'.phase i = .ready) ∨ e = .iterate i ∨
      e = .finish i := by
  rcases step_cases he with ⟨t, -, rfl⟩ | ⟨j, rfl, -, rfl⟩ | ⟨j, t, rfl, -, rfl⟩ | hquiet
  · exact .inl (post_phase t i)
  · by_cases hij : i = j
    · exact .inr (.inr (.inl (by rw [hij])))
    · left
      unfold iterate
      rcases s.queue with _ | ⟨t, ts⟩ <;> exact (s.setPhase_phase j i _).trans (if_neg hij)
  · by_cases hij : i = j
    · exact .inr (.inr (.inr (by rw [hij])))
    · exact .inl ((s.setPhase_phase j i _).trans (if_neg hij))
  · exact (hquiet.phase i).imp id .inl

/-- The logs only grow. -/
theorem logs_step (he : s.step e = some s') :
    s.accepted <+: s'.accepted ∧ s.started <+: s'.started ∧ s.finished <+: s'.finished := by
  rcases step_cases he with ⟨t, -, rfl⟩ | ⟨i, -, -, rfl⟩ | ⟨i, t, -, -, rfl⟩ | hquiet
  · unfold post
    split_ifs
    · exact ⟨List.prefix_rfl, List.prefix_rfl, List.prefix_rfl⟩
    · exact ⟨List.prefix_append _ _, List.prefix_rfl, List.prefix_rfl⟩
  · unfold iterate
    rcases s.queue with _ | ⟨t, ts⟩
    · exact ⟨List.prefix_rfl, List.prefix_rfl, List.prefix_rfl⟩
    · exact ⟨List.prefix_rfl, List.prefix_append _ _, List.prefix_rfl⟩
  · exact ⟨List.prefix_rfl, List.prefix_rfl, List.prefix_append _ _⟩
  · rw [hquiet.accepted, hquiet.started, hquiet.finished]
    exact ⟨List.prefix_rfl, List.prefix_rfl, List.prefix_rfl⟩

/-- A closed queue accepts nothing. -/
theorem stop_step (he : s.step e = some s') (hstop : s.stop = true) :
    s'.stop = true ∧ s'.accepted = s.accepted := by
  rcases step_cases he with ⟨t, -, rfl⟩ | ⟨i, -, -, rfl⟩ | ⟨i, t, -, -, rfl⟩ | hquiet
  · unfold post
    rw [if_pos hstop]
    exact ⟨hstop, rfl⟩
  · unfold iterate
    rcases s.queue with _ | ⟨t, ts⟩ <;> exact ⟨hstop, rfl⟩
  · exact ⟨hstop, rfl⟩
  · exact ⟨hquiet.stop hstop, hquiet.accepted⟩

/-- The closing call goes on by its own moves. -/
theorem closing_step (he : s.step e = some s') : s'.closing = s.closing ∨
    (e = .close ∧ s.closing = .opened) ∨ (e = .notifyAll ∧ s.closing = .closed) ∨
      (e = .join ∧ s.closing = .notified) := by
  cases e with
  | post t =>
    obtain rfl := step_post.1 he
    unfold post
    split_ifs <;> exact .inl rfl
  | notifyOne woken =>
    cases woken with
    | none =>
      obtain ⟨-, rfl⟩ := step_notify_none.1 he
      exact .inl rfl
    | some i =>
      obtain ⟨-, rfl⟩ := step_notify_some.1 he
      exact .inl rfl
  | close => exact .inr (.inl ⟨rfl, (step_close.1 he).1⟩)
  | notifyAll => exact .inr (.inr (.inl ⟨rfl, (step_notifyAll.1 he).1⟩))
  | join => exact .inr (.inr (.inr ⟨rfl, (step_join.1 he).1.1⟩))
  | iterate i =>
    obtain ⟨-, rfl⟩ := step_iterate.1 he
    unfold iterate
    rcases s.queue with _ | ⟨t, ts⟩ <;> exact .inl rfl
  | finish i =>
    obtain ⟨t, -, rfl⟩ := step_finish.1 he
    exact .inl rfl
  | wake i =>
    obtain ⟨-, rfl⟩ := step_wake.1 he
    exact .inl rfl

/-! ## Runs -/

section Runs

open Transition

theorem sound_reach {ok : WorkQueue W T → Move W T → Prop} (h : Reach step ok {} s) : s.Sound :=
  h.invariant .start fun _ _ _ hs _ he => hs.step he

/-- What a closed queue has accepted is all it ever accepts. -/
theorem accepted_reach {ok : WorkQueue W T → Move W T → Prop} (h : Reach step ok s s')
    (hstop : s.stop = true) : s'.accepted = s.accepted := by
  have hinv : s'.stop = true ∧ s'.accepted = s.accepted := by
    refine h.invariant (P := fun s' => s'.stop = true ∧ s'.accepted = s.accepted) ⟨hstop, rfl⟩ ?_
    intro s₁ e s₂ hs₁ _ he
    obtain ⟨hstop₂, haccepted⟩ := stop_step he hs₁.1
    exact ⟨hstop₂, haccepted.trans hs₁.2⟩
  exact hinv.2

omit [DecidableEq W] in
/-- When the closing call returns, every task accepted has ended. -/
theorem Sound.drained [Nonempty W] (h : s.Sound) (hc : s.closing = .joined) :
    s.queue = [] ∧ s.finished.Perm s.accepted := by
  have hexited := h.joined hc
  have hempty : s.queue = [] := (h.exited (Classical.arbitrary W) (hexited _)).2
  have hbusy : s.busy = 0 := Finset.sum_eq_zero fun i _ => by rw [hexited i]; rfl
  refine ⟨hempty, Multiset.coe_eq_coe.1 ?_⟩
  have hcount := h.count
  rw [hbusy, add_zero] at hcount
  rw [← hcount, ← h.order, hempty, List.append_nil]

/-- One worker ends the tasks in the order they were accepted. -/
theorem single_reach {s : WorkQueue Unit T} {ok : WorkQueue Unit T → Move Unit T → Prop}
    (h : Reach step ok {} s) : s.finished ++ (s.phase ()).task.toList = s.started := by
  refine h.invariant (P := fun s => s.finished ++ (s.phase ()).task.toList = s.started) rfl ?_
  intro s e s' hs _ he
  rcases step_cases he with ⟨t, -, rfl⟩ | ⟨i, -, hi, rfl⟩ | ⟨i, t, -, hi, rfl⟩ | hquiet
  · unfold post
    split_ifs <;> exact hs
  · rw [show s.phase () = _ from hi] at hs
    have hfinished : s.finished = s.started := (List.append_nil _).symm.trans hs
    unfold iterate
    rcases s.queue with _ | ⟨t, ts⟩
    · have hnone : ((s.setPhase i (if s.stop then .exited else .waiting)).phase ()).task = none := by
        rw [setPhase_phase, if_pos rfl]
        split_ifs <;> rfl
      simp only [hnone, Option.toList_none, List.append_nil]
      exact hfinished
    · exact congrArg (· ++ [t]) hfinished
  · rw [show s.phase () = _ from hi] at hs
    exact (List.append_nil _).trans hs
  · have htask : (s'.phase ()).task = (s.phase ()).task := by
      rcases hquiet.phase () with hsame | ⟨hw, hr⟩
      · rw [hsame]
      · rw [hw, hr]
        rfl
    rw [hquiet.finished, hquiet.started, htask]
    exact hs

end Runs

end WorkQueue
