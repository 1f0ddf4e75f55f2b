import TinRpc.FrameTimer
import TinRpc.Lib.Reach

/-!
# Chains of ticks

A timer of the frame manager whose closure finds the manager running schedules the next one, so a
chain of ticks goes on for as long as the manager runs, and `Stop` ends it only when its timer comes
off the heap. Where each `Start` waits for that, there is one chain and its ticks are an interval
apart (`one_chain`); a `Start` that does not wait begins a second one.
-/

namespace TinRpc.FrameTimer

open Transition

/-- A closure is under way that will schedule the next timer. -/
def Loop.inside (s : Loop) : Bool :=
  match s.phase with
  | .inside .. => true
  | _ => false

/-- The chains of ticks: the pending timers and the closure under way. -/
def Loop.chains (s : Loop) : ℕ := s.timer.heap.length + if s.inside then 1 else 0

/-- There is at most one chain, the ticks were an interval apart, none was made while stopped. -/
structure Single (s : Loop) : Prop where
  chains : s.chains ≤ 1
  spaced : s.log.IsChain fun e e' => e'.time + s.sync.tickIntervalMs * 1000000 ≤ e.time
  running : ∀ e ∈ s.log, e.running = true

/-- A stopped manager is started when the timers of its last run have come off the heap. -/
def Rested (s : Loop) : Event → Prop
  | .start _ => s.sync.running = true ∨ s.chains = 0
  | _ => True

instance (s : Loop) : ∀ e, Decidable (Rested s e)
  | .start _ => inferInstanceAs (Decidable (_ ∨ _))
  | .stop | .onPlayerInput .. | .tick _ | .turn _ | .resume _ => .isTrue trivial

variable (std : StdHeap (Timer.deadline (α := ℤ)))
variable {s s' : Loop}

theorem rescheduleTick_nil {timer : TimerManager ℤ} (h : timer.heap = []) (now intervalMs : ℤ) :
    (rescheduleTick std timer now intervalMs).heap
      = [⟨timer.nextId, now + intervalMs * 1000000, some intervalMs, false⟩] := by
  show std.pushHeap (timer.heap ++ _) = _
  rw [h]
  exact List.perm_singleton.1 (std.pushHeap_perm _)

theorem popDue_singleton {timer : TimerManager ℤ} {t : Timer ℤ} (h : timer.heap = [t]) (now : ℤ) :
    TimerHeap.popDue std timer now
      = if t.deadline ≤ now then some (t, { timer with heap := [] }) else none := by
  have hpopped : std.popped [{ t with callback := none }] = [] :=
    List.Perm.eq_nil (std.popped_cons (isHeap_of_pairwise (List.pairwise_singleton _ _))).1
  unfold TimerHeap.popDue
  rw [h]
  simp only [hpopped]

theorem cleanCancelled_eq {timer : TimerManager ℤ} (h : ∀ t ∈ timer.heap, t.cancelled = false) :
    TimerHeap.cleanCancelled std timer = timer := by
  unfold TimerHeap.cleanCancelled
  rcases hheap : timer.heap with _ | ⟨t, ts⟩
  · simp only [List.length_nil, TimerHeap.cleaned]
    rw [← hheap]
  · have ht : t.cancelled = false := h t (hheap ▸ List.mem_cons_self)
    unfold TimerHeap.cleaned
    simp only [List.length_cons, ht, Bool.false_eq_true, ↓reduceIte]
    rw [← hheap]

/-- The time the next tick may be made at the earliest. -/
def Loop.Spaced (s : Loop) (time : ℤ) : Prop :=
  ∀ e ∈ s.log.head?, e.time + s.sync.tickIntervalMs * 1000000 ≤ time

structure Inv (s : Loop) : Prop where
  timers : s.timer.heap = [] ∨ ∃ id d, s.timer.heap = [⟨id, d, some s.sync.tickIntervalMs, false⟩]
    ∧ s.inside = false ∧ s.Spaced d
  captured : ∀ now intervalMs callback, s.phase = .inside now intervalMs callback →
    intervalMs = s.sync.tickIntervalMs
  begun : ∀ now, s.phase = .looping now ∨ (∃ i c, s.phase = .inside now i c) → now ≤ s.clock
  last : ∀ e ∈ s.log.head?, e.time ≤ s.clock
  spaced : s.log.IsChain fun e e' => e'.time + s.sync.tickIntervalMs * 1000000 ≤ e.time
  running : ∀ e ∈ s.log, e.running = true

theorem Inv.single (h : Inv s) : Single s := by
  refine ⟨?_, h.spaced, h.running⟩
  unfold Loop.chains
  rcases h.timers with hnil | ⟨id, d, hone, hinside, -⟩
  · rw [hnil]
    split <;> simp
  · rw [hone, hinside]
    simp

/-- The heap is empty where the chains have ended. -/
theorem heap_of_chains (h : s.chains = 0) : s.timer.heap = [] ∧ s.inside = false := by
  unfold Loop.chains at h
  refine ⟨List.eq_nil_of_length_eq_zero (by omega), ?_⟩
  by_contra hinside
  rw [if_pos (by simpa using hinside)] at h
  omega

theorem read_eq_some {now : ℤ} (h : s.read now = some s') :
    s.clock ≤ now ∧ s' = { s with clock := now } := by
  unfold Loop.read at h
  split_ifs at h with hle
  exact ⟨hle, (Option.some.inj h).symm⟩

theorem Inv.read {now : ℤ} (h : Inv s) (hle : s.clock ≤ now) : Inv { s with clock := now } :=
  ⟨h.timers, h.captured, fun t ht => (h.begun t ht).trans hle, fun e he => (h.last e he).trans hle,
    h.spaced, h.running⟩

/-- A timer scheduled now waits a whole interval from the last tick. -/
theorem Inv.spaced_schedule (h : Inv s) :
    s.Spaced (s.clock + s.sync.tickIntervalMs * 1000000) := by
  intro e he
  have := h.last e he
  omega

theorem Inv.start (h : Inv s) (hrest : s.sync.running = true ∨ s.chains = 0) :
    Inv (start std s s.clock) := by
  unfold FrameTimer.start
  split_ifs with hrunning
  · exact h
  obtain ⟨hnil, hinside⟩ := heap_of_chains (hrest.resolve_left hrunning)
  exact ⟨.inr ⟨_, _, rescheduleTick_nil std hnil _ _, hinside, h.spaced_schedule⟩, h.captured,
    h.begun, h.last, h.spaced, h.running⟩

theorem Inv.turn {now : ℤ} (h : Inv s) (hphase : s.phase = .looping now) :
    Inv (turn std s now s.clock) := by
  have hnow := h.begun now (.inl hphase)
  unfold FrameTimer.turn
  rcases h.timers with hnil | ⟨id, d, hone, -, hspaced⟩
  · have hpop : TimerHeap.popDue std s.timer now = none := by
      unfold TimerHeap.popDue
      rw [hnil]
    rw [hpop]
    exact ⟨.inl hnil, by simp, by simp, h.last, h.spaced, h.running⟩
  rw [popDue_singleton std hone]
  split_ifs with hdue
  · simp only [Bool.false_eq_true, ↓reduceIte]
    unfold closure
    split_ifs with hrunning
    · refine ⟨.inl rfl, ?_, ?_, ?_, ?_, ?_⟩
      · rintro _ _ _ heq
        injection heq with _ hinterval
        rw [← hinterval]
        rfl
      · rintro t (heq | ⟨i, c, heq⟩)
        · cases heq
        · injection heq with heq
          exact heq ▸ hnow
      · simp
      · rcases hlog : s.log with _ | ⟨e, log⟩
        · exact .singleton _
        · refine List.isChain_cons_cons.2 ⟨?_, hlog ▸ h.spaced⟩
          have he := hspaced e (by rw [hlog]; rfl)
          exact (he.trans hdue).trans hnow
      · exact List.forall_mem_cons.2 ⟨hrunning, h.running⟩
    · exact ⟨.inl rfl, h.captured, h.begun, h.last, h.spaced, h.running⟩
  · exact ⟨.inr ⟨id, d, hone, rfl, hspaced⟩, by simp, by simp, h.last, h.spaced, h.running⟩

theorem Inv.resume {now intervalMs : ℤ} {callback : Bool} (h : Inv s)
    (hphase : s.phase = .inside now intervalMs callback) :
    Inv { s with
      timer := rescheduleTick std s.timer s.clock intervalMs, phase := .looping now } := by
  obtain rfl := h.captured _ _ _ hphase
  have hnil : s.timer.heap = [] := by
    rcases h.timers with hnil | ⟨_, _, -, hinside, -⟩
    · exact hnil
    · unfold Loop.inside at hinside
      rw [hphase] at hinside
      cases hinside
  refine ⟨.inr ⟨_, _, rescheduleTick_nil std hnil _ _, rfl, h.spaced_schedule⟩, by simp, ?_, h.last,
    h.spaced, h.running⟩
  rintro t (heq | ⟨_, _, heq⟩)
  · injection heq with heq
    exact heq ▸ h.begun now (.inr ⟨_, _, hphase⟩)
  · cases heq

theorem Inv.step {e : Event} (h : Inv s) (hrest : Rested s e) (hs : step std s e = some s') :
    Inv s' := by
  cases e with
  | start now =>
    simp only [FrameTimer.step] at hs
    split_ifs at hs
    obtain ⟨s₁, hread, rfl⟩ := Option.map_eq_some_iff.1 hs
    obtain ⟨hle, rfl⟩ := read_eq_some hread
    exact (h.read hle).start std hrest
  | stop =>
    simp only [FrameTimer.step] at hs
    split_ifs at hs
    obtain rfl := Option.some.inj hs
    exact ⟨h.timers, h.captured, h.begun, h.last, h.spaced, h.running⟩
  | onPlayerInput k p d =>
    simp only [FrameTimer.step] at hs
    split_ifs at hs
    obtain rfl := Option.some.inj hs
    exact ⟨h.timers, h.captured, h.begun, h.last, h.spaced, h.running⟩
  | tick now =>
    simp only [FrameTimer.step] at hs
    split at hs
    · obtain ⟨s₁, hread, rfl⟩ := Option.map_eq_some_iff.1 hs
      obtain ⟨hle, rfl⟩ := read_eq_some hread
      have hclean : TimerHeap.cleanCancelled std s.timer = s.timer := by
        refine cleanCancelled_eq std fun t ht => ?_
        rcases h.timers with hnil | ⟨id, d, hone, -, -⟩
        · rw [hnil] at ht
          cases ht
        · rw [hone, List.mem_singleton] at ht
          rw [ht]
      simp only [hclean]
      refine ⟨?_, by simp, ?_, (h.read hle).last, h.spaced, h.running⟩
      · rcases h.timers with hnil | ⟨id, d, hone, -, hspaced⟩
        · exact .inl hnil
        · exact .inr ⟨id, d, hone, rfl, hspaced⟩
      · rintro t (heq | ⟨_, _, heq⟩)
        · injection heq with heq
          exact heq.ge
        · cases heq
    · cases hs
  | turn ran =>
    simp only [FrameTimer.step] at hs
    split at hs
    · rename_i now hphase
      obtain ⟨s₁, hread, rfl⟩ := Option.map_eq_some_iff.1 hs
      obtain ⟨hle, rfl⟩ := read_eq_some hread
      exact (h.read hle).turn std hphase
    · cases hs
  | resume ran =>
    simp only [FrameTimer.step] at hs
    split at hs
    · rename_i now intervalMs callback hphase
      obtain ⟨s₁, hread, rfl⟩ := Option.map_eq_some_iff.1 hs
      obtain ⟨hle, rfl⟩ := read_eq_some hread
      exact (h.read hle).resume std hphase
    · cases hs

/-- A start of a stopped manager begins a chain beside those that have not ended. -/
theorem chains_start {now : ℤ} (h : step std s (.start now) = some s')
    (hstopped : s.sync.running = false) : s'.chains = s.chains + 1 := by
  simp only [step] at h
  split_ifs at h
  obtain ⟨s₁, hread, rfl⟩ := Option.map_eq_some_iff.1 h
  obtain ⟨-, rfl⟩ := read_eq_some hread
  have hlength : (rescheduleTick std s.timer now s.sync.tickIntervalMs).heap.length
      = s.timer.heap.length + 1 :=
    (std.pushHeap_perm _).length_eq.trans List.length_append
  simp only [start, hstopped, Bool.false_eq_true, ↓reduceIte]
  show (rescheduleTick std s.timer now s.sync.tickIntervalMs).heap.length + _
    = s.timer.heap.length + (if s.inside then 1 else 0) + 1
  rw [hlength, Nat.add_right_comm]
  rfl

/-- In every run in which a stopped manager is started only after its old timers came off the heap
there is one chain of ticks, an interval apart and none while stopped. A start that does not wait
makes a second chain. -/
theorem one_chain (intervalMs : ℤ) (maxFrames historySize : ℕ) (frameCallback : Bool) (now : ℤ) :
    (∀ s, Reach (step std) Rested (init intervalMs maxFrames historySize frameCallback now) s →
      Single s)
    ∧ ∀ s e s', Reach (step std) anyEvent
        (init intervalMs maxFrames historySize frameCallback now) s →
      step std s e = some s' → ¬Rested s e → ¬Single s' := by
  refine ⟨fun s h => (h.invariant (P := Inv) ?_ fun s e s' hs hrest he =>
    hs.step std hrest he).single, fun s e s' _ hs hrest hsingle => ?_⟩
  · exact ⟨.inl rfl, by simp [init], by simp [init], by simp [init], .nil, by simp [init]⟩
  · cases e with
    | start t =>
      simp only [Rested, not_or, Bool.not_eq_true] at hrest
      have := chains_start std hs hrest.1
      have := hsingle.chains
      omega
    | _ => exact hrest trivial

/-- The manager is stopped for a while, long enough for its timer to come off the heap. -/
theorem one_chain_restarted :
    ∃ s : Loop, s.log = [⟨170000000, true⟩, ⟨50000000, true⟩] ∧ Single s := by
  have hrun : (([.start 0, .tick 50000000, .turn 50000000, .resume 50000000, .turn 50000000, .stop,
      .tick 100000000, .turn 100000000, .turn 100000000, .start 120000000, .tick 170000000,
      .turn 170000000] : List Event).foldlM
        (fun s e => if Rested s e then step (StdHeap.sorting Timer.deadline) s e else none)
        (init 50 120 120 true 0)).map (·.log) = some [⟨170000000, true⟩, ⟨50000000, true⟩] := by
    decide +kernel
  obtain ⟨s, hs, hlog⟩ := Option.map_eq_some_iff.1 hrun
  exact ⟨s, hlog, (one_chain (StdHeap.sorting Timer.deadline) 50 120 120 true 0).1 s
    (Reach.of_foldlM _ hs)⟩

/-- Stopped and started again within an interval, the manager ticks twice at one time. -/
theorem two_chains : ¬ ∀ s, Reach (step (StdHeap.sorting Timer.deadline)) anyEvent
    (init 50 120 120 true 0) s → Single s := by
  intro h
  have hrun : (([.start 0, .stop, .start 10000000, .tick 60000000, .turn 60000000, .resume 60000000,
      .turn 60000000] : List Event).foldlM
        (fun s e => if anyEvent s e then step (StdHeap.sorting Timer.deadline) s e else none)
        (init 50 120 120 true 0)).map (fun s => (s.log, s.sync.tickIntervalMs))
          = some ([⟨60000000, true⟩, ⟨60000000, true⟩], 50) := by
    decide +kernel
  obtain ⟨s, hs, heq⟩ := Option.map_eq_some_iff.1 hrun
  obtain ⟨hlog, hinterval⟩ := Prod.ext_iff.1 heq
  have hspaced := (h s (Reach.of_foldlM _ hs)).spaced
  simp only at hlog hinterval
  rw [hlog, hinterval] at hspaced
  revert hspaced
  decide

end TinRpc.FrameTimer
