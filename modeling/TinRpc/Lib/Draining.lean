import TinRpc.Lib.WorkQueue
import Mathlib.Data.Finset.Lattice.Fold

/-!
# A queue that is attended to is drained

In a course that is fair to each worker, to the notifications and to the closing call, every task
accepted is taken and ends, and the closing call returns. A task stays in the queue only while no
worker looks at it; then all of them sleep, so that a notification is to come (`Sound.awake`), and
it wakes one.
-/

namespace WorkQueue

open Transition

variable {W T : Type*} [DecidableEq W] [Fintype W]

/-- Workers are scheduled, tasks end, and calls that were begun go on. -/
structure Attended (r : Course (step (W := W) (T := T))) : Prop where
  worker : ∀ i, r.Fair (fun s => (s.phase i).Active) fun e => e = .iterate i ∨ e = .finish i
  notifyOne : r.Fair (fun s => 0 < s.notices) fun e => ∃ woken, e = .notifyOne woken
  notifyAll : r.Fair (fun s => s.closing = .closed) fun e => e = .notifyAll
  join : r.Fair (fun s => s.closing = .notified ∧ ∀ i, s.phase i = .exited) fun e => e = .join

variable {r : Course (step (W := W) (T := T))}

theorem sound_course (h₀ : r.state 0 = {}) (n : ℕ) : (r.state n).Sound :=
  sound_reach (h₀ ▸ r.reach n)

theorem step_event {n : ℕ} {e : Move W T} (he : r.event n = some e) :
    (r.state n).step e = some (r.state (n + 1)) := by
  have hnext := r.next n
  rwa [he] at hnext

theorem started_mono {n m : ℕ} (hnm : n ≤ m) : (r.state n).started <+: (r.state m).started :=
  r.lasts (P := fun s => (r.state n).started <+: s.started)
    (fun _ _ _ h he => h.trans (logs_step he).2.1) hnm List.prefix_rfl

theorem accepted_mono {n m : ℕ} (hnm : n ≤ m) : (r.state n).accepted <+: (r.state m).accepted :=
  r.lasts (P := fun s => (r.state n).accepted <+: s.accepted)
    (fun _ _ _ h he => h.trans (logs_step he).1) hnm List.prefix_rfl

section Steps

variable {s s' : WorkQueue W T} {e : Move W T}

omit [DecidableEq W] [Fintype W] in
theorem stop_iff : s.stop = true ↔ s.closing ≠ .opened := by
  unfold stop
  exact decide_eq_true_iff

/-- A closing call that has notified the workers does not go back. -/
theorem late_step (he : s.step e = some s') (hs : s.closing = .notified ∨ s.closing = .joined) :
    s'.closing = .notified ∨ s'.closing = .joined := by
  rcases closing_step he with hsame | ⟨-, hc⟩ | ⟨-, hc⟩ | ⟨rfl, -⟩
  · rwa [hsame]
  · rw [hc] at hs
    rcases hs with hs | hs <;> cases hs
  · rw [hc] at hs
    rcases hs with hs | hs <;> cases hs
  · obtain ⟨-, rfl⟩ := step_join.1 he
    exact .inr rfl

theorem exited_step {i : W} (he : s.step e = some s') (hs : s.phase i = .exited) :
    s'.phase i = .exited := by
  rcases phase_step he i with hsame | ⟨hw, -⟩ | rfl | rfl
  · exact hsame.trans hs
  · rw [hs] at hw
    cases hw
  · have hready := (step_iterate.1 he).1
    rw [hs] at hready
    cases hready
  · obtain ⟨t, hrunning, -⟩ := step_finish.1 he
    rw [hs] at hrunning
    cases hrunning

end Steps

namespace Attended

variable (hr : Attended r) (h₀ : r.state 0 = {})
include hr

/-- An active worker stays as it is until it acts. -/
theorem acts {n : ℕ} {i : W} {p : Phase T} (hp : p.Active) (hi : (r.state n).phase i = p) :
    ∃ m, n ≤ m ∧ (r.state m).phase i = p ∧
      (r.event m = some (.iterate i) ∨ r.event m = some (.finish i)) := by
  obtain ⟨m, hnm, hm, e, hevent, he⟩ := Course.leads (P := fun s => s.phase i = p) (hr.worker i)
    (fun m _ hm => hm ▸ hp) (fun s e s' hs hother he => by
      rcases phase_step he i with hsame | ⟨hw, -⟩ | h | h
      · exact hsame.trans hs
      · exact absurd (hs.symm.trans hw) hp.1
      · exact absurd (.inl h) hother
      · exact absurd (.inr h) hother) hi
  rcases he with rfl | rfl
  · exact ⟨m, hnm, hm, .inl hevent⟩
  · exact ⟨m, hnm, hm, .inr hevent⟩

/-- A worker that is ready looks at the queue. -/
theorem looks {n : ℕ} {i : W} (hi : (r.state n).phase i = .ready) :
    ∃ m, n ≤ m ∧ (r.state m).phase i = .ready ∧ r.event m = some (.iterate i) := by
  obtain ⟨m, hnm, hready, hevent | hevent⟩ := hr.acts Phase.active_ready hi
  · exact ⟨m, hnm, hready, hevent⟩
  · obtain ⟨t, hrunning, -⟩ := step_finish.1 (step_event hevent)
    rw [hready] at hrunning
    cases hrunning

/-- A task that runs ends. -/
theorem ends {n : ℕ} {i : W} {t : T} (hi : (r.state n).phase i = .running t) :
    ∃ m, n ≤ m ∧ (r.state m).phase i = .running t ∧ r.event m = some (.finish i) := by
  obtain ⟨m, hnm, hrunning, hevent | hevent⟩ := hr.acts (Phase.active_running t) hi
  · have hready := (step_iterate.1 (step_event hevent)).1
    rw [hrunning] at hready
    cases hready
  · exact ⟨m, hnm, hrunning, hevent⟩

/-- A worker that is not asleep and has not left looks at the queue. -/
theorem looks_of_active {n : ℕ} {i : W} (hi : ((r.state n).phase i).Active) :
    ∃ m, n ≤ m ∧ (r.state m).phase i = .ready ∧ r.event m = some (.iterate i) := by
  rcases hphase : (r.state n).phase i with _ | _ | t | _
  · exact hr.looks hphase
  · exact absurd hphase hi.1
  · obtain ⟨m, hnm, hrunning, hevent⟩ := hr.ends hphase
    obtain ⟨t', -, hstep⟩ := step_finish.1 (step_event hevent)
    obtain ⟨k, hmk, hk⟩ := hr.looks (n := m + 1) (i := i)
      (by rw [← hstep]; exact (setPhase_phase _ i i _).trans (if_pos rfl))
    exact ⟨k, by omega, hk⟩
  · exact absurd hphase hi.2

include h₀

/-- A task that waits is not the last one to be taken. -/
theorem takes [Nonempty W] {n : ℕ} (hn : (r.state n).started.length < (r.state n).accepted.length) :
    ∃ m, n ≤ m ∧ (r.state n).started.length < (r.state m).started.length := by
  by_contra hnever
  push Not at hnever
  have hqueue : ∀ m, n ≤ m → (r.state m).queue ≠ [] := by
    intro m hnm hempty
    have horder := (sound_course h₀ m).order
    rw [hempty, List.append_nil] at horder
    have hlength := (accepted_mono (r := r) hnm).length_le
    rw [← horder] at hlength
    have := hnever m hnm
    omega
  have hasleep : ∀ m, n ≤ m → ∀ i, ¬((r.state m).phase i).Active := by
    intro m hnm i hactive
    obtain ⟨k, hmk, -, hevent⟩ := hr.looks_of_active hactive
    obtain ⟨-, hstep⟩ := step_iterate.1 (step_event hevent)
    have hmore := hnever (k + 1) (by omega)
    have hless := (started_mono (r := r) (show n ≤ k by omega)).length_le
    unfold iterate at hstep
    rcases hq : (r.state k).queue with _ | ⟨t, ts⟩
    · exact hqueue k (by omega) hq
    · rw [hq] at hstep
      rw [← hstep] at hmore
      have hlength : ((r.state k).started ++ [t]).length ≤ (r.state n).started.length := hmore
      rw [List.length_append] at hlength
      rw [List.length_singleton] at hlength
      omega
  have hwaiting : ∀ m, n ≤ m → ∀ i, (r.state m).phase i = .waiting := by
    intro m hnm i
    by_contra hi
    refine hasleep m hnm i ⟨hi, fun hexited => ?_⟩
    exact hqueue m hnm ((sound_course h₀ m).exited i hexited).2
  have hnotices : ∀ m, n ≤ m → 0 < (r.state m).notices := by
    intro m hnm
    have hawake := (sound_course h₀ m).awake (Classical.arbitrary W) (hwaiting m hnm _)
    rcases hawake (hqueue m hnm) with hnotices | ⟨j, hj⟩
    · exact hnotices
    · exact absurd hj (hasleep m hnm j)
  obtain ⟨m, hnm, e, hevent, woken, rfl⟩ := hr.notifyOne n hnotices
  rcases woken with _ | i
  · obtain ⟨⟨-, hnone⟩, -⟩ := step_notify_none.1 (step_event hevent)
    exact hnone (Classical.arbitrary W) (hwaiting m hnm _)
  · obtain ⟨-, hstep⟩ := step_notify_some.1 (step_event hevent)
    have hready : (r.state (m + 1)).phase i = .ready := by
      rw [← hstep]
      exact (setPhase_phase _ i i _).trans (if_pos rfl)
    rw [hwaiting (m + 1) (by omega) i] at hready
    cases hready

/-- Every task accepted is taken. -/
theorem all_taken [Nonempty W] (n : ℕ) :
    ∃ m, n ≤ m ∧ (r.state n).accepted <+: (r.state m).started := by
  obtain ⟨m, hnm, hm⟩ := r.catches_up (f := fun s => s.started.length)
    (g := fun s => s.accepted.length) (fun _ _ hnm => (accepted_mono hnm).length_le)
    (fun n hn => hr.takes h₀ hn) n
  have horder := (sound_course h₀ m).order
  exact ⟨m, hnm, List.prefix_of_prefix_length_le (accepted_mono hnm)
    (horder ▸ List.prefix_append _ _) hm⟩

/-! ## The closing call returns -/

omit h₀ in
/-- The workers are notified. -/
theorem notifies {n : ℕ} (hstop : (r.state n).stop = true) :
    ∃ m, n ≤ m ∧ ((r.state m).closing = .notified ∨ (r.state m).closing = .joined) := by
  rcases hc : (r.state n).closing
  · exact absurd hc (stop_iff.1 hstop)
  · obtain ⟨m, hnm, -, e, hevent, rfl⟩ := Course.leads (P := fun s => s.closing = .closed)
      hr.notifyAll (fun m _ hm => hm) (fun s e s' hs hother he => by
        rcases closing_step he with hsame | ⟨-, hc⟩ | ⟨h, -⟩ | ⟨-, hc⟩
        · exact hsame.trans hs
        · rw [hs] at hc
          cases hc
        · exact absurd h hother
        · rw [hs] at hc
          cases hc) hc
    obtain ⟨-, hstep⟩ := step_notifyAll.1 (step_event hevent)
    exact ⟨m + 1, by omega, .inl (by rw [← hstep])⟩
  · exact ⟨n, le_rfl, .inl hc⟩
  · exact ⟨n, le_rfl, .inr hc⟩

/-- The queue of a call that has notified the workers becomes empty. -/
theorem empties [Nonempty W] {n : ℕ}
    (hlate : (r.state n).closing = .notified ∨ (r.state n).closing = .joined) :
    ∃ m, n ≤ m ∧ ∀ k, m ≤ k → (r.state k).queue = [] ∧ (r.state k).stop = true ∧
      ((r.state k).closing = .notified ∨ (r.state k).closing = .joined) := by
  obtain ⟨m, hnm, hprefix⟩ := hr.all_taken h₀ n
  have hlate' : ∀ k, n ≤ k → (r.state k).closing = .notified ∨ (r.state k).closing = .joined :=
    fun k hnk => r.lasts (P := fun s => s.closing = .notified ∨ s.closing = .joined)
      (fun _ _ _ hs he => late_step he hs) hnk hlate
  have hstop : ∀ k, n ≤ k → (r.state k).stop = true := by
    intro k hnk
    rw [stop_iff]
    rcases hlate' k hnk with h | h <;> rw [h] <;> exact nofun
  refine ⟨m, hnm, fun k hmk => ⟨?_, hstop k (by omega), hlate' k (by omega)⟩⟩
  have hsame : (r.state k).accepted = (r.state n).accepted := by
    refine (r.lasts (P := fun s => s.stop = true ∧ s.accepted = (r.state n).accepted)
      (fun _ _ _ hs he => ?_) (show n ≤ k by omega) ⟨hstop n le_rfl, rfl⟩).2
    obtain ⟨hstop', haccepted⟩ := stop_step he hs.1
    exact ⟨hstop', haccepted.trans hs.2⟩
  have horder := congrArg List.length (sound_course h₀ k).order
  have hlength := hprefix.length_le
  have hmono := (started_mono (r := r) hmk).length_le
  rw [List.length_append, hsame] at horder
  exact List.eq_nil_of_length_eq_zero (by omega)

/-- A worker leaves. -/
theorem leaves [Nonempty W] {n : ℕ}
    (hn : ∀ k, n ≤ k → (r.state k).queue = [] ∧ (r.state k).stop = true ∧
      ((r.state k).closing = .notified ∨ (r.state k).closing = .joined)) (i : W) :
    ∃ m, n ≤ m ∧ ∀ k, m ≤ k → (r.state k).phase i = .exited := by
  have hlasts : ∀ {m k : ℕ}, m ≤ k → (r.state m).phase i = .exited →
      (r.state k).phase i = .exited := fun hmk hm =>
    r.lasts (P := fun s => s.phase i = .exited) (fun _ _ _ hs he => exited_step he hs) hmk hm
  by_cases hexited : (r.state n).phase i = .exited
  · exact ⟨n, le_rfl, fun k hk => hlasts hk hexited⟩
  have hwaiting := (sound_course h₀ n).notified (hn n le_rfl).2.2 i
  obtain ⟨m, hnm, -, hevent⟩ := hr.looks_of_active (i := i) ⟨hwaiting, hexited⟩
  obtain ⟨-, hstep⟩ := step_iterate.1 (step_event hevent)
  refine ⟨m + 1, by omega, fun k hk => hlasts hk ?_⟩
  obtain ⟨hempty, hstop, -⟩ := hn m hnm
  unfold iterate at hstep
  rw [hempty] at hstep
  rw [← hstep]
  exact (setPhase_phase _ i i _).trans ((if_pos rfl).trans (if_pos hstop))

/-- A closing call that was begun returns. -/
theorem returns [Nonempty W] {n : ℕ} (hstop : (r.state n).stop = true) :
    ∃ m, n ≤ m ∧ (r.state m).closing = .joined := by
  obtain ⟨n₁, hn₁, hlate⟩ := hr.notifies hstop
  obtain ⟨n₂, hn₂, hempty⟩ := hr.empties h₀ hlate
  choose left hleft using fun i => hr.leaves h₀ hempty i
  let n₃ := n₂ + Finset.univ.sup left
  have hall : ∀ k, n₃ ≤ k → ∀ i, (r.state k).phase i = .exited := by
    intro k hk i
    have := Finset.le_sup (f := left) (Finset.mem_univ i)
    exact (hleft i).2 k (by omega)
  rcases (hempty n₃ (by omega)).2.2 with hc | hc
  · obtain ⟨m, hnm, hm, e, hevent, rfl⟩ := Course.leads
      (P := fun s => s.closing = .notified ∧ ∀ i, s.phase i = .exited) hr.join
      (fun m _ hm => hm) (fun s e s' hs hother he => by
        refine ⟨?_, fun i => exited_step he (hs.2 i)⟩
        rcases closing_step he with hsame | ⟨-, hc⟩ | ⟨-, hc⟩ | ⟨h, -⟩
        · exact hsame.trans hs.1
        · rw [hs.1] at hc
          cases hc
        · rw [hs.1] at hc
          cases hc
        · exact absurd h hother) ⟨hc, hall n₃ le_rfl⟩
    obtain ⟨-, hstep⟩ := step_join.1 (step_event hevent)
    exact ⟨m + 1, by omega, by rw [← hstep]⟩
  · exact ⟨n₃, by omega, hc⟩

end Attended

end WorkQueue
