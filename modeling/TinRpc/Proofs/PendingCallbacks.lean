import TinRpc.PendingCallbacks
import TinRpc.Lib.Fairness

/-!
# Callbacks are called in the order they were passed on

What was called, what `Run` has taken and what is pending make up, in this order, what was passed to
`RunInLoop`. While something is pending the loop has been signalled, or will be, or is about to take
it; so a loop that is served calls everything.
-/

namespace TinRpc.Rpc.PendingCallbacks

open Transition

variable {Fn : Type} {l l' : PendingCallbacks Fn} {e : Event Fn}

/-- A step that no callback goes through and no signal is lost in. -/
structure Quiet (l l' : PendingCallbacks Fn) : Prop where
  pending : l'.pending = l.pending
  batch : l'.phase.batch = l.phase.batch
  posted : l'.posted = l.posted
  called : l'.called = l.called
  signalled : l.signalled = true → l'.signalled = true
  writers : 0 < l.writers → 0 < l'.writers ∨ l'.signalled = true
  swapping : l.phase = .swapping → l'.phase = .swapping

/-- `Run` goes on where it has nothing to take and nothing to call. -/
theorem Quiet.go (hb : l.phase.batch = []) (hs : l.phase ≠ .swapping) {p : LoopPhase Fn}
    (hp : p.batch = []) (running : Bool) : l.Quiet { l with phase := p, running } :=
  ⟨rfl, hp.trans hb.symm, rfl, rfl, id, .inl, fun h => absurd h hs⟩

theorem step_cases (he : l.step e = some l') :
    (∃ fn, e = .runInLoop fn ∧ l' = { l with
      pending := l.pending ++ [fn], writers := l.writers + 1, posted := l.posted ++ [fn] }) ∨
    (e = .read ∧ l.phase = .reading ∧ l' = { l with signalled := false, phase := .swapping }) ∨
    (e = .swap ∧ l.phase = .swapping ∧
      l' = { l with pending := [], phase := .calling l.pending }) ∨
    (∃ fn rest, e = .call ∧ l.phase = .calling (fn :: rest) ∧
      l' = { l with called := l.called ++ [fn], phase := .calling rest }) ∨ l.Quiet l' := by
  have hgo : ∀ {p q : LoopPhase Fn} {running : Bool}, l.phase = q → q.batch = [] →
      q ≠ .swapping → p.batch = [] → l.Quiet { l with phase := p, running } := by
    intro p q running hq hb hs hp
    exact Quiet.go (hq ▸ hb) (hq ▸ hs) hp running
  cases e with
  | runInLoop fn => exact .inl ⟨fn, rfl, (Option.some.inj he).symm⟩
  | write =>
    obtain ⟨-, he⟩ := Option.ite_none_right_eq_some.1 he
    obtain rfl := Option.some.inj he
    exact .inr (.inr (.inr (.inr ⟨rfl, rfl, rfl, rfl, fun _ => rfl, fun _ => .inr rfl, id⟩)))
  | stop =>
    obtain rfl := Option.some.inj he
    exact .inr (.inr (.inr (.inr ⟨rfl, rfl, rfl, rfl, id, fun _ => .inl (Nat.succ_pos _), id⟩)))
  | run =>
    rcases hp : l.phase <;> simp only [step, hp, reduceCtorEq, Option.some.injEq] at he
    exact .inr (.inr (.inr (.inr (he ▸ hgo hp rfl nofun rfl))))
  | check =>
    rcases hp : l.phase <;> simp only [step, hp, reduceCtorEq, Option.some.injEq] at he
    exact .inr (.inr (.inr (.inr (he ▸ hgo hp rfl nofun (by split_ifs <;> rfl)))))
  | poll wakeup =>
    rcases hp : l.phase <;> simp only [step, hp, reduceCtorEq] at he
    split_ifs at he
    · exact .inr (.inr (.inr (.inr (Option.some.inj he ▸ hgo hp rfl nofun rfl))))
    · exact .inr (.inr (.inr (.inr (Option.some.inj he ▸ hgo hp rfl nofun rfl))))
  | fail =>
    rcases hp : l.phase <;> simp only [step, hp, reduceCtorEq, Option.some.injEq] at he
    exact .inr (.inr (.inr (.inr (he ▸ hgo hp rfl nofun rfl))))
  | read =>
    rcases hp : l.phase <;> simp only [step, hp, reduceCtorEq, Option.some.injEq] at he
    exact .inr (.inl ⟨rfl, rfl, he.symm⟩)
  | swap =>
    rcases hp : l.phase <;> simp only [step, hp, reduceCtorEq, Option.some.injEq] at he
    exact .inr (.inr (.inl ⟨rfl, rfl, he.symm⟩))
  | call =>
    rcases hp : l.phase with _ | _ | _ | _ | _ | (_ | ⟨fn, rest⟩) <;>
      simp only [step, hp, reduceCtorEq, Option.some.injEq] at he
    · exact .inr (.inr (.inr (.inr (he ▸ hgo hp rfl nofun rfl))))
    · exact .inr (.inr (.inr (.inl ⟨fn, rest, rfl, rfl, he.symm⟩)))

/-- What holds of the callbacks at any time. -/
structure Sound (l : PendingCallbacks Fn) : Prop where
  order : l.called ++ l.phase.batch ++ l.pending = l.posted
  /-- Nothing is pending unless the loop was signalled, will be, or is about to take it. -/
  woken : l.pending ≠ [] → l.signalled = true ∨ 0 < l.writers ∨ l.phase = .swapping

theorem Sound.step (h : l.Sound) (he : l.step e = some l') : l'.Sound := by
  rcases step_cases he with ⟨fn, -, rfl⟩ | ⟨-, hp, rfl⟩ | ⟨-, hp, rfl⟩ | ⟨fn, rest, -, hp, rfl⟩ | hquiet
  · refine ⟨?_, fun _ => .inr (.inl (Nat.succ_pos _))⟩
    rw [← h.order]
    exact (List.append_assoc _ _ _).symm
  · refine ⟨?_, fun _ => .inr (.inr rfl)⟩
    have horder := h.order
    rw [hp] at horder
    exact horder
  · refine ⟨?_, fun hne => absurd rfl hne⟩
    have horder := h.order
    rw [hp] at horder
    change l.called ++ l.pending ++ [] = _
    rw [List.append_nil, ← horder]
    simp only [LoopPhase.batch, List.append_nil]
  · refine ⟨?_, fun hne => ?_⟩
    · have horder := h.order
      rw [hp] at horder
      change l.called ++ [fn] ++ rest ++ l.pending = _
      rw [List.append_assoc l.called]
      exact horder
    · have hwoken := h.woken hne
      rw [hp] at hwoken
      exact hwoken.imp id fun hw => hw.imp id nofun
  · refine ⟨?_, fun hne => ?_⟩
    · rw [hquiet.called, hquiet.batch, hquiet.pending, hquiet.posted]
      exact h.order
    · rw [hquiet.pending] at hne
      rcases h.woken hne with hs | hw | hp
      · exact .inl (hquiet.signalled hs)
      · exact (hquiet.writers hw).elim (fun hw => .inr (.inl hw)) .inl
      · exact .inr (.inr (hquiet.swapping hp))

theorem sound_reach {ok : PendingCallbacks Fn → Event Fn → Prop} (h : Reach step ok {} l) :
    l.Sound :=
  h.invariant ⟨rfl, fun hne => absurd rfl hne⟩ fun _ _ _ hs _ he => hs.step he

/-- Calls of `RunInLoop` write, `Run` is not left, and `epoll_wait` reports a signal in time. -/
structure Served (r : Course (@step Fn)) : Prop where
  write : r.Fair (fun l => 0 < l.writers) fun e => e = .write
  read : r.Fair (fun l => l.signalled = true) fun e => e = .read
  swap : r.Fair (fun l => l.phase = .swapping) fun e => e = .swap
  call : r.Fair (fun l => l.phase.batch ≠ []) fun e => e = .call

variable {r : Course (@step Fn)}

theorem step_event {n : ℕ} (he : r.event n = some e) :
    (r.state n).step e = some (r.state (n + 1)) := by
  have hnext := r.next n
  rwa [he] at hnext

theorem logs_step (he : l.step e = some l') : l.posted <+: l'.posted ∧ l.called <+: l'.called := by
  rcases step_cases he with ⟨fn, -, rfl⟩ | ⟨-, -, rfl⟩ | ⟨-, -, rfl⟩ | ⟨fn, rest, -, -, rfl⟩ | hquiet
  · exact ⟨List.prefix_append _ _, List.prefix_rfl⟩
  · exact ⟨List.prefix_rfl, List.prefix_rfl⟩
  · exact ⟨List.prefix_rfl, List.prefix_rfl⟩
  · exact ⟨List.prefix_rfl, List.prefix_append _ _⟩
  · rw [hquiet.posted, hquiet.called]
    exact ⟨List.prefix_rfl, List.prefix_rfl⟩

theorem posted_mono {n m : ℕ} (hnm : n ≤ m) : (r.state n).posted <+: (r.state m).posted :=
  r.lasts (P := fun l => (r.state n).posted <+: l.posted)
    (fun _ _ _ h he => h.trans (logs_step he).1) hnm List.prefix_rfl

theorem called_mono {n m : ℕ} (hnm : n ≤ m) : (r.state n).called <+: (r.state m).called :=
  r.lasts (P := fun l => (r.state n).called <+: l.called)
    (fun _ _ _ h he => h.trans (logs_step he).2) hnm List.prefix_rfl

theorem step_call {fn : Fn} {rest : List Fn} (hl : l.phase.batch = fn :: rest)
    (he : l.step .call = some l') : l'.called = l.called ++ [fn] := by
  rcases hp : l.phase with _ | _ | _ | _ | _ | callbacks <;> rw [hp] at hl <;>
    simp only [LoopPhase.batch, reduceCtorEq] at hl
  subst hl
  simp only [step, hp, Option.some.injEq] at he
  exact he ▸ rfl

theorem step_swap (he : l.step .swap = some l') : l'.phase.batch = l.pending := by
  rcases hp : l.phase <;> simp only [step, hp, reduceCtorEq, Option.some.injEq] at he
  exact he ▸ rfl

theorem step_read (he : l.step .read = some l') : l'.phase = .swapping := by
  rcases hp : l.phase <;> simp only [step, hp, reduceCtorEq, Option.some.injEq] at he
  exact he ▸ rfl

theorem step_write (he : l.step .write = some l') : l'.signalled = true := by
  obtain ⟨-, he⟩ := Option.ite_none_right_eq_some.1 he
  exact Option.some.inj he ▸ rfl

theorem sound_course (h₀ : r.state 0 = {}) (n : ℕ) : (r.state n).Sound :=
  sound_reach (h₀ ▸ r.reach n)

namespace Served

variable (hr : Served r)
include hr

theorem calls {n : ℕ} {fn : Fn} {rest : List Fn} (hn : (r.state n).phase.batch = fn :: rest) :
    ∃ m, n ≤ m ∧ (r.state n).called.length < (r.state m).called.length := by
  obtain ⟨m, hnm, hm, e, hevent, rfl⟩ := Course.leads (P := fun l => l.phase.batch = fn :: rest)
    hr.call (fun m _ hm => by rw [hm]; exact nofun) (fun l e l' hl hother he => by
      rcases step_cases he with ⟨fn', -, rfl⟩ | ⟨-, hp, -⟩ | ⟨-, hp, -⟩ | ⟨_, _, hcall, -⟩ | hquiet
      · exact hl
      · rw [hp] at hl
        cases hl
      · rw [hp] at hl
        cases hl
      · exact absurd hcall hother
      · exact hquiet.batch.trans hl) hn
  have hlength := (called_mono (r := r) hnm).length_le
  have hcalled := congrArg List.length (step_call hm (step_event hevent))
  rw [List.length_append, List.length_singleton] at hcalled
  exact ⟨m + 1, by omega, by omega⟩

/-- A loop that is about to take what is pending takes it. -/
theorem swaps {n : ℕ} (hn : (r.state n).phase = .swapping) :
    ∃ m, n ≤ m ∧ (r.state (m + 1)).phase.batch = (r.state m).pending := by
  obtain ⟨m, hnm, -, e, hevent, rfl⟩ := Course.leads (P := fun l => l.phase = .swapping) hr.swap
    (fun _ _ hm => hm) (fun l e l' hl hother he => by
      rcases step_cases he with ⟨_, -, rfl⟩ | ⟨-, hq, -⟩ | ⟨h, -⟩ | ⟨_, _, -, hq, -⟩ | hquiet
      · exact hl
      · rw [hl] at hq
        cases hq
      · exact absurd h hother
      · rw [hl] at hq
        cases hq
      · exact hquiet.swapping hl) hn
  exact ⟨m, hnm, step_swap (step_event hevent)⟩

theorem reads {n : ℕ} (hn : (r.state n).signalled = true) :
    ∃ m, n ≤ m ∧ (r.state m).phase = .swapping := by
  obtain ⟨m, hnm, -, e, hevent, rfl⟩ := Course.leads (P := fun l => l.signalled = true) hr.read
    (fun _ _ hm => hm) (fun l e l' hl hother he => by
      rcases step_cases he with ⟨_, -, rfl⟩ | ⟨h, -⟩ | ⟨-, -, rfl⟩ | ⟨_, _, -, -, rfl⟩ | hquiet
      · exact hl
      · exact absurd h hother
      · exact hl
      · exact hl
      · exact hquiet.signalled hl) hn
  exact ⟨m + 1, by omega, step_read (step_event hevent)⟩

/-- A callback that was passed on is not the last one to be called. -/
theorem calls_next (h₀ : r.state 0 = {}) {n : ℕ}
    (hn : (r.state n).called.length < (r.state n).posted.length) :
    ∃ m, n ≤ m ∧ (r.state n).called.length < (r.state m).called.length := by
  by_contra hnever
  push Not at hnever
  have hbatch : ∀ m, n ≤ m → (r.state m).phase.batch = [] := by
    intro m hnm
    rcases hb : (r.state m).phase.batch with _ | ⟨fn, rest⟩
    · rfl
    · obtain ⟨k, hmk, hk⟩ := hr.calls hb
      have := hnever k (by omega)
      have := (called_mono (r := r) hnm).length_le
      omega
  have hpending : ∀ m, n ≤ m → (r.state m).pending ≠ [] := by
    intro m hnm hempty
    have horder := congrArg List.length (sound_course h₀ m).order
    rw [hbatch m hnm, hempty, List.append_nil, List.append_nil] at horder
    have := hnever m hnm
    have := (posted_mono (r := r) hnm).length_le
    omega
  have hswapping : ∀ m, n ≤ m → (r.state m).phase ≠ .swapping := by
    intro m hnm hp
    obtain ⟨k, hmk, hnext⟩ := hr.swaps hp
    rw [hbatch (k + 1) (by omega)] at hnext
    exact hpending k (by omega) hnext.symm
  have hsilent : ∀ m, n ≤ m → (r.state m).signalled ≠ true := by
    intro m hnm hs
    obtain ⟨k, hmk, hk⟩ := hr.reads hs
    exact hswapping k (by omega) hk
  have hwriters : ∀ m, n ≤ m → 0 < (r.state m).writers := by
    intro m hnm
    rcases (sound_course h₀ m).woken (hpending m hnm) with hs | hw | hp
    · exact absurd hs (hsilent m hnm)
    · exact hw
    · exact absurd hp (hswapping m hnm)
  obtain ⟨m, hnm, e, hevent, rfl⟩ := hr.write n hwriters
  exact hsilent (m + 1) (by omega) (step_write (step_event hevent))

/-- Every callback that was passed on is called. -/
theorem all_called (h₀ : r.state 0 = {}) (n : ℕ) :
    ∃ m, n ≤ m ∧ (r.state n).posted <+: (r.state m).called := by
  obtain ⟨m, hnm, hm⟩ := r.catches_up (f := fun l => l.called.length)
    (g := fun l => l.posted.length) (fun _ _ hnm => (posted_mono hnm).length_le)
    (fun n hn => hr.calls_next h₀ hn) n
  have horder := (sound_course h₀ m).order
  rw [List.append_assoc] at horder
  exact ⟨m, hnm, List.prefix_of_prefix_length_le (posted_mono hnm)
    (horder ▸ List.prefix_append _ _) hm⟩

end Served

end TinRpc.Rpc.PendingCallbacks
