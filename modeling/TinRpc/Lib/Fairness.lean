import TinRpc.Lib.Reach
import Mathlib.Order.Monotone.Basic

/-!
# Runs that go on

A course of a machine is a run without end: its states and the events between them, where the
machine rests if there is no event. A course is fair to an action that does not stay possible for
ever without being taken. What makes an action possible, and lasts until the action is taken, leads
to the action (`Course.leads`).
-/

namespace Transition

variable {S S' E E' : Type*}

structure Course (step : S → E → Option S) where
  state : ℕ → S
  event : ℕ → Option E
  next : ∀ n, (event n).elim (some (state n)) (step (state n)) = some (state (n + 1))

variable {step : S → E → Option S} {step' : S' → E' → Option S'}

/-- The events of a machine are events of another one, or go unnoticed there. -/
def Projects (step : S → E → Option S) (step' : S' → E' → Option S') (f : S → S')
    (g : S → E → Option E') : Prop :=
  ∀ s e s', step s e = some s' → (g s e).elim (some (f s)) (step' (f s)) = some (f s')

theorem Reach.map {f : S → S'} {g : S → E → Option E'} (hf : Projects step step' f g)
    {ok : S → E → Prop} {s₀ s : S} (h : Reach step ok s₀ s) :
    Reach step' anyEvent (f s₀) (f s) := by
  induction h with
  | start => exact .start
  | @next s s' e _ _ he ih =>
    have hnext := hf s e s' he
    rcases hg : g s e with _ | e'
    · rw [hg] at hnext
      exact Option.some.inj hnext ▸ ih
    · rw [hg] at hnext
      exact .next ih trivial hnext

namespace Course

variable (r : Course step)

/-- A step is rest or an event. -/
theorem next_cases (n : ℕ) :
    (r.event n = none ∧ r.state (n + 1) = r.state n) ∨
      ∃ e, r.event n = some e ∧ step (r.state n) e = some (r.state (n + 1)) := by
  have hnext := r.next n
  rcases he : r.event n with _ | e
  · rw [he] at hnext
    exact .inl ⟨rfl, (Option.some.inj hnext).symm⟩
  · rw [he] at hnext
    exact .inr ⟨e, rfl, hnext⟩

theorem reach (n : ℕ) : Reach step anyEvent (r.state 0) (r.state n) := by
  induction n with
  | zero => exact .start
  | succ n ih =>
    rcases r.next_cases n with ⟨-, hrest⟩ | ⟨e, -, he⟩
    · rw [hrest]
      exact ih
    · exact .next ih trivial he

/-- What every step keeps lasts. -/
theorem lasts {P : S → Prop} (hs : ∀ s e s', P s → step s e = some s' → P s') {n m : ℕ}
    (hnm : n ≤ m) (h : P (r.state n)) : P (r.state m) := by
  induction m, hnm using Nat.le_induction with
  | base => exact h
  | succ m _ ih =>
    rcases r.next_cases m with ⟨-, hrest⟩ | ⟨e, -, he⟩
    · rw [hrest]
      exact ih
    · exact hs _ e _ ih he

/-- An action that is possible from some time on is taken at a later time. -/
def Fair (possible : S → Prop) (action : E → Prop) : Prop :=
  ∀ n, (∀ m, n ≤ m → possible (r.state m)) → ∃ m, n ≤ m ∧ ∃ e, r.event m = some e ∧ action e

variable {r} {possible : S → Prop} {action : E → Prop}

theorem leads {P : S → Prop} (hfair : r.Fair possible action) {n : ℕ}
    (hpossible : ∀ m, n ≤ m → P (r.state m) → possible (r.state m))
    (hkeep : ∀ s e s', P s → ¬action e → step s e = some s' → P s') (h : P (r.state n)) :
    ∃ m, n ≤ m ∧ P (r.state m) ∧ ∃ e, r.event m = some e ∧ action e := by
  by_contra hnever
  push Not at hnever
  have hP : ∀ m, n ≤ m → P (r.state m) := by
    intro m hnm
    induction m, hnm using Nat.le_induction with
    | base => exact h
    | succ m hnm ih =>
      rcases r.next_cases m with ⟨-, hrest⟩ | ⟨e, hevent, he⟩
      · rw [hrest]
        exact ih
      · exact hkeep _ e _ ih (hnever m hnm ih e hevent) he
  obtain ⟨m, hnm, e, hevent, haction⟩ := hfair n fun m hnm => hpossible m hnm (hP m hnm)
  exact hnever m hnm (hP m hnm) e hevent haction

/-- A count that grows as long as it is behind another one comes to what that one is now. -/
theorem catches_up {f g : S → ℕ} (hg : Monotone fun n => g (r.state n))
    (hf : ∀ n, f (r.state n) < g (r.state n) → ∃ m, n ≤ m ∧ f (r.state n) < f (r.state m))
    (n : ℕ) : ∃ m, n ≤ m ∧ g (r.state n) ≤ f (r.state m) := by
  have hcount : ∀ k, k ≤ g (r.state n) → ∃ m, n ≤ m ∧ k ≤ f (r.state m) := by
    intro k
    induction k with
    | zero => exact fun _ => ⟨n, le_rfl, Nat.zero_le _⟩
    | succ k ih =>
      intro hk
      obtain ⟨m, hnm, hm⟩ := ih (by omega)
      by_cases hdone : k + 1 ≤ f (r.state m)
      · exact ⟨m, hnm, hdone⟩
      have hmono : g (r.state n) ≤ g (r.state m) := hg hnm
      obtain ⟨m', hmm, hm'⟩ := hf m (by omega)
      exact ⟨m', by omega, by omega⟩
  exact hcount _ le_rfl

/-- A course that comes to rest is fair to what is not possible there. -/
theorem fair_of_rest {s : S} {n : ℕ} (hrest : ∀ m, n ≤ m → r.state m = s) (h : ¬possible s) :
    r.Fair possible action := fun k hpossible =>
  absurd (hrest _ (Nat.le_max_left n k) ▸ hpossible _ (Nat.le_max_right n k)) h

/-- The course of a list of events, with rest after it. -/
def ofList (es : List E) {s₀ s : S} (h : es.foldlM step s₀ = some s) : Course step where
  state n := ((es.take n).foldlM step s₀).getD s
  event n := es[n]?
  next n := by
    have hsome : ∀ n, ∃ t, (es.take n).foldlM step s₀ = some t := by
      intro n
      rw [← List.take_append_drop n es, List.foldlM_append] at h
      obtain ⟨t, ht, -⟩ := Option.bind_eq_some_iff.1 h
      exact ⟨t, ht⟩
    obtain ⟨t, ht⟩ := hsome n
    obtain ⟨t', ht'⟩ := hsome (n + 1)
    rw [ht, ht', Option.getD_some, Option.getD_some]
    rw [List.take_add_one, List.foldlM_append, ht] at ht'
    rcases hevent : es[n]? with _ | e
    · rw [hevent] at ht'
      exact ht'
    · rw [hevent] at ht'
      simpa using ht'

theorem ofList_rests {es : List E} {s₀ s : S} (h : es.foldlM step s₀ = some s) {n : ℕ}
    (hn : es.length ≤ n) : (ofList es h).state n = s := by
  show ((es.take n).foldlM step s₀).getD s = s
  rw [List.take_of_length_le hn, h]
  rfl

/-- The course of another machine that follows this one. -/
def map (r : Course step) (f : S → S') (g : S → E → Option E')
    (hf : Projects step step' f g) : Course step' where
  state n := f (r.state n)
  event n := (r.event n).bind (g (r.state n))
  next n := by
    rcases r.next_cases n with ⟨hevent, hrest⟩ | ⟨e, hevent, he⟩
    · rw [hevent, hrest]
      rfl
    · rw [hevent]
      exact hf _ _ _ he

end Course

end Transition
