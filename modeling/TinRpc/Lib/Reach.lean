import Mathlib.Data.List.Basic

/-!
# States a machine reaches

A machine is a partial step function. `Reach step ok s₀ s`: from `s₀` the machine gets to `s` by
steps that are each allowed by `ok` in the state they are taken in. With `ok` always true these
are all its runs. `Twins step extra s₀ s t`: two runs get to `s` and `t` that differ only in steps
allowed by `extra`.
-/

namespace Transition

variable {S E : Type*}

inductive Reach (step : S → E → Option S) (ok : S → E → Prop) (s₀ : S) : S → Prop
  | start : Reach step ok s₀ s₀
  | next {s s' : S} {e : E} : Reach step ok s₀ s → ok s e → step s e = some s' →
      Reach step ok s₀ s'

/-- Every event is allowed. -/
def anyEvent (_ : S) (_ : E) : Prop := True

instance (s : S) (e : E) : Decidable (anyEvent s e) := .isTrue trivial

variable {step : S → E → Option S} {ok ok' : S → E → Prop} {s₀ s s' : S}

namespace Reach

/-- What holds at the start and is kept by each allowed step holds of every state reached. -/
theorem invariant {P : S → Prop} (h : Reach step ok s₀ s) (h₀ : P s₀)
    (hs : ∀ s e s', P s → ok s e → step s e = some s' → P s') : P s := by
  induction h with
  | start => exact h₀
  | next _ hok he ih => exact hs _ _ _ ih hok he

theorem mono (h : Reach step ok s₀ s) (hok : ∀ s e, ok s e → ok' s e) :
    Reach step ok' s₀ s := by
  induction h with
  | start => exact .start
  | next _ ho he ih => exact .next ih (hok _ _ ho) he

/-- An invariant of all runs may be used when a second one is shown for the allowed ones. -/
theorem invariant_of {P Q : S → Prop} (h : Reach step ok s₀ s)
    (hQ : ∀ s, Reach step ok s₀ s → Q s) (h₀ : P s₀)
    (hs : ∀ s e s', Q s → P s → ok s e → step s e = some s' → P s') : P s := by
  induction h with
  | start => exact h₀
  | next hr hok he ih => exact hs _ _ _ (hQ _ hr) ih hok he

theorem one (e : E) (hok : ok s e) (h : step s e = some s') : Reach step ok s s' :=
  .next .start hok h

/-- A run goes on where another one ends. -/
theorem trans {s₁ : S} (h : Reach step ok s₀ s₁) (h' : Reach step ok s₁ s) :
    Reach step ok s₀ s := by
  induction h' with
  | start => exact h
  | next _ ho he ih => exact .next ih ho he

/-- A run given as its list of events, each checked before it is taken. -/
theorem of_foldlM [∀ s e, Decidable (ok s e)] : ∀ (es : List E) {s₀ s : S},
    es.foldlM (fun s e => if ok s e then step s e else none) s₀ = some s → Reach step ok s₀ s
  | [], s₀, s, h => by
    simp only [List.foldlM_nil, Option.pure_def, Option.some.injEq] at h
    exact h ▸ .start
  | e :: es, s₀, s, h => by
    rw [List.foldlM_cons, Option.bind_eq_bind, Option.bind_eq_some_iff] at h
    obtain ⟨s₁, h₁, h₂⟩ := h
    split_ifs at h₁ with hok
    exact (one e hok h₁).trans (of_foldlM es h₂)

/-- A relation between the states of two machines that a step of the first one keeps, the second one
taking some steps of its own: what the first one reaches, the second one reaches too. -/
theorem simulates {S' E' : Type*} {step' : S' → E' → Option S'} {ok' : S' → E' → Prop} {t₀ : S'}
    {R : S → S' → Prop} (h : Reach step ok s₀ s) (h₀ : R s₀ t₀)
    (hs : ∀ s e s' t, Reach step ok s₀ s → Reach step' ok' t₀ t → R s t → ok s e →
      step s e = some s' → ∃ t', Reach step' ok' t t' ∧ R s' t') :
    ∃ t, Reach step' ok' t₀ t ∧ R s t := by
  induction h with
  | start => exact ⟨t₀, .start, h₀⟩
  | next hr hok he ih =>
    obtain ⟨t, ht, hrel⟩ := ih
    obtain ⟨t', ht', hrel'⟩ := hs _ _ _ t hr ht hrel hok he
    exact ⟨t', ht.trans ht', hrel'⟩

end Reach

/-! ## Two runs -/

/-- Two runs from one state that take the same events, with extra ones in each of them. -/
inductive Twins (step : S → E → Option S) (extra : S → E → Prop) (s₀ : S) : S → S → Prop
  | start : Twins step extra s₀ s₀ s₀
  | both {s t s' t' : S} {e : E} : Twins step extra s₀ s t → step s e = some s' →
      step t e = some t' → Twins step extra s₀ s' t'
  | left {s t s' : S} {e : E} : Twins step extra s₀ s t → extra s e → step s e = some s' →
      Twins step extra s₀ s' t
  | right {s t t' : S} {e : E} : Twins step extra s₀ s t → extra t e → step t e = some t' →
      Twins step extra s₀ s t'

/-- A symmetric relation that steps on both sides keep, and an extra step on one side. -/
theorem Twins.rule {extra : S → E → Prop} {R : S → S → Prop} {t : S}
    (h : Twins step extra s₀ s t) (h₀ : R s₀ s₀) (hsymm : ∀ s t, R s t → R t s)
    (hboth : ∀ s t e s' t', R s t → step s e = some s' → step t e = some t' → R s' t')
    (hextra : ∀ s t e s', R s t → extra s e → step s e = some s' → R s' t) : R s t := by
  induction h with
  | start => exact h₀
  | both _ hs ht ih => exact hboth _ _ _ _ _ ih hs ht
  | left _ he hs ih => exact hextra _ _ _ _ ih he hs
  | right _ he ht ih => exact hsymm _ _ (hextra _ _ _ _ (hsymm _ _ ih) he ht)

/-- Without an extra step the two runs are one. -/
theorem Twins.of_reach {extra : S → E → Prop} (h : Reach step ok s₀ s) :
    Twins step extra s₀ s s := by
  induction h with
  | start => exact .start
  | next _ _ he ih => exact .both ih he he

end Transition
