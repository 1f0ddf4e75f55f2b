import Mathlib.Algebra.Order.Field.Basic
import Mathlib.Tactic.Linarith
import Mathlib.Tactic.Ring

/-!
# Token buckets

A bucket fills at a constant rate up to its capacity. A request takes what it costs out of the
bucket, or is refused; the bucket is filled up to the moment of the request either way. However the
requests come, what is granted between two times is at most the capacity and what flows in between
them (`Run.granted_le`).
-/

structure Bucket (K : Type*) where
  level : K
  last : ℤ

namespace Bucket

variable {K : Type*} [Field K] [LinearOrder K] [IsStrictOrderedRing K]

/-- A request with its outcome. -/
structure Request (K : Type*) where
  now : ℤ
  cost : K
  granted : Bool

/-- What the bucket holds at a later time. -/
def refilled (cap rate : K) (b : Bucket K) (now : ℤ) : K :=
  min cap (b.level + rate * ((now - b.last : ℤ) : K))

/-- The bucket after a request. -/
def after (cap rate : K) (b : Bucket K) (r : Request K) : Bucket K :=
  ⟨b.refilled cap rate r.now - if r.granted then r.cost else 0, r.now⟩

/-- Requests one after the other, each granted only where the bucket holds its cost. -/
inductive Run (cap rate : K) : Bucket K → List (Request K) → Bucket K → Prop
  | nil (b : Bucket K) : Run cap rate b [] b
  | cons {b b' : Bucket K} {r : Request K} {rs : List (Request K)} : b.last ≤ r.now → 0 ≤ r.cost →
      (r.granted = true → r.cost ≤ b.refilled cap rate r.now) →
      Run cap rate (b.after cap rate r) rs b' → Run cap rate b (r :: rs) b'

/-- What is granted from one time to another. -/
def granted (t₁ t₂ : ℤ) : List (Request K) → K
  | [] => 0
  | r :: rs => (if r.granted ∧ t₁ ≤ r.now ∧ r.now ≤ t₂ then r.cost else 0) + granted t₁ t₂ rs

variable {cap rate : K} {b b' : Bucket K} {r : Request K} {rs : List (Request K)} {t₁ t₂ : ℤ}

theorem refilled_nonneg (hcap : 0 ≤ cap) (hrate : 0 ≤ rate) (hb : 0 ≤ b.level) {now : ℤ}
    (hnow : b.last ≤ now) : 0 ≤ b.refilled cap rate now := by
  have hdt : (0 : K) ≤ ((now - b.last : ℤ) : K) := by exact_mod_cast Int.sub_nonneg_of_le hnow
  exact le_min hcap (add_nonneg hb (mul_nonneg hrate hdt))

/-- After a request the bucket holds between nothing and its capacity. -/
theorem after_level (hcap : 0 ≤ cap) (hrate : 0 ≤ rate) (hb : 0 ≤ b.level) (hnow : b.last ≤ r.now)
    (hcost : 0 ≤ r.cost) (hr : r.granted = true → r.cost ≤ b.refilled cap rate r.now) :
    0 ≤ (b.after cap rate r).level ∧ (b.after cap rate r).level ≤ cap := by
  have hpos := refilled_nonneg hcap hrate hb hnow
  have hle : b.refilled cap rate r.now ≤ cap := min_le_left _ _
  unfold after
  split_ifs with hg
  · exact ⟨sub_nonneg.2 (hr hg), by linarith⟩
  · exact ⟨by linarith, by linarith⟩

/-- A request is granted out of what the bucket held before it. -/
theorem granted_cons_le (hcost : 0 ≤ r.cost) {x : K}
    (hrest : granted t₁ t₂ rs ≤ (b.after cap rate r).level + x) :
    granted t₁ t₂ (r :: rs) ≤ b.refilled cap rate r.now + x := by
  unfold after at hrest
  rw [granted]
  by_cases hg : r.granted = true
  · rw [if_pos hg] at hrest
    split_ifs <;> linarith
  · rw [if_neg hg] at hrest
    rw [if_neg fun h => hg h.1]
    linarith

namespace Run

theorem level (hcap : 0 ≤ cap) (hrate : 0 ≤ rate) (h : Run cap rate b rs b') (hb : 0 ≤ b.level)
    (hb' : b.level ≤ cap) : 0 ≤ b'.level ∧ b'.level ≤ cap := by
  induction h with
  | nil b => exact ⟨hb, hb'⟩
  | cons hnow hcost hr _ ih =>
    obtain ⟨h₀, h₁⟩ := after_level hcap hrate hb hnow hcost hr
    exact ih h₀ h₁

omit [IsStrictOrderedRing K] in
/-- No request comes before the bucket's time. -/
theorem last_le (h : Run cap rate b rs b') : ∀ r ∈ rs, b.last ≤ r.now := by
  induction h with
  | nil b => simp
  | cons hnow _ _ _ ih =>
    intro r hr
    rcases List.mem_cons.1 hr with rfl | hr
    · exact hnow
    · exact hnow.trans (ih r hr)

omit [IsStrictOrderedRing K] in
/-- Nothing is granted in an interval that is over. -/
theorem granted_late (h : Run cap rate b rs b') (ht : t₂ < b.last) : granted t₁ t₂ rs = 0 := by
  have hlast := h.last_le
  clear h
  induction rs with
  | nil => rfl
  | cons r rs ih =>
    obtain ⟨hr, hrs⟩ := List.forall_mem_cons.1 hlast
    rw [granted, if_neg (by omega), ih hrs, add_zero]

/-- From a time in the interval on, what is granted is what the bucket holds and what flows in. -/
theorem granted_le_level (t₁ : ℤ) (hcap : 0 ≤ cap) (hrate : 0 ≤ rate) (h : Run cap rate b rs b')
    (hb : 0 ≤ b.level) (ht : b.last ≤ t₂) :
    granted t₁ t₂ rs ≤ b.level + rate * ((t₂ - b.last : ℤ) : K) := by
  induction h with
  | nil b =>
    have hdt : (0 : K) ≤ ((t₂ - b.last : ℤ) : K) := by exact_mod_cast Int.sub_nonneg_of_le ht
    exact add_nonneg hb (mul_nonneg hrate hdt)
  | @cons b b' r rs hnow hcost hr hrun ih =>
    have hdt : (0 : K) ≤ ((t₂ - b.last : ℤ) : K) := by exact_mod_cast Int.sub_nonneg_of_le ht
    have hflow := mul_nonneg hrate hdt
    by_cases hlate : t₂ < r.now
    · rw [granted, if_neg (by omega), hrun.granted_late hlate]
      linarith
    · obtain ⟨h₀, -⟩ := after_level hcap hrate hb hnow hcost hr
      have hrest := ih h₀ (show r.now ≤ t₂ by omega)
      have hfill : b.refilled cap rate r.now ≤ b.level + rate * ((r.now - b.last : ℤ) : K) :=
        min_le_right _ _
      have hsplit : rate * ((t₂ - b.last : ℤ) : K)
          = rate * ((r.now - b.last : ℤ) : K) + rate * ((t₂ - r.now : ℤ) : K) := by
        push_cast
        ring
      have hpaid : granted t₁ t₂ (r :: rs) ≤
          b.refilled cap rate r.now + rate * ((t₂ - r.now : ℤ) : K) :=
        granted_cons_le hcost hrest
      linarith

/-- What is granted between two times is at most the capacity and what flows in between them. -/
theorem granted_le (hcap : 0 ≤ cap) (hrate : 0 ≤ rate) (h : Run cap rate b rs b')
    (hb : 0 ≤ b.level) (ht : t₁ ≤ t₂) :
    granted t₁ t₂ rs ≤ cap + rate * ((t₂ - t₁ : ℤ) : K) := by
  have hdt : (0 : K) ≤ ((t₂ - t₁ : ℤ) : K) := by exact_mod_cast Int.sub_nonneg_of_le ht
  have hflow := mul_nonneg hrate hdt
  induction h with
  | nil b => exact add_nonneg hcap hflow
  | @cons b b' r rs hnow hcost hr hrun ih =>
    obtain ⟨h₀, -⟩ := after_level hcap hrate hb hnow hcost hr
    by_cases hlate : t₂ < r.now
    · rw [granted, if_neg (by omega), hrun.granted_late hlate]
      linarith
    by_cases hearly : r.now < t₁
    · rw [granted, if_neg (by omega), zero_add]
      exact ih h₀
    · -- This is the first request in the interval: the bucket holds at most its capacity.
      have hrest := granted_le_level t₁ hcap hrate hrun h₀ (show r.now ≤ t₂ by omega)
      have hfill : b.refilled cap rate r.now ≤ cap := min_le_left _ _
      have hless : rate * ((t₂ - r.now : ℤ) : K) ≤ rate * ((t₂ - t₁ : ℤ) : K) :=
        mul_le_mul_of_nonneg_left (by exact_mod_cast (show t₂ - r.now ≤ t₂ - t₁ by omega)) hrate
      have hpaid : granted t₁ t₂ (r :: rs) ≤
          b.refilled cap rate r.now + rate * ((t₂ - r.now : ℤ) : K) :=
        granted_cons_le hcost hrest
      linarith

end Run

end Bucket
