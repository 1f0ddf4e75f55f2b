import Mathlib.Data.Rat.Floor
import Mathlib.Tactic.Linarith
import Mathlib.Tactic.NormNum

/-!
# Interpolation with truncation

A whole number moves towards another one by a part of the way, and what it comes to is cut off
toward zero. Cutting off helps a number that is farther from zero than its goal, on the same side:
it comes closer with every step (`approach_closer`). It holds up a number on the other side of the
goal, which never gets there unless it goes all the way at once (`approach_behind`).
-/

namespace Interpolation

/-- The whole part of a rational. -/
def truncate (q : ℚ) : ℤ := if 0 ≤ q then q.floor else -(-q).floor

theorem truncate_neg (q : ℚ) : truncate (-q) = -truncate q := by
  unfold truncate
  rcases lt_trichotomy q 0 with h | rfl | h
  · rw [if_pos (by linarith), if_neg (by linarith), neg_neg]
  · rfl
  · rw [if_neg (by linarith), if_pos h.le, neg_neg]

theorem truncate_intCast (n : ℤ) : truncate n = n := by
  unfold truncate
  split_ifs
  · exact Rat.floor_intCast n
  · rw [← Int.cast_neg, Rat.floor_intCast, neg_neg]

/-- A positive number below a whole one is cut off below it. -/
theorem truncate_lt {q : ℚ} {n : ℤ} (h : q < n) : truncate q < n ∨ q ≤ 0 := by
  unfold truncate
  split_ifs with hq
  · exact .inl (Rat.floor_lt_iff.2 h)
  · exact .inr (by linarith)

theorem truncate_nonpos {q : ℚ} (h : q ≤ 0) : truncate q ≤ 0 := by
  rcases h.lt_or_eq with h | rfl
  · unfold truncate
    rw [if_neg (by linarith)]
    have : 0 ≤ (-q).floor := Rat.le_floor_iff.2 (by push_cast; linarith)
    omega
  · exact le_rfl

theorem le_truncate {q : ℚ} {n : ℤ} (hn : 0 ≤ n) (h : (n : ℚ) ≤ q) : n ≤ truncate q := by
  have : (0 : ℚ) ≤ n := by exact_mod_cast hn
  unfold truncate
  rw [if_pos (by linarith)]
  exact Rat.le_floor_iff.2 h

/-- What lies between two whole numbers is cut off to something between them. -/
theorem truncate_between {q : ℚ} {m n : ℤ} (hm : (m : ℚ) ≤ q) (hn : q ≤ n) :
    m ≤ truncate q ∧ truncate q ≤ n := by
  have hupper : ∀ {q : ℚ} {n : ℤ}, q ≤ n → truncate q ≤ n := by
    intro q n h
    unfold truncate
    split_ifs with hq
    · have := Rat.floor_monotone h
      rwa [Rat.floor_intCast] at this
    · have : -n ≤ (-q).floor := Rat.le_floor_iff.2 (by push_cast; linarith)
      omega
  refine ⟨?_, hupper hn⟩
  have := hupper (q := -q) (n := -m) (by push_cast; linarith)
  rw [truncate_neg] at this
  omega

/-- A step from `x` towards `a`. -/
def approach (α : ℚ) (a x : ℤ) : ℤ := truncate (x + (a - x) * α)

/-- A number is as far from zero as its goal, on the same side, or the goal is zero. -/
def Beyond (a x : ℤ) : Prop := (0 < a → a ≤ x) ∧ (a < 0 → x ≤ a)

instance (a x : ℤ) : Decidable (Beyond a x) := inferInstanceAs (Decidable (_ ∧ _))

theorem approach_neg (α : ℚ) (a x : ℤ) : approach α (-a) (-x) = -approach α a x := by
  unfold approach
  rw [← truncate_neg]
  congr 1
  push_cast
  ring

theorem approach_self (α : ℚ) (a : ℤ) : approach α a a = a := by
  unfold approach
  rw [sub_self, zero_mul, add_zero, truncate_intCast]

theorem approach_one (a x : ℤ) : approach 1 a x = a := by
  unfold approach
  rw [mul_one, add_sub_cancel, truncate_intCast]

variable {α : ℚ} (hα : 0 < α) (hα' : α ≤ 1)

include hα hα'

/-- A step does not leave the way. -/
theorem approach_between (a x : ℤ) : min a x ≤ approach α a x ∧ approach α a x ≤ max a x := by
  have hlow : ((min a x : ℤ) : ℚ) ≤ x + (a - x) * α := by
    rw [Int.cast_min]
    rcases le_total (a : ℚ) x with h | h
    · rw [min_eq_left h]
      nlinarith
    · rw [min_eq_right h]
      nlinarith
  have hhigh : (x + (a - x) * α : ℚ) ≤ ((max a x : ℤ) : ℚ) := by
    rw [Int.cast_max]
    rcases le_total (a : ℚ) x with h | h
    · rw [max_eq_right h]
      nlinarith
    · rw [max_eq_left h]
      nlinarith
  exact truncate_between hlow hhigh

/-- From above a goal that is not negative a step leads down, not below the goal. -/
theorem approach_above {a x : ℤ} (ha : 0 ≤ a) (hx : a < x) :
    a ≤ approach α a x ∧ approach α a x < x := by
  have hlt : (a : ℚ) < x := by exact_mod_cast hx
  have hzero : (0 : ℚ) ≤ a := by exact_mod_cast ha
  refine ⟨le_truncate ha (by nlinarith), ?_⟩
  have hstep : (x + (a - x) * α : ℚ) < x := by nlinarith
  rcases truncate_lt hstep with h | h
  · exact h
  · have := truncate_nonpos h
    unfold approach
    omega

/-- A number beyond its goal comes closer, and stays beyond it. -/
theorem approach_closer {a x : ℤ} (h : Beyond a x) :
    Beyond a (approach α a x) ∧
      ((approach α a x - a).natAbs < (x - a).natAbs ∨ x = a ∧ approach α a x = a) := by
  rcases eq_or_ne x a with rfl | hne
  · rw [approach_self]
    exact ⟨h, .inr ⟨rfl, rfl⟩⟩
  by_cases hup : 0 ≤ a ∧ a < x
  · obtain ⟨h₁, h₂⟩ := approach_above hα hα' hup.1 hup.2
    exact ⟨⟨fun _ => h₁, fun _ => by omega⟩, .inl (by omega)⟩
  · have hdown : 0 ≤ -a ∧ -a < -x := by
      obtain ⟨h₁, h₂⟩ := h
      omega
    obtain ⟨h₁, h₂⟩ := approach_above hα hα' hdown.1 hdown.2
    rw [approach_neg] at h₁ h₂
    exact ⟨⟨fun _ => by omega, fun _ => by omega⟩, .inl (by omega)⟩

omit hα hα' in
/-- A number that is not beyond its goal does not get there by steps that are less than the way. -/
theorem approach_behind {a x : ℤ} (hpart : α < 1) (h : ¬Beyond a x) : ¬Beyond a (approach α a x) := by
  have hbelow : ∀ {a x : ℤ}, 0 < a → x < a → approach α a x < a := by
    intro a x ha hx
    have hlt : (x : ℚ) < a := by exact_mod_cast hx
    have hstep : (x + (a - x) * α : ℚ) < a := by nlinarith
    rcases truncate_lt hstep with h | h
    · exact h
    · have := truncate_nonpos h
      unfold approach
      omega
  intro hb
  by_cases hup : 0 < a ∧ x < a
  · have := hbelow hup.1 hup.2
    have := hb.1 hup.1
    omega
  · have hdown : 0 < -a ∧ -x < -a := by
      by_contra hdown
      exact h ⟨fun _ => by omega, fun _ => by omega⟩
    have := hbelow hdown.1 hdown.2
    rw [approach_neg] at this
    have := hb.2 (by omega)
    omega

end Interpolation
