import Mathlib.Algebra.Order.AbsoluteValue.Basic
import Mathlib.Algebra.Order.Ring.Unbundled.Rat
import Mathlib.Data.List.Sort
import Mathlib.Order.WithBot
import Mathlib.Tactic.Linarith
import TinRpc.Match

/-!
# Scores

What the standard says of comparing `double`s and of differences of finite ones. A `double` as a
rational, an infinity or a NaN: a NaN compares false with everything, and operations on rationals do
not round.
-/

namespace TinRpc

/-- Comparisons of `double` are those of its values, a NaN having none. A difference of finite
numbers is a number, is the same both ways but for the sign, and does not get smaller, however it is
rounded, when one of the two moves away from the other. -/
class LawfulDoubles (E : Type) extends DoubleLimits E where
  value : E → Option (WithBot (WithTop ℚ))
  lt_iff (a b : E) : lt a b = true ↔ ∃ x y, value a = some x ∧ value b = some y ∧ x < y
  le_iff (a b : E) : le a b = true ↔ ∃ x y, value a = some x ∧ value b = some y ∧ x ≤ y
  Finite : E → Prop
  max_value : ∃ x, value max = some x
  diff_value {a b : E} : Finite a → Finite b →
    ∃ d, value (abs (sub a b)) = some d ∧ value (abs (sub b a)) = some d
  diff_mono {a b c : E} : Finite a → Finite b → Finite c → le a b = true → le b c = true →
    le (abs (sub a b)) (abs (sub a c)) = true

inductive Score
  | nan
  | inf (negative : Bool)
  | fin (q : ℚ)
  deriving DecidableEq

namespace Score

def neg : Score → Score
  | nan => nan
  | inf s => inf !s
  | fin q => fin (-q)

def add : Score → Score → Score
  | nan, _ => nan
  | _, nan => nan
  | inf s, inf t => if s = t then inf s else nan
  | inf s, fin _ => inf s
  | fin _, inf t => inf t
  | fin q, fin r => fin (q + r)

/-- An infinity with the sign of a product with it. -/
def infTimes (s : Bool) (q : ℚ) : Score :=
  if q = 0 then nan else inf (xor s (decide (q < 0)))

def mul : Score → Score → Score
  | nan, _ => nan
  | _, nan => nan
  | inf s, inf t => inf (xor s t)
  | inf s, fin q => infTimes s q
  | fin q, inf s => infTimes s q
  | fin q, fin r => fin (q * r)

/-- Division; a zero has no sign here, so by it everything but zero gives an infinity with the sign
of the dividend. -/
def div : Score → Score → Score
  | nan, _ => nan
  | _, nan => nan
  | inf _, inf _ => nan
  | inf s, fin q => inf (xor s (decide (q < 0)))
  | fin _, inf _ => fin 0
  | fin q, fin r => if r = 0 then infTimes false q else fin (q / r)

def abs : Score → Score
  | nan => nan
  | inf _ => inf false
  | fin q => fin (if q < 0 then -q else q)

def lt : Score → Score → Bool
  | nan, _ => false
  | _, nan => false
  | inf s, inf t => s && !t
  | inf s, fin _ => s
  | fin _, inf t => !t
  | fin q, fin r => decide (q < r)

def le : Score → Score → Bool
  | nan, _ => false
  | _, nan => false
  | inf s, inf t => s || !t
  | inf s, fin _ => s
  | fin _, inf t => !t
  | fin q, fin r => decide (q ≤ r)

instance : Doubles Score where
  ofInt n := fin n
  add := add
  sub a b := add a (neg b)
  mul := mul
  div := div
  abs := abs
  lt := lt
  le := le
  sort := List.insertionSort fun a b => lt b.eloScore a.eloScore = false
  sort_perm := List.perm_insertionSort _

instance : DoubleLimits Score where
  max := fin (2 ^ 1024 - 2 ^ 971)

def value : Score → Option (WithBot (WithTop ℚ))
  | nan => none
  | inf true => some ⊥
  | inf false => some ((⊤ : WithTop ℚ) : WithBot (WithTop ℚ))
  | fin q => some ((q : WithTop ℚ) : WithBot (WithTop ℚ))

theorem value_fin_lt (q : ℚ) : ((q : WithTop ℚ) : WithBot (WithTop ℚ)) < ⊤ :=
  WithBot.coe_lt_coe.2 (WithTop.coe_lt_top q)

instance : LawfulDoubles Score where
  value := value
  lt_iff a b := by
    show lt a b = true ↔ _
    rcases a with _ | (_ | _) | q <;> rcases b with _ | (_ | _) | r <;>
      simp [value, lt, value_fin_lt]
  le_iff a b := by
    show le a b = true ↔ _
    rcases a with _ | (_ | _) | q <;> rcases b with _ | (_ | _) | r <;>
      simp [value, le]
  Finite a := ∃ q, a = fin q
  max_value := ⟨_, rfl⟩
  diff_value := by
    rintro _ _ ⟨q, rfl⟩ ⟨r, rfl⟩
    have hswap : abs (add (fin q) (neg (fin r))) = abs (add (fin r) (neg (fin q))) := by
      simp only [add, neg, abs]
      split_ifs <;> congr 1 <;> linarith
    exact ⟨_, rfl, congrArg value hswap.symm⟩
  diff_mono := by
    rintro _ _ _ ⟨p, rfl⟩ ⟨q, rfl⟩ ⟨r, rfl⟩ hpq hqr
    have hpq : p ≤ q := of_decide_eq_true hpq
    have hqr : q ≤ r := of_decide_eq_true hqr
    refine decide_eq_true ?_
    split_ifs <;> linarith

end Score

end TinRpc
