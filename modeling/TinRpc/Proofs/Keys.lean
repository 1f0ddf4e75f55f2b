import Mathlib.Data.List.Basic
import Mathlib.Data.Int.Basic
import Mathlib.Tactic.NormNum
import TinRpc.World

/-!
# Decimal names

A cell is known by its key `"x:y:z"` and a building by its number. The decimal notation of a number
has digits and perhaps a sign in it, so a key determines its cell and none of these names has a NUL.
-/

namespace TinRpc

open Bson (NulFree nul)

theorem toList_toString_int (n : ℤ) : (toString n).toList =
    if 0 ≤ n then Nat.toDigits 10 n.toNat else '-' :: Nat.toDigits 10 (-n).toNat := by
  rw [Int.toString_eq_repr, Int.repr_eq_if]
  split_ifs
  · exact Nat.toList_repr
  · rw [String.toList_append, Nat.toList_repr]; rfl

theorem isDigit_or_sign {n : ℤ} {c : Char} (h : c ∈ (toString n).toList) :
    c.isDigit ∨ c = '-' := by
  rw [toList_toString_int] at h
  split_ifs at h
  · exact .inl (Nat.isDigit_of_mem_toDigits (by decide) (by decide) h)
  · rcases List.mem_cons.1 h with rfl | h
    · exact .inr rfl
    · exact .inl (Nat.isDigit_of_mem_toDigits (by decide) (by decide) h)

theorem colon_notMem (n : ℤ) : ':' ∉ (toString n).toList := by
  intro h
  rcases isDigit_or_sign h with h | h <;> exact absurd h (by decide)

theorem nul_notMem (n : ℤ) : nul ∉ (toString n).toList := by
  intro h
  rcases isDigit_or_sign h with h | h <;> exact absurd h (by decide)

theorem toDigits_injective {m n : ℕ} (h : Nat.toDigits 10 m = Nat.toDigits 10 n) : m = n := by
  rw [← Nat.ofDigitChars_ten_toDigits (n := m), h, Nat.ofDigitChars_ten_toDigits]

theorem sign_notMem (n : ℕ) : '-' ∉ Nat.toDigits 10 n := by
  intro h
  exact absurd (Nat.isDigit_of_mem_toDigits (by decide) (by decide) h) (by decide)

theorem toString_int_injective {m n : ℤ} (h : (toString m).toList = (toString n).toList) :
    m = n := by
  rw [toList_toString_int, toList_toString_int] at h
  split_ifs at h with hm hn hn
  · have := toDigits_injective h
    omega
  · exact absurd (h ▸ List.mem_cons_self) (sign_notMem m.toNat)
  · exact absurd (h ▸ List.mem_cons_self) (sign_notMem n.toNat)
  · have := toDigits_injective (List.cons.inj h).2
    omega

theorem toList_voxelKey (x y z : ℤ) : (voxelKey x y z).toList =
    (toString x).toList ++ ':' :: ((toString y).toList ++ ':' :: (toString z).toList) := by
  simp [voxelKey, String.toList_append]

/-- A colon splits what has none before it in one way. -/
theorem append_colon_inj {a a' b b' : List Char} (ha : ':' ∉ a) (ha' : ':' ∉ a')
    (h : a ++ ':' :: b = a' ++ ':' :: b') : a = a' ∧ b = b' := by
  induction a generalizing a' with
  | nil =>
    cases a' with
    | nil => exact ⟨rfl, (List.cons.inj h).2⟩
    | cons c a' => exact absurd ((List.cons.inj h).1 ▸ List.mem_cons_self) ha'
  | cons c a ih =>
    cases a' with
    | nil => exact absurd ((List.cons.inj h).1 ▸ List.mem_cons_self) ha
    | cons c' a' =>
      obtain ⟨rfl, htail⟩ := List.cons.inj h
      obtain ⟨rfl, rfl⟩ := ih (List.not_mem_of_not_mem_cons ha)
        (List.not_mem_of_not_mem_cons ha') htail
      exact ⟨rfl, rfl⟩

theorem voxelKey_inj {x y z x' y' z' : ℤ} :
    voxelKey x y z = voxelKey x' y' z' ↔ x = x' ∧ y = y' ∧ z = z' := by
  refine ⟨fun h => ?_, by rintro ⟨rfl, rfl, rfl⟩; rfl⟩
  have h := congrArg String.toList h
  rw [toList_voxelKey, toList_voxelKey] at h
  obtain ⟨hx, h⟩ := append_colon_inj (colon_notMem x) (colon_notMem x') h
  obtain ⟨hy, hz⟩ := append_colon_inj (colon_notMem y) (colon_notMem y') h
  exact ⟨toString_int_injective hx, toString_int_injective hy, toString_int_injective hz⟩

end TinRpc
