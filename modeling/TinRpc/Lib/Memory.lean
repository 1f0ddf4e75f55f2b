import Mathlib.Data.List.Basic
import Mathlib.Tactic.IntervalCases

/-!
# Words in memory

The bytes of a fixed-width word as a little-endian host keeps them. `store` and `load` are inverse
to each other, so a word and its bytes determine one another.
-/

namespace Memory

/-- The bytes of a 16-bit word, lowest first. -/
def store16 (v : UInt16) : List UInt8 := [v.toUInt8, (v >>> 8).toUInt8]

/-- The 16-bit word two bytes make. -/
def load16 (b₀ b₁ : UInt8) : UInt16 := b₀.toUInt16 ||| b₁.toUInt16 <<< 8

/-- The bytes of a 32-bit word, lowest first. -/
def store32 (v : UInt32) : List UInt8 :=
  [v.toUInt8, (v >>> 8).toUInt8, (v >>> 16).toUInt8, (v >>> 24).toUInt8]

/-- The 32-bit word four bytes make. -/
def load32 (b₀ b₁ b₂ b₃ : UInt8) : UInt32 :=
  b₀.toUInt32 ||| b₁.toUInt32 <<< 8 ||| b₂.toUInt32 <<< 16 ||| b₃.toUInt32 <<< 24

/-- The bytes of a 64-bit word, lowest first. -/
def store64 (v : UInt64) : List UInt8 :=
  [v.toUInt8, (v >>> 8).toUInt8, (v >>> 16).toUInt8, (v >>> 24).toUInt8, (v >>> 32).toUInt8,
    (v >>> 40).toUInt8, (v >>> 48).toUInt8, (v >>> 56).toUInt8]

/-- The 64-bit word eight bytes make. -/
def load64 (b₀ b₁ b₂ b₃ b₄ b₅ b₆ b₇ : UInt8) : UInt64 :=
  b₀.toUInt64 ||| b₁.toUInt64 <<< 8 ||| b₂.toUInt64 <<< 16 ||| b₃.toUInt64 <<< 24 |||
    b₄.toUInt64 <<< 32 ||| b₅.toUInt64 <<< 40 ||| b₆.toUInt64 <<< 48 ||| b₇.toUInt64 <<< 56

@[simp] theorem store16_length (v : UInt16) : (store16 v).length = 2 := rfl

@[simp] theorem store32_length (v : UInt32) : (store32 v).length = 4 := rfl

@[simp] theorem store64_length (v : UInt64) : (store64 v).length = 8 := rfl

theorem store16_load16 (b₀ b₁ : UInt8) : store16 (load16 b₀ b₁) = [b₀, b₁] := by
  unfold store16 load16
  simp only [List.cons.injEq, and_true]
  constructor <;> apply UInt8.eq_of_toBitVec_eq <;> ext i hi
  · simp
  · simp; interval_cases i <;> simp

theorem load16_store16 (v : UInt16) : load16 v.toUInt8 (v >>> 8).toUInt8 = v := by
  unfold load16
  apply UInt16.eq_of_toBitVec_eq
  ext i hi
  simp [-UInt16.toUInt16_toUInt8]
  interval_cases i <;> simp

/-- Different words have different bytes. -/
theorem store16_injective : Function.Injective store16 := by
  intro v w h
  obtain ⟨h₀, h₁, -⟩ : _ ∧ _ ∧ _ := by simpa only [store16, List.cons.injEq] using h
  rw [← load16_store16 v, ← load16_store16 w, h₀, h₁]

theorem store32_load32 (b₀ b₁ b₂ b₃ : UInt8) :
    store32 (load32 b₀ b₁ b₂ b₃) = [b₀, b₁, b₂, b₃] := by
  unfold store32 load32
  simp only [List.cons.injEq, and_true]
  refine ⟨?_, ?_, ?_, ?_⟩ <;> apply UInt8.eq_of_toBitVec_eq <;> ext i hi
  · simp
  all_goals simp; interval_cases i <;> simp

theorem load32_store32 (v : UInt32) :
    load32 v.toUInt8 (v >>> 8).toUInt8 (v >>> 16).toUInt8 (v >>> 24).toUInt8 = v := by
  unfold load32
  apply UInt32.eq_of_toBitVec_eq
  ext i hi
  simp [-UInt32.toUInt32_toUInt8]
  interval_cases i <;> simp

theorem store32_injective : Function.Injective store32 := by
  intro v w h
  obtain ⟨h₀, h₁, h₂, h₃, -⟩ : _ ∧ _ ∧ _ ∧ _ ∧ _ := by
    simpa only [store32, List.cons.injEq] using h
  rw [← load32_store32 v, ← load32_store32 w, h₀, h₁, h₂, h₃]

/-! ## One byte of a 64-bit word -/

/-- Byte `k` of a word, in its place. -/
def onlyByte (v : BitVec 64) (k : ℕ) : BitVec 64 := v &&& BitVec.ofNat 64 (255 <<< (8 * k))

section Byte

variable {v : BitVec 64} {i j k : ℕ}

theorem getLsbD_onlyByte (hk : k ≤ 7) :
    (onlyByte v k).getLsbD i = (decide (i / 8 = k) && v.getLsbD i) := by
  have hmask : (BitVec.ofNat 64 (255 <<< (8 * k))).getLsbD i = decide (i / 8 = k) := by
    rw [BitVec.getLsbD_ofNat, Nat.testBit_shiftLeft, show 255 = 2 ^ 8 - 1 from rfl,
      Nat.testBit_two_pow_sub_one, ← Bool.decide_and, ← Bool.decide_and]
    exact decide_eq_decide.2 (by omega)
  rw [onlyByte, BitVec.getLsbD_and, hmask, Bool.and_comm]

/-- A byte moved up to place `j`. -/
theorem getLsbD_up (hi : i < 64) (hkj : k ≤ j) (hj : j ≤ 7) :
    (onlyByte v k <<< (8 * (j - k))).getLsbD i
      = (decide (i / 8 = j) && v.getLsbD (8 * k + i % 8)) := by
  rw [BitVec.getLsbD_shiftLeft, getLsbD_onlyByte (by omega), decide_eq_true hi, Bool.true_and]
  by_cases hlow : i < 8 * (j - k)
  · simp [hlow, show i / 8 ≠ j by omega]
  · rw [decide_eq_false hlow, Bool.not_false, Bool.true_and]
    by_cases h : i / 8 = j
    · rw [decide_eq_true h, decide_eq_true (by omega : (i - 8 * (j - k)) / 8 = k),
        show i - 8 * (j - k) = 8 * k + i % 8 by omega]
    · simp [h, show (i - 8 * (j - k)) / 8 ≠ k by omega]

/-- A byte moved down to place `j`. -/
theorem getLsbD_down (hjk : j ≤ k) (hk : k ≤ 7) :
    (onlyByte v k >>> (8 * (k - j))).getLsbD i
      = (decide (i / 8 = j) && v.getLsbD (8 * k + i % 8)) := by
  rw [BitVec.getLsbD_ushiftRight, getLsbD_onlyByte hk]
  by_cases h : i / 8 = j
  · rw [decide_eq_true h, decide_eq_true (by omega : (8 * (k - j) + i) / 8 = k),
      show 8 * (k - j) + i = 8 * k + i % 8 by omega]
  · simp [h, show (8 * (k - j) + i) / 8 ≠ k by omega]

/-- A byte taken out and put back. -/
theorem getLsbD_back (hi : i < 64) :
    (((v >>> (8 * k)).setWidth 8).setWidth 64 <<< (8 * k)).getLsbD i
      = (decide (i / 8 = k) && v.getLsbD i) := by
  rw [BitVec.getLsbD_shiftLeft, BitVec.getLsbD_setWidth, BitVec.getLsbD_setWidth,
    BitVec.getLsbD_ushiftRight, decide_eq_true hi, Bool.true_and]
  by_cases hlow : i < 8 * k
  · simp [hlow, show i / 8 ≠ k by omega]
  · rw [decide_eq_false hlow, Bool.not_false, Bool.true_and, decide_eq_true (by omega : _ < 64),
      Bool.true_and, show 8 * k + (i - 8 * k) = i by omega]
    congr 1
    exact decide_eq_decide.2 (by omega)

end Byte

theorem load64_store64 (v : UInt64) :
    load64 v.toUInt8 (v >>> 8).toUInt8 (v >>> 16).toUInt8 (v >>> 24).toUInt8 (v >>> 32).toUInt8
      (v >>> 40).toUInt8 (v >>> 48).toUInt8 (v >>> 56).toUInt8 = v := by
  have hbytes : (load64 v.toUInt8 (v >>> 8).toUInt8 (v >>> 16).toUInt8 (v >>> 24).toUInt8
      (v >>> 32).toUInt8 (v >>> 40).toUInt8 (v >>> 48).toUInt8 (v >>> 56).toUInt8).toBitVec
        = ((v.toBitVec >>> (8 * 0)).setWidth 8).setWidth 64 <<< (8 * 0)
          ||| ((v.toBitVec >>> (8 * 1)).setWidth 8).setWidth 64 <<< (8 * 1)
          ||| ((v.toBitVec >>> (8 * 2)).setWidth 8).setWidth 64 <<< (8 * 2)
          ||| ((v.toBitVec >>> (8 * 3)).setWidth 8).setWidth 64 <<< (8 * 3)
          ||| ((v.toBitVec >>> (8 * 4)).setWidth 8).setWidth 64 <<< (8 * 4)
          ||| ((v.toBitVec >>> (8 * 5)).setWidth 8).setWidth 64 <<< (8 * 5)
          ||| ((v.toBitVec >>> (8 * 6)).setWidth 8).setWidth 64 <<< (8 * 6)
          ||| ((v.toBitVec >>> (8 * 7)).setWidth 8).setWidth 64 <<< (8 * 7) := by
    simp [load64, -UInt64.toUInt64_toUInt8]
  apply UInt64.eq_of_toBitVec_eq
  rw [hbytes]
  refine BitVec.eq_of_getLsbD_eq fun i hi => ?_
  simp (disch := omega) only [BitVec.getLsbD_or, getLsbD_back]
  have : i / 8 < 8 := by omega
  interval_cases i / 8 <;> simp

end Memory
