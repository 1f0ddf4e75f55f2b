import Mathlib.Algebra.BigOperators.Group.List.Basic

/-!
# Rings of counters

A ring of cells is a list and the place of its head, and a cell is named by how far it lies behind
the head. A turn moves the head on by one place and empties the cell it comes to, which was the
furthest behind; every other cell falls back by one (`cell_turn`).
-/

namespace RingBuffer

variable {M : Type*} {n i a : ℕ}

/-- The place after `i` in a ring of `n` places. -/
def next (n i : ℕ) : ℕ := (i + 1) % n

/-- The place `a` places behind `i` in a ring of `n` places. -/
def behind (n i a : ℕ) : ℕ := if a ≤ i then i - a else i + n - a

theorem next_eq (hi : i < n) : next n i = if i + 1 = n then 0 else i + 1 := by
  unfold next
  split_ifs with h
  · rw [h, Nat.mod_self]
  · exact Nat.mod_eq_of_lt (by omega)

theorem next_lt (hi : i < n) : next n i < n := Nat.mod_lt _ (by omega)

@[simp] theorem behind_zero : behind n i 0 = i := by simp [behind]

theorem behind_next (hi : i < n) (ha : a + 1 < n) : behind n (next n i) (a + 1) = behind n i a := by
  rw [next_eq hi]
  unfold behind
  split_ifs <;> omega

theorem behind_last (hi : i < n) : behind n i (n - 1) = next n i := by
  rw [next_eq hi]
  unfold behind
  split_ifs <;> omega

theorem behind_ne (ha : a < n) (h : a ≠ 0) : behind n i a ≠ i := by
  unfold behind
  split_ifs <;> omega

/-! ## Cells -/

section Cells

variable [Zero M] {cells : List M} {v : M}

/-- The cell `a` places behind the head. -/
def cell (cells : List M) (head a : ℕ) : M := cells.getD (behind cells.length head a) 0

theorem getD_set {j : ℕ} (hi : i < cells.length) :
    (cells.set i v).getD j 0 = if j = i then v else cells.getD j 0 := by
  rw [List.getD_eq_getElem?_getD, List.getElem?_set, List.getD_eq_getElem?_getD]
  split_ifs with h h' h' <;> first | rfl | omega

theorem cell_set (hi : i < cells.length) (ha : a < cells.length) :
    cell (cells.set i v) i a = if a = 0 then v else cell cells i a := by
  unfold cell
  rw [List.length_set, getD_set hi]
  split_ifs with h h₀ h₀
  · rfl
  · exact absurd h (behind_ne ha h₀)
  · rw [h₀, behind_zero] at h
    exact absurd rfl h
  · rfl

/-- After a turn the head is empty and every other cell is one place further behind. -/
theorem cell_turn (hi : i < cells.length) (ha : a < cells.length) :
    cell (cells.set (next cells.length i) 0) (next cells.length i) a
      = if a = 0 then 0 else cell cells i (a - 1) := by
  rw [cell_set (next_lt hi) ha]
  split_ifs with h
  · rfl
  · unfold cell
    obtain ⟨b, rfl⟩ := Nat.exists_eq_succ_of_ne_zero h
    rw [behind_next hi ha, Nat.succ_sub_one]

/-- The cell that a turn empties is the one furthest behind. -/
theorem getD_next (hi : i < cells.length) :
    cells.getD (next cells.length i) 0 = cell cells i (cells.length - 1) := by
  unfold cell
  rw [behind_last hi]

end Cells

/-- What is written over one cell leaves the sum. -/
theorem sum_set_add [AddCommMonoid M] : ∀ (l : List M) {i : ℕ} (v : M), i < l.length →
    (l.set i v).sum + l.getD i 0 = l.sum + v
  | [], i, v, h => by simp at h
  | x :: l, 0, v, _ => by
    rw [List.set_cons_zero, List.sum_cons, List.sum_cons, List.getD_cons_zero, add_right_comm,
      add_comm v x, add_right_comm]
  | x :: l, i + 1, v, h => by
    rw [List.set_cons_succ, List.sum_cons, List.sum_cons, List.getD_cons_succ, add_assoc,
      sum_set_add l v (by simpa using h), add_assoc]

end RingBuffer
