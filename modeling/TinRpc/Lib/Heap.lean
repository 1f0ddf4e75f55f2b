import Mathlib.Data.List.Sort

/-!
# Heaps in a list

A list is a heap when no element is smaller than its parent, which makes the first the smallest
(`IsHeap.le`). `StdHeap` is what a standard library promises of its two heap operations; sorting
the list is one way to keep the promise.
-/

variable {α K : Type*} [LinearOrder K]

/-- The parent of place `i` is place `(i - 1) / 2`. -/
def IsHeap (l : List K) : Prop :=
  ∀ (i : ℕ) (a b : K), l[(i - 1) / 2]? = some a → l[i]? = some b → a ≤ b

/-- The first is the smallest. -/
theorem IsHeap.le {a : K} {l : List K} (h : IsHeap (a :: l)) : ∀ b ∈ a :: l, a ≤ b := by
  have hplace : ∀ (i : ℕ) (b : K), (a :: l)[i]? = some b → a ≤ b := by
    intro i
    induction i using Nat.strongRecOn with
    | ind i ih =>
      intro b hb
      rcases Nat.eq_zero_or_pos i with rfl | hi
      · obtain rfl := Option.some.inj hb
        exact le_rfl
      · have hlt : (i - 1) / 2 < i := by omega
        have hlen := (List.getElem?_eq_some_iff.1 hb).1
        have hparent : (a :: l)[(i - 1) / 2]? = some (a :: l)[(i - 1) / 2] :=
          List.getElem?_eq_getElem (hlt.trans hlen)
        exact (ih _ hlt _ hparent).trans (h i _ b hparent hb)
  intro b hb
  obtain ⟨i, hi⟩ := List.mem_iff_getElem?.1 hb
  exact hplace i b hi

theorem isHeap_nil : IsHeap ([] : List K) := by
  intro i a b _ hb
  simp at hb

/-- A sorted list is a heap. -/
theorem isHeap_of_pairwise {l : List K} (h : l.Pairwise (· ≤ ·)) : IsHeap l := by
  intro i a b ha hb
  obtain ⟨ha', rfl⟩ := List.getElem?_eq_some_iff.1 ha
  obtain ⟨hb', rfl⟩ := List.getElem?_eq_some_iff.1 hb
  rcases Nat.eq_or_lt_of_le (show (i - 1) / 2 ≤ i by omega) with heq | hlt
  · simp only [heq, le_refl]
  · exact List.pairwise_iff_getElem.1 h _ _ ha' hb' hlt

/-- `std::push_heap` takes the last element into the heap before it, `std::pop_heap` moves the
first one to the end. -/
structure StdHeap (key : α → K) where
  pushHeap : List α → List α
  popHeap : List α → List α
  pushHeap_perm (l : List α) : (pushHeap l).Perm l
  pushHeap_heap (l : List α) (a : α) : IsHeap (l.map key) → IsHeap ((pushHeap (l ++ [a])).map key)
  popHeap_cons (a : α) (l : List α) : IsHeap ((a :: l).map key) →
    ∃ l', popHeap (a :: l) = l' ++ [a] ∧ l'.Perm l ∧ IsHeap (l'.map key)

namespace StdHeap

variable {key : α → K} (std : StdHeap key)

/-- What is left after `pop_heap` and `pop_back`. -/
def popped (l : List α) : List α := (std.popHeap l).dropLast

theorem popped_cons {a : α} {l : List α} (h : IsHeap ((a :: l).map key)) :
    (std.popped (a :: l)).Perm l ∧ IsHeap ((std.popped (a :: l)).map key) := by
  obtain ⟨l', hl', hperm, hheap⟩ := std.popHeap_cons a l h
  unfold popped
  rw [hl', List.dropLast_concat]
  exact ⟨hperm, hheap⟩

theorem pairwise_insertionSort (key : α → K) (l : List α) :
    (l.insertionSort fun a b => key a ≤ key b).Pairwise fun a b => key a ≤ key b := by
  have : Std.Total fun a b : α => key a ≤ key b := ⟨fun a b => le_total (key a) (key b)⟩
  have : IsTrans α fun a b => key a ≤ key b := ⟨fun _ _ _ => le_trans⟩
  exact List.pairwise_insertionSort _ l

theorem isHeap_insertionSort (key : α → K) (l : List α) :
    IsHeap ((l.insertionSort fun a b => key a ≤ key b).map key) :=
  isHeap_of_pairwise (List.pairwise_map.2 (pairwise_insertionSort key l))

/-- The heap operations that sort. -/
def sorting (key : α → K) : StdHeap key where
  pushHeap l := l.insertionSort fun a b => key a ≤ key b
  popHeap
    | [] => []
    | a :: l => l.insertionSort (fun a b => key a ≤ key b) ++ [a]
  pushHeap_perm l := List.perm_insertionSort _ l
  pushHeap_heap l a _ := isHeap_insertionSort key (l ++ [a])
  popHeap_cons _ l _ := ⟨_, rfl, List.perm_insertionSort _ l, isHeap_insertionSort key l⟩

end StdHeap
