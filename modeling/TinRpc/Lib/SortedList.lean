import Mathlib.Order.Lattice
import Mathlib.Data.List.Basic
import Mathlib.Data.List.Pairwise
import Mathlib.Data.List.Perm.Subperm

/-!
# Sorted lists

Lists whose entries have keys that increase along the list: finding the place of a key by halving,
writing at a key, and keeping only the entries with the largest keys. What is kept does not depend
on when the others are dropped (`keep_upsert`), nor on the entries below a bound (`filter_keep`).
-/

namespace SortedList

variable {α K : Type*}

/-! ## The place of a key -/

section Search

variable (p : α → Bool) (l : List α)

/-- The loop of `std::lower_bound`; a round halves the range `first`, `len`. -/
def lowerBoundLoop : ℕ → ℕ → ℕ → ℕ
  | 0, first, _ => first
  | n + 1, first, len =>
    if len = 0 then first
    else
      let half := len / 2
      if (l[first + half]?).any p then lowerBoundLoop n (first + half + 1) (len - half - 1)
      else lowerBoundLoop n first half

/-- `std::lower_bound` with the comparison to the value as a predicate. -/
def lowerBound : ℕ := lowerBoundLoop p l l.length 0 l.length

variable {p} {a b : List α}

theorem lowerBoundLoop_append (ha : ∀ x ∈ a, p x = true) (hb : ∀ x ∈ b, p x = false) :
    ∀ n first len, len ≤ n → first ≤ a.length → a.length ≤ first + len →
      first + len ≤ (a ++ b).length → lowerBoundLoop p (a ++ b) n first len = a.length
  | 0, first, len, hn, hlo, hhi, _ => by
    unfold lowerBoundLoop
    omega
  | n + 1, first, len, hn, hlo, hhi, hlen => by
    unfold lowerBoundLoop
    by_cases h₀ : len = 0
    · rw [if_pos h₀]
      omega
    rw [if_neg h₀]
    simp only []
    split_ifs with hp
    · have hmid : first + len / 2 < a.length := by
        by_contra hge
        rw [List.getElem?_append_right (by omega), Option.any_eq_true_iff_get] at hp
        obtain ⟨hsome, hp⟩ := hp
        rw [hb _ (List.mem_of_getElem? (Option.some_get hsome).symm)] at hp
        cases hp
      exact lowerBoundLoop_append ha hb n _ _ (by omega) (by omega) (by omega) (by omega)
    · have hmid : a.length ≤ first + len / 2 := by
        by_contra hlt
        refine hp ?_
        rw [List.getElem?_append_left (by omega), List.getElem?_eq_getElem (by omega)]
        exact ha _ (List.getElem_mem _)
      exact lowerBoundLoop_append ha hb n _ _ (by omega) (by omega) (by omega) (by omega)

/-- Where the predicate holds of a first part and of nothing behind it, its end is found. -/
theorem lowerBound_append (ha : ∀ x ∈ a, p x = true) (hb : ∀ x ∈ b, p x = false) :
    lowerBound p (a ++ b) = a.length :=
  lowerBoundLoop_append ha hb _ _ _ (Nat.le_refl _) (by omega) (by simp) (by simp)

/-! ### Entries that do not compare

Where some entries compare false whatever their place (a NaN), the search is led astray by the
ones it looks at, and by no others.
-/

variable (p) in
/-- The places the loop of `std::lower_bound` looks at. -/
def looksLoop : ℕ → ℕ → ℕ → List ℕ
  | 0, _, _ => []
  | n + 1, first, len =>
    if len = 0 then []
    else
      let half := len / 2
      (first + half) ::
        if (l[first + half]?).any p then looksLoop n (first + half + 1) (len - half - 1)
        else looksLoop n first half

variable (p) in
/-- The places `std::lower_bound` looks at. -/
def looks : List ℕ := looksLoop p l l.length 0 l.length

variable {l} {compares : α → Prop}

theorem mem_take_succ {R : α → α → Prop} {m : ℕ} {x y : α} (h : l.Pairwise R)
    (hm : l[m]? = some y) (hx : x ∈ l.take (m + 1)) : x = y ∨ R x y := by
  rw [List.take_add_one, hm, Option.toList_some, List.mem_append, List.mem_singleton] at hx
  rcases hx with hx | rfl
  · have hy : y ∈ l.drop m := List.mem_of_getElem? (i := 0) (by rw [List.getElem?_drop]; exact hm)
    rw [← List.take_append_drop m l] at h
    exact .inr ((List.pairwise_append.1 h).2.2 x hx y hy)
  · exact .inl rfl

theorem mem_drop_of_getElem? {R : α → α → Prop} {m : ℕ} {x y : α} (h : l.Pairwise R)
    (hm : l[m]? = some y) (hx : x ∈ l.drop m) : x = y ∨ R y x := by
  obtain ⟨hlt, rfl⟩ := List.getElem?_eq_some_iff.1 hm
  have hd := h.sublist (List.drop_sublist m l)
  rw [List.drop_eq_getElem_cons hlt] at hd hx
  rcases List.mem_cons.1 hx with rfl | hx
  · exact .inl rfl
  · exact .inr ((List.pairwise_cons.1 hd).1 x hx)

/-- The predicate holds of what compares before the place found. -/
theorem lowerBoundLoop_below
    (hl : l.Pairwise fun x y => compares x → p y = true → p x = true) :
    ∀ n first len, (∀ x ∈ l.take first, compares x → p x = true) →
      ∀ x ∈ l.take (lowerBoundLoop p l n first len), compares x → p x = true
  | 0, _, _, h => h
  | n + 1, first, len, h => by
    unfold lowerBoundLoop
    split_ifs with h₀
    · exact h
    simp only []
    split_ifs with hp
    · refine lowerBoundLoop_below hl n _ _ fun x hx hc => ?_
      obtain ⟨y, hy, hpy⟩ := (Option.any_eq_true _ _).1 hp
      rcases mem_take_succ hl hy hx with rfl | hxy
      · exact hpy
      · exact hxy hc hpy
    · exact lowerBoundLoop_below hl n _ _ h

theorem lowerBoundLoop_le : ∀ n first len, lowerBoundLoop p l n first len ≤ first + len
  | 0, first, len => Nat.le_add_right _ _
  | n + 1, first, len => by
    unfold lowerBoundLoop
    split_ifs with h₀
    · omega
    simp only []
    split_ifs with hp
    · have := lowerBoundLoop_le n (first + len / 2 + 1) (len - len / 2 - 1)
      omega
    · have := lowerBoundLoop_le n first (len / 2)
      omega

/-- A place that was looked at in vain is not before the one found. -/
theorem lowerBoundLoop_le_look {m : ℕ} {y : α} (hm : l[m]? = some y) (hy : p y = false) :
    ∀ n first len, m ∈ looksLoop p l n first len → lowerBoundLoop p l n first len ≤ m
  | 0, _, _, h => by cases h
  | n + 1, first, len, h => by
    unfold lowerBoundLoop
    unfold looksLoop at h
    split_ifs at h ⊢ with h₀
    · cases h
    simp only [] at h ⊢
    rcases List.mem_cons.1 h with rfl | h
    · rw [hm, Option.any_some, hy, if_neg Bool.false_ne_true]
      exact lowerBoundLoop_le _ _ _
    · split_ifs at h ⊢
      · exact lowerBoundLoop_le_look hm hy n _ _ h
      · exact lowerBoundLoop_le_look hm hy n _ _ h

/-- It holds of nothing behind that place, where this is so of each place looked at that does not
compare. -/
theorem lowerBoundLoop_above
    (hl : l.Pairwise fun x y => compares x → p y = true → p x = true) :
    ∀ n first len, len ≤ n → first + len ≤ l.length →
      (∀ x ∈ l.drop (first + len), p x = false) →
      (∀ m ∈ looksLoop p l n first len, ∀ y, l[m]? = some y → ¬compares y →
        ∀ x ∈ l.drop m, p x = false) →
      ∀ x ∈ l.drop (lowerBoundLoop p l n first len), p x = false
  | 0, first, len, hn, _, h, _ => by
    obtain rfl : len = 0 := by omega
    exact h
  | n + 1, first, len, hn, hlen, h, hlooks => by
    unfold lowerBoundLoop
    unfold looksLoop at hlooks
    split_ifs at hlooks ⊢ with h₀
    · subst h₀
      exact h
    simp only [List.forall_mem_cons] at hlooks ⊢
    obtain ⟨hmid, hlooks⟩ := hlooks
    split_ifs at hlooks ⊢ with hp
    · refine lowerBoundLoop_above hl n _ _ (by omega) (by omega) ?_ hlooks
      rw [show first + len / 2 + 1 + (len - len / 2 - 1) = first + len by omega]
      exact h
    · refine lowerBoundLoop_above hl n _ _ (by omega) (by omega) ?_ hlooks
      have hlt : first + len / 2 < l.length := by omega
      have hy := List.getElem?_eq_getElem hlt
      rw [hy, Option.any_some, Bool.not_eq_true] at hp
      intro x hx
      by_cases hc : compares l[first + len / 2]
      · rcases mem_drop_of_getElem? hl hy hx with rfl | hyx
        · exact hp
        · by_contra hpx
          rw [hyx hc (by simpa using hpx)] at hp
          cases hp
      · exact hmid _ hy hc x hx

/-- The place found is right exactly when no place looked at is an entry that does not compare with
one behind it that the predicate holds of. -/
theorem lowerBound_spec (hl : l.Pairwise fun x y => compares x → p y = true → p x = true)
    (hp : ∀ x, ¬compares x → p x = false) :
    (∀ x ∈ l.take (lowerBound p l), compares x → p x = true) ∧
      ((∀ x ∈ l.drop (lowerBound p l), p x = false) ↔
        ∀ m ∈ looks p l, ∀ y, l[m]? = some y → ¬compares y → ∀ x ∈ l.drop m, p x = false) := by
  refine ⟨lowerBoundLoop_below hl _ _ _ (by simp), fun h m hm y hy hc x hx => ?_, fun h => ?_⟩
  · have hle : lowerBound p l ≤ m := lowerBoundLoop_le_look hy (hp y hc) _ _ _ hm
    have hsub : l.drop m = (l.drop (lowerBound p l)).drop (m - lowerBound p l) := by
      rw [List.drop_drop, Nat.add_sub_cancel' hle]
    exact h x (List.mem_of_mem_drop (hsub ▸ hx))
  · exact lowerBoundLoop_above hl _ _ _ le_rfl (by omega) (by simp) h

theorem insertIdx_eq_append : ∀ {i : ℕ} (l : List α) (x : α), i ≤ l.length →
    l.insertIdx i x = l.take i ++ x :: l.drop i
  | 0, _, _, _ => rfl
  | i + 1, [], _, h => by simp at h
  | i + 1, y :: l, x, h => by
    rw [List.insertIdx_succ_cons, insertIdx_eq_append l x (by simpa using h), List.take_succ_cons,
      List.drop_succ_cons, List.cons_append]

theorem lowerBound_le : lowerBound p l ≤ l.length :=
  (lowerBoundLoop_le _ _ _).trans (by omega)

end Search

variable [LinearOrder K] (key : α → K)

/-- The keys increase. -/
def Sorted (l : List α) : Prop := l.Pairwise (key · < key ·)

variable {key} {k : K} {l : List α} {x : α}

/-- The entries below a key and the others. -/
theorem Sorted.split (hs : Sorted key l) (k : K) :
    ∃ a b, l = a ++ b ∧ (∀ x ∈ a, key x < k) ∧ ∀ x ∈ b, k ≤ key x := by
  induction l with
  | nil => exact ⟨[], [], rfl, by simp, by simp⟩
  | cons x l ih =>
    obtain ⟨hx, hl⟩ := List.pairwise_cons.1 hs
    rcases lt_or_ge (key x) k with h | h
    · obtain ⟨a, b, rfl, ha, hb⟩ := ih hl
      exact ⟨x :: a, b, rfl, List.forall_mem_cons.2 ⟨h, ha⟩, hb⟩
    · exact ⟨[], x :: l, rfl, by simp,
        List.forall_mem_cons.2 ⟨h, fun y hy => h.trans (hx y hy).le⟩⟩

/-! ## Writing at a key -/

variable (key) in
/-- Write the entry at a key, given the one that is there. -/
def upsert (k : K) (f : Option α → α) : List α → List α
  | [] => [f none]
  | x :: l =>
    if key x < k then x :: upsert k f l
    else if key x = k then f (some x) :: l
    else f none :: x :: l

variable {f : Option α → α}

theorem upsert_nil : upsert key k f [] = [f none] := rfl

theorem upsert_cons (x : α) (l : List α) : upsert key k f (x :: l) =
    if key x < k then x :: upsert key k f l
    else if key x = k then f (some x) :: l
    else f none :: x :: l := rfl

theorem upsert_append {a b : List α} (ha : ∀ x ∈ a, key x < k) :
    upsert key k f (a ++ b) = a ++ upsert key k f b := by
  induction a with
  | nil => rfl
  | cons x a ih =>
    obtain ⟨hx, ha⟩ := List.forall_mem_cons.1 ha
    rw [List.cons_append, upsert_cons, if_pos hx, ih ha, List.cons_append]

theorem upsert_above (hl : ∀ x ∈ l, k < key x) : upsert key k f l = f none :: l := by
  cases l with
  | nil => rfl
  | cons x l =>
    have hx := hl x List.mem_cons_self
    rw [upsert_cons, if_neg hx.not_gt, if_neg hx.ne']

/-- A key that is not above all of the first part is written there. -/
theorem upsert_append_left {a b : List α} (ha : ∃ x ∈ a, k ≤ key x) :
    upsert key k f (a ++ b) = upsert key k f a ++ b := by
  induction a with
  | nil => simp at ha
  | cons x a ih =>
    rw [List.cons_append, upsert_cons, upsert_cons]
    split_ifs with hx he
    · obtain ⟨y, hy, hle⟩ := ha
      rcases List.mem_cons.1 hy with rfl | hy
      · exact absurd hx hle.not_gt
      · rw [ih ⟨y, hy, hle⟩, List.cons_append]
    · rfl
    · rfl

theorem mem_upsert_keys (hf : ∀ o, key (f o) = k) {j : K} :
    (∃ x ∈ upsert key k f l, key x = j) ↔ j = k ∨ ∃ x ∈ l, key x = j := by
  induction l with
  | nil => simp [upsert_nil, hf, eq_comm]
  | cons x l ih =>
    rw [upsert_cons]
    split_ifs with hx he
    · simp only [List.mem_cons, exists_eq_or_imp, ih]
      tauto
    · simp only [List.mem_cons, exists_eq_or_imp, hf, he, eq_comm (a := k)]
      tauto
    · simp only [List.mem_cons, exists_eq_or_imp, hf, eq_comm (a := k)]

theorem length_upsert_le : l.length ≤ (upsert key k f l).length := by
  induction l with
  | nil => simp
  | cons x l ih =>
    rw [upsert_cons]
    split_ifs
    · simpa using ih
    · simp
    · simp

theorem length_upsert_of_mem (hs : Sorted key l) (hk : ∃ x ∈ l, key x = k) :
    (upsert key k f l).length = l.length := by
  induction l with
  | nil => simp at hk
  | cons x l ih =>
    obtain ⟨hx, hl⟩ := List.pairwise_cons.1 hs
    obtain ⟨y, hy, hyk⟩ := hk
    rw [upsert_cons]
    split_ifs with hlt he
    · rcases List.mem_cons.1 hy with rfl | hy
      · exact absurd hyk hlt.ne
      · rw [List.length_cons, ih hl ⟨y, hy, hyk⟩, List.length_cons]
    · rfl
    · rcases List.mem_cons.1 hy with rfl | hy
      · exact absurd hyk he
      · exact absurd (hyk ▸ hx y hy) hlt

theorem length_upsert_succ_le : (upsert key k f l).length ≤ l.length + 1 := by
  induction l with
  | nil => simp [upsert_nil]
  | cons x l ih =>
    rw [upsert_cons]
    split_ifs
    · simpa using ih
    · simp
    · simp

/-- A sorted list is no longer than one that has all its keys. -/
theorem Sorted.length_le {l' : List α} (hs : Sorted key l)
    (h : ∀ x ∈ l, ∃ y ∈ l', key y = key x) : l.length ≤ l'.length := by
  have hnodup : (l.map key).Nodup := List.Pairwise.map key (fun _ _ h => h.ne) hs
  have hsub : l.map key ⊆ l'.map key := by
    intro j hj
    obtain ⟨x, hx, rfl⟩ := List.mem_map.1 hj
    obtain ⟨y, hy, hyx⟩ := h x hx
    exact List.mem_map.2 ⟨y, hy, hyx⟩
  simpa using (List.subperm_of_subset hnodup hsub).length_le

theorem Sorted.upsert (hs : Sorted key l) (hf : ∀ o, key (f o) = k) :
    Sorted key (upsert key k f l) := by
  induction l with
  | nil => exact List.pairwise_singleton _ _
  | cons x l ih =>
    obtain ⟨hx, hl⟩ := List.pairwise_cons.1 hs
    rw [upsert_cons]
    split_ifs with hlt he
    · refine List.pairwise_cons.2 ⟨fun y hy => ?_, ih hl⟩
      rcases (mem_upsert_keys hf).1 ⟨y, hy, rfl⟩ with hk | ⟨z, hz, hzy⟩
      · rw [hk]; exact hlt
      · rw [← hzy]; exact hx z hz
    · exact List.pairwise_cons.2 ⟨fun y hy => by rw [hf, ← he]; exact hx y hy, hl⟩
    · have hgt : k < key x := lt_of_le_of_ne (le_of_not_gt hlt) (Ne.symm he)
      refine List.pairwise_cons.2 ⟨fun y hy => ?_, hs⟩
      rw [hf]
      rcases List.mem_cons.1 hy with rfl | hy
      · exact hgt
      · exact hgt.trans (hx y hy)

theorem find_of_above (hl : ∀ x ∈ l, k < key x) : l.find? (fun x => key x = k) = none := by
  rw [List.find?_eq_none]
  intro x hx
  simpa using (hl x hx).ne'

/-- Found at a key is the entry that has it. -/
theorem Sorted.find_eq_some_iff (hs : Sorted key l) :
    l.find? (fun x => key x = k) = some x ↔ x ∈ l ∧ key x = k := by
  refine ⟨fun h => ⟨List.mem_of_find?_eq_some h, by simpa using List.find?_some h⟩, ?_⟩
  rintro ⟨hx, rfl⟩
  induction l with
  | nil => cases hx
  | cons y l ih =>
    obtain ⟨hy, hl⟩ := List.pairwise_cons.1 hs
    rcases List.mem_cons.1 hx with rfl | hx
    · exact List.find?_cons_of_pos (decide_eq_true rfl)
    · rw [List.find?_cons_of_neg (by simpa using (hy x hx).ne)]
      exact ih hl hx

/-- A part of a sorted list has nothing at a key or what the list has there. -/
theorem Sorted.find_sublist {l' : List α} (hs : Sorted key l) (h : l'.Sublist l) (k : K) :
    l'.find? (fun x => key x = k) = none
      ∨ l'.find? (fun x => key x = k) = l.find? fun x => key x = k := by
  rcases hx : l'.find? (fun x => key x = k) with _ | x
  · exact .inl rfl
  · have hs' : Sorted key l' := hs.sublist h
    obtain ⟨hmem, hk⟩ := hs'.find_eq_some_iff.1 hx
    exact .inr (hs.find_eq_some_iff.2 ⟨h.subset hmem, hk⟩).symm

/-- What is found at a key after a write. -/
theorem Sorted.find_upsert (hs : Sorted key l) (hf : ∀ o, key (f o) = k) (j : K) :
    (SortedList.upsert key k f l).find? (fun x => key x = j)
      = if j = k then some (f (l.find? fun x => key x = k)) else l.find? fun x => key x = j := by
  have hfind : ∀ o l', (f o :: l').find? (fun x => key x = j)
      = if j = k then some (f o) else l'.find? fun x => key x = j := fun o l' => by
    split_ifs with hj
    · exact List.find?_cons_of_pos (by simpa [hj] using hf o)
    · exact List.find?_cons_of_neg (by simpa [hf] using Ne.symm hj)
  induction l with
  | nil => exact hfind none []
  | cons x l ih =>
    obtain ⟨hx, hl⟩ := List.pairwise_cons.1 hs
    rw [upsert_cons]
    rcases lt_trichotomy (key x) k with hlt | he | hgt
    · rw [if_pos hlt, List.find?_cons, List.find?_cons, ih hl,
        decide_eq_false hlt.ne]
      split_ifs with hj
      · rw [hj, decide_eq_false hlt.ne]
      · rfl
    · rw [if_neg he.not_lt, if_pos he, hfind, List.find?_cons_of_pos (by simpa using he)]
      split_ifs with hj
      · rfl
      · exact (List.find?_cons_of_neg (by simpa [he] using Ne.symm hj)).symm
    · have hnone := find_of_above (List.forall_mem_cons.2 ⟨hgt, fun y hy => hgt.trans (hx y hy)⟩)
      rw [if_neg hgt.not_gt, if_neg hgt.ne', hfind, hnone]

/-- A write replaces the entry at its key and nothing else. -/
theorem Sorted.mem_upsert_iff (hs : Sorted key l) (hf : ∀ o, key (f o) = k) :
    x ∈ SortedList.upsert key k f l
      ↔ x ∈ l ∧ key x ≠ k ∨ x = f (l.find? fun y => key y = k) := by
  have hfind := (hs.upsert hf).find_eq_some_iff (x := x) (k := key x)
  rw [hs.find_upsert hf, and_iff_left rfl] at hfind
  rw [← hfind]
  split_ifs with hk
  · simp only [hk, ne_eq, not_true_eq_false, and_false, false_or, Option.some.injEq, eq_comm]
  · rw [hs.find_eq_some_iff, and_iff_left rfl]
    refine ⟨fun hx => .inl ⟨hx, hk⟩, fun h => h.elim And.left fun hx => ?_⟩
    exact absurd (hx ▸ hf _) hk

/-- Cut off below a bound are the entries with smaller keys. -/
theorem Sorted.dropWhile_eq_filter (hs : Sorted key l) (k : K) :
    l.dropWhile (fun x => key x < k) = l.filter fun x => k ≤ key x := by
  obtain ⟨a, b, rfl, ha, hb⟩ := hs.split k
  have hdrop : (a ++ b).dropWhile (fun x => decide (key x < k)) = b := by
    rw [List.dropWhile_append_of_pos (by simpa using ha)]
    cases b with
    | nil => rfl
    | cons x b => exact List.dropWhile_cons_of_neg (by simpa using hb x List.mem_cons_self)
  rw [hdrop, List.filter_append, List.filter_eq_nil_iff.2 (by simpa using ha), List.nil_append,
    List.filter_eq_self.2 (by simpa using hb)]

/-- Where the key passes the filter, writing and filtering commute. -/
theorem filter_upsert {q : K → Bool} (hs : Sorted key l) (hf : ∀ o, key (f o) = k)
    (hq : q k = true) : (upsert key k f l).filter (fun x => q (key x))
      = upsert key k f (l.filter fun x => q (key x)) := by
  induction l with
  | nil => simp [upsert_nil, hf, hq]
  | cons x l ih =>
    obtain ⟨hx, hl⟩ := List.pairwise_cons.1 hs
    rw [upsert_cons]
    split_ifs with hlt he
    · rw [List.filter_cons, List.filter_cons, ih hl]
      split_ifs
      · rw [upsert_cons, if_pos hlt]
      · rfl
    · have hqx : q (key x) = true := he ▸ hq
      rw [List.filter_cons_of_pos (by rw [hf]; exact hq), List.filter_cons, if_pos hqx, upsert_cons,
        if_neg hlt, if_pos he]
    · have hgt : k < key x := lt_of_le_of_ne (le_of_not_gt hlt) (Ne.symm he)
      rw [List.filter_cons_of_pos (by rw [hf]; exact hq), upsert_above]
      intro y hy
      rcases List.mem_cons.1 (List.mem_of_mem_filter hy) with rfl | hy
      · exact hgt
      · exact hgt.trans (hx y hy)

/-- Where it does not, writing cannot be seen. -/
theorem filter_upsert_of_not {q : K → Bool} (hf : ∀ o, key (f o) = k) (hq : q k = false) :
    (upsert key k f l).filter (fun x => q (key x)) = l.filter fun x => q (key x) := by
  induction l with
  | nil => simp [upsert_nil, hf, hq]
  | cons x l ih =>
    rw [upsert_cons]
    split_ifs with hlt he
    · rw [List.filter_cons, List.filter_cons, ih]
    · rw [List.filter_cons_of_neg (by simp [hf, hq]), List.filter_cons_of_neg (by simp [he, hq])]
    · rw [List.filter_cons_of_neg (by simp [hf, hq])]

/-! ## Keeping the largest keys -/

/-- The last `m` entries. -/
def keep (m : ℕ) (l : List α) : List α := l.drop (l.length - m)

theorem keep_of_length_le {m : ℕ} (h : l.length ≤ m) : keep m l = l := by
  unfold keep
  rw [show l.length - m = 0 by omega, List.drop_zero]

theorem length_keep (m : ℕ) (l : List α) : (keep m l).length = min m l.length := by
  unfold keep
  rw [List.length_drop]
  omega

theorem keep_keep (m : ℕ) (l : List α) : keep m (keep m l) = keep m l :=
  keep_of_length_le (by rw [length_keep]; omega)

/-- Entries dropped early are dropped by a later call too. -/
theorem keep_keep_append (m : ℕ) (a b : List α) : keep m (keep m a ++ b) = keep m (a ++ b) := by
  unfold keep
  rw [List.length_append, List.length_append, List.length_drop, List.drop_append, List.drop_append,
    List.drop_drop, List.length_drop]
  congr 1
  · congr 1
    omega
  · congr 1
    omega

theorem keep_sublist (m : ℕ) (l : List α) : (keep m l).Sublist l := List.drop_sublist _ _


/-- A last part that is long enough is all that matters. -/
theorem keep_append {m : ℕ} {a b : List α} (h : m ≤ b.length) : keep m (a ++ b) = keep m b := by
  unfold keep
  rw [List.drop_append, List.length_append, List.drop_eq_nil_of_le (by omega), List.nil_append,
    show a.length + b.length - m - a.length = b.length - m by omega]

theorem Sorted.keep (hs : Sorted key l) (m : ℕ) : Sorted key (keep m l) :=
  hs.sublist (keep_sublist m l)

/-- Kept are the entries with fewer than `m` larger keys. -/
theorem Sorted.mem_keep_iff (hs : Sorted key l) (m : ℕ) :
    x ∈ SortedList.keep m l ↔ x ∈ l ∧ (l.filter fun y => key x < key y).length < m := by
  induction l with
  | nil => simp [SortedList.keep]
  | cons y l ih =>
    obtain ⟨hy, hl⟩ := List.pairwise_cons.1 hs
    rcases le_or_gt m l.length with hm | hm
    · have hdrop : SortedList.keep m (y :: l) = SortedList.keep m l := keep_append (a := [y]) hm
      rw [hdrop, ih hl]
      have hall : l.filter (fun z => key y < key z) = l :=
        List.filter_eq_self.2 fun z hz => decide_eq_true (hy z hz)
      constructor
      · rintro ⟨hx, hlt⟩
        rw [List.filter_cons_of_neg (by simpa using (hy x hx).le)]
        exact ⟨List.mem_cons_of_mem _ hx, hlt⟩
      · rintro ⟨hx, hlt⟩
        rcases List.mem_cons.1 hx with rfl | hx
        · rw [List.filter_cons_of_neg (by simp), hall] at hlt
          omega
        · rw [List.filter_cons_of_neg (by simpa using (hy x hx).le)] at hlt
          exact ⟨hx, hlt⟩
    · rw [keep_of_length_le (by rw [List.length_cons]; omega)]
      refine (and_iff_left_of_imp fun hx => ?_).symm
      have hlt : (List.filter (fun z => decide (key x < key z)) (y :: l)).length
          < (y :: l).length :=
        List.length_filter_lt_length_iff_exists.2 ⟨x, hx, by simp⟩
      exact hlt.trans_le (by rw [List.length_cons]; omega)

/-- Dropping entries before a write makes no difference to what is kept after it. -/
theorem keep_upsert (hs : Sorted key l) (m : ℕ) :
    keep m (upsert key k f (keep m l)) = keep m (upsert key k f l) := by
  by_cases hm : l.length ≤ m
  · rw [keep_of_length_le hm]
  have hb : (keep m l).length = m := by rw [length_keep]; omega
  obtain ⟨a, ha⟩ : ∃ a, l = a ++ keep m l := ⟨l.take (l.length - m), by
    unfold keep
    rw [List.take_append_drop]⟩
  generalize keep m l = b at ha hb ⊢
  subst ha
  by_cases hk : ∃ x ∈ a, k ≤ key x
  · have habove : ∀ y ∈ b, k < key y := by
      obtain ⟨x, hx, hle⟩ := hk
      intro y hy
      exact lt_of_le_of_lt hle ((List.pairwise_append.1 hs).2.2 x hx y hy)
    rw [upsert_append_left hk, upsert_above habove, keep_append (by omega),
      show f none :: b = [f none] ++ b from rfl, keep_append (by omega)]
  · have hbelow : ∀ x ∈ a, key x < k := by simpa using hk
    have hle : b.length ≤ (upsert key k f b).length := length_upsert_le
    rw [upsert_append hbelow, keep_append (by omega)]

/-- Entries below a bound make no difference to what is kept above it. -/
theorem filter_keep {q : K → Bool} (hs : Sorted key l)
    (hq : ∀ i j, i ≤ j → q i = true → q j = true) (m : ℕ) :
    (keep m l).filter (fun x => q (key x)) = keep m (l.filter fun x => q (key x)) := by
  obtain ⟨a, b, rfl, ha, hb⟩ : ∃ a b, l = a ++ b ∧ (∀ x ∈ a, q (key x) = false)
      ∧ ∀ x ∈ b, q (key x) = true := by
    clear m
    induction l with
    | nil => exact ⟨[], [], rfl, by simp, by simp⟩
    | cons x l ih =>
      obtain ⟨hx, hl⟩ := List.pairwise_cons.1 hs
      rcases hqx : q (key x) with _ | _
      · obtain ⟨a, b, rfl, ha, hb⟩ := ih hl
        exact ⟨x :: a, b, rfl, List.forall_mem_cons.2 ⟨hqx, ha⟩, hb⟩
      · exact ⟨[], x :: l, rfl, by simp,
          List.forall_mem_cons.2 ⟨hqx, fun y hy => hq _ _ (hx y hy).le hqx⟩⟩
  have hnil : (a.drop ((a ++ b).length - m)).filter (fun x => q (key x)) = [] := by
    rw [List.filter_eq_nil_iff]
    intro x hx
    simp [ha x (List.mem_of_mem_drop hx)]
  have hall : ∀ n, (b.drop n).filter (fun x => q (key x)) = b.drop n := fun n =>
    List.filter_eq_self.2 fun x hx => hb x (List.mem_of_mem_drop hx)
  have hfa : (a ++ b).filter (fun x => q (key x)) = b := by
    rw [List.filter_append, List.filter_eq_self.2 hb, List.filter_eq_nil_iff.2 (by simpa using ha),
      List.nil_append]
  rw [hfa]
  unfold keep
  rw [List.drop_append, List.filter_append, hnil, hall, List.nil_append, List.length_append,
    show a.length + b.length - m - a.length = b.length - m by omega]

end SortedList
