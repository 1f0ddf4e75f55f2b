import Mathlib.Data.List.Induction

/-!
# Scanning a stream

A scanner looks at the front of a list and, as soon as that suffices, says how much of it to take
off and what it stands for, if anything. What it says does not change when the list goes on. So a
list that arrives in pieces, scanned each time as far as possible, gives what the whole list gives
(`feed_chunks`).
-/

/-- A way to take something off the front of a list. -/
structure Scanner (B A : Type*) where
  /-- How much to take off, and what it stands for; nothing if more of the list is needed. -/
  look : List B → Option (ℕ × Option A)
  look_append : ∀ {b c k o}, look b = some (k, o) → look (b ++ c) = some (k, o)
  look_pos : ∀ {b k o}, look b = some (k, o) → 0 < k ∧ k ≤ b.length

namespace Scanner

variable {B A : Type*} (S : Scanner B A)

/-- Take things off until more of the list is needed, at most so many. -/
def scanFuel : ℕ → List B → List A × List B
  | 0, b => ([], b)
  | n + 1, b =>
    match S.look b with
    | none => ([], b)
    | some (k, o) => (o.toList ++ (scanFuel n (b.drop k)).1, (scanFuel n (b.drop k)).2)

/-- What a list stands for and its unfinished rest. -/
def scan (b : List B) : List A × List B := S.scanFuel b.length b

/-- Scan what was left over with the next piece behind it. -/
def feed (s : List A × List B) (chunk : List B) : List A × List B :=
  (s.1 ++ (S.scan (s.2 ++ chunk)).1, (S.scan (s.2 ++ chunk)).2)

variable {S} {b c : List B} {k : ℕ} {o : Option A}

theorem look_nil : S.look [] = none := by
  rcases h : S.look [] with _ | ⟨k, o⟩
  · rfl
  · obtain ⟨hpos, hle⟩ := S.look_pos h
    exact absurd (Nat.lt_of_lt_of_le hpos hle) (Nat.lt_irrefl 0)

theorem drop_length (h : S.look b = some (k, o)) : (b.drop k).length < b.length := by
  have := S.look_pos h
  rw [List.length_drop]
  omega

theorem scanFuel_none (h : S.look b = none) : ∀ n, S.scanFuel n b = ([], b)
  | 0 => rfl
  | n + 1 => by simp only [scanFuel, h]

theorem scanFuel_some (h : S.look b = some (k, o)) (n : ℕ) : S.scanFuel (n + 1) b =
    (o.toList ++ (S.scanFuel n (b.drop k)).1, (S.scanFuel n (b.drop k)).2) := by
  simp only [scanFuel, h]

theorem scanFuel_enough : ∀ (n : ℕ) (b : List B), b.length ≤ n → S.scanFuel n b = S.scan b
  | 0, b, h => by
    rw [List.length_eq_zero_iff.1 (show b.length = 0 by omega)]
    rfl
  | n + 1, b, h => by
    rcases hl : S.look b with _ | ⟨k, o⟩
    · rw [scanFuel_none hl, scan, scanFuel_none hl]
    · have hlt := drop_length hl
      obtain ⟨m, hm⟩ : ∃ m, b.length = m + 1 := ⟨b.length - 1, by omega⟩
      rw [scan, hm, scanFuel_some hl, scanFuel_some hl, scanFuel_enough n _ (by omega),
        scanFuel_enough m _ (by omega)]

theorem scan_none (h : S.look b = none) : S.scan b = ([], b) := scanFuel_none h _

theorem scan_some (h : S.look b = some (k, o)) :
    S.scan b = (o.toList ++ (S.scan (b.drop k)).1, (S.scan (b.drop k)).2) := by
  have hlt := drop_length h
  rw [← scanFuel_enough (b.length + 1) b (by omega), scanFuel_some h,
    scanFuel_enough b.length _ (by omega)]

/-- What is proved of lists that need more, and kept by what is taken off the front, holds of all
lists. -/
theorem scan_induction {P : List B → Prop} (h₀ : ∀ b, S.look b = none → P b)
    (hs : ∀ b k o, S.look b = some (k, o) → P (b.drop k) → P b) (b : List B) : P b := by
  induction hn : b.length using Nat.strongRecOn generalizing b with
  | ind n ih =>
    rcases hl : S.look b with _ | ⟨k, o⟩
    · exact h₀ b hl
    · exact hs b k o hl (ih (b.drop k).length (hn ▸ drop_length hl) (b.drop k) rfl)

/-- The scan goes on until more of the list is needed. -/
theorem look_rest (b : List B) : S.look (S.scan b).2 = none := by
  induction b using scan_induction (S := S) with
  | h₀ b h => rw [scan_none h, h]
  | hs b k o h ih => rw [scan_some h, ih]

/-- More of the list leaves what was found so far as it is. -/
theorem scan_append (b c : List B) : S.scan (b ++ c) =
    ((S.scan b).1 ++ (S.scan ((S.scan b).2 ++ c)).1, (S.scan ((S.scan b).2 ++ c)).2) := by
  induction b using scan_induction (S := S) with
  | h₀ b h => rw [scan_none h, List.nil_append]
  | hs b k o h ih =>
    have hk := (S.look_pos h).2
    rw [scan_some (S.look_append h), scan_some h, List.drop_append_of_le_length hk, ih,
      List.append_assoc]

/-- A list in pieces gives what the whole list gives. -/
theorem feed_chunks (chunks : List (List B)) :
    chunks.foldl S.feed ([], []) = S.scan chunks.flatten := by
  induction chunks using List.reverseRecOn with
  | nil => exact (scan_none look_nil).symm
  | append_singleton chunks chunk ih =>
    rw [List.foldl_append, List.foldl_cons, List.foldl_nil, ih, List.flatten_append,
      List.flatten_singleton, scan_append, feed]

/-! ## Streams of pieces -/

variable {X : Type*} {enc : X → List B} {out : X → Option A}

/-- Of the start of a piece, short of all of it, a scanner that takes off the piece takes nothing.
-/
theorem look_short {t : List B} (h : S.look (b ++ t) = some ((b ++ t).length, o)) (ht : t ≠ []) :
    S.look b = none := by
  rcases hl : S.look b with _ | ⟨k, o'⟩
  · rfl
  · have hk := (Prod.mk.inj (Option.some.inj ((S.look_append hl).symm.trans h))).1
    have hle := (S.look_pos hl).2
    have hpos := List.length_pos_iff.2 ht
    rw [List.length_append] at hk
    omega

/-- What has arrived of a stream of pieces gives the first of them, as far as they are all there. -/
theorem scan_pieces : ∀ {xs : List X} {b rest : List B},
    (∀ x ∈ xs, S.look (enc x) = some ((enc x).length, out x)) →
    b ++ rest = (xs.map enc).flatten →
    ∃ n, (S.scan b).1 = (xs.take n).filterMap out ∧
      (S.scan b).2 ++ rest = ((xs.drop n).map enc).flatten
  | [], b, rest, _, hb => by
    rw [List.map_nil, List.flatten_nil, List.append_eq_nil_iff] at hb
    obtain ⟨rfl, rfl⟩ := hb
    rw [scan_none look_nil]
    exact ⟨0, rfl, rfl⟩
  | x :: xs, b, rest, hxs, hb => by
    obtain ⟨hx, hxs'⟩ := List.forall_mem_cons.1 hxs
    rw [List.map_cons, List.flatten_cons] at hb
    rcases List.append_eq_append_iff.1 hb with ⟨t, ht, hrest⟩ | ⟨b', rfl, hb'⟩
    · by_cases hnil : t = []
      · subst hnil
        rw [List.append_nil] at ht
        subst ht
        obtain ⟨n, hn, hleft⟩ := scan_pieces (b := []) hxs' hrest
        have hscan := scan_some hx
        rw [List.drop_length] at hscan
        refine ⟨n + 1, ?_, ?_⟩
        · rw [hscan, hn]
          cases h : out x <;> simp [h]
        · rw [hscan]
          exact hleft
      · rw [ht] at hx
        rw [scan_none (look_short hx hnil)]
        exact ⟨0, rfl, hb⟩
    · obtain ⟨n, hn, hleft⟩ := scan_pieces hxs' hb'.symm
      have hscan := scan_some (S.look_append (c := b') hx)
      rw [List.drop_left] at hscan
      refine ⟨n + 1, ?_, ?_⟩
      · rw [hscan, hn]
        cases h : out x <;> simp [h]
      · rw [hscan]
        exact hleft

end Scanner
