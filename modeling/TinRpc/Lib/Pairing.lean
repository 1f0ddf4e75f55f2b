import Mathlib.Data.List.Basic

/-!
# Pairing neighbours

One pass over a list pairs an element with the next one where a test accepts the two, and goes on
behind them. Everybody is in one pair or left over (`pairUp_perm`). Marking the places of the pairs
and taking the marked places out gives those left over (`unmarked_marks`).
-/

namespace Pairing

variable {α β : Type*} (ok : α → α → Bool)

/-- The pairs of a pass and who is left over. -/
def pairUp : List α → List (α × α) × List α
  | a :: b :: l =>
    if ok a b then ((a, b) :: (pairUp l).1, (pairUp l).2)
    else ((pairUp (b :: l)).1, a :: (pairUp (b :: l)).2)
  | l => ([], l)

/-- Which places the pairs of a pass have. -/
def marks : List α → List Bool
  | a :: b :: l => if ok a b then true :: true :: marks l else false :: marks (b :: l)
  | [_] => [false]
  | [] => []

/-- The elements whose places are not marked. -/
def unmarked : List Bool → List α → List α
  | m :: ms, a :: l => if m then unmarked ms l else a :: unmarked ms l
  | _, l => l

/-- Both members of each pair. -/
def members (pairs : List (α × α)) : List α := pairs.flatMap fun p => [p.1, p.2]

variable {ok}

theorem pairUp_of_length_lt {l : List α} (h : l.length < 2) : pairUp ok l = ([], l) := by
  match l, h with
  | [], _ => rfl
  | [_], _ => rfl
  | _ :: _ :: _, h =>
    rw [List.length_cons, List.length_cons] at h
    omega

theorem length_marks (ok : α → α → Bool) : ∀ l : List α, (marks ok l).length = l.length
  | [] => rfl
  | [_] => rfl
  | a :: b :: l => by
    rw [marks]
    split_ifs
    · simp [length_marks ok l]
    · rw [List.length_cons, length_marks ok (b :: l)]
      rfl

theorem unmarked_marks : ∀ l : List α, unmarked (marks ok l) l = (pairUp ok l).2
  | [] => rfl
  | [_] => rfl
  | a :: b :: l => by
    rw [marks, pairUp]
    split_ifs
    · exact unmarked_marks l
    · exact congrArg (a :: ·) (unmarked_marks (b :: l))

/-- Nobody is lost or in two pairs. -/
theorem pairUp_perm : ∀ l : List α,
    (members (pairUp ok l).1 ++ (pairUp ok l).2).Perm l
  | [] => .nil
  | [_] => .refl _
  | a :: b :: l => by
    rw [pairUp]
    split_ifs
    · exact ((pairUp_perm l).cons b).cons a
    · exact List.perm_middle.trans ((pairUp_perm (b :: l)).cons a)

/-- Who is left over stands in the order of before. -/
theorem pairUp_sublist : ∀ l : List α, (pairUp ok l).2.Sublist l
  | [] => .slnil
  | [_] => .refl _
  | a :: b :: l => by
    rw [pairUp]
    split_ifs
    · exact ((pairUp_sublist l).cons b).cons a
    · exact (pairUp_sublist (b :: l)).cons_cons a

/-- A pair is two neighbours that the test accepts. -/
theorem pairUp_adjacent {p : α × α} : ∀ {l : List α}, p ∈ (pairUp ok l).1 →
    ok p.1 p.2 = true ∧ ∃ i, l[i]? = some p.1 ∧ l[i + 1]? = some p.2
  | [], hp => by cases hp
  | [_], hp => by cases hp
  | a :: b :: l, hp => by
    rw [pairUp] at hp
    split_ifs at hp with hok
    · rcases List.mem_cons.1 hp with rfl | hp
      · exact ⟨hok, 0, rfl, rfl⟩
      · obtain ⟨hp, i, h₁, h₂⟩ := pairUp_adjacent hp
        exact ⟨hp, i + 2, h₁, h₂⟩
    · obtain ⟨hp, i, h₁, h₂⟩ := pairUp_adjacent hp
      exact ⟨hp, i + 1, h₁, h₂⟩

/-- Of two neighbours that the test accepts one is in a pair. -/
theorem pairUp_maximal {x y : α} : ∀ {l : List α} {i : ℕ}, l.Nodup → l[i]? = some x →
    l[i + 1]? = some y → ok x y = true → x ∈ (pairUp ok l).2 → y ∉ (pairUp ok l).2
  | [], i, _, hx, _, _, _ => by cases hx
  | [_], i, _, _, hy, _, _ => by cases hy
  | a :: b :: l, i, hnodup, hx, hy, hok, hleft => by
    obtain ⟨ha, hnodup'⟩ := List.nodup_cons.1 hnodup
    obtain ⟨hb, hnodup''⟩ := List.nodup_cons.1 hnodup'
    have hrest : (pairUp ok l).2 ⊆ l := (pairUp_sublist l).subset
    rw [pairUp] at hleft ⊢
    split_ifs at hleft ⊢ with hab
    · rcases i with _ | _ | i
      · obtain rfl := Option.some.inj hx
        exact absurd (List.mem_cons_of_mem _ (hrest hleft)) ha
      · obtain rfl := Option.some.inj hx
        exact absurd (hrest hleft) hb
      · exact pairUp_maximal hnodup'' hx hy hok hleft
    · rcases i with _ | i
      · obtain rfl := Option.some.inj hx
        obtain rfl := Option.some.inj hy
        exact absurd hok hab
      · have hmem : ∀ {z : α} {j : ℕ}, (b :: l)[j]? = some z → z ≠ a := by
          rintro z j hz rfl
          exact ha (List.mem_of_getElem? hz)
        have hleft' := List.mem_of_ne_of_mem (hmem (j := i) hx) hleft
        intro hin
        exact pairUp_maximal hnodup' hx hy hok hleft'
          (List.mem_of_ne_of_mem (hmem (j := i + 1) hy) hin)

/-- Who stands in front of somebody left over is in pairs of the pass. -/
theorem pairUp_first_left {y : α} : ∀ {l : List α}, (pairUp ok l).2[0]? = some y →
    ∃ ps post, l = members ps ++ y :: post ∧ ps ⊆ (pairUp ok l).1
  | [], hy => by cases hy
  | [a], hy => by
    obtain rfl := Option.some.inj hy
    exact ⟨[], [], rfl, List.nil_subset _⟩
  | a :: b :: l, hy => by
    rw [pairUp] at hy ⊢
    split_ifs at hy ⊢
    · obtain ⟨ps, post, hl, hps⟩ := pairUp_first_left hy
      refine ⟨(a, b) :: ps, post, ?_, List.cons_subset_cons _ hps⟩
      exact congrArg (fun l => a :: b :: l) hl
    · obtain rfl := Option.some.inj hy
      exact ⟨[], b :: l, rfl, List.nil_subset _⟩

/-- Who stands between two that come to be neighbours is in pairs of the pass, and the first of the
two was not accepted with the one behind it. -/
theorem pairUp_left_adjacent {x y : α} : ∀ {l : List α} {i : ℕ}, (pairUp ok l).2[i]? = some x →
    (pairUp ok l).2[i + 1]? = some y →
    ∃ pre ps post, l = pre ++ x :: (members ps ++ y :: post) ∧ ps ⊆ (pairUp ok l).1 ∧
      ∀ b ∈ (members ps ++ [y]).head?, ok x b = false
  | [], _, hx, _ => by cases hx
  | [a], i, hx, hy => by
    rw [show (pairUp ok [a]).2 = [a] from rfl, List.getElem?_singleton,
      if_neg (Nat.succ_ne_zero i)] at hy
    cases hy
  | a :: b :: l, i, hx, hy => by
    rw [pairUp] at hx hy ⊢
    split_ifs at hx hy ⊢ with hok
    · obtain ⟨pre, ps, post, hl, hps, hhead⟩ := pairUp_left_adjacent hx hy
      exact ⟨a :: b :: pre, ps, post, by rw [hl]; rfl, List.subset_cons_of_subset _ hps, hhead⟩
    · rcases i with _ | i
      · obtain rfl := Option.some.inj hx
        obtain ⟨ps, post, hl, hps⟩ := pairUp_first_left hy
        refine ⟨[], ps, post, by rw [hl]; rfl, hps, fun c hc => ?_⟩
        have hfirst : (members ps ++ [y]).head? = (b :: l).head? := by
          rw [hl]
          cases members ps <;> rfl
        rw [hfirst] at hc
        obtain rfl := Option.some.inj hc
        exact Bool.eq_false_iff.2 hok
      · obtain ⟨pre, ps, post, hl, hps, hhead⟩ := pairUp_left_adjacent hx hy
        exact ⟨a :: pre, ps, post, by rw [hl]; rfl, hps, hhead⟩

theorem unmarked_append : ∀ (ms ms' : List Bool) (a b : List α), ms.length = a.length →
    unmarked (ms ++ ms') (a ++ b) = unmarked ms a ++ unmarked ms' b
  | [], _, [], _, _ => rfl
  | m :: ms, ms', x :: a, b, h => by
    rw [List.cons_append, List.cons_append, unmarked, unmarked,
      unmarked_append ms ms' a b (by simpa using h)]
    split_ifs <;> rfl

end Pairing
