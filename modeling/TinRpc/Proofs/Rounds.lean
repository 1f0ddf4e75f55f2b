import TinRpc.Proofs.Matching

/-!
# One round after the other

A round of matching is one pass over the neighbours. Whoever it pairs is gone, and those on both
sides of him come to be neighbours. At the same reading of the clock a second round finds a pair
only there: the one in front was refused by the player behind him, whose range was too short, though
the one now behind him, who is further away, accepts him.
-/

namespace TinRpc

namespace LawfulDoubles

variable {E : Type} [LawfulDoubles E] {a b c : E}

theorem le_trans (hab : Doubles.le a b = true) (hbc : Doubles.le b c = true) :
    Doubles.le a c = true := by
  obtain ⟨x, y, hx, hy, hxy⟩ := (le_iff a b).1 hab
  obtain ⟨y', z, hy', hz, hyz⟩ := (le_iff b c).1 hbc
  obtain rfl : y = y' := Option.some.inj (hy.symm.trans hy')
  exact (le_iff a c).2 ⟨x, z, hx, hz, hxy.trans hyz⟩

end LawfulDoubles

namespace MatchQueue

open Pairing

variable {E : Type}

def scoreDiff [Doubles E] (a b : Entry E) : E := Doubles.abs (Doubles.sub a.eloScore b.eloScore)

/-- Two players who accept each other and had only players of this round's pairs between them, of
whom the first was out of his own range of the player in front. -/
structure Parted [Doubles E] (q : MatchQueue E) (now : ℤ) (a d : Entry E) : Prop where
  accept : q.inRange now a d = true
  between : ∃ pre b mid post, q.queue = pre ++ a :: b :: (mid ++ d :: post) ∧
    (∀ e ∈ b :: mid, e.playerId ∈ pairIds (q.tryMatch now).2) ∧
    Doubles.le (scoreDiff a b) (q.currentEloRange now b.enqueueTimeMs) = false

theorem inRange_tryMatch [Doubles E] (q : MatchQueue E) (now : ℤ) :
    (q.tryMatch now).1.inRange now = q.inRange now := by
  rw [tryMatch_eq]
  rfl

theorem inRange_iff [Doubles E] {q : MatchQueue E} {now : ℤ} {a b : Entry E} :
    q.inRange now a b = true ↔
      Doubles.le (scoreDiff a b) (q.currentEloRange now a.enqueueTimeMs) = true ∧
        Doubles.le (scoreDiff a b) (q.currentEloRange now b.enqueueTimeMs) = true :=
  Bool.and_eq_true_iff

/-- A round finds a pair if there are two neighbours who accept each other. -/
theorem tryMatch_eq_nil [Doubles E] {q : MatchQueue E} {now : ℤ} (h : q.Distinct) :
    (q.tryMatch now).2 = [] ↔
      ∀ i a b, q.queue[i]? = some a → q.queue[i + 1]? = some b → q.inRange now a b = false := by
  rw [h.calls, List.map_eq_nil_iff]
  constructor
  · intro hnone i a b ha hb
    have hleft := @pairUp_perm _ (q.inRange now) q.queue
    rw [hnone] at hleft
    have hmem : ∀ e ∈ q.queue, e ∈ (pairUp (q.inRange now) q.queue).2 := fun e he =>
      hleft.mem_iff.2 he
    by_contra hok
    exact pairUp_maximal h.nodup ha hb (Bool.not_eq_false _ ▸ hok)
      (hmem a (List.mem_of_getElem? ha)) (hmem b (List.mem_of_getElem? hb))
  · intro hnone
    by_contra hne
    obtain ⟨p, hp⟩ := List.exists_mem_of_ne_nil _ hne
    obtain ⟨hok, i, ha, hb⟩ := pairUp_adjacent hp
    rw [hnone i p.1 p.2 ha hb] at hok
    cases hok

variable [LawfulDoubles E] {q : MatchQueue E} {now : ℤ}

/-- Of two behind a player in a sorted queue the first is no further away than the second. -/
theorem nearer (hf : ∀ e ∈ q.queue, LawfulDoubles.Finite e.eloScore)
    (hs : q.queue.Pairwise fun a b => Doubles.le a.eloScore b.eloScore = true)
    {pre mid post : List (Entry E)} {a b d : Entry E}
    (hq : q.queue = pre ++ a :: b :: (mid ++ d :: post)) :
    Doubles.le (scoreDiff a b) (scoreDiff a d) = true := by
  have hmem : ∀ e ∈ a :: b :: (mid ++ d :: post), LawfulDoubles.Finite e.eloScore :=
    fun e he => hf e (hq ▸ List.mem_append_right _ he)
  rw [hq] at hs
  obtain ⟨-, hs, -⟩ := List.pairwise_append.1 hs
  obtain ⟨ha, hs⟩ := List.pairwise_cons.1 hs
  obtain ⟨hb, -⟩ := List.pairwise_cons.1 hs
  exact LawfulDoubles.diff_mono (hmem a (by simp)) (hmem b (by simp)) (hmem d (by simp))
    (ha b (by simp)) (hb d (by simp))

/-- Two who come to be neighbours and accept each other were parted by this round's pairs. -/
theorem parted_of_left (hf : ∀ e ∈ q.queue, LawfulDoubles.Finite e.eloScore)
    (hs : q.queue.Pairwise fun a b => Doubles.le a.eloScore b.eloScore = true) {i : ℕ}
    {a d : Entry E} (ha : (q.tryMatch now).1.queue[i]? = some a)
    (hd : (q.tryMatch now).1.queue[i + 1]? = some d) (hok : q.inRange now a d = true) :
    q.Parted now a d := by
  rw [tryMatch_eq] at ha hd
  obtain ⟨pre, ps, post, hq, hps, hhead⟩ := pairUp_left_adjacent ha hd
  rcases ps with _ | ⟨⟨b, c⟩, ps⟩
  · rw [hhead d rfl] at hok
    cases hok
  refine ⟨hok, pre, b, c :: members ps, post, hq, fun e he => ?_, ?_⟩
  · rw [tryMatch_eq]
    simp only []
    rw [pairIds_map]
    refine List.mem_map_of_mem ?_
    obtain ⟨p, hp, he⟩ := List.mem_flatMap.1 (show e ∈ members ((b, c) :: ps) from he)
    exact List.mem_flatMap.2 ⟨p, hps hp, he⟩
  · have hown := LawfulDoubles.le_trans (nearer hf hs hq) (inRange_iff.1 hok).1
    have hrefused : q.inRange now a b = false := hhead b rfl
    by_contra hother
    rw [inRange_iff.2 ⟨hown, Bool.not_eq_false _ ▸ hother⟩] at hrefused
    cases hrefused

theorem Parted.ranges {a d : Entry E} (h : q.Parted now a d)
    (hf : ∀ e ∈ q.queue, LawfulDoubles.Finite e.eloScore)
    (hs : q.queue.Pairwise fun a b => Doubles.le a.eloScore b.eloScore = true) :
    ∃ b ∈ q.queue, ∃ c ∈ q.queue, q.currentEloRange now b.enqueueTimeMs ≠
      q.currentEloRange now c.enqueueTimeMs := by
  obtain ⟨haccept, pre, b, mid, post, hq, -, hrefused⟩ := h
  refine ⟨a, by rw [hq]; simp, b, by rw [hq]; simp, fun hequal => ?_⟩
  rw [← hequal, LawfulDoubles.le_trans (nearer hf hs hq) (inRange_iff.1 haccept).1] at hrefused
  cases hrefused

/-- Right after a round, a second one pairs neighbours who accept each other, if there are any. They
were not neighbours before: the first round's pairs stood between them, and the first of those was
out of his own range of the player in front of him. There are none where all ranges are equal. -/
theorem tryMatch_again (h : q.Distinct) (hf : ∀ e ∈ q.queue, LawfulDoubles.Finite e.eloScore)
    (hs : q.queue.Pairwise fun a b => Doubles.le a.eloScore b.eloScore = true) :
    let after := (q.tryMatch now).1
    ((after.tryMatch now).2 = [] ↔ ∀ i a d, after.queue[i]? = some a →
      after.queue[i + 1]? = some d → after.inRange now a d = false) ∧
    (∀ i a d, after.queue[i]? = some a → after.queue[i + 1]? = some d →
      after.inRange now a d = true → q.Parted now a d) ∧
    (∀ m ∈ (after.tryMatch now).2, ∃ a d, m = matched (a, d) ∧ q.Parted now a d) ∧
    ((∀ a ∈ q.queue, ∀ b ∈ q.queue, q.currentEloRange now a.enqueueTimeMs =
      q.currentEloRange now b.enqueueTimeMs) → (after.tryMatch now).2 = []) := by
  intro after
  have hafter : after.Distinct := (h.tryMatch now).1
  have hrange : after.inRange now = q.inRange now := inRange_tryMatch q now
  have hparted : ∀ i a d, after.queue[i]? = some a → after.queue[i + 1]? = some d →
      after.inRange now a d = true → q.Parted now a d := by
    intro i a d ha hd hok
    rw [hrange] at hok
    exact parted_of_left hf hs ha hd hok
  refine ⟨tryMatch_eq_nil hafter, hparted, fun m hm => ?_, fun hequal => ?_⟩
  · rw [hafter.calls] at hm
    obtain ⟨⟨a, d⟩, hp, rfl⟩ := List.mem_map.1 hm
    obtain ⟨hok, i, ha, hd⟩ := pairUp_adjacent hp
    exact ⟨a, d, rfl, hparted i a d ha hd hok⟩
  · refine (tryMatch_eq_nil hafter).2 fun i a d ha hd => Bool.eq_false_iff.2 fun hok => ?_
    obtain ⟨b, hb, c, hc, hne⟩ := (hparted i a d ha hd hok).ranges hf hs
    exact hne (hequal b hb c hc)

/-- Two players who have waited long, and two between them who have just come. -/
def waitingPlayers : MatchQueue Score :=
  { (new : MatchQueue Score) with
    queue := [⟨"ann", .fin 0, 0⟩, ⟨"bob", .fin 150, 20000⟩, ⟨"carol", .fin 200, 20000⟩,
      ⟨"dave", .fin 300, 0⟩] }

theorem waitingPlayers_sound : waitingPlayers.Distinct ∧
    (∀ e ∈ waitingPlayers.queue, LawfulDoubles.Finite e.eloScore) ∧
    waitingPlayers.queue.Pairwise fun a b => Doubles.le a.eloScore b.eloScore = true := by
  refine ⟨by unfold Distinct; decide, fun e he => ?_, by decide⟩
  simp only [waitingPlayers, List.mem_cons, List.not_mem_nil, or_false] at he
  rcases he with rfl | rfl | rfl | rfl <;> exact ⟨_, rfl⟩

/-- The second round pairs the outer two, whom the pair of the first had parted. -/
theorem tryMatch_again_waiting :
    ((waitingPlayers.tryMatch 20000).1.tryMatch 20000).2 =
      [⟨"ann", .fin 0, "dave", .fin 300⟩] ∧
    ∀ m ∈ ((waitingPlayers.tryMatch 20000).1.tryMatch 20000).2,
      ∃ a d, m = matched (a, d) ∧ waitingPlayers.Parted 20000 a d := by
  obtain ⟨hd, hf, hs⟩ := waitingPlayers_sound
  exact ⟨by decide +kernel, (@tryMatch_again _ _ _ 20000 hd hf hs).2.2.1⟩

/-- So one round does not find every pair. -/
theorem not_complete_round : ¬∀ (q : MatchQueue Score) (now : ℤ), q.Distinct →
    (∀ e ∈ q.queue, LawfulDoubles.Finite e.eloScore) →
    (q.queue.Pairwise fun a b => Doubles.le a.eloScore b.eloScore = true) →
    ((q.tryMatch now).1.tryMatch now).2 = [] := by
  intro h
  obtain ⟨hd, hf, hs⟩ := waitingPlayers_sound
  have hround : ((waitingPlayers.tryMatch 20000).1.tryMatch 20000).2 =
      [⟨"ann", .fin 0, "dave", .fin 300⟩] := by
    decide +kernel
  rw [h waitingPlayers 20000 hd hf hs] at hround
  cases hround

end MatchQueue

end TinRpc
