import Mathlib.Algebra.Order.Field.Rat
import Mathlib.Order.WithBot
import TinRpc.Lib.Reach
import TinRpc.Proofs.Matching
import TinRpc.Score

/-!
# The order of the match queue

A NaN compares false with every score, so it goes to the front of the queue and stays there among
scores that the binary search takes to be sorted. A new score is put in its place just where the
search looks at no NaN that stands before a smaller score (`ordered_enterQueue`). While this is so,
and while a queue that is sorted anew has no NaN in it, the scores stay in order
(`queue_ascending`).
-/

namespace TinRpc

open SortedList Transition

namespace Score

variable {s t : Score}

/-- Where a score stands among those that are not a NaN. -/
def key : Score → WithBot (WithTop ℚ)
  | nan => ⊥
  | inf true => ⊥
  | inf false => ⊤
  | fin q => ((q : WithTop ℚ) : WithBot (WithTop ℚ))

/-- The number a finite score is. -/
def finite? : Score → Option ℚ
  | fin q => some q
  | _ => none

theorem lt_eq_false_iff (hs : s ≠ nan) (ht : t ≠ nan) : lt t s = false ↔ key s ≤ key t := by
  cases s with
  | nan => exact absurd rfl hs
  | inf a =>
    cases t with
    | nan => exact absurd rfl ht
    | inf b => cases a <;> cases b <;> simp [lt, key]
    | fin q => cases a <;> simp [lt, key]
  | fin q =>
    cases t with
    | nan => exact absurd rfl ht
    | inf b => cases b <;> simp [lt, key]
    | fin r => simp [lt, key]

@[simp] theorem nan_lt : lt nan t = false := rfl

@[simp] theorem lt_nan : lt s nan = false := by cases s <;> rfl

theorem lt_asymm_of_lt (h : lt s t = true) : lt t s = false := by
  cases s <;> cases t <;> simp_all [lt, le_of_lt]

/-- What is less than a score compares, and so does the score. -/
theorem ne_nan_of_lt (h : lt s t = true) : s ≠ nan ∧ t ≠ nan := by
  refine ⟨?_, ?_⟩ <;> rintro rfl <;> simp at h

end Score

namespace MatchQueue

open Score

variable {q q' : MatchQueue Score} {now : ℤ} {p : String} {score : Score}

/-- No score is less than one before it. -/
def Ordered (l : List (Entry Score)) : Prop :=
  l.Pairwise fun a b => Score.lt b.eloScore a.eloScore = false

/-- The finite scores in the queue. -/
def finiteScores (q : MatchQueue Score) : List ℚ := q.queue.filterMap fun e => e.eloScore.finite?

/-- The binary search for a score looks at no NaN that stands before a smaller score. -/
def WellPlaced (q : MatchQueue Score) (score : Score) : Prop :=
  ∀ i ∈ looks (fun e : Entry Score => Score.lt e.eloScore score) q.queue,
    (q.queue[i]?).any (fun e => e.eloScore = nan) = true →
    ∀ e ∈ q.queue.drop i, Score.lt e.eloScore score = false

instance : Decidable (q.WellPlaced score) := by
  unfold WellPlaced
  infer_instance

/-- A new player's score is well placed; a player who is in the queue gets a new score only where
neither that score nor another in the queue is a NaN. -/
def Comparable (q : MatchQueue Score) : Op Score → Prop
  | .enterQueue _ p score =>
    if q.isInQueue p then score ≠ nan ∧ ∀ e ∈ q.queue, e.playerId ≠ p → e.eloScore ≠ nan
    else q.WellPlaced score
  | _ => True

instance : ∀ op, Decidable (q.Comparable op)
  | .enterQueue _ _ _ => by
    unfold Comparable
    infer_instance
  | .cancelMatch _ => .isTrue trivial
  | .tryMatch _ => .isTrue trivial

/-- Finite scores of an ordered queue do not decrease. -/
theorem Ordered.finiteScores (h : Ordered q.queue) : q.finiteScores.Pairwise (· ≤ ·) := by
  unfold MatchQueue.finiteScores
  refine List.Pairwise.filterMap _ (fun a b hab s hs t ht => ?_) h
  rcases ha : a.eloScore with _ | _ | s'
  · simp [ha, finite?] at hs
  · simp [ha, finite?] at hs
  rcases hb : b.eloScore with _ | _ | t'
  · simp [hb, finite?] at ht
  · simp [hb, finite?] at ht
  simp only [ha, hb, finite?, Option.some.injEq] at hs ht
  rw [ha, hb, Score.lt, decide_eq_false_iff_not, not_lt] at hab
  rwa [← hs, ← ht]

/-- The scores that compare with the new one are those below it and those that are not. -/
theorem Ordered.cut {l : List (Entry Score)} (h : Ordered l) (score : Score) :
    l.Pairwise fun a b => a.eloScore ≠ nan → Score.lt b.eloScore score = true →
      Score.lt a.eloScore score = true := by
  refine h.imp fun {a b} hab ha hb => ?_
  obtain ⟨hbn, hsn⟩ := ne_nan_of_lt hb
  rw [lt_eq_false_iff ha hbn] at hab
  by_contra hlt
  rw [Bool.not_eq_true, lt_eq_false_iff hsn ha] at hlt
  have : Score.lt b.eloScore score = false := (lt_eq_false_iff hsn hbn).2 (hlt.trans hab)
  rw [this] at hb
  cases hb

theorem enterQueue_of_not_mem (hp : q.isInQueue p = false) :
    (q.enterQueue now p score).queue = q.queue.insertIdx
      (lowerBound (fun e : Entry Score => Score.lt e.eloScore score) q.queue)
      ⟨p, score, now⟩ := by
  rw [isInQueue, Option.isSome_eq_false_iff, Option.isNone_iff_eq_none] at hp
  unfold enterQueue
  rw [hp]
  rfl

/-- A new player's score leaves the queue in order just where it is well placed. -/
theorem ordered_enterQueue (h : Ordered q.queue) (hp : q.isInQueue p = false) :
    Ordered (q.enterQueue now p score).queue ↔ q.WellPlaced score := by
  have hnan : ∀ e : Entry Score, ¬e.eloScore ≠ nan → Score.lt e.eloScore score = false :=
    fun e he => by rw [not_not.1 he, nan_lt]
  obtain ⟨hbelow, habove⟩ := lowerBound_spec (h.cut score) hnan
  have hiff : (∀ e ∈ q.queue.drop (lowerBound (fun e => Score.lt e.eloScore score) q.queue),
      Score.lt e.eloScore score = false) ↔ q.WellPlaced score := by
    rw [habove]
    refine forall₂_congr fun i _ => ?_
    rcases q.queue[i]? with _ | y <;> simp
  rw [← hiff, enterQueue_of_not_mem hp, insertIdx_eq_append _ _ lowerBound_le]
  generalize lowerBound (fun e : Entry Score => Score.lt e.eloScore score) q.queue = i at hbelow ⊢
  have htake : ∀ a ∈ q.queue.take i, Score.lt score a.eloScore = false := by
    intro a ha
    by_cases hn : a.eloScore = nan
    · rw [hn, lt_nan]
    · exact lt_asymm_of_lt (hbelow a ha hn)
  rw [← List.take_append_drop i q.queue] at h
  obtain ⟨hleft, hright, hacross⟩ := List.pairwise_append.1 h
  constructor
  · intro ho
    exact (List.pairwise_cons.1 (List.pairwise_append.1 ho).2.1).1
  · intro hd
    refine List.pairwise_append.2 ⟨hleft, List.pairwise_cons.2 ⟨hd, hright⟩, fun a ha b hb => ?_⟩
    rcases List.mem_cons.1 hb with rfl | hb
    · exact htake a ha
    · exact hacross a ha b hb

/-- A sorted queue without a NaN is in order. -/
theorem ordered_sort {l : List (Entry Score)} (h : ∀ e ∈ l, e.eloScore ≠ nan) :
    Ordered (Doubles.sort l) := by
  have hkey : Doubles.sort l = l.insertionSort fun a b => a.eloScore.key ≤ b.eloScore.key := by
    have hmap := List.map_insertionSort
      (r := fun a b : Entry Score => Score.lt b.eloScore a.eloScore = false)
      (s := fun a b : Entry Score => a.eloScore.key ≤ b.eloScore.key) id l
      fun a ha b hb => lt_eq_false_iff (h a ha) (h b hb)
    rwa [List.map_id, List.map_id] at hmap
  have : Std.Total fun a b : Entry Score => a.eloScore.key ≤ b.eloScore.key :=
    ⟨fun a b => le_total _ _⟩
  have : IsTrans (Entry Score) fun a b => a.eloScore.key ≤ b.eloScore.key :=
    ⟨fun a b c => le_trans⟩
  have hsorted := List.pairwise_insertionSort
    (fun a b : Entry Score => a.eloScore.key ≤ b.eloScore.key) l
  rw [← hkey] at hsorted
  refine hsorted.imp_of_mem fun {a b} ha hb hab => ?_
  have hmem : ∀ e ∈ Doubles.sort l, e.eloScore ≠ nan := fun e he =>
    h e ((Doubles.sort_perm l).mem_iff.1 he)
  exact (lt_eq_false_iff (hmem a ha) (hmem b hb)).2 hab

/-- A queue is in order after a player in it got a new score, with no NaN left. -/
theorem ordered_enterQueue_again (hd : q.Distinct) (hp : q.isInQueue p = true) (hs : score ≠ nan)
    (hq : ∀ e ∈ q.queue, e.playerId ≠ p → e.eloScore ≠ nan) :
    Ordered (q.enterQueue now p score).queue := by
  obtain ⟨i, hi⟩ := Option.isSome_iff_exists.1 hp
  unfold enterQueue
  rw [hi]
  refine ordered_sort fun e he => ?_
  obtain ⟨hlt, hplayer, -⟩ := List.findIdx?_eq_some_iff_getElem.1 hi
  obtain ⟨j, hj⟩ := List.getElem?_of_mem he
  rw [List.getElem?_modify, Option.map_eq_map, Option.map_eq_some_iff] at hj
  obtain ⟨a, ha, rfl⟩ := hj
  split_ifs with hij
  · exact hs
  · refine hq a (List.mem_of_getElem? ha) fun hpa => hij ?_
    obtain ⟨hj, rfl⟩ := List.getElem?_eq_some_iff.1 ha
    have hi : i < q.ids.length := by simpa [ids] using hlt
    have hj : j < q.ids.length := by simpa [ids] using hj
    refine (hd.getElem_inj_iff.1 (show q.ids[i] = q.ids[j] from ?_))
    simpa [ids, hpa] using hplayer

theorem ordered_step {op : Op Score} (hd : q.Distinct) (h : Ordered q.queue)
    (hop : q.Comparable op) (hstep : q.step op = some q') : Ordered q'.queue := by
  cases op with
  | enterQueue now p score =>
    obtain rfl := Option.some.inj hstep
    simp only [Comparable] at hop
    split_ifs at hop with hp
    · exact ordered_enterQueue_again hd hp hop.1 hop.2
    · exact (ordered_enterQueue h (by simpa using hp)).2 hop
  | cancelMatch p =>
    obtain rfl := Option.some.inj hstep
    unfold MatchQueue.cancelMatch
    split
    · exact h.sublist (List.eraseIdx_sublist _ _)
    · exact h
  | tryMatch now =>
    obtain rfl := Option.some.inj hstep
    rw [tryMatch_eq]
    exact h.sublist (Pairing.pairUp_sublist _)

theorem distinct_step {op : Op Score} (hd : q.Distinct) (hstep : q.step op = some q') :
    q'.Distinct := by
  cases op with
  | enterQueue now p score =>
    obtain rfl := Option.some.inj hstep
    exact hd.enterQueue now p score
  | cancelMatch p =>
    obtain rfl := Option.some.inj hstep
    exact hd.cancelMatch p
  | tryMatch now =>
    obtain rfl := Option.some.inj hstep
    exact (hd.tryMatch now).1

/-- In every run of calls from an empty queue, no player is in the queue twice. Where the calls are
comparable in the states they are made in, the finite scores do not decrease. And in a queue in
order a new player's call keeps the order just where his score is well placed. -/
theorem queue_ascending (maxWaitSec : ℤ) (eloRangeInit eloRangeExpandPerSec : Score) :
    (∀ q, Reach step anyEvent ⟨[], maxWaitSec, eloRangeInit, eloRangeExpandPerSec⟩ q →
      q.Distinct) ∧
    (∀ q, Reach step Comparable ⟨[], maxWaitSec, eloRangeInit, eloRangeExpandPerSec⟩ q →
      q.Distinct ∧ q.finiteScores.Pairwise (· ≤ ·)) ∧
    ∀ (q : MatchQueue Score) (now : ℤ) (p : String) (score : Score), Ordered q.queue →
      q.isInQueue p = false →
      (Ordered (q.enterQueue now p score).queue ↔ q.Comparable (.enterQueue now p score)) := by
  refine ⟨fun q h => ?_, fun q h => ?_, fun q now p score ho hp => ?_⟩
  · exact h.invariant List.nodup_nil fun _ _ _ hd _ hs => distinct_step hd hs
  · have hinv : q.Distinct ∧ Ordered q.queue := by
      refine h.invariant (P := fun q => q.Distinct ∧ Ordered q.queue) ?_ ?_
      · exact ⟨List.nodup_nil, List.Pairwise.nil⟩
      · exact fun _ _ _ hi hok hs => ⟨distinct_step hi.1 hs, ordered_step hi.1 hi.2 hok hs⟩
    exact ⟨hinv.1, hinv.2.finiteScores⟩
  · rw [ordered_enterQueue ho hp]
    simp only [Comparable, hp, Bool.false_eq_true, if_false]

/-- A NaN at the front and two scores behind it. -/
theorem queue_ascending_run : ∃ q : MatchQueue Score, q.ids = ["bob", "ann", "carol"] ∧
    q.Distinct ∧ q.finiteScores.Pairwise (· ≤ ·) ∧
    Ordered (q.enterQueue 9 "eve" (.fin 2)).queue := by
  have hrun : (([.enterQueue 0 "ann" (.fin 1), .enterQueue 1 "bob" .nan,
      .enterQueue 2 "carol" (.fin 3), .enterQueue 3 "dan" (.fin 500), .cancelMatch "dan"]
        : List (Op Score)).foldlM
        (fun (q : MatchQueue Score) op => if q.Comparable op then q.step op else none)
        new).map (fun q => (q.queue, q.isInQueue "eve")) = some ([⟨"bob", .nan, 1⟩,
          ⟨"ann", .fin 1, 0⟩, ⟨"carol", .fin 3, 2⟩], false) := by
    decide +kernel
  obtain ⟨q, hq, hqueue⟩ := Option.map_eq_some_iff.1 hrun
  obtain ⟨hqueue, hnew⟩ := Prod.mk.inj hqueue
  have hplaced : q.WellPlaced (.fin 2) := by
    unfold WellPlaced
    rw [hqueue]
    decide +kernel
  obtain ⟨-, hrun, hstep⟩ := queue_ascending 30 (Doubles.ofInt 100) (Doubles.ofInt 20)
  obtain ⟨hdistinct, hfinite⟩ := hrun q (Reach.of_foldlM _ hq)
  refine ⟨q, by simp [ids, hqueue], hdistinct, hfinite, (hstep q 9 "eve" (.fin 2) ?_ hnew).2 ?_⟩
  · unfold Ordered
    rw [hqueue]
    decide +kernel
  · simp only [Comparable, hnew, Bool.false_eq_true, if_false]
    exact hplaced

/-- A score that meets the NaN first is put before the smaller one behind it. -/
theorem misordered_by_nan : ¬∀ q : MatchQueue Score, Reach step anyEvent new q →
    q.Distinct ∧ q.finiteScores.Pairwise (· ≤ ·) := by
  intro h
  have hrun : (([.enterQueue 0 "ann" (.fin 1), .enterQueue 1 "bob" .nan,
      .enterQueue 2 "carol" (.fin 0), .enterQueue 3 "dan" (.fin 2)] : List (Op Score)).foldlM
        (fun (q : MatchQueue Score) op => if anyEvent q op then q.step op else none) new).map
          finiteScores = some [0, 2, 1] := by
    decide +kernel
  obtain ⟨q, hq, hscores⟩ := Option.map_eq_some_iff.1 hrun
  have hordered := (h q (Reach.of_foldlM _ hq)).2
  rw [hscores] at hordered
  exact absurd hordered (by decide)

end MatchQueue

end TinRpc
