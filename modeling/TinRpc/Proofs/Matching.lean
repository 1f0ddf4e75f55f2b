import Mathlib.Data.List.Induction
import Mathlib.Data.List.InsertIdx
import Mathlib.Data.List.Nodup
import Mathlib.Data.List.Perm.Basic
import TinRpc.Lib.Pairing
import TinRpc.Match
import TinRpc.Score

/-!
# The match queue's players

No player is in the queue twice. So the score `TryMatch` saves for a player is that of his entry,
and a round takes the players of the pairs out of the queue and leaves the others.
-/

namespace TinRpc

open Pairing

namespace MatchQueue

variable {E : Type} (q : MatchQueue E) {p : String}

/-- The ids in the queue. -/
def ids : List String := q.queue.map Entry.playerId

/-- Nobody is in the queue twice. -/
def Distinct : Prop := q.ids.Nodup

/-- The players of a match. -/
def pairIds (ms : List (Matched E)) : List String := ms.flatMap fun m => [m.p1, m.p2]

variable {q}

theorem findIndex_eq_none : q.findIndex p = none ↔ p ∉ q.ids := by
  unfold findIndex ids
  rw [List.findIdx?_eq_none_iff]
  simp

theorem ids_cancelMatch (q : MatchQueue E) (p : String) : (q.cancelMatch p).ids = q.ids.erase p := by
  have hindex : q.ids.idxOf? p = q.findIndex p := by
    unfold ids findIndex List.idxOf?
    rw [List.findIdx?_map]
    rfl
  rw [List.erase_eq_eraseIdx, hindex]
  unfold MatchQueue.cancelMatch
  rcases q.findIndex p with _ | i
  · rfl
  · exact (List.eraseIdx_map Entry.playerId q.queue i).symm

theorem mem_ids_cancelMatch {r : String} (h : r ∈ (q.cancelMatch p).ids) : r ∈ q.ids := by
  rw [ids_cancelMatch] at h
  exact List.mem_of_mem_erase h

theorem Distinct.cancelMatch (h : q.Distinct) (p : String) : (q.cancelMatch p).Distinct := by
  rw [Distinct, ids_cancelMatch]
  exact h.erase p

theorem Distinct.not_mem_cancelMatch (h : q.Distinct) (p : String) :
    p ∉ (q.cancelMatch p).ids := by
  rw [ids_cancelMatch]
  exact h.not_mem_erase

variable [Doubles E] {now : ℤ}

omit [Doubles E] in
theorem map_modify (score : E) : ∀ (l : List (Entry E)) (i : ℕ),
    (l.modify i fun e => { e with eloScore := score }).map Entry.playerId = l.map Entry.playerId
  | [], i => by rw [List.modify_nil]
  | e :: l, 0 => rfl
  | e :: l, i + 1 => by
    rw [List.modify_succ_cons, List.map_cons, map_modify score l i, List.map_cons]

/-- Who enters is in the queue beside the others, once. -/
theorem perm_ids_enterQueue (q : MatchQueue E) (now : ℤ) (p : String) (score : E) :
    (q.enterQueue now p score).ids.Perm (if p ∈ q.ids then q.ids else p :: q.ids) := by
  unfold MatchQueue.enterQueue
  split
  · next idx hidx =>
    have hin : p ∈ q.ids := by
      by_contra hnot
      rw [findIndex_eq_none.2 hnot] at hidx
      cases hidx
    have hperm := (Doubles.sort_perm
      (q.queue.modify idx fun e => { e with eloScore := score })).map Entry.playerId
    rw [map_modify] at hperm
    rw [if_pos hin]
    exact hperm
  · next hnone =>
    rw [if_neg (findIndex_eq_none.1 hnone)]
    exact (List.perm_insertIdx (⟨p, score, now⟩ : Entry E) q.queue
      (SortedList.lowerBound_le (p := fun e : Entry E => Doubles.lt e.eloScore score))).map
        Entry.playerId

theorem mem_ids_enterQueue {r : String} {score : E} :
    r ∈ (q.enterQueue now p score).ids ↔ r = p ∨ r ∈ q.ids := by
  rw [(perm_ids_enterQueue q now p score).mem_iff]
  split_ifs with hin
  · exact ⟨.inr, fun h => h.elim (fun heq => heq ▸ hin) id⟩
  · exact List.mem_cons

theorem Distinct.enterQueue (h : q.Distinct) (now : ℤ) (p : String) (score : E) :
    (q.enterQueue now p score).Distinct := by
  refine (perm_ids_enterQueue q now p score).nodup_iff.2 ?_
  split_ifs with hin
  · exact h
  · exact List.nodup_cons.2 ⟨hin, h⟩

/-- The pairs of a round are those of a pass over the neighbours in range. -/
theorem pairLoop_eq (q : MatchQueue E) (now : ℤ) : ∀ (n : ℕ) (pre suf : List (Entry E))
    (done : List Bool), q.queue = pre ++ suf → done.length = pre.length → suf.length ≤ n →
    q.pairLoop now n pre.length (done ++ List.replicate suf.length false) =
      ((pairUp (q.inRange now) suf).1.map fun p => (p.1.playerId, p.2.playerId),
        done ++ marks (q.inRange now) suf)
  | n, pre, [], done, hq, _, _ => by
    have hend : q.pairLoop now n pre.length (done ++ []) = ([], done ++ []) := by
      cases n with
      | zero => rfl
      | succ n =>
        unfold pairLoop
        rw [hq, List.append_nil, List.getElem?_eq_none le_rfl]
    exact hend
  | n, pre, [a], done, hq, _, _ => by
    have hend : q.pairLoop now n pre.length (done ++ [false]) = ([], done ++ [false]) := by
      cases n with
      | zero => rfl
      | succ n =>
        unfold pairLoop
        rw [hq, List.getElem?_eq_none (show (pre ++ [a]).length ≤ pre.length + 1 by simp)]
        split
        · next h => cases h
        · rfl
    exact hend
  | 0, pre, a :: b :: suf, done, _, _, hn => by simp at hn
  | n + 1, pre, a :: b :: suf, done, hq, hd, hn => by
    have ha : q.queue[pre.length]? = some a := by rw [hq]; simp
    have hb : q.queue[pre.length + 1]? = some b := by rw [hq]; simp
    have hunmarked : (done ++ List.replicate (a :: b :: suf).length false).getD pre.length false
        = false := by
      rw [List.getD_eq_getElem?_getD, ← hd, List.getElem?_append_right le_rfl]
      simp
    unfold pairLoop
    rw [ha, hb]
    simp only [hunmarked, Bool.false_eq_true, if_false]
    simp only [List.length_cons] at hn
    rw [pairUp, marks]
    split_ifs with hok
    · have hmark : ((done ++ List.replicate (a :: b :: suf).length false).set pre.length true).set
          (pre.length + 1) true = (done ++ [true, true]) ++ List.replicate suf.length false := by
        rw [← hd, List.set_append_right _ _ le_rfl, List.set_append_right _ _ (by omega)]
        simp [List.replicate_succ]
      have ih := pairLoop_eq q now n (pre ++ [a, b]) suf (done ++ [true, true]) (by simp [hq])
        (by simp [hd]) (by omega)
      rw [List.length_append, List.length_cons, List.length_cons, List.length_nil] at ih
      rw [hmark]
      simp only []
      rw [ih]
      simp
    · have ih := pairLoop_eq q now n (pre ++ [a]) (b :: suf) (done ++ [false]) (by simp [hq])
        (by simp [hd]) (by simp only [List.length_cons]; omega)
      rw [List.length_append, List.length_cons, List.length_nil] at ih
      rw [show done ++ List.replicate (a :: b :: suf).length false =
        done ++ [false] ++ List.replicate (b :: suf).length false by simp [List.replicate_succ], ih]
      simp

omit [Doubles E] in
/-- Taking the marked places out from the back leaves what is not marked. -/
theorem eraseLoop_append (ms : List Bool) : ∀ (a b : List (Entry E)), a.length ≤ ms.length →
    eraseLoop ms a.length (a ++ b) = unmarked (ms.take a.length) a ++ b := by
  intro a
  induction a using List.reverseRecOn with
  | nil => intro b _; rfl
  | append_singleton a x ih =>
    intro b h
    rw [List.length_append, List.length_cons, List.length_nil] at h
    have hms : ms.take (a.length + 1) = ms.take a.length ++ [ms[a.length]] :=
      (List.take_append_getElem (by omega)).symm
    have hget : ms.getD a.length false = ms[a.length] := by
      rw [List.getD_eq_getElem?_getD, List.getElem?_eq_getElem (by omega), Option.getD_some]
    rw [List.length_append, List.length_cons, List.length_nil, Nat.zero_add, hms,
      unmarked_append _ _ _ _ (by rw [List.length_take]; omega), eraseLoop, hget]
    cases ms[a.length] with
    | false =>
      rw [List.append_assoc]
      exact (ih (x :: b) (by omega)).trans (by simp [unmarked])
    | true =>
      have herase : (a ++ [x] ++ b).eraseIdx a.length = a ++ b := by
        rw [List.append_assoc, List.eraseIdx_append_of_length_le le_rfl]
        simp
      rw [if_pos rfl, herase]
      exact (ih b (by omega)).trans (by simp [unmarked])

theorem tryMatch_eq (q : MatchQueue E) (now : ℤ) : q.tryMatch now =
    ({ q with queue := (pairUp (q.inRange now) q.queue).2 },
      (pairUp (q.inRange now) q.queue).1.map fun p =>
        ⟨p.1.playerId, q.savedScore p.1.playerId, p.2.playerId, q.savedScore p.2.playerId⟩) := by
  unfold MatchQueue.tryMatch
  split_ifs with h
  · rw [pairUp_of_length_lt h]
    rfl
  · have hpairs := pairLoop_eq q now q.queue.length [] q.queue [] rfl rfl le_rfl
    rw [List.nil_append, List.nil_append, List.length_nil] at hpairs
    have hlen := length_marks (q.inRange now) q.queue
    have herase := eraseLoop_append (marks (q.inRange now) q.queue) q.queue [] hlen.ge
    rw [List.append_nil, List.append_nil, List.take_of_length_le hlen.le, unmarked_marks] at herase
    rw [hpairs]
    simp only []
    rw [herase, List.map_map]
    rfl

theorem pairIds_map (q : MatchQueue E) (pairs : List (Entry E × Entry E)) :
    pairIds (pairs.map fun p =>
      ⟨p.1.playerId, q.savedScore p.1.playerId, p.2.playerId, q.savedScore p.2.playerId⟩) =
      (members pairs).map Entry.playerId := by
  unfold pairIds members
  rw [List.flatMap_map, List.map_flatMap]
  rfl

/-- Who is in the queue is in one pair or stays. -/
theorem ids_tryMatch (q : MatchQueue E) (now : ℤ) :
    (pairIds (q.tryMatch now).2 ++ (q.tryMatch now).1.ids).Perm q.ids := by
  rw [tryMatch_eq]
  simp only []
  rw [pairIds_map, ids, ← List.map_append]
  exact (pairUp_perm q.queue).map Entry.playerId

theorem Distinct.tryMatch (h : q.Distinct) (now : ℤ) :
    (q.tryMatch now).1.Distinct ∧ (pairIds (q.tryMatch now).2).Nodup ∧
      ∀ p ∈ pairIds (q.tryMatch now).2, p ∉ (q.tryMatch now).1.ids := by
  obtain ⟨hpairs, hleft, hdisjoint⟩ :=
    List.nodup_append.1 ((ids_tryMatch q now).nodup_iff.2 h)
  exact ⟨hleft, hpairs, fun p hp hin => hdisjoint p hp p hin rfl⟩

/-- The score saved for a player is the one he has in the queue. -/
theorem Distinct.savedScore (h : q.Distinct) {e : Entry E} (he : e ∈ q.queue) :
    q.savedScore e.playerId = e.eloScore := by
  have hsaved : ∀ (l : List (Entry E)) (s : E), (l.map Entry.playerId).Nodup → e ∈ l ∨
      s = e.eloScore ∧ e.playerId ∉ l.map Entry.playerId →
      l.foldl (fun s e' => if e'.playerId = e.playerId then e'.eloScore else s) s =
        e.eloScore := by
    intro l
    induction l with
    | nil => exact fun s _ hs => hs.elim nofun And.left
    | cons a l ih =>
      intro s hnodup hs
      obtain ⟨ha, hnodup⟩ := List.nodup_cons.1 hnodup
      refine ih _ hnodup ?_
      simp only []
      split_ifs with heq
      · rw [heq] at ha
        rcases hs with hs | hs
        · rcases List.mem_cons.1 hs with rfl | hs
          · exact .inr ⟨rfl, ha⟩
          · exact absurd (List.mem_map_of_mem hs) ha
        · exact absurd (heq ▸ List.mem_cons_self) hs.2
      · rcases hs with hs | hs
        · rcases List.mem_cons.1 hs with rfl | hs
          · exact absurd rfl heq
          · exact .inl hs
        · exact .inr ⟨hs.1, fun hin => hs.2 (List.mem_cons_of_mem _ hin)⟩
  exact hsaved q.queue _ h (.inl he)

omit [Doubles E] in
theorem Distinct.nodup (h : q.Distinct) : q.queue.Nodup := List.Nodup.of_map _ h

/-- The callback is called, where there is one, for the matches one after the other, when all of
them are out of the queue. -/
theorem tryMatchWith_eq {S : Type} (q : MatchQueue E) (now : ℤ)
    (onMatch : Option (Matched E → S × MatchQueue E → S × MatchQueue E)) (s : S) :
    q.tryMatchWith now onMatch s =
      (onMatch.elim (s, (q.tryMatch now).1) fun callback =>
        (q.tryMatch now).2.foldl (fun after m => callback m after) (s, (q.tryMatch now).1),
      (q.tryMatch now).2.map fun m => (m.p1, m.p2)) := by
  unfold tryMatchWith MatchQueue.tryMatch
  split_ifs
  · rcases onMatch with _ | callback <;> rfl
  · have hids : ∀ pairs : List (String × String), (pairs.map fun p =>
        (⟨p.1, q.savedScore p.1, p.2, q.savedScore p.2⟩ : Matched E)).map
          (fun m => (m.p1, m.p2)) = pairs := by
      intro pairs
      rw [List.map_map]
      exact List.map_id pairs
    simp only [hids]
    rcases onMatch with _ | callback <;> rfl

/-- What a round that pairs these entries and leaves those is to do. -/
structure Round (q : MatchQueue E) (now : ℤ) (pairs : List (Entry E × Entry E))
    (left : List (Entry E)) : Prop where
  /-- Nobody is lost, and nobody is there twice. -/
  players : (members pairs ++ left).Perm q.queue
  once : ((members pairs ++ left).map Entry.playerId).Nodup
  adjacent : ∀ p ∈ pairs, ∃ i, q.queue[i]? = some p.1 ∧ q.queue[i + 1]? = some p.2
  inRange : ∀ p ∈ pairs,
    let diff := Doubles.abs (Doubles.sub p.1.eloScore p.2.eloScore)
    Doubles.le diff (q.currentEloRange now p.1.enqueueTimeMs) = true ∧
      Doubles.le diff (q.currentEloRange now p.2.enqueueTimeMs) = true
  /-- Of two neighbours who accept each other one is in a pair. -/
  maximal : ∀ i a b, q.queue[i]? = some a → q.queue[i + 1]? = some b →
    q.inRange now a b = true → a ∈ left → b ∉ left
  /-- Who is left keeps his entry, and the order. -/
  order : left.Sublist q.queue

theorem Distinct.round (h : q.Distinct) (now : ℤ) :
    q.Round now (pairUp (q.inRange now) q.queue).1 (pairUp (q.inRange now) q.queue).2 where
  players := pairUp_perm q.queue
  once := ((pairUp_perm q.queue).map Entry.playerId).nodup_iff.2 h
  adjacent _ hp := (pairUp_adjacent hp).2
  inRange _ hp := (Bool.and_eq_true _ _).mp (pairUp_adjacent hp).1
  maximal _ _ _ ha hb hok hleft := pairUp_maximal h.nodup ha hb hok hleft
  order := pairUp_sublist q.queue

/-- The call of the callback for a pair. -/
def matched (p : Entry E × Entry E) : Matched E :=
  ⟨p.1.playerId, p.1.eloScore, p.2.playerId, p.2.eloScore⟩

theorem Distinct.calls (h : q.Distinct) (now : ℤ) :
    (q.tryMatch now).2 = (pairUp (q.inRange now) q.queue).1.map matched := by
  rw [tryMatch_eq]
  refine List.map_congr_left fun p hp => ?_
  obtain ⟨-, i, h₁, h₂⟩ := pairUp_adjacent hp
  rw [h.savedScore (List.mem_of_getElem? h₁), h.savedScore (List.mem_of_getElem? h₂)]
  rfl

/-- `TryMatch` pairs neighbours who accept each other, as many as there are, returns the pairs and
calls the callback for each with the scores of the queue, after all are out of it. -/
theorem tryMatch_round {S : Type} (q : MatchQueue E) (now : ℤ)
    (onMatch : Option (Matched E → S × MatchQueue E → S × MatchQueue E)) (s : S)
    (h : q.Distinct) : ∃ pairs left, q.Round now pairs left ∧
      q.tryMatchWith now onMatch s =
        (onMatch.elim (s, { q with queue := left }) fun callback =>
          (pairs.map matched).foldl (fun after m => callback m after) (s, { q with queue := left }),
        pairs.map fun p => (p.1.playerId, p.2.playerId)) := by
  refine ⟨_, _, h.round now, ?_⟩
  rw [tryMatchWith_eq, h.calls now, tryMatch_eq, List.map_map]
  rfl

/-- Three players at a distance of 20 and a range of 100. -/
def threePlayers : MatchQueue Score :=
  { (new : MatchQueue Score) with
    queue := [⟨"ann", .fin 1500, 0⟩, ⟨"bob", .fin 1520, 0⟩, ⟨"carol", .fin 1540, 0⟩] }

/-- The first two are paired, and the callback is told of them. -/
theorem tryMatch_round_three :
    let r := threePlayers.tryMatchWith 0
      (some fun m (after : List (Matched Score) × MatchQueue Score) => (after.1 ++ [m], after.2)) []
    (r.2 = [("ann", "bob")] ∧ r.1.1 = [⟨"ann", .fin 1500, "bob", .fin 1520⟩] ∧
      r.1.2.ids = ["carol"]) ∧
    ∃ pairs left, threePlayers.Round 0 pairs left ∧ r =
      ((pairs.map matched).foldl (fun after m => (after.1 ++ [m], after.2))
        ([], { threePlayers with queue := left }),
      pairs.map fun p => (p.1.playerId, p.2.playerId)) :=
  ⟨by decide +kernel, tryMatch_round threePlayers 0
    (some fun m (after : List (Matched Score) × MatchQueue Score) => (after.1 ++ [m], after.2)) []
    (by unfold Distinct; decide)⟩

end MatchQueue

end TinRpc
