import TinRpc.Proofs.Rounds

/-!
# One player's opponent

`FindMatch` takes the nearest player in the range of the one who asks, of several the first, and
does not look at the range of that player. So it follows the rule of a round just where that player
accepts the one who asks, or where nobody is found and nobody would do (`sameRule_iff`).
-/

namespace TinRpc

namespace LawfulDoubles

variable {E : Type} [LawfulDoubles E] {a b c d : E}

theorem lt_trans (hab : Doubles.lt a b = true) (hbc : Doubles.lt b c = true) :
    Doubles.lt a c = true := by
  obtain ⟨x, y, hx, hy, hxy⟩ := (lt_iff a b).1 hab
  obtain ⟨y', z, hy', hz, hyz⟩ := (lt_iff b c).1 hbc
  obtain rfl : y = y' := Option.some.inj (hy.symm.trans hy')
  exact (lt_iff a c).2 ⟨x, z, hx, hz, hxy.trans hyz⟩

theorem lt_of_lt_of_not_lt (hd : value d = some x) (hab : Doubles.lt a b = true)
    (hbd : Doubles.lt d b = false) : Doubles.lt a d = true := by
  obtain ⟨u, v, hu, hv, huv⟩ := (lt_iff a b).1 hab
  refine (lt_iff a d).2 ⟨u, x, hu, hd, huv.trans_le (not_lt.1 fun hlt => ?_)⟩
  rw [(lt_iff d b).2 ⟨x, v, hd, hv, hlt⟩] at hbd
  cases hbd

theorem lt_irrefl : Doubles.lt a a = false := by
  by_contra hlt
  obtain ⟨x, y, hx, hy, hxy⟩ := (lt_iff a a).1 (Bool.not_eq_false _ ▸ hlt)
  obtain rfl : x = y := Option.some.inj (hx.symm.trans hy)
  exact hxy.false

theorem le_congr (h : value a = value b) : Doubles.le a c = Doubles.le b c := by
  rw [Bool.eq_iff_iff, le_iff, le_iff, h]

theorem lt_congr (h : value a = value b) (h' : value c = value d) :
    Doubles.lt a c = Doubles.lt b d := by
  rw [Bool.eq_iff_iff, lt_iff, lt_iff, h, h']

end LawfulDoubles

namespace MatchQueue

variable {E : Type}

theorem findIndex_of_mem {q : MatchQueue E} (h : q.Distinct) {i : ℕ} {e : Entry E}
    (he : q.queue[i]? = some e) : q.findIndex e.playerId = some i := by
  obtain ⟨hi, hget⟩ := List.getElem?_eq_some_iff.1 he
  unfold findIndex
  rw [List.findIdx?_eq_some_iff_getElem]
  refine ⟨hi, by rw [hget]; simp, fun j hj => ?_⟩
  have hne := List.pairwise_iff_getElem.1 h j i (by simpa [ids] using hj.trans hi)
    (by simpa [ids] using hi) hj
  simpa [ids, hget] using hne

/-- Where ids differ, the entry taken out of a place is the one with its id. -/
theorem eraseIdx_eq_filter {a : Entry E} : ∀ {l : List (Entry E)} {i : ℕ},
    (l.map Entry.playerId).Nodup → l[i]? = some a →
    l.eraseIdx i = l.filter fun e => e.playerId ≠ a.playerId
  | [], _, _, ha => by cases ha
  | e :: l, 0, hl, ha => by
    obtain rfl := Option.some.inj ha
    obtain ⟨hnot, -⟩ := List.nodup_cons.1 hl
    have hall : ∀ e' ∈ l, e'.playerId ≠ e.playerId := fun e' he' heq =>
      hnot (heq ▸ List.mem_map_of_mem he')
    rw [List.filter_cons_of_neg (by simp), List.filter_eq_self.2 (by simpa using hall)]
    rfl
  | e :: l, i + 1, hl, ha => by
    obtain ⟨hnot, hl⟩ := List.nodup_cons.1 hl
    have hne : e.playerId ≠ a.playerId := fun heq =>
      hnot (heq ▸ List.mem_map_of_mem (List.mem_of_getElem? (i := i) ha))
    rw [List.filter_cons_of_pos (by simpa using hne), ← eraseIdx_eq_filter (i := i) hl ha]
    rfl

theorem eraseIdx_eraseIdx {l : List (Entry E)} (hl : (l.map Entry.playerId).Nodup) {i j : ℕ}
    (hij : i < j) {a b : Entry E} (ha : l[i]? = some a) (hb : l[j]? = some b) :
    (l.eraseIdx j).eraseIdx i =
      l.filter fun e => e.playerId ≠ a.playerId ∧ e.playerId ≠ b.playerId := by
  have hrest : ((l.eraseIdx j).map Entry.playerId).Nodup :=
    hl.sublist ((List.eraseIdx_sublist l j).map _)
  have ha : (l.eraseIdx j)[i]? = some a := by rw [List.getElem?_eraseIdx_of_lt hij, ha]
  rw [eraseIdx_eq_filter hrest ha, eraseIdx_eq_filter hl hb, List.filter_filter]
  simp

variable [LawfulDoubles E] (q : MatchQueue E) (now : ℤ) (me : Entry E)

/-- Another player at a distance, below the largest number, that is in the range of this one. -/
def Reaches (e : Entry E) : Prop :=
  e ≠ me ∧ Doubles.le (scoreDiff e me) (q.currentEloRange now me.enqueueTimeMs) = true ∧
    Doubles.lt (scoreDiff e me) DoubleLimits.max = true

/-- Of the players `pre ++ e :: post` this `e` is the nearest one, and of several the first, in the
range of `me`. -/
structure Nearest (pre : List (Entry E)) (e : Entry E) (post : List (Entry E)) : Prop where
  reached : q.Reaches now me e
  first : ∀ e' ∈ pre, q.Reaches now me e' → Doubles.lt (scoreDiff e me) (scoreDiff e' me) = true
  least : ∀ e' ∈ post, q.Reaches now me e' →
    Doubles.lt (scoreDiff e' me) (scoreDiff e me) = false

/-- The queue when two players have left. -/
def without (a b : Entry E) : MatchQueue E :=
  { q with queue := q.queue.filter fun e => e.playerId ≠ a.playerId ∧ e.playerId ≠ b.playerId }

/-- What is asked of `FindMatch` for a player, the rule being that of a round. -/
structure SameRule : Prop where
  paired : ∀ m, (q.findMatch now me.playerId).2.2 = some m → ∃ e ∈ q.queue, e ≠ me ∧
    m = matched (me, e) ∧ (q.findMatch now me.playerId).2.1 = e.playerId ∧
    q.inRange now me e = true ∧
    (∀ e' ∈ q.queue, e' ≠ me → q.inRange now me e' = true →
      Doubles.lt (scoreDiff me e') (scoreDiff me e) = false) ∧
    (q.findMatch now me.playerId).1 = q.without me e
  unpaired : (q.findMatch now me.playerId).2.1 = "" →
    ∀ e ∈ q.queue, e ≠ me → q.inRange now me e = false

variable {q me}

theorem exists_scoreDiff (hf : ∀ e ∈ q.queue, LawfulDoubles.Finite e.eloScore) {a b : Entry E}
    (ha : a ∈ q.queue) (hb : b ∈ q.queue) : ∃ x, LawfulDoubles.value (scoreDiff a b) = some x ∧
      LawfulDoubles.value (scoreDiff b a) = some x :=
  LawfulDoubles.diff_value (hf a ha) (hf b hb)

/-- The loop takes a player who is not the one who asks, is in his range and is nearer than the best
so far. -/
theorem findStep_eq (hd : q.Distinct) {idx i : ℕ} (hme : q.queue[idx]? = some me) {a : Entry E}
    (ha : q.queue[i]? = some a) (best : Option ℕ × E) :
    findStep idx me.eloScore (q.currentEloRange now me.enqueueTimeMs) best (a, i) = best ∧
        ¬(a ≠ me ∧ Doubles.le (scoreDiff a me) (q.currentEloRange now me.enqueueTimeMs) = true ∧
          Doubles.lt (scoreDiff a me) best.2 = true) ∨
      findStep idx me.eloScore (q.currentEloRange now me.enqueueTimeMs) best (a, i) =
          (some i, scoreDiff a me) ∧
        a ≠ me ∧ Doubles.le (scoreDiff a me) (q.currentEloRange now me.enqueueTimeMs) = true ∧
          Doubles.lt (scoreDiff a me) best.2 = true := by
  have hplace : i = idx ↔ a = me := by
    constructor
    · rintro rfl
      exact Option.some.inj (ha.symm.trans hme)
    · rintro rfl
      exact Option.some.inj ((findIndex_of_mem hd ha).symm.trans (findIndex_of_mem hd hme))
  unfold findStep
  simp only [Bool.and_eq_true]
  split_ifs with hself hnear
  · exact .inl ⟨rfl, fun h => h.1 (hplace.1 hself)⟩
  · exact .inr ⟨rfl, fun h => hself (hplace.2 h), hnear⟩
  · exact .inl ⟨rfl, fun h => hnear h.2⟩

/-- The loop over the first players finds the nearest of them, if any is in range. -/
theorem findLoop_prefix (hd : q.Distinct) (hf : ∀ e ∈ q.queue, LawfulDoubles.Finite e.eloScore)
    {idx : ℕ} (hme : q.queue[idx]? = some me) (l suf : List (Entry E)) :
    q.queue = l ++ suf →
    let found := l.zipIdx.foldl (findStep idx me.eloScore
      (q.currentEloRange now me.enqueueTimeMs)) (none, DoubleLimits.max)
    (found = (none, DoubleLimits.max) ∧ ∀ e ∈ l, ¬q.Reaches now me e) ∨
      ∃ pre e post, l = pre ++ e :: post ∧ found = (some pre.length, scoreDiff e me) ∧
        q.Nearest now me pre e post := by
  induction l using List.reverseRecOn generalizing suf with
  | nil => exact fun _ => .inl ⟨rfl, nofun⟩
  | append_singleton l a ih =>
    intro hq found
    have hget : q.queue[l.length]? = some a := by rw [hq]; simp
    have hfound : found = findStep idx me.eloScore (q.currentEloRange now me.enqueueTimeMs)
        (l.zipIdx.foldl (findStep idx me.eloScore (q.currentEloRange now me.enqueueTimeMs))
          (none, DoubleLimits.max)) (a, l.length) := by
      simp only [found, List.zipIdx_append, List.foldl_append, Nat.zero_add]
      rfl
    rcases ih (a :: suf) (by rw [hq]; simp) with ⟨hbest, hnone⟩ | ⟨pre, e, post, hl, hbest, hnear⟩
    · rw [hbest] at hfound
      rcases findStep_eq now hd hme hget (none, DoubleLimits.max) with
        ⟨hstep, hnot⟩ | ⟨hstep, hreach⟩
      · refine .inl ⟨hfound.trans hstep, fun e he => ?_⟩
        rcases List.mem_append.1 he with he | he
        · exact hnone e he
        · obtain rfl := List.mem_singleton.1 he
          exact hnot
      · exact .inr ⟨l, a, [], rfl, hfound.trans hstep, hreach,
          fun e' he' hr => absurd hr (hnone e' he'), nofun⟩
    · rw [hbest] at hfound
      rcases findStep_eq now hd hme hget (some pre.length, scoreDiff e me) with
        ⟨hstep, hnot⟩ | ⟨hstep, hne, hrange, hlt⟩
      · refine .inr ⟨pre, e, post ++ [a], by rw [hl]; simp, hfound.trans hstep, hnear.reached,
          hnear.first, fun e' he' hr => ?_⟩
        rcases List.mem_append.1 he' with he' | he'
        · exact hnear.least e' he' hr
        · obtain rfl := List.mem_singleton.1 he'
          exact Bool.eq_false_iff.2 fun hlt => hnot ⟨hr.1, hr.2.1, hlt⟩
      · refine .inr ⟨l, a, [], rfl, hfound.trans hstep,
          ⟨hne, hrange, LawfulDoubles.lt_trans hlt hnear.reached.2.2⟩, fun e' he' hr => ?_, nofun⟩
        rw [hl] at he'
        rcases List.mem_append.1 he' with he' | he'
        · exact LawfulDoubles.lt_trans hlt (hnear.first e' he' hr)
        · rcases List.mem_cons.1 he' with rfl | he'
          · exact hlt
          · have hin : e' ∈ q.queue := by
              rw [hq, hl]
              simp [he']
            obtain ⟨x, hx, -⟩ := exists_scoreDiff hf hin (List.mem_of_getElem? hme)
            exact LawfulDoubles.lt_of_lt_of_not_lt hx hlt (hnear.least e' he' hr)

/-- What `FindMatch` does: it pairs the player with the nearest one in his range, if there is one.
-/
theorem findMatch_eq (hd : q.Distinct) (hf : ∀ e ∈ q.queue, LawfulDoubles.Finite e.eloScore)
    (hme : me ∈ q.queue) :
    (q.findMatch now me.playerId = (q, "", none) ∧ ∀ e ∈ q.queue, ¬q.Reaches now me e) ∨
      ∃ pre e post, q.queue = pre ++ e :: post ∧ q.Nearest now me pre e post ∧
        q.findMatch now me.playerId = (q.without me e, e.playerId, some (matched (me, e))) := by
  obtain ⟨idx, hidx, hget⟩ := List.mem_iff_getElem.1 hme
  have hget : q.queue[idx]? = some me := List.getElem?_eq_some_iff.2 ⟨hidx, hget⟩
  have hindex := findIndex_of_mem hd hget
  have hloop := findLoop_prefix now hd hf hget q.queue [] (by simp)
  unfold findMatch
  rw [hindex]
  simp only [hget]
  unfold findLoop
  rcases hloop with ⟨hfound, hnone⟩ | ⟨pre, e, post, hq, hfound, hnear⟩
  · rw [hfound]
    exact .inl ⟨rfl, hnone⟩
  · refine .inr ⟨pre, e, post, hq, hnear, ?_⟩
    have hopp : q.queue[pre.length]? = some e := by rw [hq]; simp
    rw [hfound]
    simp only [Option.bind_some, hopp, Option.map_some]
    have hleft : (if pre.length < idx then (q.queue.eraseIdx idx).eraseIdx pre.length
        else (q.queue.eraseIdx pre.length).eraseIdx idx) = (q.without me e).queue := by
      split_ifs with hlt
      · rw [eraseIdx_eraseIdx hd hlt hopp hget]
        exact List.filter_congr fun e' _ => decide_eq_decide.2 and_comm
      · have hne : pre.length ≠ idx := by
          rintro rfl
          exact hnear.reached.1 (Option.some.inj (hopp.symm.trans hget))
        exact eraseIdx_eraseIdx hd (by omega) hget hopp
    rw [hleft]
    rfl

variable {now}

/-- Two players accept each other if the distance is in the range of both. -/
theorem inRange_swap (hf : ∀ e ∈ q.queue, LawfulDoubles.Finite e.eloScore) {e : Entry E}
    (hme : me ∈ q.queue) (he : e ∈ q.queue) : q.inRange now me e = true ↔
      Doubles.le (scoreDiff e me) (q.currentEloRange now me.enqueueTimeMs) = true ∧
        Doubles.le (scoreDiff e me) (q.currentEloRange now e.enqueueTimeMs) = true := by
  obtain ⟨x, hx, hy⟩ := exists_scoreDiff hf hme he
  rw [inRange_iff, LawfulDoubles.le_congr (hx.trans hy.symm),
    LawfulDoubles.le_congr (hx.trans hy.symm)]

theorem Nearest.eq_of_append {pre post pre' post' : List (Entry E)} {e e' : Entry E}
    (h : q.Nearest now me pre e post) (h' : q.Nearest now me pre' e' post') {es : List (Entry E)}
    (hpre : pre' = pre ++ es) (hpost : e :: post = es ++ e' :: post') : e = e' := by
  rcases es with _ | ⟨e₀, es⟩
  · exact (List.cons.inj hpost).1
  · obtain ⟨rfl, rfl⟩ := List.cons.inj hpost
    have hfirst := h'.first e (by rw [hpre]; simp) h.reached
    rw [h.least e' (by simp) h'.reached] at hfirst
    cases hfirst

theorem Nearest.unique {pre post pre' post' : List (Entry E)} {e e' : Entry E}
    (h : q.Nearest now me pre e post) (h' : q.Nearest now me pre' e' post')
    (heq : pre ++ e :: post = pre' ++ e' :: post') : e = e' := by
  rcases List.append_eq_append_iff.1 heq with ⟨es, hpre, hpost⟩ | ⟨es, hpre, hpost⟩
  · exact h.eq_of_append h' hpre hpost
  · exact (h'.eq_of_append h hpre hpost).symm

theorem Nearest.not_lt {pre post : List (Entry E)} {e e' : Entry E}
    (h : q.Nearest now me pre e post) (hne : e' ≠ me) (he' : e' ∈ pre ++ e :: post)
    (hrange : Doubles.le (scoreDiff e' me) (q.currentEloRange now me.enqueueTimeMs) = true) :
    Doubles.lt (scoreDiff e' me) (scoreDiff e me) = false := by
  by_contra hlt
  have hlt := Bool.not_eq_false _ ▸ hlt
  have hr : q.Reaches now me e' := ⟨hne, hrange, LawfulDoubles.lt_trans hlt h.reached.2.2⟩
  have hself : Doubles.lt (scoreDiff e' me) (scoreDiff e' me) = true := by
    rcases List.mem_append.1 he' with he' | he'
    · exact LawfulDoubles.lt_trans hlt (h.first e' he' hr)
    · rcases List.mem_cons.1 he' with rfl | he'
      · exact hlt
      · exact absurd hlt (by rw [h.least e' he' hr]; decide)
  rw [LawfulDoubles.lt_irrefl] at hself
  cases hself

/-- `FindMatch` follows the rule of a round just where the player it takes, the nearest in the range
of the one who asks, accepts him and has an id, or where it takes nobody and nobody would do. -/
theorem sameRule_iff (hd : q.Distinct) (hf : ∀ e ∈ q.queue, LawfulDoubles.Finite e.eloScore)
    (hme : me ∈ q.queue) : q.SameRule now me ↔
      (∃ pre e post, q.queue = pre ++ e :: post ∧ q.Nearest now me pre e post ∧
        Doubles.le (scoreDiff e me) (q.currentEloRange now e.enqueueTimeMs) = true ∧
        e.playerId ≠ "") ∨
      ∀ e ∈ q.queue, ¬q.Reaches now me e ∧ (e ≠ me → q.inRange now me e = false) := by
  rcases findMatch_eq now hd hf hme with
    ⟨hfind, hnone⟩ | ⟨pre, e, post, hq, hnear, hfind⟩
  · constructor
    · intro h
      exact .inr fun e he => ⟨hnone e he, h.unpaired (by rw [hfind]) e he⟩
    · rintro (⟨pre, e, post, hq, hnear, -⟩ | hnobody)
      · exact absurd hnear.reached (hnone e (by rw [hq]; simp))
      · refine ⟨fun m hm => ?_, fun _ e he => (hnobody e he).2⟩
        rw [hfind] at hm
        cases hm
  · have he : e ∈ q.queue := by rw [hq]; simp
    constructor
    · intro h
      obtain ⟨e', he', hne, -, hid, hok, -⟩ := h.paired (matched (me, e)) (by rw [hfind])
      rw [hfind] at hid
      obtain rfl : e = e' := List.inj_on_of_nodup_map hd he he' hid
      refine .inl ⟨pre, e, post, hq, hnear, ((inRange_swap hf hme he).1 hok).2, fun hempty => ?_⟩
      rw [h.unpaired (by rw [hfind]; exact hempty) e he hne] at hok
      cases hok
    · rintro (⟨pre', e', post', hq', hnear', haccept, hid⟩ | hnobody)
      · obtain rfl : e = e' := hnear.unique hnear' (hq.symm.trans hq')
        refine ⟨fun m hm => ?_, fun hempty => ?_⟩
        · rw [hfind] at hm
          obtain rfl := Option.some.inj hm
          have hok := (inRange_swap hf hme he).2 ⟨hnear.reached.2.1, haccept⟩
          refine ⟨e, he, hnear.reached.1, rfl, by rw [hfind], hok, fun e' he' hne hin => ?_, by
            rw [hfind]⟩
          obtain ⟨x, hx, hx'⟩ := exists_scoreDiff hf hme he
          obtain ⟨y, hy, hy'⟩ := exists_scoreDiff hf hme he'
          rw [LawfulDoubles.lt_congr (hy.trans hy'.symm) (hx.trans hx'.symm)]
          exact hnear.not_lt hne (hq ▸ he') ((inRange_swap hf hme he').1 hin).1
        · rw [hfind] at hempty
          exact absurd hempty hid
      · exact absurd hnear.reached (hnobody e he).1

/-- `bob`, who has just come, is paired with `carol`, who is nearest to him and accepts him. -/
theorem sameRule_bob : waitingPlayers.SameRule 20000 ⟨"bob", .fin 150, 20000⟩ ∧
    (waitingPlayers.findMatch 20000 "bob").2.1 = "carol" := by
  obtain ⟨hd, hf, -⟩ := waitingPlayers_sound
  refine ⟨(sameRule_iff hd hf (by decide)).2 (.inl
    ⟨[⟨"ann", .fin 0, 0⟩, ⟨"bob", .fin 150, 20000⟩], ⟨"carol", .fin 200, 20000⟩,
      [⟨"dave", .fin 300, 0⟩], rfl, ⟨?_, ?_, ?_⟩, by decide +kernel, by decide⟩),
    by decide +kernel⟩
  · unfold Reaches
    decide +kernel
  · unfold Reaches
    decide +kernel
  · unfold Reaches
    decide +kernel

/-- `ann`, who has waited long, is paired with `bob`, who has just come and does not accept her. -/
theorem not_sameRule_ann : ¬∀ (q : MatchQueue Score) (now : ℤ) (me : Entry Score), q.Distinct →
    (∀ e ∈ q.queue, LawfulDoubles.Finite e.eloScore) → me ∈ q.queue → q.SameRule now me := by
  intro h
  obtain ⟨hd, hf, -⟩ := waitingPlayers_sound
  have hrule := h waitingPlayers 20000 ⟨"ann", .fin 0, 0⟩ hd hf (by decide)
  have hfind : (waitingPlayers.findMatch 20000 "ann").2 =
      ("bob", some ⟨"ann", .fin 0, "bob", .fin 150⟩) := by
    decide +kernel
  have hrefused : ∀ e ∈ waitingPlayers.queue, e.playerId = "bob" →
      waitingPlayers.inRange 20000 ⟨"ann", .fin 0, 0⟩ e = false := by
    decide +kernel
  obtain ⟨e, he, -, -, hid, hok, -⟩ := hrule.paired _ (congrArg Prod.snd hfind)
  rw [hrefused e he (hid.symm.trans (congrArg Prod.fst hfind))] at hok
  cases hok

end MatchQueue

end TinRpc
