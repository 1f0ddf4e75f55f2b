import TinRpc.Proofs.Lockstep

/-!
# Corrections

`CompareStates` names the players of the server's state that the client does not have where the
server has them, and its deltas are what is missing: added to the client's positions they leave
nothing to correct.
-/

namespace TinRpc

variable {authoritative predicted s : GameState} {sp : PlayerPos} {id : String}
  {c : PlayerCorrection} {cs : List PlayerCorrection}

/-- Where a state has a player, the origin where it does not have him. -/
def GameState.position (s : GameState) (id : String) : Int32 × Int32 :=
  (findPlayerPos s id).getD (0, 0)

theorem findPlayerPos_eq_some_of_mem (hs : s.ids.Nodup) (h : sp ∈ s.players) :
    findPlayerPos s sp.playerId = some (sp.x, sp.y) := by
  unfold findPlayerPos
  rcases hfind : s.players.find? (·.playerId = sp.playerId) with _ | p
  · have := List.find?_eq_none.1 hfind sp h
    simp at this
  · have hid : p.playerId = sp.playerId := by simpa using List.find?_some hfind
    rw [hfind, List.inj_on_of_nodup_map hs (List.mem_of_find?_eq_some hfind) h hid]
    rfl

theorem mem_of_findPlayerPos (h : findPlayerPos s sp.playerId = some (sp.x, sp.y)) :
    sp ∈ s.players := by
  unfold findPlayerPos at h
  obtain ⟨p, hfind, hp⟩ := Option.map_eq_some_iff.1 h
  have hid : p.playerId = sp.playerId := by simpa using List.find?_some hfind
  obtain ⟨hx, hy⟩ := Prod.mk.inj hp
  obtain rfl : p = sp := by
    obtain ⟨i, x, y⟩ := p
    obtain ⟨i', x', y'⟩ := sp
    simp only at hid hx hy
    rw [hid, hx, hy]
  exact List.mem_of_find?_eq_some hfind

/-- Where ids are not shared, a state has a player at a place if that is where it finds him. -/
theorem mem_players_iff (hs : s.ids.Nodup) :
    sp ∈ s.players ↔ findPlayerPos s sp.playerId = some (sp.x, sp.y) :=
  ⟨findPlayerPos_eq_some_of_mem hs, mem_of_findPlayerPos⟩

theorem comparePlayer_eq_none :
    comparePlayer predicted sp = none ↔ findPlayerPos predicted sp.playerId = some (sp.x, sp.y) := by
  unfold comparePlayer
  rcases findPlayerPos predicted sp.playerId with _ | ⟨x, y⟩
  · simp
  · simp

/-- What a correction says: who is where on the server and on the client, and the difference. -/
theorem comparePlayer_eq_some (h : comparePlayer predicted sp = some c) :
    c.playerId = sp.playerId ∧ (c.serverX, c.serverY) = (sp.x, sp.y) ∧
      (c.clientX, c.clientY) = predicted.position sp.playerId ∧
      c.deltaX = sp.x - (predicted.position sp.playerId).1 ∧
      c.deltaY = sp.y - (predicted.position sp.playerId).2 := by
  unfold comparePlayer at h
  simp only [] at h
  split_ifs at h
  obtain rfl := Option.some.inj h
  exact ⟨rfl, rfl, rfl, rfl, rfl⟩

theorem compareStates_eq_nil :
    compareStates authoritative predicted = [] ↔
      ∀ sp ∈ authoritative.players, findPlayerPos predicted sp.playerId = some (sp.x, sp.y) := by
  unfold compareStates
  rw [List.filterMap_eq_nil_iff]
  simp only [comparePlayer_eq_none]

/-- The players that need a correction, in the order of the server's state. -/
theorem compareStates_ids (hp : predicted.ids.Nodup) :
    (compareStates authoritative predicted).map PlayerCorrection.playerId =
      (authoritative.players.filter fun sp => sp ∉ predicted.players).map PlayerPos.playerId := by
  unfold compareStates
  induction authoritative.players with
  | nil => rfl
  | cons sp players ih =>
    rcases h : comparePlayer predicted sp with _ | c
    · have hin := (mem_players_iff hp).2 (comparePlayer_eq_none.1 h)
      rw [List.filterMap_cons_none h, List.filter_cons_of_neg (by simpa using hin), ih]
    · have hout : sp ∉ predicted.players := by
        intro hin
        rw [comparePlayer_eq_none.2 ((mem_players_iff hp).1 hin)] at h
        cases h
      rw [List.filterMap_cons_some h, List.filter_cons_of_pos (by simpa using hout), List.map_cons,
        List.map_cons, (comparePlayer_eq_some h).1, ih]

namespace PlayerCorrection

/-- Add the delta of a correction to a player it is for. -/
def move (c : PlayerCorrection) (p : PlayerPos) : PlayerPos :=
  if p.playerId = c.playerId then { p with x := p.x + c.deltaX, y := p.y + c.deltaY } else p

/-- Add the delta of a correction to where a state has the player, with the origin for one that it
does not have. -/
def apply (s : GameState) (c : PlayerCorrection) : GameState :=
  if c.playerId ∈ s.ids then { s with players := s.players.map c.move }
  else { s with players := s.players ++ [⟨c.playerId, 0 + c.deltaX, 0 + c.deltaY⟩] }

theorem move_playerId (c : PlayerCorrection) (p : PlayerPos) :
    (c.move p).playerId = p.playerId := by
  unfold move
  split_ifs <;> rfl

theorem find_map_move (c : PlayerCorrection) (id : String) (players : List PlayerPos) :
    (players.map c.move).find? (·.playerId = id) =
      (players.find? (·.playerId = id)).map c.move := by
  rw [List.find?_map]
  simp only [Function.comp_def, move_playerId]

end PlayerCorrection

theorem findPlayerPos_eq_none : findPlayerPos s id = none ↔ id ∉ s.ids := by
  unfold findPlayerPos GameState.ids
  rw [Option.map_eq_none_iff, List.find?_eq_none]
  simp

theorem findPlayerPos_apply (s : GameState) (c : PlayerCorrection) (id : String) :
    findPlayerPos (c.apply s) id =
      if id = c.playerId then
        some ((s.position id).1 + c.deltaX, (s.position id).2 + c.deltaY)
      else findPlayerPos s id := by
  by_cases hin : c.playerId ∈ s.ids
  · have happly : findPlayerPos (c.apply s) id =
        ((s.players.find? (·.playerId = id)).map c.move).map fun p => (p.x, p.y) := by
      unfold PlayerCorrection.apply
      rw [if_pos hin, ← PlayerCorrection.find_map_move]
      rfl
    rw [happly]
    unfold GameState.position findPlayerPos
    rcases hfind : s.players.find? (·.playerId = id) with _ | p
    · rw [hfind, if_neg]
      · rfl
      · rintro rfl
        exact findPlayerPos_eq_none.1 (congrArg (Option.map _) hfind) hin
    · obtain rfl : p.playerId = id := by simpa using List.find?_some hfind
      rw [hfind]
      unfold PlayerCorrection.move
      simp only [Option.map_some]
      split_ifs <;> rfl
  · have hnew : findPlayerPos (c.apply s) id =
        ((s.players.find? (·.playerId = id)).or
          ([(⟨c.playerId, 0 + c.deltaX, 0 + c.deltaY⟩ : PlayerPos)].find?
            (·.playerId = id))).map fun p => (p.x, p.y) := by
      unfold PlayerCorrection.apply findPlayerPos
      rw [if_neg hin, List.find?_append]
    rw [hnew]
    split_ifs with hid
    · subst hid
      have hnone := findPlayerPos_eq_none.2 hin
      have hfind : s.players.find? (·.playerId = c.playerId) = none :=
        Option.map_eq_none_iff.1 hnone
      rw [hfind, GameState.position, hnone]
      simp
    · rw [List.find?_cons_of_neg (by simpa using Ne.symm hid), List.find?_nil, Option.or_none]
      rfl

/-- Corrections that move their players to `target`, from where they were at first, do. -/
theorem findPlayerPos_applyAll (target : String → Int32 × Int32) :
    ∀ (cs : List PlayerCorrection) (s : GameState), (cs.map PlayerCorrection.playerId).Nodup →
      (∀ c ∈ cs, ((s.position c.playerId).1 + c.deltaX, (s.position c.playerId).2 + c.deltaY)
        = target c.playerId) →
      ∀ id, findPlayerPos (cs.foldl PlayerCorrection.apply s) id =
        if id ∈ cs.map PlayerCorrection.playerId then some (target id) else findPlayerPos s id
  | [], s, _, _, id => by simp
  | c :: cs, s, hcs, htarget, id => by
    obtain ⟨hc, hcs⟩ := List.nodup_cons.1 hcs
    obtain ⟨hfirst, hrest⟩ := List.forall_mem_cons.1 htarget
    have hother : ∀ id, id ≠ c.playerId → findPlayerPos (c.apply s) id = findPlayerPos s id := by
      intro id hid
      rw [findPlayerPos_apply, if_neg hid]
    have hstill : ∀ c' ∈ cs, (((c.apply s).position c'.playerId).1 + c'.deltaX,
        ((c.apply s).position c'.playerId).2 + c'.deltaY) = target c'.playerId := by
      intro c' hc'
      have hne : c'.playerId ≠ c.playerId := fun he => hc (he ▸ List.mem_map_of_mem hc')
      unfold GameState.position
      rw [hother _ hne]
      exact hrest c' hc'
    rw [List.foldl_cons, findPlayerPos_applyAll target cs (c.apply s) hcs hstill, List.map_cons]
    by_cases hid : id = c.playerId
    · subst hid
      rw [if_neg hc, if_pos List.mem_cons_self, findPlayerPos_apply, if_pos rfl, hfirst]
    · rw [hother id hid]
      simp only [List.mem_cons, hid, false_or]

/-- The comparison names, in the server's order, exactly the players that the client does not have
where the server has them; each delta leads from where the client has the player to where the server
has him; and when all corrections are applied there is nothing to correct. -/
theorem compareStates_exact (ha : authoritative.ids.Nodup) (hp : predicted.ids.Nodup) :
    (compareStates authoritative predicted = [] ↔
        ∀ sp ∈ authoritative.players, sp ∈ predicted.players) ∧
      (compareStates authoritative predicted).map PlayerCorrection.playerId =
        (authoritative.players.filter fun sp => sp ∉ predicted.players).map PlayerPos.playerId ∧
      (∀ c ∈ compareStates authoritative predicted,
        ⟨c.playerId, (predicted.position c.playerId).1 + c.deltaX,
          (predicted.position c.playerId).2 + c.deltaY⟩ ∈ authoritative.players) ∧
      compareStates authoritative
        ((compareStates authoritative predicted).foldl PlayerCorrection.apply predicted) = [] := by
  have hids := @compareStates_ids authoritative _ hp
  have hmoved : ∀ c ∈ compareStates authoritative predicted,
      ⟨c.playerId, (predicted.position c.playerId).1 + c.deltaX,
        (predicted.position c.playerId).2 + c.deltaY⟩ ∈ authoritative.players := by
    intro c hc
    obtain ⟨sp, hsp, hcompare⟩ := List.mem_filterMap.1 hc
    obtain ⟨hid, -, -, hx, hy⟩ := comparePlayer_eq_some hcompare
    rw [hid, hx, hy, Int32.add_comm, Int32.sub_add_cancel, Int32.add_comm, Int32.sub_add_cancel]
    exact hsp
  refine ⟨?_, hids, hmoved, ?_⟩
  · rw [compareStates_eq_nil]
    exact forall₂_congr fun sp _ => (mem_players_iff hp).symm
  · have hnodup : ((compareStates authoritative predicted).map
        PlayerCorrection.playerId).Nodup := by
      rw [hids]
      exact ha.sublist (List.filter_sublist.map _)
    rw [compareStates_eq_nil]
    intro sp hsp
    rw [findPlayerPos_applyAll authoritative.position _ _ hnodup]
    · split_ifs with hin
      · rw [GameState.position, findPlayerPos_eq_some_of_mem ha hsp]
        rfl
      · by_contra hne
        refine hin ?_
        rw [hids]
        refine List.mem_map_of_mem (List.mem_filter.2 ⟨hsp, decide_eq_true fun hmem => hne ?_⟩)
        exact findPlayerPos_eq_some_of_mem hp hmem
    · intro c hc
      have hfound := findPlayerPos_eq_some_of_mem ha (hmoved c hc)
      rw [GameState.position, GameState.position, hfound]
      rfl

/-- One player where he should be, one elsewhere, one missing whose place is the origin. -/
theorem compareStates_exact_three :
    let authoritative : GameState := ⟨7, [⟨"ann", 1, 2⟩, ⟨"bob", -2147483648, 5⟩, ⟨"carol", 0, 0⟩]⟩
    let predicted : GameState := ⟨7, [⟨"bob", 2147483647, 5⟩, ⟨"ann", 1, 2⟩]⟩
    (compareStates authoritative predicted).map (fun c => (c.playerId, c.deltaX, c.deltaY)) =
        [("bob", 1, 0), ("carol", 0, 0)] ∧
      compareStates authoritative
        ((compareStates authoritative predicted).foldl PlayerCorrection.apply predicted) = [] :=
  ⟨by decide, (compareStates_exact (by decide) (by decide)).2.2.2⟩

end TinRpc
