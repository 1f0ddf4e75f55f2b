import TinRpc.GameState

/-!
# Lockstep

While the players of a state have ids of their own, `tickLogic` depends neither on the order the
players are listed in nor on the order in which the input map is walked, and gives the players ids
of their own again.
-/

namespace TinRpc

/-- The ids of the players. -/
def GameState.ids (s : GameState) : List String := s.players.map PlayerPos.playerId

variable {s s' : GameState} {l l' : List PlayerPos} {i i' : FrameInputs}

theorem applyMove_playerId (p : PlayerPos) (dir : MoveDir) (step : Int32) :
    (applyMove p dir step).playerId = p.playerId := by
  cases dir <;> rfl

theorem applyInput_playerId (i : FrameInputs) (p : PlayerPos) :
    (applyInput i p).playerId = p.playerId := by
  unfold applyInput
  split
  · rfl
  · exact applyMove_playerId _ _ _

theorem sortPlayers_perm (l : List PlayerPos) : (sortPlayers l).Perm l :=
  List.perm_insertionSort _ l

theorem sortPlayers_sorted (l : List PlayerPos) :
    (sortPlayers l).Pairwise fun a b => a.playerId ≤ b.playerId := by
  have : Std.Total fun a b : PlayerPos => a.playerId ≤ b.playerId :=
    ⟨fun a b => le_total a.playerId b.playerId⟩
  have : IsTrans PlayerPos fun a b => a.playerId ≤ b.playerId := ⟨fun _ _ _ => le_trans⟩
  exact List.pairwise_insertionSort _ l

/-- Players with ids of their own have only one sorted order. -/
theorem sortPlayers_congr (hp : l.Perm l') (hn : (l.map PlayerPos.playerId).Nodup) :
    sortPlayers l = sortPlayers l' := by
  refine List.Perm.eq_of_pairwise (fun a b ha hb hab hba => ?_) (sortPlayers_sorted l)
    (sortPlayers_sorted l') ((sortPlayers_perm l).trans (hp.trans (sortPlayers_perm l').symm))
  have hal : a ∈ l := (sortPlayers_perm l).subset ha
  have hbl : b ∈ l := hp.symm.subset ((sortPlayers_perm l').subset hb)
  exact List.inj_on_of_nodup_map hn hal hbl (le_antisymm hab hba)

/-- Each id that is not there yet is put at the end. -/
theorem foldl_ensurePlayerExists : ∀ (ks : List String) (s : GameState), ks.Nodup →
    (ks.foldl ensurePlayerExists s).frameNo = s.frameNo
      ∧ (ks.foldl ensurePlayerExists s).players
          = s.players ++ (ks.filter fun k => k ∉ s.ids).map fun k => { playerId := k }
  | [], s, _ => by simp
  | k :: ks, s, hn => by
    obtain ⟨hk, hks⟩ := List.nodup_cons.1 hn
    rw [List.foldl_cons]
    by_cases hmem : k ∈ s.ids
    · have he : ensurePlayerExists s k = s := by
        unfold ensurePlayerExists
        rw [if_pos]
        obtain ⟨p, hp, hpk⟩ := List.mem_map.1 hmem
        exact List.any_eq_true.2 ⟨p, hp, decide_eq_true hpk⟩
      rw [he, List.filter_cons_of_neg (by simpa using hmem)]
      exact foldl_ensurePlayerExists ks s hks
    · have he : ensurePlayerExists s k
          = { s with players := s.players ++ [{ playerId := k }] } := by
        unfold ensurePlayerExists
        rw [if_neg]
        intro hany
        obtain ⟨p, hp, hpk⟩ := List.any_eq_true.1 hany
        exact hmem (List.mem_map.2 ⟨p, hp, of_decide_eq_true hpk⟩)
      obtain ⟨hf, hps⟩ := foldl_ensurePlayerExists ks (ensurePlayerExists s k) hks
      refine ⟨by rw [hf, he], ?_⟩
      rw [hps, he, List.filter_cons_of_pos (by simpa using hmem), List.map_cons, List.append_assoc]
      refine congrArg (s.players ++ { playerId := k } :: ·) (congrArg _ (List.filter_congr ?_))
      intro j hj
      have hjk : j ≠ k := fun h => hk (h ▸ hj)
      simp [GameState.ids, hjk]

/-- The players in a tick, before they are sorted. -/
def withPlayers (i : FrameInputs) (s : GameState) : List PlayerPos :=
  s.players ++ (i.keys.filter fun k => k ∉ s.ids).map fun k => { playerId := k }

theorem tickLogic_eq (i : FrameInputs) (s : GameState) : tickLogic i s
    = ⟨s.frameNo + 1, (sortPlayers (withPlayers i s)).map (applyInput i)⟩ := by
  obtain ⟨hf, hps⟩ := foldl_ensurePlayerExists i.keys { s with frameNo := s.frameNo + 1 }
    i.nodupKeys
  unfold tickLogic
  simp only [hf, hps]
  rfl

theorem withPlayers_nodup (hs : s.ids.Nodup) (i : FrameInputs) :
    ((withPlayers i s).map PlayerPos.playerId).Nodup := by
  have hnew : (((i.keys.filter fun k => k ∉ s.ids).map fun k : String =>
      ({ playerId := k } : PlayerPos)).map PlayerPos.playerId)
        = i.keys.filter fun k => k ∉ s.ids := by
    rw [List.map_map]
    exact List.map_id _
  unfold withPlayers
  rw [List.map_append, hnew]
  refine List.nodup_append.2 ⟨hs, List.Nodup.filter _ i.nodupKeys, fun a ha b hb hab => ?_⟩
  have := of_decide_eq_true (List.mem_filter.1 hb).2
  exact this (hab ▸ ha)

theorem withPlayers_perm (hp : s.players.Perm s'.players) (hi : i.entries.Perm i'.entries) :
    (withPlayers i s).Perm (withPlayers i' s') := by
  have hids : ∀ k, k ∈ s.ids ↔ k ∈ s'.ids := fun k => (hp.map PlayerPos.playerId).mem_iff
  unfold withPlayers
  simp only [hids]
  exact hp.append (((hi.map Sigma.fst).filter _).map _)

theorem applyInput_congr (hi : i.entries.Perm i'.entries) : applyInput i = applyInput i' := by
  funext p
  unfold applyInput
  rw [AList.perm_lookup hi]

/-- `tickLogic` does not depend on the order of the players or on that of the inputs. -/
theorem tickLogic_congr (hf : s.frameNo = s'.frameNo) (hp : s.players.Perm s'.players)
    (hs : s.ids.Nodup) (hi : i.entries.Perm i'.entries) : tickLogic i s = tickLogic i' s' := by
  rw [tickLogic_eq, tickLogic_eq, hf, applyInput_congr hi,
    sortPlayers_congr (withPlayers_perm hp hi) (withPlayers_nodup hs i)]

theorem tickLogic_ids (i : FrameInputs) (s : GameState) :
    (tickLogic i s).ids = (sortPlayers (withPlayers i s)).map PlayerPos.playerId := by
  rw [tickLogic_eq]
  unfold GameState.ids
  rw [List.map_map]
  exact List.map_congr_left fun p _ => applyInput_playerId i p

/-- The players keep ids of their own. -/
theorem tickLogic_ids_nodup (hs : s.ids.Nodup) (i : FrameInputs) : (tickLogic i s).ids.Nodup := by
  rw [tickLogic_ids]
  exact (((sortPlayers_perm _).map _).nodup_iff).2 (withPlayers_nodup hs i)

theorem mem_withPlayers_ids {k : String} :
    k ∈ (withPlayers i s).map PlayerPos.playerId ↔ k ∈ s.ids ∨ k ∈ i := by
  unfold withPlayers
  rw [List.map_append, List.mem_append, List.map_map]
  change k ∈ s.ids ∨ k ∈ (i.keys.filter fun k => k ∉ s.ids).map id ↔ _
  rw [List.map_id, List.mem_filter, AList.mem_keys, decide_eq_true_eq]
  tauto

theorem mem_tickLogic_ids {k : String} : k ∈ (tickLogic i s).ids ↔ k ∈ s.ids ∨ k ∈ i := by
  rw [tickLogic_ids, ((sortPlayers_perm _).map _).mem_iff, mem_withPlayers_ids]

theorem tickLogic_sorted (i : FrameInputs) (s : GameState) :
    (tickLogic i s).players.Pairwise fun a b => a.playerId ≤ b.playerId := by
  rw [tickLogic_eq]
  refine List.Pairwise.map _ (fun a b hab => ?_) (sortPlayers_sorted (withPlayers i s))
  rwa [applyInput_playerId, applyInput_playerId]

/-- The input of a player starts with the byte of a direction. -/
def Steers (i : FrameInputs) (k : String) : Prop :=
  ∃ dir rest, i.lookup k = some (dir :: rest) ∧ 1 ≤ dir ∧ dir ≤ 4

theorem parseMoveDir_eq_none {dir : UInt8} (rest : List UInt8) (h : ¬(1 ≤ dir ∧ dir ≤ 4)) :
    parseMoveDir (dir :: rest) = .none := by
  have hne : ∀ b : UInt8, 1 ≤ b ∧ b ≤ 4 → dir ≠ b := fun b hb hdir => h (hdir ▸ hb)
  unfold parseMoveDir
  split
  · rfl
  · exact absurd (List.cons.inj ‹_›).1 (hne 1 (by decide))
  · exact absurd (List.cons.inj ‹_›).1 (hne 2 (by decide))
  · exact absurd (List.cons.inj ‹_›).1 (hne 3 (by decide))
  · exact absurd (List.cons.inj ‹_›).1 (hne 4 (by decide))
  · rfl

/-- Who does not steer stays where he is. -/
theorem applyInput_of_not_steers {p : PlayerPos} (h : ¬Steers i p.playerId) :
    applyInput i p = p := by
  unfold applyInput
  split
  · rfl
  · rename_i input hinput
    rcases input with _ | ⟨dir, rest⟩
    · rfl
    · have hdir : ¬(1 ≤ dir ∧ dir ≤ 4) := fun hd => h ⟨dir, rest, hinput, hd⟩
      rw [parseMoveDir_eq_none rest hdir]
      rfl

theorem mem_tickLogic_of_mem {p : PlayerPos} (hp : p ∈ withPlayers i s) :
    applyInput i p ∈ (tickLogic i s).players := by
  rw [tickLogic_eq]
  exact List.mem_map_of_mem ((sortPlayers_perm _).mem_iff.2 hp)

/-- Apply the inputs of one frame after the other. -/
def playFrames (inputs : List FrameInputs) (s : GameState) : GameState :=
  inputs.foldl (fun s i => tickLogic i s) s

/-- Replicas whose players stand in orders of their own agree exactly from the first frame on. -/
theorem playFrames_congr {is is' : List FrameInputs}
    (his : List.Forall₂ (fun i i' => i.entries.Perm i'.entries) is is') :
    ∀ {s s' : GameState}, s.frameNo = s'.frameNo → s.players.Perm s'.players → s.ids.Nodup →
      is ≠ [] → playFrames is s = playFrames is' s' := by
  induction his with
  | nil => exact fun _ _ _ hne => absurd rfl hne
  | @cons i i' is is' hi his ih =>
    intro s s' hf hp hs _
    have hone : tickLogic i s = tickLogic i' s' := tickLogic_congr hf hp hs hi
    have hrest : ∀ t : GameState, t.ids.Nodup → playFrames is t = playFrames is' t := by
      intro t ht
      rcases his with _ | ⟨hj, his⟩
      · rfl
      · exact ih rfl (List.Perm.refl _) ht (List.cons_ne_nil _ _)
    show playFrames is (tickLogic i s) = playFrames is' (tickLogic i' s')
    rw [← hone]
    exact hrest _ (tickLogic_ids_nodup hs i)

/-- From states that differ only in the order of the players, with input maps that differ only in
the order they are walked in, one frame and any number of frames give equal states. A frame puts the
players in the order of their ids, which are the old ones and those of the input, counts the frame,
and moves nobody who does not steer. -/
theorem tickLogic_lockstep (hf : s.frameNo = s'.frameNo) (hp : s.players.Perm s'.players)
    (hs : s.ids.Nodup) :
    (∀ i i' : FrameInputs, i.entries.Perm i'.entries → tickLogic i s = tickLogic i' s') ∧
    (∀ is is' : List FrameInputs, List.Forall₂ (fun i i' => i.entries.Perm i'.entries) is is' →
      (is ≠ [] ∨ s = s') → playFrames is s = playFrames is' s') ∧
    ∀ i : FrameInputs,
      (tickLogic i s).players.Pairwise (fun a b => a.playerId < b.playerId) ∧
      (tickLogic i s).ids.Nodup ∧
      (∀ k, k ∈ (tickLogic i s).ids ↔ k ∈ s.ids ∨ k ∈ i) ∧
      (tickLogic i s).frameNo = s.frameNo + 1 ∧
      (∀ p ∈ s.players, ¬Steers i p.playerId → p ∈ (tickLogic i s).players) ∧
      ∀ k ∈ i, k ∉ s.ids → ¬Steers i k → ⟨k, 0, 0⟩ ∈ (tickLogic i s).players := by
  refine ⟨fun i i' hi => tickLogic_congr hf hp hs hi, fun is is' his hne => ?_, fun i => ?_⟩
  · rcases hne with hne | rfl
    · exact playFrames_congr his hf hp hs hne
    · rcases his with _ | ⟨hi, his⟩
      · rfl
      · exact playFrames_congr (.cons hi his) rfl (List.Perm.refl _) hs (List.cons_ne_nil _ _)
  have hnodup : (tickLogic i s).ids.Nodup := tickLogic_ids_nodup hs i
  have hstay : ∀ p ∈ withPlayers i s, ¬Steers i p.playerId → p ∈ (tickLogic i s).players := by
    intro p hmem hsteers
    have := mem_tickLogic_of_mem hmem
    rwa [applyInput_of_not_steers hsteers] at this
  refine ⟨?_, hnodup, fun k => mem_tickLogic_ids, by rw [tickLogic_eq], fun p hmem => ?_,
    fun k hk hnew => ?_⟩
  · refine (List.Pairwise.and (tickLogic_sorted i s) (List.pairwise_map.1 hnodup)).imp ?_
    exact fun ⟨hle, hne⟩ => lt_of_le_of_ne hle hne
  · exact hstay p (List.mem_append_left _ hmem)
  · refine hstay _ (List.mem_append_right _ (List.mem_map.2 ⟨k, ?_, rfl⟩))
    exact List.mem_filter.2 ⟨AList.mem_keys.1 hk, decide_eq_true hnew⟩

theorem tickLogic_lockstep_two :
    playFrames [AList.insert "b" [4] (AList.insert "c" [2] ∅), AList.insert "a" [9] ∅]
        { players := [⟨"b", 0, 0⟩, ⟨"a", 3, 3⟩] }
      = playFrames [AList.insert "c" [2] (AList.insert "b" [4] ∅), AList.insert "a" [9] ∅]
        { players := [⟨"a", 3, 3⟩, ⟨"b", 0, 0⟩] } :=
  (@tickLogic_lockstep { players := [⟨"b", 0, 0⟩, ⟨"a", 3, 3⟩] }
      { players := [⟨"a", 3, 3⟩, ⟨"b", 0, 0⟩] } rfl (List.Perm.swap _ _ _) (by decide)).2.1 _ _
    (.cons (List.Perm.swap _ _ _) (.cons (List.Perm.refl _) .nil)) (.inl (List.cons_ne_nil _ _))

end TinRpc
