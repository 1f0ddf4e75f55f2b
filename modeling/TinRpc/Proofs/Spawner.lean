import TinRpc.Spawner

/-!
# What a client shows

A client shows whom a snapshot, an entering or a pose brings up until it is told that he left
(`mem_heed`), and never itself (`not_mem_heed`). When it selects a map it shows nobody.
-/

namespace TinRpc

variable {F D : Type}

/-- A message that changes nothing of a spawner. -/
def Message.Silent : Message F → Prop
  | .push _ => False
  | .response _ (.login success ..) => success = false
  | _ => True

namespace PlayerSpawner

variable (c : PlayerSpawner F)

theorem mem_applyPlayerTransform (player : PlayerTransform F) (q : String) :
    q ∈ (c.applyPlayerTransform player).remotePlayers ↔
      q ∈ c.remotePlayers ∨ q = player.playerId ∧ q ≠ "" ∧ q ≠ c.localPlayerId := by
  unfold applyPlayerTransform
  split_ifs with h
  · have hskip : ¬(q = player.playerId ∧ q ≠ "" ∧ q ≠ c.localPlayerId) := by
      rintro ⟨rfl, hne, hself⟩
      exact h.elim hne hself
    rw [or_iff_left hskip]
  · rw [not_or] at h
    have hshown : q = player.playerId → q ≠ "" ∧ q ≠ c.localPlayerId := by
      rintro rfl
      exact h
    rw [AList.mem_insert, or_comm, and_iff_left_of_imp hshown]

@[simp] theorem applyPlayerTransform_self (player : PlayerTransform F) :
    (c.applyPlayerTransform player).localPlayerId = c.localPlayerId := by
  unfold applyPlayerTransform
  split_ifs <;> rfl

theorem mem_despawnPlayer (p q : String) :
    q ∈ (c.despawnPlayer p).remotePlayers ↔ q ≠ p ∧ q ∈ c.remotePlayers := by
  unfold despawnPlayer
  rcases h : c.remotePlayers.lookup p with _ | player
  · have hp : p ∉ c.remotePlayers := AList.lookup_eq_none.1 h
    refine ⟨fun hq => ⟨fun heq => hp (heq ▸ hq), hq⟩, And.right⟩
  · exact AList.mem_erase

@[simp] theorem despawnPlayer_self (p : String) :
    (c.despawnPlayer p).localPlayerId = c.localPlayerId := by
  unfold despawnPlayer
  split <;> rfl

theorem onLoginCompleted_self (p : String) : (c.onLoginCompleted true p).localPlayerId = p :=
  despawnPlayer_self _ p

/-- A snapshot is its players, one after the other. -/
theorem applyWorldState_eq : ∀ (players : List (PlayerTransform F)) (c : PlayerSpawner F),
    c.applyWorldState players = players.foldl applyPlayerTransform c
  | [], _ => rfl
  | player :: players, c => by
    have ih := applyWorldState_eq players
    have hskip : (if player.playerId = "" ∨ player.playerId = c.localPlayerId then c
        else c.applyPlayerTransform player) = c.applyPlayerTransform player := by
      split_ifs with h
      · rw [applyPlayerTransform, if_pos h]
      · rfl
    unfold applyWorldState at ih ⊢
    rw [List.foldl_cons, List.foldl_cons, hskip, ih]

@[simp] theorem applyWorldState_self : ∀ (players : List (PlayerTransform F))
    (c : PlayerSpawner F), (c.applyWorldState players).localPlayerId = c.localPlayerId
  | [], _ => rfl
  | player :: players, c => by
    have ih := applyWorldState_self players (c.applyPlayerTransform player)
    rw [applyWorldState_eq] at ih ⊢
    rw [List.foldl_cons, ih, applyPlayerTransform_self]

theorem mem_applyWorldState (q : String) : ∀ (players : List (PlayerTransform F))
    (c : PlayerSpawner F), q ∈ (c.applyWorldState players).remotePlayers ↔
      q ∈ c.remotePlayers ∨ q ∈ players.map (·.playerId) ∧ q ≠ "" ∧ q ≠ c.localPlayerId
  | [], _ => by simp [applyWorldState]
  | player :: players, c => by
    have ih := mem_applyWorldState q players (c.applyPlayerTransform player)
    rw [applyWorldState_eq] at ih ⊢
    rw [List.foldl_cons, ih, mem_applyPlayerTransform, applyPlayerTransform_self, List.map_cons,
      List.mem_cons, or_assoc, ← or_and_right]

/-- A client that selects a map shows nobody. -/
theorem not_mem_selectMap (q : String) : q ∉ c.selectMap.remotePlayers := by
  have hgone : ∀ (l : List String) (c : PlayerSpawner F),
      q ∈ (l.foldl despawnPlayer c).remotePlayers ↔ q ∉ l ∧ q ∈ c.remotePlayers := by
    intro l
    induction l with
    | nil => simp
    | cons p l ih =>
      intro c
      rw [List.foldl_cons, ih, mem_despawnPlayer, List.mem_cons, not_or, and_left_comm, and_assoc]
  unfold selectMap
  rw [hgone, AList.mem_keys]
  exact fun h => h.1 h.2

theorem selectMap_self : c.selectMap.localPlayerId = c.localPlayerId := by
  have hkept : ∀ (l : List String) (c : PlayerSpawner F),
      (l.foldl despawnPlayer c).localPlayerId = c.localPlayerId := by
    intro l
    induction l with
    | nil => exact fun _ => rfl
    | cons p l ih => exact fun c => (ih _).trans (c.despawnPlayer_self p)
  exact hkept _ c

/-- A spawner once its client has handled these messages. -/
def heed (l : List (Message F)) : PlayerSpawner F := l.foldl dispatchFrame c

theorem heed_append (l l' : List (Message F)) : c.heed (l ++ l') = (c.heed l).heed l' :=
  List.foldl_append

theorem dispatchFrame_silent {m : Message F} (h : m.Silent) : c.dispatchFrame m = c := by
  rcases m with ⟨_ | rid, r⟩ | _ | p | _
  · rfl
  · cases r with
    | login success msg info =>
      obtain rfl : success = false := h
      rfl
    | _ => rfl
  · rfl
  · exact h.elim
  · rfl

theorem heed_silent : ∀ {l : List (Message F)}, (∀ m ∈ l, m.Silent) → c.heed l = c
  | [], _ => rfl
  | m :: l, h => by
    have hl : c.heed l = c := heed_silent fun m hm => h m (List.mem_cons_of_mem _ hm)
    unfold heed at hl ⊢
    rw [List.foldl_cons, c.dispatchFrame_silent (h m List.mem_cons_self), hl]

/-- Whom a message brings up, beside those brought up before. -/
def announce (ids : List String) : Message F → List String
  | .push (.worldState st) => ids ++ st.players.map (·.playerId)
  | .push (.playerEnter player) => ids ++ [player.playerId]
  | .push (.playerLeave p) => ids.filter (· ≠ p)
  | _ => ids

/-- Whom messages bring up and do not say later to have left. -/
def announced (l : List (Message F)) : List String := l.foldl announce []

/-- What is no successful login leaves a client its own id. -/
theorem heed_self : ∀ {l : List (Message F)} (c : PlayerSpawner F),
    (∀ m ∈ l, m.Silent ∨ ∃ push, m = .push push) → (c.heed l).localPlayerId = c.localPlayerId
  | [], _, _ => rfl
  | m :: l, c, h => by
    have hl := heed_self (c.dispatchFrame m) fun m hm => h m (List.mem_cons_of_mem _ hm)
    refine hl.trans ?_
    rcases h m List.mem_cons_self with hsilent | ⟨push, rfl⟩
    · rw [c.dispatchFrame_silent hsilent]
    · cases push with
      | worldState st => exact applyWorldState_self st.players c
      | playerEnter player => exact c.applyPlayerTransform_self player
      | playerLeave p => exact c.despawnPlayer_self p
      | _ => rfl

/-- A message brings nobody up and changes nothing, or it is one of these. -/
theorem dispatchFrame_cases (m : Message F) :
    ((∀ c : PlayerSpawner F, c.dispatchFrame m = c) ∧ ∀ ids, announce ids m = ids) ∨
    (∃ st, m = .push (.worldState st)) ∨ (∃ player, m = .push (.playerEnter player)) ∨
    (∃ p, m = .push (.playerLeave p)) ∨
    ∃ p, (∀ c : PlayerSpawner F, c.dispatchFrame m = c.onLoginCompleted true p) ∧
      ∀ ids, announce ids m = ids := by
  rcases m with ⟨_ | rid, r⟩ | _ | p | _
  · exact .inl ⟨fun _ => rfl, fun _ => rfl⟩
  · cases r with
    | login success msg info =>
      cases success with
      | false => exact .inl ⟨fun _ => rfl, fun _ => rfl⟩
      | true => exact .inr (.inr (.inr (.inr ⟨_, fun _ => rfl, fun _ => rfl⟩)))
    | _ => exact .inl ⟨fun _ => rfl, fun _ => rfl⟩
  · exact .inl ⟨fun _ => rfl, fun _ => rfl⟩
  · cases p with
    | worldState st => exact .inr (.inl ⟨st, rfl⟩)
    | playerEnter player => exact .inr (.inr (.inl ⟨player, rfl⟩))
    | playerLeave p => exact .inr (.inr (.inr (.inl ⟨p, rfl⟩)))
    | _ => exact .inl ⟨fun _ => rfl, fun _ => rfl⟩
  · exact .inl ⟨fun _ => rfl, fun _ => rfl⟩

/-- The id a client takes for its own does not depend on whom it shows. -/
theorem heed_self_congr : ∀ (l : List (Message F)) {c c' : PlayerSpawner F},
    c.localPlayerId = c'.localPlayerId → (c.heed l).localPlayerId = (c'.heed l).localPlayerId
  | [], _, _, h => h
  | m :: l, c, c', h => by
    have hm : (c.dispatchFrame m).localPlayerId = (c'.dispatchFrame m).localPlayerId := by
      rcases dispatchFrame_cases m with ⟨hsilent, -⟩ | ⟨st, rfl⟩ | ⟨player, rfl⟩ | ⟨p, rfl⟩ |
        ⟨p, hlogin, -⟩
      · rw [hsilent, hsilent, h]
      · exact (applyWorldState_self _ c).trans (h.trans (applyWorldState_self _ c').symm)
      · exact (c.applyPlayerTransform_self _).trans (h.trans (c'.applyPlayerTransform_self _).symm)
      · exact (c.despawnPlayer_self _).trans (h.trans (c'.despawnPlayer_self _).symm)
      · rw [hlogin, hlogin, onLoginCompleted_self, onLoginCompleted_self]
    exact heed_self_congr l hm

/-- A client never shows itself. -/
theorem not_mem_dispatchFrame (h : c.localPlayerId ∉ c.remotePlayers) (m : Message F) :
    (c.dispatchFrame m).localPlayerId ∉ (c.dispatchFrame m).remotePlayers := by
  rcases dispatchFrame_cases m with ⟨hsilent, -⟩ | ⟨st, rfl⟩ | ⟨player, rfl⟩ | ⟨p, rfl⟩ |
    ⟨p, hlogin, -⟩
  · rw [hsilent]
    exact h
  · show (c.applyWorldState st.players).localPlayerId ∉ (c.applyWorldState st.players).remotePlayers
    rw [applyWorldState_self, mem_applyWorldState]
    rintro (hself | ⟨-, -, hself⟩)
    · exact h hself
    · exact hself rfl
  · show (c.applyPlayerTransform player).localPlayerId ∉
      (c.applyPlayerTransform player).remotePlayers
    rw [applyPlayerTransform_self, mem_applyPlayerTransform]
    rintro (hself | ⟨-, -, hself⟩)
    · exact h hself
    · exact hself rfl
  · show (c.despawnPlayer p).localPlayerId ∉ (c.despawnPlayer p).remotePlayers
    rw [despawnPlayer_self, mem_despawnPlayer]
    exact fun hself => h hself.2
  · rw [hlogin]
    show (despawnPlayer { c with localPlayerId := p } p).localPlayerId ∉
      (despawnPlayer { c with localPlayerId := p } p).remotePlayers
    rw [despawnPlayer_self, mem_despawnPlayer]
    exact fun hself => hself.1 rfl

theorem not_mem_heed : ∀ (l : List (Message F)) (c : PlayerSpawner F),
    c.localPlayerId ∉ c.remotePlayers → (c.heed l).localPlayerId ∉ (c.heed l).remotePlayers
  | [], _, h => h
  | m :: l, c, h => not_mem_heed l (c.dispatchFrame m) (c.not_mem_dispatchFrame h m)

/-- A client shows nobody but those brought up. -/
theorem mem_heed {q : String} : ∀ (l : List (Message F)) (ids : List String)
    (c : PlayerSpawner F), (q ∈ c.remotePlayers → q ∈ ids) →
      q ∈ (c.heed l).remotePlayers → q ∈ l.foldl announce ids
  | [], _, _, h, hq => h hq
  | m :: l, ids, c, h, hq => by
    refine mem_heed l (announce ids m) (c.dispatchFrame m) (fun hm => ?_) hq
    rcases dispatchFrame_cases m with ⟨hsilent, hids⟩ | ⟨st, rfl⟩ | ⟨player, rfl⟩ | ⟨p, rfl⟩ |
      ⟨p, hlogin, hids⟩
    · rw [hsilent] at hm
      rw [hids]
      exact h hm
    · rcases (mem_applyWorldState q st.players c).1 hm with hold | ⟨hnew, -⟩
      · exact List.mem_append_left _ (h hold)
      · exact List.mem_append_right _ hnew
    · rcases (c.mem_applyPlayerTransform player q).1 hm with hold | ⟨hnew, -⟩
      · exact List.mem_append_left _ (h hold)
      · exact List.mem_append_right _ (List.mem_singleton.2 hnew)
    · obtain ⟨hne, hold⟩ := (c.mem_despawnPlayer p q).1 hm
      exact List.mem_filter.2 ⟨h hold, decide_eq_true hne⟩
    · rw [hlogin] at hm
      rw [hids]
      exact h ((mem_despawnPlayer _ p q).1 hm).2

end PlayerSpawner

end TinRpc
