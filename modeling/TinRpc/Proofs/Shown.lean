import TinRpc.Proofs.Blocks
import TinRpc.Proofs.Spawner

/-!
# What the clients of a room are told

A client that shows the others of its player's room (`Shows`) shows them after every operation of
another player: he enters the room or leaves it (`shows_arrived`, `shows_left`), moves
(`shows_moved`), or does what no client shows by players (`shows_operation`). After its own player
has entered a room it shows the others there if it showed nobody from elsewhere before
(`shows_selected`, `shows_joined`).
-/

namespace TinRpc

variable {F D : Type}

namespace WorldService

/-- The players have the ids they are kept under. -/
def Labelled (w : WorldService F) : Prop :=
  ∀ id player, w.players.lookup id = some player → player.playerId = id

variable {w w' : WorldService F}

theorem labelled_congr (h : w'.players = w.players) : w'.Labelled ↔ w.Labelled := by
  unfold Labelled
  rw [h]

theorem Labelled.setPlayer (h : w.Labelled) {player : Player F} {id : String}
    (hid : player.playerId = id) : (w.setPlayer player id).Labelled := by
  intro q p hp
  rw [lookup_setPlayer] at hp
  split_ifs at hp with hq
  · rw [← Option.some.inj hp, hid, hq]
  · exact h q p hp

theorem Labelled.operation (h : w.Labelled) {p : String} (hw : w.Recounted w' p) :
    w'.Labelled := by
  rcases hw with hw | ⟨player, inv, hp, hw⟩
  · exact (labelled_congr hw).2 h
  · exact (labelled_congr hw).2 (h.setPlayer (h p player hp))

theorem Labelled.leave (h : w.Labelled) (p : String) : (w.leave p).1.Labelled := by
  unfold WorldService.leave
  rcases hp : w.players.lookup p with _ | player
  · exact h
  · intro q other hq
    rw [AList.lookup_erase_if] at hq
    split_ifs at hq
    exact h q other hq

variable [Platform F]

theorem Labelled.enterWithState (h : w.Labelled) (p name : String) (now : ℤ) (x y z yaw : F)
    (inv : Inventory) : (w.enterWithState p name now x y z yaw inv).1.Labelled :=
  (labelled_congr (sendWorldStateTo_players _ p)).2 (h.setPlayer rfl)

theorem Labelled.selectRoom (h : w.Labelled) (p room : String) (map now : ℤ) :
    (w.selectRoom p room map now).world.Labelled := by
  unfold WorldService.selectRoom
  rcases hp : w.players.lookup p with _ | player
  · exact h
  dsimp only
  split_ifs
  · exact h
  · exact (labelled_congr (sendWorldStateTo_players _ p)).2 (h.setPlayer (h p player hp))

omit [Platform F] in
theorem Labelled.broadcastPose (h : w.Labelled) (player : Player F) (now : ℤ) :
    (w.broadcastPose player now false).1.Labelled := by
  unfold WorldService.broadcastPose
  rcases hit : w.players.lookup player.playerId with _ | it
  · exact h
  dsimp only
  split_ifs
  · exact h
  · exact h.setPlayer (h _ it hit)

theorem Labelled.tryMove (h : w.Labelled) (p : String) (x y z yaw : F) (now appearance : ℤ) :
    (w.tryMove p x y z yaw now appearance).world.Labelled := by
  unfold WorldService.tryMove
  rcases hp : w.players.lookup p with _ | player
  · exact h
  dsimp only
  split
  · exact h.setPlayer (h p player hp)
  · exact (h.setPlayer (by exact h p player hp)).broadcastPose _ now

theorem Labelled.run (h : w.Labelled) (k : Call F) : (k.run w).world.Labelled := by
  cases k with
  | enter p name now =>
    obtain ⟨x, y, z, yaw, heq⟩ := w.enter_eq p name now
    simp only [Call.run, heq]
    exact h.enterWithState p name now x y z yaw _
  | enterWithState p name now x y z yaw inv => exact h.enterWithState p name now x y z yaw inv
  | leave p => exact h.leave p
  | selectRoom p room map now => exact h.selectRoom p room map now
  | tryMove p x y z yaw now appearance => exact h.tryMove p x y z yaw now appearance
  | tryGather p node => exact h.operation (w.recounted_operation (.tryGather p node))
  | tryPlaceBuilding p type x y z yaw =>
    exact h.operation (w.recounted_operation (.tryPlaceBuilding p type x y z yaw))
  | tryCraft p recipe => exact h.operation (w.recounted_operation (.tryCraft p recipe))
  | applyVoxelEdit p x y z action type =>
    exact h.operation (w.recounted_operation (.applyVoxelEdit p x y z action type))

end WorldService

/-! ## Who is told what -/

/-- What a player is sent of the messages of an operation. -/
def Sends.notices (q : String) (sent : Sends F) : List (Message F) :=
  (sent.filter fun m => m.1 = q).map fun m => .push m.2

namespace WorldService

open Sends (notices)

variable {w w' : WorldService F} {p q room : String}

theorem notices_append (sent sent' : Sends F) :
    notices q (sent ++ sent') = notices q sent ++ notices q sent' := by
  unfold Sends.notices
  rw [List.filter_append, List.map_append]

/-- One message for the players who meet a condition. -/
theorem notices_entries (P : (Sigma fun _ : String => Player F) → Bool) (m : Push F) :
    notices q ((w.players.entries.filter P).map fun e => (e.1, m)) =
      if (w.players.lookup q).any fun player => P ⟨q, player⟩ then [.push m] else [] := by
  unfold Sends.notices
  rw [AList.filter_key_map_entries]
  split_ifs <;> rfl

theorem notices_broadcastLeave (p room : String) :
    notices q (w.broadcastLeave p room) =
      if w.room q = some room then [.push (.playerLeave p)] else [] := by
  unfold broadcastLeave WorldService.room
  rw [notices_entries]
  rcases w.players.lookup q with _ | player <;> simp

theorem notices_broadcastEnter (player : Player F) :
    notices q (w.broadcastEnter player) =
      if q ≠ player.playerId ∧ w.room q = some player.roomId then
        [.push (.playerEnter (transform player))] else [] := by
  unfold broadcastEnter WorldService.room
  rw [notices_entries]
  rcases w.players.lookup q with _ | other <;> simp

theorem notices_mem {m : Message F} {sent : Sends F} :
    m ∈ notices q sent ↔ ∃ push, (q, push) ∈ sent ∧ m = .push push := by
  unfold Sends.notices
  simp only [List.mem_map, List.mem_filter, decide_eq_true_eq]
  constructor
  · rintro ⟨⟨_, push⟩, ⟨h, rfl⟩, rfl⟩
    exact ⟨push, h, rfl⟩
  · rintro ⟨push, h, rfl⟩
    exact ⟨(q, push), ⟨h, rfl⟩, rfl⟩

/-- The others in a player's room. -/
def Beside (w : WorldService F) (p q : String) : Prop :=
  q ≠ p ∧ ∃ room, w.room p = some room ∧ w.room q = some room

/-- A snapshot lists who is in the room. -/
theorem mem_worldStateFor (h : w.Labelled) (hp : w.room p = some room) :
    q ∈ (w.worldStateFor p).players.map (·.playerId) ↔ w.room q = some room := by
  obtain ⟨target, htarget, rfl⟩ := Option.map_eq_some_iff.1 hp
  simp only [worldStateFor, List.map_map, List.mem_map, List.mem_filter, AList.mem_entries_iff,
    htarget, Option.any_some, decide_eq_true_eq, WorldService.room, Option.map_eq_some_iff]
  constructor
  · rintro ⟨⟨id, player⟩, ⟨hplayer, hin⟩, rfl⟩
    refine ⟨player, ?_, hin⟩
    show w.players.lookup player.playerId = some player
    rwa [h id player hplayer]
  · rintro ⟨player, hplayer, hin⟩
    exact ⟨⟨q, player⟩, ⟨hplayer, hin⟩, h q player hplayer⟩

/-- A player comes to a room: he is sent who is there, those there are told of him, and those in
the room he leaves, if any is told, that he left. -/
structure Arrives (w : WorldService F) (p room : String) (left : Option String)
    (w' : WorldService F) (sent : Sends F) : Prop where
  room_eq : ∀ q, w'.room q = if q = p then some room else w.room q
  own : ∃ before st, notices p sent = before ++ [.push (.worldState st)] ∧
    (∀ m ∈ before, m = .push (.playerLeave p)) ∧
    ∀ q, q ∈ st.players.map (·.playerId) ↔ w'.room q = some room
  others : ∀ q, q ≠ p → ∃ player : PlayerTransform F, player.playerId = p ∧ notices q sent =
    (if left.any fun old => w.room q = some old then [.push (.playerLeave p)] else []) ++
      if w.room q = some room then [.push (.playerEnter player)] else []

theorem arrives (h : w.Labelled) (player : Player F) (hid : player.playerId = p)
    (left : Option String) :
    let r := (w.setPlayer player p).sendWorldStateTo p
    w.Arrives p player.roomId left r.1 ((left.elim [] fun old => w.broadcastLeave p old) ++ r.2 ++
      r.1.broadcastEnter player) := by
  intro r
  have hrooms : ∀ q, r.1.room q = if q = p then some player.roomId else w.room q := by
    intro q
    rw [← room_setPlayer]
    unfold WorldService.room
    rw [sendWorldStateTo_players]
  have hsnapshot : r.2 = [(p, .worldState ((w.setPlayer player p).worldStateFor p))] := rfl
  have hleft : ∀ q, notices q (left.elim [] fun old => w.broadcastLeave p old) =
      if left.any fun old => w.room q = some old then [.push (.playerLeave p)] else [] := by
    intro q
    rcases left with _ | old
    · rfl
    · simp only [Option.elim_some, notices_broadcastLeave, Option.any_some, decide_eq_true_eq]
  have hrecipient : ∀ q push, notices q [(p, push)] = if q = p then [.push (F := F) push] else [] := by
    intro q push
    unfold Sends.notices
    by_cases hq : q = p
    · simp [hq]
    · simp [hq, Ne.symm hq]
  refine ⟨hrooms, ⟨notices p (left.elim [] fun old => w.broadcastLeave p old),
    (w.setPlayer player p).worldStateFor p, ?_, fun m hm => ?_, fun q => ?_⟩,
    fun q hq => ⟨transform player, hid, ?_⟩⟩
  · rw [notices_append, notices_append, hsnapshot, hrecipient, if_pos rfl, notices_broadcastEnter,
      if_neg fun h => h.1 hid.symm, List.append_nil]
  · rw [hleft] at hm
    split_ifs at hm
    · exact List.mem_singleton.1 hm
    · cases hm
  · rw [mem_worldStateFor (h.setPlayer hid) (by rw [room_setPlayer, if_pos rfl]), hrooms,
      room_setPlayer]
  · rw [notices_append, notices_append, hsnapshot, hrecipient, if_neg hq, List.append_nil, hleft,
      notices_broadcastEnter, hid, hrooms, if_neg hq]
    simp only [ne_eq, hq, not_false_eq_true, true_and]

variable [Platform F]

theorem arrives_enterWithState (h : w.Labelled) (p name : String) (now : ℤ) (x y z yaw : F)
    (inv : Inventory) :
    let r := w.enterWithState p name now x y z yaw inv
    w.Arrives p ((w.room p).getD "lobby") none r.1 r.2 := by
  have hroom : ((w.players.lookup p).getD
      { playerId := "", name := "", x := Platform.ofRat 0, y := Platform.ofRat 0
        z := Platform.ofRat 0, yaw := Platform.ofRat 0
        moveAllowance := Platform.ofRat 1 }).roomId = (w.room p).getD "lobby" := by
    unfold WorldService.room
    rcases w.players.lookup p with _ | player <;> rfl
  rw [← hroom]
  exact arrives h { (w.players.lookup p).getD
    { playerId := "", name := "", x := Platform.ofRat 0, y := Platform.ofRat 0
      z := Platform.ofRat 0, yaw := Platform.ofRat 0, moveAllowance := Platform.ofRat 1 } with
    playerId := p, name, x, y, z, yaw, inv, lastMoveMs := now
    moveAllowance := Platform.ofRat 1, lastBroadcastMs := now - kMinBroadcastIntervalMs } rfl none

/-- A player in the world who asks for one of the maps gets there. -/
theorem selectRoom_ok (hp : (w.room p).isSome) (hroom : room ≠ "") {map : ℤ}
    (hmap : 0 ≤ map ∧ map ≤ 2) (now : ℤ) : (w.selectRoom p room map now).result = true := by
  obtain ⟨player, hplayer⟩ := Option.isSome_iff_exists.1 (by rwa [WorldService.room,
    Option.isSome_map] at hp)
  have hvalid : ¬(room = "" ∨ map < 0 ∨ 2 < map) := by
    rintro (hempty | hout)
    · exact hroom hempty
    · omega
  unfold selectRoom
  rw [hplayer]
  dsimp only
  rw [if_neg hvalid]

theorem arrives_selectRoom (h : w.Labelled) {map now : ℤ}
    (hok : (w.selectRoom p room map now).result = true) :
    w.Arrives p room (w.room p) (w.selectRoom p room map now).world
      (w.selectRoom p room map now).sent := by
  rcases hp : w.players.lookup p with _ | player
  · simp [selectRoom, hp] at hok
  have hold : w.room p = some player.roomId := by rw [WorldService.room, hp]; rfl
  unfold selectRoom at hok ⊢
  simp only [hp] at hok ⊢
  split at hok
  · cases hok
  · next hvalid =>
    rw [if_neg hvalid, hold]
    exact arrives h (Player.mk player.playerId player.name room map _ _ _ player.yaw
      player.appearance player.inv now _ player.lastBroadcastMs) (h p player hp)
      (some player.roomId)

end WorldService

/-! ## Showing the others of a room -/

/-- The client of a player shows the others of his room. -/
structure Shows (w : WorldService F) (q : String) (c : PlayerSpawner F) : Prop where
  self : c.localPlayerId = q
  roster : ∀ r, r ∈ c.remotePlayers ↔ w.Beside q r

open Sends (notices)
open PlayerSpawner

variable {w w' : WorldService F} {c : PlayerSpawner F} {p q room : String} {left : Option String}
  {sent : Sends F}

/-- To be told that a player left is of no account for the others. -/
theorem heed_left : ∀ {l : List (Message F)} (c : PlayerSpawner F),
    (∀ m ∈ l, m = .push (.playerLeave p)) → (c.heed l).localPlayerId = c.localPlayerId ∧
      ∀ r, r ≠ p → (r ∈ (c.heed l).remotePlayers ↔ r ∈ c.remotePlayers)
  | [], _, _ => ⟨rfl, fun _ _ => Iff.rfl⟩
  | m :: l, c, h => by
    obtain rfl := h m List.mem_cons_self
    obtain ⟨hself, hroster⟩ := heed_left (c.despawnPlayer p)
      fun m hm => h m (List.mem_cons_of_mem _ hm)
    refine ⟨hself.trans (c.despawnPlayer_self p), fun r hr => (hroster r hr).trans ?_⟩
    rw [mem_despawnPlayer, and_iff_right hr]

namespace WorldService

/-- What the client of a player shows who is sent a room's snapshot. -/
theorem Arrives.own_roster (h : w.Arrives p room left w' sent) (c : PlayerSpawner F) :
    (c.heed (notices p sent)).localPlayerId = c.localPlayerId ∧
      ∀ r, r ≠ p → (r ∈ (c.heed (notices p sent)).remotePlayers ↔
        r ∈ c.remotePlayers ∨ w'.room r = some room ∧ r ≠ "" ∧ r ≠ c.localPlayerId) := by
  obtain ⟨before, st, hsent, hbefore, hids⟩ := h.own
  obtain ⟨hself, hroster⟩ := heed_left c hbefore
  have hheed : c.heed (notices p sent) = (c.heed before).applyWorldState st.players := by
    rw [hsent, heed_append]
    rfl
  rw [hheed]
  refine ⟨(applyWorldState_self _ _).trans hself, fun r hr => ?_⟩
  rw [mem_applyWorldState, hroster r hr, hids, hself]

theorem beside_own (h : w.Arrives p room left w' sent) {r : String} :
    w'.Beside p r ↔ r ≠ p ∧ w'.room r = some room := by
  have hp : w'.room p = some room := by rw [h.room_eq, if_pos rfl]
  simp only [Beside, hp, Option.some.injEq, exists_eq_left']

end WorldService

/-- A player's client that showed nobody from elsewhere shows the room he has come to. -/
theorem shows_selected (h : w.Arrives p room left w' sent)
    (hnames : ∀ r, (w'.room r).isSome → r ≠ "") (hself : c.localPlayerId = p)
    (hown : p ∉ c.remotePlayers) (hc : ∀ r ∈ c.remotePlayers, w.room r = some room) :
    Shows w' p (c.heed (notices p sent)) := by
  obtain ⟨hself', hroster⟩ := h.own_roster c
  have hown' : p ∉ (c.heed (notices p sent)).remotePlayers := by
    have hnot := not_mem_heed (notices p sent) c (hself ▸ hown)
    rwa [hself', hself] at hnot
  refine ⟨hself'.trans hself, fun r => ?_⟩
  rw [WorldService.beside_own h]
  by_cases hr : r = p
  · subst hr
    exact iff_of_false hown' fun h => h.1 rfl
  rw [hroster r hr, hself, h.room_eq, if_neg hr]
  constructor
  · rintro (hold | ⟨hin, -⟩)
    · exact ⟨hr, hc r hold⟩
    · exact ⟨hr, hin⟩
  · rintro ⟨-, hin⟩
    have hsome : (w'.room r).isSome := by rw [h.room_eq, if_neg hr, hin]; rfl
    exact .inr ⟨hin, hnames r hsome, hr⟩

/-- The client of a player who logs in shows his room, if it showed nobody from elsewhere and
nobody there has the id it took for its own. -/
theorem shows_joined (h : w.Arrives p room left w' sent)
    (hnames : ∀ r, (w'.room r).isSome → r ≠ "")
    (hlocal : c.localPlayerId ≠ p → w.room c.localPlayerId ≠ some room)
    (hc : ∀ r ∈ c.remotePlayers, r ≠ p → w.room r = some room) :
    Shows w' p ((c.heed (notices p sent)).onLoginCompleted true p) := by
  obtain ⟨-, hroster⟩ := h.own_roster c
  refine ⟨despawnPlayer_self _ p, fun r => ?_⟩
  rw [WorldService.beside_own h]
  refine (mem_despawnPlayer _ p r).trans (and_congr_right fun hr => ?_)
  refine (hroster r hr).trans ?_
  rw [h.room_eq, if_neg hr]
  constructor
  · rintro (hold | ⟨hin, -⟩)
    · exact hc r hold hr
    · exact hin
  · intro hin
    have hsome : (w'.room r).isSome := by rw [h.room_eq, if_neg hr, hin]; rfl
    refine .inr ⟨hin, hnames r hsome, ?_⟩
    rintro rfl
    exact hlocal hr hin

theorem heed_leave (c : PlayerSpawner F) (P : Prop) [Decidable P] (p : String) :
    let c' := c.heed (if P then [.push (.playerLeave p)] else [])
    c'.localPlayerId = c.localPlayerId ∧
      ∀ r, r ∈ c'.remotePlayers ↔ r ∈ c.remotePlayers ∧ (P → r ≠ p) := by
  by_cases h : P
  · simp only [h, ↓reduceIte, forall_const]
    exact ⟨c.despawnPlayer_self p, fun r => (c.mem_despawnPlayer p r).trans and_comm⟩
  · simp only [h, ↓reduceIte, IsEmpty.forall_iff, and_true]
    exact ⟨rfl, fun r => Iff.rfl⟩

theorem heed_enter (c : PlayerSpawner F) (P : Prop) [Decidable P] (player : PlayerTransform F) :
    let c' := c.heed (if P then [.push (.playerEnter player)] else [])
    c'.localPlayerId = c.localPlayerId ∧ ∀ r, r ∈ c'.remotePlayers ↔
      r ∈ c.remotePlayers ∨ P ∧ r = player.playerId ∧ r ≠ "" ∧ r ≠ c.localPlayerId := by
  by_cases h : P
  · simp only [h, ↓reduceIte, true_and]
    exact ⟨c.applyPlayerTransform_self player, c.mem_applyPlayerTransform player⟩
  · simp only [h, ↓reduceIte, false_and, or_false]
    exact ⟨rfl, fun r => Iff.rfl⟩

/-- Another player's coming to a room is told where he comes and, unless he stays there, where he
was. -/
theorem shows_arrived (h : w.Arrives p room left w' sent) (hc : Shows w q c) (hq : q ≠ p)
    (hp : p ≠ "") (hleft : left = w.room p ∨ ∀ old, w.room p = some old → old = room) :
    Shows w' q (c.heed (notices q sent)) := by
  obtain ⟨player, hid, hsent⟩ := h.others q hq
  rw [hsent, heed_append]
  obtain ⟨hself₁, hroster₁⟩ := heed_leave c (left.any fun old => w.room q = some old) p
  obtain ⟨hself₂, hroster₂⟩ := heed_enter
    (c.heed (if left.any fun old => w.room q = some old then [.push (.playerLeave p)] else []))
    (w.room q = some room) player
  refine ⟨(hself₂.trans hself₁).trans hc.self, fun r => ?_⟩
  have hroom : w'.room q = w.room q := by rw [h.room_eq, if_neg hq]
  rw [hroster₂, hroster₁, hself₁, hc.self, hc.roster, hid]
  unfold WorldService.Beside
  rw [hroom, h.room_eq]
  by_cases hr : r = p
  · subst hr
    rw [if_pos rfl]
    constructor
    · rintro (⟨⟨-, old, hin, hold⟩, hstays⟩ | ⟨hin, -⟩)
      · rcases hleft with hleft | hsame
        · exact absurd rfl (hstays (by rw [hleft, hold]; simp [hin]))
        · obtain rfl := hsame old hold
          exact ⟨Ne.symm hq, old, hin, rfl⟩
      · exact ⟨Ne.symm hq, room, hin, rfl⟩
    · rintro ⟨-, _, hin, hroom⟩
      obtain rfl := Option.some.inj hroom
      exact .inr ⟨hin, rfl, hp, Ne.symm hq⟩
  · rw [if_neg hr]
    constructor
    · rintro (⟨hbeside, -⟩ | ⟨-, heq, -⟩)
      · exact hbeside
      · exact absurd heq hr
    · exact fun hbeside => .inl ⟨hbeside, fun _ => hr⟩

theorem notices_leave (p q : String) : notices q (w.leave p).2 =
    if q ≠ p ∧ w.room p ≠ none ∧ w.room q = w.room p then [.push (.playerLeave p)] else [] := by
  have hroom := (w.leave_spec p).2.2.1 q
  unfold WorldService.leave at hroom ⊢
  rcases hp : w.players.lookup p with _ | player
  · simp [Sends.notices, WorldService.room, hp]
  · rw [hp] at hroom
    dsimp only at hroom ⊢
    rw [WorldService.notices_broadcastLeave, hroom]
    by_cases hq : q = p
    · simp [hq]
    · simp [hq, WorldService.room, hp]

/-- Another player's leaving is told in his room. -/
theorem shows_left (hc : Shows w q c) (hq : q ≠ p) :
    Shows (w.leave p).1 q (c.heed (notices q (w.leave p).2)) := by
  obtain ⟨-, -, hrooms, -⟩ := w.leave_spec p
  have hroom : (w.leave p).1.room q = w.room q := by rw [hrooms, if_neg hq]
  rw [notices_leave]
  obtain ⟨hself, hroster⟩ := heed_leave c (q ≠ p ∧ w.room p ≠ none ∧ w.room q = w.room p) p
  refine ⟨hself.trans hc.self, fun r => ?_⟩
  rw [hroster, hc.roster]
  unfold WorldService.Beside
  rw [hroom, hrooms]
  by_cases hr : r = p
  · subst hr
    rw [if_pos rfl]
    refine iff_of_false ?_ (by rintro ⟨-, _, -, hnone⟩; cases hnone)
    rintro ⟨⟨-, room, hin, hroom⟩, hstays⟩
    exact hstays ⟨hq, by rw [hroom]; exact Option.some_ne_none _, by rw [hin, hroom]⟩ rfl
  · rw [if_neg hr]
    exact and_iff_left fun _ => hr

/-- Whom a client shows he shows still when messages move some of those. -/
theorem heed_moved : ∀ {l : List (Message F)} (c : PlayerSpawner F),
    (∀ m ∈ l, ∃ player : PlayerTransform F, m = .push (.worldState { players := [player] }) ∧
      player.playerId ∈ c.remotePlayers) → (c.heed l).localPlayerId = c.localPlayerId ∧
        ∀ r, r ∈ (c.heed l).remotePlayers ↔ r ∈ c.remotePlayers
  | [], _, _ => ⟨rfl, fun _ => Iff.rfl⟩
  | m :: l, c, h => by
    obtain ⟨player, rfl, hshown⟩ := h _ List.mem_cons_self
    have hmoved : ∀ r, r ∈ (c.applyWorldState [player]).remotePlayers ↔ r ∈ c.remotePlayers := by
      intro r
      rw [mem_applyWorldState, List.map_singleton, List.mem_singleton]
      refine or_iff_left_of_imp ?_
      rintro ⟨rfl, -⟩
      exact hshown
    obtain ⟨hself, hroster⟩ := heed_moved (c.applyWorldState [player]) fun m hm => by
      obtain ⟨other, heq, hother⟩ := h m (List.mem_cons_of_mem _ hm)
      exact ⟨other, heq, (hmoved _).2 hother⟩
    exact ⟨hself.trans (applyWorldState_self [player] c), fun r => (hroster r).trans (hmoved r)⟩

theorem shows_congr (hc : Shows w q c) (hrooms : ∀ r, w'.room r = w.room r) : Shows w' q c := by
  refine ⟨hc.self, fun r => ?_⟩
  rw [hc.roster]
  unfold WorldService.Beside
  rw [hrooms, hrooms]

namespace WorldService

variable [Platform F]

/-- A move is told to the others of the room, by the player's pose. -/
theorem tryMove_sent (h : w.Labelled) (p : String) (x y z yaw : F) (now appearance : ℤ) :
    ∀ m ∈ (w.tryMove p x y z yaw now appearance).sent, ∃ player : PlayerTransform F,
      m.2 = .worldState { players := [player] } ∧ player.playerId = p ∧ w.Beside m.1 p := by
  intro m hm
  unfold tryMove at hm
  rcases hp : w.players.lookup p with _ | player
  · rw [hp] at hm
    cases hm
  · rw [hp] at hm
    dsimp only at hm
    have hroom : w.room p = some player.roomId := by rw [WorldService.room, hp]; rfl
    split at hm
    · cases hm
    · obtain ⟨hpose, hne, hin, -⟩ := (broadcastPose_spec _ _ now).2.2.2 m hm
      rw [room_setPlayer_of w _ p _ (by exact hroom)] at hin
      have hid := h p player hp
      exact ⟨_, hpose, hid, fun heq => hne (heq ▸ hid).symm, _, hin, hroom⟩

end WorldService

variable [Platform F]

theorem shows_moved (hw : w.Labelled) (hc : Shows w q c) (x y z yaw : F) (now appearance : ℤ) :
    Shows (w.tryMove p x y z yaw now appearance).world q
      (c.heed (notices q (w.tryMove p x y z yaw now appearance).sent)) := by
  obtain ⟨-, -, hrooms, -⟩ := w.tryMove_spec p x y z yaw now appearance
  obtain ⟨hself, hroster⟩ := heed_moved c
    (l := notices q (w.tryMove p x y z yaw now appearance).sent) fun m hm => by
      obtain ⟨push, hpush, rfl⟩ := WorldService.notices_mem.1 hm
      obtain ⟨player, hpose, rfl, hbeside⟩ := WorldService.tryMove_sent hw p x y z yaw now
        appearance _ hpush
      exact ⟨player, congrArg Message.push hpose, (hc.roster _).2 hbeside⟩
  refine shows_congr ?_ hrooms
  exact ⟨hself.trans hc.self, fun r => (hroster r).trans (hc.roster r)⟩

/-- An operation says nothing of who is where. -/
theorem heed_operation {k : Call F} (hr : (k.run w).result = some (k.effect w).isSome)
    (c : PlayerSpawner F) : c.heed (notices q (k.run w).sent) = c := by
  have hunseen : ∀ m ∈ notices q (k.run w).sent, ∀ c : PlayerSpawner F, c.dispatchFrame m = c := by
    intro m hm c
    obtain ⟨push, hpush, rfl⟩ := WorldService.notices_mem.1 hm
    have hkind := Call.sent_operation w hr _ hpush
    split at hkind
    · obtain ⟨r, rfl⟩ := hkind
      rfl
    · obtain rfl := hkind
      rfl
    · obtain rfl := hkind
      rfl
    · exact hkind.elim
  generalize notices q (k.run w).sent = l at hunseen
  induction l with
  | nil => rfl
  | cons m l ih =>
    have hl := ih fun m hm => hunseen m (List.mem_cons_of_mem _ hm)
    unfold heed at hl ⊢
    rw [List.foldl_cons, hunseen m List.mem_cons_self, hl]

theorem shows_room (hw : w.Labelled) (hnames : ∀ r, (w.room r).isSome → r ≠ "")
    (hc : Shows w q c) (hq : q ≠ p) (room : String) (map now : ℤ) :
    Shows (w.selectRoom p room map now).world q
      (c.heed (notices q (w.selectRoom p room map now).sent)) := by
  rcases w.selectRoom_cases p room map now with ⟨-, hworld, hsent⟩ | ⟨inv, hinv, -, hok, -⟩
  · rw [hworld, hsent]
    exact hc
  · have hp : (w.room p).isSome := by
      obtain ⟨player, hplayer, -⟩ := Option.map_eq_some_iff.1 hinv
      rw [WorldService.room, hplayer]
      rfl
    exact shows_arrived (WorldService.arrives_selectRoom hw hok) hc hq (hnames p hp) (.inl rfl)

theorem shows_operation {k : Call F} (hr : (k.run w).result = some (k.effect w).isSome)
    (hc : Shows w q c) :
    Shows (k.run w).world q (c.heed (notices q (k.run w).sent)) := by
  rw [heed_operation hr]
  refine shows_congr hc fun r => ?_
  rcases he : k.effect w with _ | e
  · exact (Call.unchanged_of_failure w (by rw [hr, he]; rfl)).2.2.2 r
  · exact (Call.effect_performed w he).room_eq r

end TinRpc
