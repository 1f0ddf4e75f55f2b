import TinRpc.Proofs.Shown

/-!
# The poses the players of a room are sent

A player is sent the pose of another one of his room when one of the two enters or selects a room,
and by each accepted move that comes 50 ms or more after the last pose that was broadcast
(`poses_run`). A move that comes sooner is accepted and not sent (`Call.Early`), and no later
operation sends it: what a player was sent last is the pose as it was when he was last sent one.
-/

namespace TinRpc

open Transition

variable {F : Type}

/-! ## Who is sent which pose -/

/-- The pose of a player as the server has it, under his id and name. -/
def WorldService.pose (w : WorldService F) (p : String) : Option (PlayerTransform F) :=
  (w.players.lookup p).map WorldService.transform

/-- The poses a message tells. -/
def Message.poses : Message F → List (PlayerTransform F)
  | .push (.worldState state) => state.players
  | .push (.playerEnter player) => [player]
  | _ => []

namespace Sends

/-- The poses of `p` that `q` is sent. -/
def poses (p q : String) (sent : Sends F) : List (PlayerTransform F) :=
  ((notices q sent).flatMap Message.poses).filter fun t => t.playerId = p

/-- The last pose of `p` that `q` is sent. -/
def lastPose (p q : String) (sent : Sends F) : Option (PlayerTransform F) :=
  (poses p q sent).getLast?

variable {p q : String}

theorem poses_append (sent sent' : Sends F) :
    poses p q (sent ++ sent') = poses p q sent ++ poses p q sent' := by
  unfold poses
  rw [WorldService.notices_append, List.flatMap_append, List.filter_append]

theorem poses_eq_nil {sent : Sends F} (h : ∀ m ∈ sent, Message.poses (.push m.2) = []) :
    poses p q sent = [] := by
  have hnone : (notices q sent).flatMap Message.poses = [] := by
    refine List.flatMap_eq_nil_iff.2 fun m hm => ?_
    obtain ⟨push, hpush, rfl⟩ := WorldService.notices_mem.1 hm
    exact h _ hpush
  rw [poses, hnone, List.filter_nil]

theorem poses_single (r : String) (push : Push F) : poses p q [(r, push)] =
    if r = q then (Message.poses (.push push)).filter fun t => t.playerId = p else [] := by
  unfold poses notices
  by_cases h : r = q <;> simp [h]

theorem lastPose_append (sent sent' : Sends F) :
    lastPose p q (sent ++ sent') = (lastPose p q sent').or (lastPose p q sent) := by
  unfold lastPose
  rw [poses_append, List.getLast?_append]

end Sends

namespace WorldService

open Sends (notices poses)

variable {w : WorldService F} {p q r room : String}

theorem pose_setPlayer (player : Player F) (id q : String) : (w.setPlayer player id).pose q =
    if q = id then some (transform player) else w.pose q :=
  w.read_setPlayer transform player id q

theorem pose_setPlayer_of {player : Player F} {id : String}
    (h : w.pose id = some (transform player)) (q : String) :
    (w.setPlayer player id).pose q = w.pose q :=
  w.read_setPlayer_of transform player id q h

theorem pose_congr {w' : WorldService F} (h : w'.players = w.players) (q : String) :
    w'.pose q = w.pose q := by
  rw [pose, h, pose]

theorem room_congr {w' : WorldService F} (h : w'.players = w.players) (q : String) :
    w'.room q = w.room q := by
  rw [room, h, room]

theorem pose_isSome_of_beside (h : w.Beside p q) : ∃ t, w.pose p = some t := by
  obtain ⟨-, room, hp, -⟩ := h
  obtain ⟨player, hplayer, -⟩ := Option.map_eq_some_iff.1 hp
  exact ⟨transform player, by rw [pose, hplayer, Option.map_some]⟩

/-- A snapshot has each player's pose once. -/
theorem poses_worldStateFor (h : w.Labelled) (hq : w.room q = some room) :
    ((w.worldStateFor q).players.filter fun t => t.playerId = p) =
      if w.room p = some room then (w.pose p).toList else [] := by
  obtain ⟨target, htarget, rfl⟩ := Option.map_eq_some_iff.1 hq
  have hkeys : ∀ e ∈ w.players.entries, (transform e.2).playerId = e.1 := fun e he =>
    h e.1 e.2 (AList.mem_entries_iff.1 he)
  simp only [worldStateFor, htarget, Option.any_some, List.filter_map]
  have hfilter : (w.players.entries.filter fun e => e.2.roomId = target.roomId).filter
      ((fun t => decide (t.playerId = p)) ∘ fun e => transform e.2) =
      ((w.players.entries.filter fun e => e.1 = p).filter fun e => e.2.roomId = target.roomId) := by
    rw [List.filter_filter, List.filter_filter]
    refine List.filter_congr fun e he => ?_
    simp only [Function.comp_apply, hkeys e he]
    exact Bool.and_comm _ _
  rw [hfilter, AList.filter_key_entries]
  unfold room pose
  rcases w.players.lookup p with _ | player
  · rfl
  · by_cases hin : player.roomId = target.roomId <;> simp [hin]

theorem poses_broadcastEnter (player : Player F) : poses p q (w.broadcastEnter player) =
    if q ≠ player.playerId ∧ w.room q = some player.roomId ∧ player.playerId = p then
      [transform player] else [] := by
  have hid : (transform player).playerId = player.playerId := rfl
  unfold Sends.poses
  rw [notices_broadcastEnter]
  by_cases hto : q ≠ player.playerId ∧ w.room q = some player.roomId
  · rw [if_pos hto]
    by_cases hp : player.playerId = p
    · rw [if_pos ⟨hto.1, hto.2, hp⟩]
      simp [Message.poses, hid, hp]
    · rw [if_neg fun h => hp h.2.2]
      simp [Message.poses, hid, hp]
  · have hnot : ¬(q ≠ player.playerId ∧ w.room q = some player.roomId ∧ player.playerId = p) :=
      fun h => hto ⟨h.1, h.2.1⟩
    rw [if_neg hto, if_neg hnot]
    rfl

open scoped Classical in
/-- Who comes to a room is sent the poses there, and those there are sent his. -/
theorem poses_arrives (h : w.Labelled) (player : Player F) (hid : player.playerId = r)
    (left : Sends F) (hleft : ∀ m ∈ left, Message.poses (.push m.2) = []) (hpq : q ≠ p) :
    let s := (w.setPlayer player r).sendWorldStateTo r
    poses p q (left ++ s.2 ++ s.1.broadcastEnter player) =
      if s.1.Beside p q ∧ (r = p ∨ r = q) then (s.1.pose p).toList else [] := by
  intro s
  have hplayers : s.1.players = (w.setPlayer player r).players := sendWorldStateTo_players _ r
  have hsnapshot : s.2 = [(r, .worldState ((w.setPlayer player r).worldStateFor r))] := rfl
  have hroom : (w.setPlayer player r).room r = some player.roomId := by
    rw [room_setPlayer, if_pos rfl]
  have hbeside : s.1.Beside p q ↔ (w.setPlayer player r).Beside p q := by
    unfold Beside
    rw [room_congr hplayers, room_congr hplayers]
  rw [Sends.poses_append, Sends.poses_append, Sends.poses_eq_nil hleft, List.nil_append, hsnapshot,
    Sends.poses_single, poses_broadcastEnter, hid, room_congr hplayers, pose_congr hplayers,
    hbeside]
  by_cases hrq : r = q
  · subst hrq
    rw [if_pos rfl, if_neg fun h => h.1 rfl, List.append_nil, Message.poses,
      poses_worldStateFor (h.setPlayer hid) hroom]
    have hiff : (w.setPlayer player r).Beside p r ∧ (r = p ∨ r = r) ↔
        (w.setPlayer player r).room p = some player.roomId := by
      constructor
      · rintro ⟨⟨-, room, hp, hr⟩, -⟩
        rw [hp, ← hr, hroom]
      · exact fun hp => ⟨⟨hpq, _, hp, hroom⟩, .inr rfl⟩
    exact (if_congr hiff rfl rfl).symm
  · rw [if_neg hrq, List.nil_append]
    by_cases hrp : r = p
    · subst hrp
      have hiff : (w.setPlayer player r).Beside r q ∧ (r = r ∨ r = q) ↔
          q ≠ r ∧ (w.setPlayer player r).room q = some player.roomId ∧ r = r := by
        constructor
        · rintro ⟨⟨-, room, hr, hq⟩, -⟩
          exact ⟨hpq, by rw [hq, ← hr, hroom], rfl⟩
        · exact fun hq => ⟨⟨hpq, _, hroom, hq.2.1⟩, .inl rfl⟩
      rw [pose_setPlayer, if_pos rfl, Option.toList_some]
      exact (if_congr hiff rfl rfl).symm
    · rw [if_neg fun h => hrp h.2.2, if_neg fun h => h.2.elim hrp hrq]

/-- What a move comes to: it is turned down and sends nothing, or the player stands elsewhere and
his pose is broadcast. -/
theorem tryMove_outcome [Platform F] (r : String) (x y z yaw : F) (now appearance : ℤ) :
    let res := w.tryMove r x y z yaw now appearance
    (res.result.success = false ∧ res.sent = [] ∧ ∀ q, res.world.pose q = w.pose q) ∨
    ∃ player moved, w.players.lookup r = some player ∧ res.result.success = true ∧
      res.world = ((w.setPlayer moved r).broadcastPose moved now false).1 ∧
      res.sent = ((w.setPlayer moved r).broadcastPose moved now false).2 ∧
      moved.playerId = player.playerId ∧ moved.roomId = player.roomId ∧
      moved.lastBroadcastMs = player.lastBroadcastMs := by
  rcases hp : w.players.lookup r with _ | player
  · refine .inl ?_
    unfold tryMove
    rw [hp]
    exact ⟨rfl, rfl, fun _ => rfl⟩
  unfold tryMove
  simp only [hp]
  split
  · exact .inl ⟨rfl, rfl, pose_setPlayer_of (by rw [pose, hp]; rfl)⟩
  · exact .inr ⟨player, _, rfl, rfl, rfl, rfl, rfl, rfl, rfl⟩

theorem pose_broadcastPose (player : Player F) (now : ℤ) (q : String) :
    (w.broadcastPose player now false).1.pose q = w.pose q :=
  w.read_broadcastPose transform (fun _ _ => rfl) player now q

/-- A pose is kept back within 50 ms of the last one, and else goes to the others in the room. -/
theorem poses_broadcastPose {moved : Player F} (hid : moved.playerId = r) (now : ℤ) :
    poses p q ((w.setPlayer moved r).broadcastPose moved now false).2 =
      if (q ≠ r ∧ (w.setPlayer moved r).room q = some moved.roomId ∧ r = p) ∧
          ¬ now - moved.lastBroadcastMs < kMinBroadcastIntervalMs then
        [transform moved] else [] := by
  have hat : (w.setPlayer moved r).players.lookup r = some moved := by
    rw [lookup_setPlayer, if_pos rfl]
  have hto : ((w.setPlayer moved r).players.lookup q).any
      (fun e => decide (q ≠ r ∧ e.roomId = moved.roomId)) = true ↔
        q ≠ r ∧ (w.setPlayer moved r).room q = some moved.roomId := by
    unfold room
    rcases (w.setPlayer moved r).players.lookup q with _ | e <;> simp
  have hnotices := notices_entries (w := w.setPlayer moved r) (q := q)
    (fun e => decide (e.1 ≠ r ∧ e.2.roomId = moved.roomId))
    (.worldState { players := [transform moved] })
  unfold broadcastPose
  rw [hid, hat]
  dsimp only
  by_cases hsoon : now - moved.lastBroadcastMs < kMinBroadcastIntervalMs
  · rw [if_pos ⟨rfl, hsoon⟩, if_neg fun h => h.2 hsoon]
    rfl
  rw [if_neg fun h => hsoon h.2]
  unfold Sends.poses
  rw [hnotices]
  by_cases hq : q ≠ r ∧ (w.setPlayer moved r).room q = some moved.roomId
  · rw [if_pos (hto.2 hq)]
    by_cases hrp : r = p
    · rw [if_pos ⟨⟨hq.1, hq.2, hrp⟩, hsoon⟩]
      simp [Message.poses, transform, hid, hrp]
    · rw [if_neg fun h => hrp h.1.2.2]
      simp [Message.poses, transform, hid, hrp]
  · rw [if_neg (mt hto.1 hq), if_neg fun h => hq ⟨h.1.1, h.1.2.1⟩]
    rfl

end WorldService

/-! ## One call -/

variable [Platform F]

namespace Call

open WorldService (transform)
open Sends (poses)

variable {w : WorldService F} {p q : String}

/-- The call moves a player. -/
def Moves (w : WorldService F) (p : String) : Call F → Prop
  | .tryMove r x y z yaw now appearance =>
    r = p ∧ (w.tryMove r x y z yaw now appearance).result.success = true
  | _ => False

/-- The call is a move within 50 ms of the player's last broadcast. -/
def Early (w : WorldService F) : Call F → Prop
  | .tryMove r _ _ _ _ now _ => ∃ player, w.players.lookup r = some player ∧
    now - player.lastBroadcastMs < kMinBroadcastIntervalMs
  | _ => False

/-- The call tells `q` the pose of `p`: one of them comes to the room where both are then, or `p`
moves there and not too early. -/
def Tells (w : WorldService F) (p q : String) (k : Call F) : Prop :=
  (k.run w).world.Beside p q ∧ match k with
    | .enter r .. | .enterWithState r .. => r = p ∨ r = q
    | .selectRoom r room map now => (w.selectRoom r room map now).result = true ∧ (r = p ∨ r = q)
    | .tryMove .. => k.Moves w p ∧ ¬ k.Early w
    | _ => False

theorem tells_of_moves {k : Call F} (hm : k.Moves w p) (he : ¬ k.Early w)
    (hb : (k.run w).world.Beside p q) : k.Tells w p q := by
  refine ⟨hb, ?_⟩
  cases k with
  | tryMove => exact ⟨hm, he⟩
  | enter | enterWithState | leave | selectRoom | tryGather | tryPlaceBuilding | tryCraft
  | applyVoxelEdit => exact hm.elim

open scoped Classical in
theorem poses_enterWithState (h : w.Labelled) (hpq : q ≠ p) (r name : String) (now : ℤ)
    (x y z yaw : F) (inv : Inventory) :
    let res := w.enterWithState r name now x y z yaw inv
    poses p q res.2 =
      if res.1.Beside p q ∧ (r = p ∨ r = q) then (res.1.pose p).toList else [] :=
  WorldService.poses_arrives h { (w.players.lookup r).getD
    { playerId := "", name := "", x := Platform.ofRat 0, y := Platform.ofRat 0
      z := Platform.ofRat 0, yaw := Platform.ofRat 0, moveAllowance := Platform.ofRat 1 } with
    playerId := r, name, x, y, z, yaw, inv, lastMoveMs := now
    moveAllowance := Platform.ofRat 1, lastBroadcastMs := now - kMinBroadcastIntervalMs } rfl []
    (fun m hm => by cases hm) hpq

open scoped Classical in
theorem poses_selectRoom (h : w.Labelled) (hpq : q ≠ p) (r room : String) (map now : ℤ) :
    let res := w.selectRoom r room map now
    poses p q res.sent =
      if res.world.Beside p q ∧ res.result = true ∧ (r = p ∨ r = q) then
        (res.world.pose p).toList
      else [] := by
  unfold WorldService.selectRoom
  rcases hr : w.players.lookup r with _ | player
  · dsimp only
    rw [if_neg fun h => Bool.false_ne_true h.2.1]
    rfl
  dsimp only
  split
  · rw [if_neg fun h => Bool.false_ne_true h.2.1]
    rfl
  · rw [WorldService.poses_arrives h _ (by exact h r player hr) _ (fun m hm => ?_) hpq]
    · simp only [true_and]
    · obtain ⟨e, -, rfl⟩ := List.mem_map.1 hm
      rfl

open scoped Classical in
theorem poses_tryMove (h : w.Labelled) (hpq : q ≠ p) (r : String) (x y z yaw : F)
    (now appearance : ℤ) :
    let k := Call.tryMove r x y z yaw now appearance
    poses p q (k.run w).sent = if k.Tells w p q then ((k.run w).world.pose p).toList else [] := by
  intro k
  rcases w.tryMove_outcome r x y z yaw now appearance with ⟨hfail, hsent, -⟩ |
    ⟨player, moved, hr, hok, hworld, hsent, hid, hroom, hlast⟩
  · have hnot : ¬ k.Tells w p q := by
      rintro ⟨-, ⟨-, hok⟩, -⟩
      rw [hfail] at hok
      cases hok
    rw [if_neg hnot]
    exact congrArg (poses p q) hsent
  · rw [h r player hr] at hid
    have hkept : w.room r = some moved.roomId := by rw [WorldService.room, hr, hroom]; rfl
    have hrooms : ∀ a, (k.run w).world.room a = w.room a := run_room w k
    have hearly : k.Early w ↔ now - moved.lastBroadcastMs < kMinBroadcastIntervalMs := by
      rw [hlast]
      constructor
      · rintro ⟨other, hother, hsoon⟩
        rw [hr] at hother
        rwa [Option.some.inj hother]
      · exact fun hsoon => ⟨player, hr, hsoon⟩
    have hiff : k.Tells w p q ↔ (q ≠ r ∧ (w.setPlayer moved r).room q = some moved.roomId ∧
        r = p) ∧ ¬ now - moved.lastBroadcastMs < kMinBroadcastIntervalMs := by
      rw [WorldService.room_setPlayer_of w moved r q hkept, ← hearly]
      constructor
      · rintro ⟨⟨-, room, hp, hq⟩, ⟨rfl, -⟩, hlate⟩
        rw [hrooms] at hp hq
        exact ⟨⟨hpq, by rw [hq, ← hp, hkept], rfl⟩, hlate⟩
      · rintro ⟨⟨-, hq, rfl⟩, hlate⟩
        exact ⟨⟨hpq, _, by rw [hrooms, hkept], by rw [hrooms, hq]⟩, ⟨rfl, hok⟩, hlate⟩
    have hsent : (k.run w).sent = ((w.setPlayer moved r).broadcastPose moved now false).2 := hsent
    rw [hsent, WorldService.poses_broadcastPose hid]
    by_cases htells : k.Tells w p q
    · obtain ⟨⟨-, -, rfl⟩, -⟩ := hiff.1 htells
      have hworld : (k.run w).world = ((w.setPlayer moved r).broadcastPose moved now false).1 :=
        hworld
      rw [if_pos (hiff.1 htells), if_pos htells, hworld, WorldService.pose_broadcastPose,
        WorldService.pose_setPlayer, if_pos rfl, Option.toList_some]
    · rw [if_neg (mt hiff.2 htells), if_neg htells]

open scoped Classical in
/-- Who is sent a pose by a call, and it is the one the player then has. -/
theorem poses_run (h : w.Labelled) (hpq : q ≠ p) (k : Call F) :
    poses p q (k.run w).sent = if k.Tells w p q then ((k.run w).world.pose p).toList else [] := by
  have hop : ∀ k : Call F, (k.run w).result = some (k.effect w).isSome →
      poses p q (k.run w).sent = [] := by
    intro k hr
    refine Sends.poses_eq_nil fun m hm => ?_
    have hm := sent_operation w hr m hm
    split at hm
    · obtain ⟨r, hr⟩ := hm
      rw [hr]
      rfl
    · rw [hm]
      rfl
    · rw [hm]
      rfl
    · exact hm.elim
  cases k with
  | enter r name now =>
    obtain ⟨x, y, z, yaw, he⟩ := w.enter_eq r name now
    simp only [Tells, run, he]
    exact poses_enterWithState h hpq r name now x y z yaw _
  | enterWithState r name now x y z yaw inv =>
    exact (poses_enterWithState h hpq r name now x y z yaw inv).trans (if_congr Iff.rfl rfl rfl)
  | leave r =>
    rw [if_neg fun h => h.2]
    refine Sends.poses_eq_nil fun m hm => ?_
    obtain ⟨id, hid⟩ := (w.leave_spec r).2.2.2 m hm
    rw [hid]
    rfl
  | selectRoom r room map now =>
    exact (poses_selectRoom h hpq r room map now).trans (if_congr Iff.rfl rfl rfl)
  | tryMove r x y z yaw now appearance => exact poses_tryMove h hpq r x y z yaw now appearance
  | tryGather r node =>
    rw [if_neg fun h => h.2]
    exact hop _ (congrArg some (gather_success w r node))
  | tryPlaceBuilding r type x y z yaw =>
    rw [if_neg fun h => h.2]
    exact hop _ (congrArg some (build_success w r type x y z yaw))
  | tryCraft r recipe =>
    rw [if_neg fun h => h.2]
    exact hop _ (congrArg some (craft_success w r recipe))
  | applyVoxelEdit r x y z action type =>
    rw [if_neg fun h => h.2]
    exact hop _ (congrArg some (edit_success w r x y z action type))

/-- Players who come to be in one room are told of each other. -/
theorem beside_run {k : Call F} (hb : (k.run w).world.Beside p q) (ht : ¬ k.Tells w p q) :
    w.Beside p q := by
  obtain ⟨hpq, room, hp, hq⟩ := hb
  have hnot := fun h => ht ⟨⟨hpq, room, hp, hq⟩, h⟩
  rw [run_room] at hp hq
  cases k with
  | enter r | enterWithState r =>
    dsimp only at hp hq hnot
    rw [if_neg fun h => hnot (.inl h.symm)] at hp
    rw [if_neg fun h => hnot (.inr h.symm)] at hq
    exact ⟨hpq, room, hp, hq⟩
  | leave r =>
    dsimp only at hp hq
    split_ifs at hp hq
    exact ⟨hpq, room, hp, hq⟩
  | selectRoom r target map now =>
    dsimp only at hp hq hnot
    have hok : ∀ a, (Call.run w (.selectRoom r target map now)).result = some true ∧ a = r →
        (w.selectRoom r target map now).result = true := fun a h => Option.some.inj h.1
    rw [if_neg fun h => hnot ⟨hok p h, .inl h.2.symm⟩] at hp
    rw [if_neg fun h => hnot ⟨hok q h, .inr h.2.symm⟩] at hq
    exact ⟨hpq, room, hp, hq⟩
  | tryMove | tryGather | tryPlaceBuilding | tryCraft | applyVoxelEdit =>
    exact ⟨hpq, room, hp, hq⟩

/-- A player keeps his pose by all but his moves and the calls that tell it. -/
theorem pose_run {k : Call F} (hb : (k.run w).world.Beside p q) (ht : ¬ k.Tells w p q)
    (hm : ¬ k.Moves w p) : (k.run w).world.pose p = w.pose p := by
  have hnot := fun h => ht ⟨hb, h⟩
  have harrives : ∀ (player : Player F) (r : String), r ≠ p →
      ((w.setPlayer player r).sendWorldStateTo r).1.pose p = w.pose p := by
    intro player r hr
    rw [WorldService.pose_congr (WorldService.sendWorldStateTo_players _ r),
      WorldService.pose_setPlayer, if_neg hr.symm]
  cases k with
  | enter r name now =>
    obtain ⟨x, y, z, yaw, he⟩ := w.enter_eq r name now
    simp only [run, he]
    exact harrives _ r fun h => hnot (.inl h)
  | enterWithState r name now x y z yaw inv => exact harrives _ r fun h => hnot (.inl h)
  | leave r =>
    have hr : p ≠ r := by
      obtain ⟨-, room, hp, -⟩ := hb
      rw [run_room] at hp
      dsimp only at hp
      split_ifs at hp with hr
      exact hr
    show (w.leave r).1.pose p = w.pose p
    unfold WorldService.leave
    rcases w.players.lookup r with _ | player
    · rfl
    · rw [WorldService.pose, AList.lookup_erase_if, if_neg hr, WorldService.pose]
  | selectRoom r room map now =>
    show (w.selectRoom r room map now).world.pose p = w.pose p
    have hr : (w.selectRoom r room map now).result = true → r ≠ p := fun hok h =>
      hnot ⟨hok, .inl h⟩
    unfold WorldService.selectRoom at hr ⊢
    rcases hlookup : w.players.lookup r with _ | player
    · rfl
    simp only [hlookup] at hr ⊢
    split
    · rfl
    · next hvalid =>
      rw [if_neg hvalid] at hr
      exact harrives _ r (hr rfl)
  | tryMove r x y z yaw now appearance =>
    show (w.tryMove r x y z yaw now appearance).world.pose p = w.pose p
    rcases w.tryMove_outcome r x y z yaw now appearance with ⟨-, -, hpose⟩ |
      ⟨player, moved, -, hok, hworld, -⟩
    · exact hpose p
    · have hr : p ≠ r := fun h => hm ⟨h.symm, hok⟩
      rw [hworld, WorldService.pose_broadcastPose, WorldService.pose_setPlayer, if_neg hr]
  | tryGather r node =>
    exact (w.recounted_operation (.tryGather r node)).read transform (fun _ _ => rfl) p
  | tryPlaceBuilding r type x y z yaw =>
    exact (w.recounted_operation (.tryPlaceBuilding r type x y z yaw)).read transform
      (fun _ _ => rfl) p
  | tryCraft r recipe =>
    exact (w.recounted_operation (.tryCraft r recipe)).read transform (fun _ _ => rfl) p
  | applyVoxelEdit r x y z action type =>
    exact (w.recounted_operation (.applyVoxelEdit r x y z action type)).read transform
      (fun _ _ => rfl) p

end Call

/-! ## Runs -/

/-- The world with all it has sent. -/
structure Feed (F : Type) where
  world : WorldService F
  sent : Sends F := []

namespace Feed

variable {f f' start : Feed F} {k : Call F} {p q : String}

def step (f : Feed F) (k : Call F) : Option (Feed F) :=
  some ⟨(k.run f.world).world, f.sent ++ (k.run f.world).sent⟩

/-- `q` was last sent the pose that `p` has, if they are in one room. -/
def UpToDate (p q : String) (f : Feed F) : Prop :=
  f.world.Beside p q → f.sent.lastPose p q = f.world.pose p

/-- The last move of a player that was accepted, if one was, was not too early to be sent. -/
def LastMoveSent (start : Feed F) (p : String) (f : Feed F) : Prop :=
  Reach step (fun f k => ¬ k.Moves f.world p) start f ∨
    ∃ f₁ k f₂, Reach step anyEvent start f₁ ∧ k.Moves f₁.world p ∧ ¬ k.Early f₁.world ∧
      step f₁ k = some f₂ ∧ Reach step (fun f k => ¬ k.Moves f.world p) f₂ f

theorem lastPose_told (hw : f.world.Labelled) (ht : k.Tells f.world p q)
    (h : step f k = some f') : f'.sent.lastPose p q = f'.world.pose p := by
  obtain rfl := Option.some.inj h
  obtain ⟨t, hpose⟩ := WorldService.pose_isSome_of_beside ht.1
  have hposes := Call.poses_run hw ht.1.1 k
  rw [if_pos ht, hpose] at hposes
  rw [Sends.lastPose_append, Sends.lastPose, hposes, hpose]
  rfl

theorem lastPose_kept (hw : f.world.Labelled) (hpq : q ≠ p) (ht : ¬ k.Tells f.world p q)
    (h : step f k = some f') : f'.sent.lastPose p q = f.sent.lastPose p q := by
  obtain rfl := Option.some.inj h
  have hposes := Call.poses_run hw hpq k
  rw [if_neg ht] at hposes
  rw [Sends.lastPose_append, Sends.lastPose, hposes]
  rfl

theorem labelled_reach {ok : Feed F → Call F → Prop} (h : Reach step ok start f)
    (hw : start.world.Labelled) : f.world.Labelled := by
  refine h.invariant (P := fun f => f.world.Labelled) hw fun f k f' hf _ hstep => ?_
  obtain rfl := Option.some.inj hstep
  exact hf.run k

/-- Only a move that comes too early leaves a player of the room behind. -/
theorem upToDate_step (hw : f.world.Labelled) (hu : f.UpToDate p q)
    (hk : ¬(k.Moves f.world p ∧ k.Early f.world)) (h : step f k = some f') : f'.UpToDate p q := by
  intro hb
  by_cases ht : k.Tells f.world p q
  · exact lastPose_told hw ht h
  have hkept := lastPose_kept hw hb.1 ht h
  obtain rfl := Option.some.inj h
  have hm : ¬ k.Moves f.world p := fun hm =>
    ht (Call.tells_of_moves hm (fun he => hk ⟨hm, he⟩) hb)
  rw [hkept, hu (Call.beside_run hb ht), Call.pose_run hb ht hm]

theorem upToDate_moved (hw : f.world.Labelled) (hm : k.Moves f.world p) (he : ¬ k.Early f.world)
    (h : step f k = some f') : f'.UpToDate p q := by
  intro hb
  refine lastPose_told hw (Call.tells_of_moves hm he ?_) h
  obtain rfl := Option.some.inj h
  exact hb

theorem upToDate_still {ok : Feed F → Call F → Prop} (h : Reach step ok start f)
    (hok : ∀ f k, ok f k → ¬(k.Moves f.world p ∧ k.Early f.world)) (hw : start.world.Labelled)
    (hu : start.UpToDate p q) : f.UpToDate p q :=
  h.invariant_of (fun _ hr => labelled_reach hr hw) hu fun _ _ _ hl hu hk hstep =>
    upToDate_step hl hu (hok _ _ hk) hstep

/-- The calls one after the other. -/
def run (f : Feed F) (ks : List (Call F)) : Feed F :=
  ks.foldl (fun f k => ⟨(k.run f.world).world, f.sent ++ (k.run f.world).sent⟩) f

theorem reach_run : ∀ (ks : List (Call F)) (f : Feed F), Reach step anyEvent f (f.run ks)
  | [], _ => .start
  | k :: ks, _ => (Reach.one k trivial rfl).trans (reach_run ks _)

/-- What a player was last sent of another one in his room is the pose as it was after the last
call that told him, and no call since has told him another. -/
theorem lastPose_reach (h : Reach step anyEvent start f) (hw : start.world.Labelled)
    (h₀ : ¬ start.world.Beside p q) (hb : f.world.Beside p q) :
    ∃ f₁ k seen, Reach step anyEvent start f₁ ∧ k.Tells f₁.world p q ∧ step f₁ k = some seen ∧
      Reach step (fun f k => ¬ k.Tells f.world p q) seen f ∧
      f.sent.lastPose p q = seen.world.pose p := by
  induction h with
  | start => exact (h₀ hb).elim
  | @next f f' k hr _ hstep ih =>
    have hl := labelled_reach hr hw
    by_cases ht : k.Tells f.world p q
    · exact ⟨f, k, f', hr, ht, hstep, .start, lastPose_told hl ht hstep⟩
    · have hkept := lastPose_kept hl hb.1 ht hstep
      have hbefore : f.world.Beside p q := by
        obtain rfl := Option.some.inj hstep
        exact Call.beside_run hb ht
      obtain ⟨f₁, k₁, seen, hf₁, htells, hseen, hsince, hpose⟩ := ih hbefore
      exact ⟨f₁, k₁, seen, hf₁, htells, hseen, .next hsince ht hstep, hkept.trans hpose⟩

/-- In every run from an empty world, the last pose a player was sent of another one in his room is
the server's if the other's last accepted move came 50 ms or more after his last broadcast. It is
always the pose as it was after the last call that told him: no other call makes up for a move that
came sooner. -/
theorem final_pose {w₀ : WorldService F} (h₀ : w₀.players = ∅)
    (hf : Reach step anyEvent ⟨w₀, []⟩ f) (hb : f.world.Beside p q) :
    (LastMoveSent ⟨w₀, []⟩ p f → f.sent.lastPose p q = f.world.pose p) ∧
    ∃ f₁ k seen, Reach step anyEvent ⟨w₀, []⟩ f₁ ∧ k.Tells f₁.world p q ∧
      step f₁ k = some seen ∧ Reach step (fun f k => ¬ k.Tells f.world p q) seen f ∧
      f.sent.lastPose p q = seen.world.pose p := by
  have hw : w₀.Labelled := by
    intro id player hp
    rw [h₀, AList.lookup_empty] at hp
    cases hp
  have hnone : ¬ w₀.Beside p q := by
    rintro ⟨-, room, hp, -⟩
    rw [WorldService.room, h₀, AList.lookup_empty] at hp
    cases hp
  refine ⟨?_, lastPose_reach hf hw hnone hb⟩
  have hok : ∀ (f : Feed F) (k : Call F), ¬ k.Moves f.world p →
      ¬(k.Moves f.world p ∧ k.Early f.world) := fun _ _ hm h => hm h.1
  rintro (hstill | ⟨f₁, k, f₂, hf₁, hm, he, hstep, hstill⟩)
  · exact upToDate_still hstill hok hw (fun h => (hnone h).elim) hb
  · have hl₁ := labelled_reach hf₁ hw
    have hl₂ := labelled_reach (hf₁.next trivial hstep) hw
    exact upToDate_still hstill hok hl₂ (upToDate_moved hl₁ hm he hstep) hb

/-- Ann moves, and bob is sent where she is. -/
theorem final_pose_ann : ∃ f : Feed ℚ, (f.world.pose "ann").map (·.x) = some 1 ∧
    f.sent.lastPose "ann" "bob" = f.world.pose "ann" := by
  let f₁ := Feed.run (F := ℚ) ⟨.fresh, []⟩ [.enter "ann" "Ann" 0, .enter "bob" "Bob" 0]
  let f₂ := f₁.run [.tryMove "ann" 1 0 0 0 1000 0]
  let f := f₂.run [.tryGather "bob" "tree_1"]
  have hb : f.world.Beside "ann" "bob" :=
    ⟨by decide, "lobby", by decide +kernel, by decide +kernel⟩
  have hr : Reach step anyEvent ⟨.fresh, []⟩ f₁ := reach_run _ _
  refine ⟨f, by decide +kernel, (final_pose rfl
    ((hr.trans (reach_run _ f₁)).trans (reach_run _ f₂)) hb).1 (.inr
      ⟨f₁, .tryMove "ann" 1 0 0 0 1000 0, f₂, hr, ⟨rfl, by decide +kernel⟩, ?_, rfl,
        .one (.tryGather "bob" "tree_1") id rfl⟩)⟩
  rintro ⟨player, hplayer, hsoon⟩
  have hentered : (f₁.world.players.lookup "ann").map (·.lastBroadcastMs) = some (-50) := by
    decide +kernel
  rw [hplayer] at hentered
  have hlast : player.lastBroadcastMs = -50 := Option.some.inj hentered
  rw [hlast] at hsoon
  exact absurd hsoon (by decide)

/-- Ann moves again after 10 ms; that move is accepted and not sent. A second later bob has moved
too, and the last he was sent of her is her first move. -/
theorem final_pose_dropped :
    let f := Feed.run (F := ℚ) ⟨.fresh, []⟩ [.enter "ann" "Ann" 0, .enter "bob" "Bob" 0,
      .tryMove "ann" 1 0 0 0 1000 0, .tryMove "ann" 2 0 0 0 1010 0, .tryMove "bob" 3 0 0 0 2000 0]
    f.world.Beside "ann" "bob" ∧ (f.world.pose "ann").map (·.x) = some 2 ∧
      (f.sent.lastPose "ann" "bob").map (·.x) = some 1 :=
  ⟨⟨by decide, "lobby", by decide +kernel, by decide +kernel⟩, by decide +kernel,
    by decide +kernel⟩

end Feed

end TinRpc
