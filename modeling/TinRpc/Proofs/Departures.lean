import TinRpc.Proofs.Aliasing
import TinRpc.Proofs.Apart
import TinRpc.Proofs.Display
import TinRpc.Proofs.Residents

/-!
# The two ends of a session

A disconnect takes a player out of the rooms, the queue and the world, and tells those who were with
him. The account switch takes him out of the world only, and a long id stays in `player_conns_`.
Where he was in no room and not in the queue, no other fd has him and his id is not in a buffer, the
two come to the same (`departures_agree`).
-/

namespace TinRpc

open Transition

variable {F E : Type}

namespace WorldService

variable {w : WorldService F} {p q room : String}

/-- Whoever shares the room of a player is told that he leaves. -/
theorem leave_told (hp : w.room p = some room) (hq : w.room q = some room) (hne : q ≠ p) :
    (q, .playerLeave p) ∈ (w.leave p).2 := by
  obtain ⟨player, hplayer, rfl⟩ := Option.map_eq_some_iff.1 hp
  obtain ⟨other, hother, hroom⟩ := Option.map_eq_some_iff.1 hq
  unfold leave
  rw [hplayer]
  refine List.mem_map.2 ⟨⟨q, other⟩, List.mem_filter.2 ⟨?_, by simpa using hroom⟩, rfl⟩
  rw [AList.mem_entries_iff, AList.lookup_erase_ne hne, hother]

end WorldService

namespace GameLobby

variable {g : GameLobby E} {p q r : String} {room : GameRoom}

theorem drop_eq (hr : g.roomMgr.playerRoom.lookup p = some r) (hne : r ≠ "") :
    g.drop p = ({ g with
      roomMgr := (g.roomMgr.leaveRoomAndNotify r p).1
      matchQueue := g.matchQueue.cancelMatch p }, (g.roomMgr.leaveRoomAndNotify r p).2.2) := by
  have hroom : g.roomMgr.getPlayerRoom p = r := by
    rw [RoomManager.getPlayerRoom, hr]
    rfl
  unfold drop
  simp only [hroom, if_neg hne]

/-- After a disconnect no room lists the player. -/
theorem drop_rooms (hl : g.roomMgr.Listed) : ¬(g.drop p).1.InRoom p := by
  by_cases hin : g.InRoom p
  · obtain ⟨r₀, room₀, hr₀, hp₀⟩ := hin
    rintro ⟨r, room, hr, hp⟩
    rw [drop_eq (hl.covered p r₀ room₀ hr₀ hp₀) (hl.ne_empty hr₀)] at hr
    simp only [RoomServiceImpl.leaveRoomAndNotify_rooms] at hr
    exact hl.leaveRoom_out hr₀ hp₀ hr hp
  · refine drop_rule (Q := fun m => ¬∃ r room, m.rooms.lookup r = some room ∧ p ∈ room.players)
      hin fun roomId => ?_
    rw [(RoomManager.leaveRoom_of_not_mem fun room hr hp => hin ⟨roomId, room, hr, hp⟩).1]
    exact hin

/-- The other players of his room are told. -/
theorem drop_told (hl : g.roomMgr.Listed) (hlisting : RoomServiceImpl.Listing g.roomMgr)
    (hcounted : RoomServiceImpl.Counted g.roomMgr) (hr : g.roomMgr.rooms.lookup r = some room)
    (hp : p ∈ room.players) (hq : q ∈ room.players) (hne : q ≠ p) :
    ∃ room', (g.drop p).1.roomMgr.rooms.lookup r = some room' ∧
      (q, .playerLeaveNtf r p room'.playerCount) ∈ (g.drop p).2 := by
  rw [drop_eq (hl.covered p r room hr hp) (hl.ne_empty hr)]
  have hok : (g.roomMgr.leaveRoomAndNotify r p).2.1.ok = true := by
    unfold RoomManager.leaveRoomAndNotify
    rw [RoomManager.leaveRoom_of_mem hr hp]
    rfl
  obtain ⟨room', hr', -, -, hnotified⟩ := RoomServiceImpl.leaveRoomAndNotify_notified
    (hlisting.perform (.manager (.leaveRoom r p)))
    (hcounted.perform (show RoomServiceImpl.Whole g.roomMgr (.manager (.leaveRoom r p))
      from trivial)) hlisting hok
  refine ⟨room', hr', ?_⟩
  have hq' : q ∈ room'.players := by
    rw [RoomServiceImpl.leaveRoomAndNotify_rooms, RoomManager.leaveRoom_of_mem hr hp,
      AList.lookup_insert, Option.some.injEq] at hr'
    rw [← hr']
    exact (List.mem_erase_of_ne hne).2 hq
  obtain ⟨e, he, rfl⟩ := List.mem_map.1 ((hnotified.receivers q).2 hq')
  rw [← hnotified.notice e he]
  exact he

end GameLobby

namespace GameService

section Sessions

variable {D : Type} {s s' : GameService F D} {p q : String} {c : Connection}

/-- No fd but that of the connection has the player. -/
def Alone (s : GameService F D) (p : String) (c : Connection) : Prop :=
  ∀ fd, s.fdToPlayer fd = some p → fd = c.fd

theorem fds_removed (hbound : s.playerConns p = some c) (h : Removed s p s') :
    s'.fdToPlayer = Function.update s.fdToPlayer c.fd none := by
  rw [h.fdToPlayer, hbound]

/-- No fd has a player who is removed just where none but that of his connection had him. -/
theorem unknown_removed (hbound : s.playerConns p = some c) (h : Removed s p s') :
    (∀ fd, s'.fdToPlayer fd ≠ some p) ↔ Alone s p c := by
  refine forall_congr' fun fd => ?_
  rw [fds_removed hbound h, Function.update_apply]
  split_ifs with hfd
  · simp [hfd]
  · simp [hfd]

/-- A player is in a room of the world just while he has a connection. -/
theorem room_isSome (hs : Sessions s) (p : String) :
    (s.world.room p).isSome = (s.playerConns p).isSome := by
  rw [← hs.present p, WorldService.inventory, WorldService.room, Option.isSome_map,
    Option.isSome_map]

/-- A connection is found by its own fd. -/
structure Ports (s : GameService F D) : Prop where
  handlers : ∀ fd conn, s.handlers fd = some conn → conn.fd = fd
  active : ∀ fd conn, s.activeConns fd = some conn → conn.fd = fd

theorem mem_delivered_of {M : Type} {msg : M → Message F} {sent : List (String × M)} {m : M}
    (hm : (q, m) ∈ sent) (hconn : s.playerConns q = some c) :
    (c, msg m) ∈ s.delivered msg sent :=
  (mem_delivered s).2 ⟨(q, m), hm, c, hconn, rfl⟩

variable [Platform F]

theorem onPlayerDisconnected_wire [Lobby D] {fd now : ℤ} (h : s.fdToPlayer fd = some p) :
    (s.onPlayerDisconnected fd now).wire =
      s.wire ++ (s.delivered .roomEvent (Lobby.drop s.lobby now p).2 ++
        s.delivered .push (s.world.leave p).2) := by
  simp only [onPlayerDisconnected, h, savePlayerAsync_eq]
  exact List.append_assoc ..

theorem switchAccount_wire {fd : ℤ} (h : s.fdToPlayer fd = some p) (hne : p ≠ q) :
    (s.switchAccount fd q).wire = s.wire ++ s.delivered .push (s.world.leave p).2 := by
  simp only [switchAccount, h, if_neg hne, savePlayerAsync_eq]
  rfl

/-- An accept and a frame put a connection under its fd, and nothing else does. -/
theorem ports_step [Lobby D] {e : Event F} (hs : Ports s) (h : step s e = some s') : Ports s' := by
  cases e with
  | accept fd =>
    obtain ⟨-, rfl⟩ := Step.accept h
    refine ⟨fun fd' conn hconn => ?_, hs.active⟩
    simp only [Function.update_apply] at hconn
    split_ifs at hconn with hfd
    · rw [← Option.some.inj hconn, hfd]
    · exact hs.handlers fd' conn hconn
  | frame fd rid request now =>
    obtain ⟨c, hc, hf⟩ := Step.frame h
    refine ⟨fun fd' conn hconn => ?_, fun fd' conn hconn => ?_⟩
    · exact hs.handlers fd' conn (hf.sessions.handlers ▸ hconn)
    · rw [hf.activeConns, Function.update_apply] at hconn
      split_ifs at hconn with hfd
      · rw [← Option.some.inj hconn, hfd]
      · exact hs.active fd' conn hconn
  | close fd now =>
    obtain ⟨c, s₁, hc, hactive, rfl, hcases⟩ := Step.close_cases h
    have hhandlers : s₁.handlers = s.handlers := by
      rcases hcases with ⟨-, rfl⟩ | ⟨p, -, hr⟩
      · rfl
      · exact hr.same.handlers
    refine ⟨fun fd' conn hconn => ?_, fun fd' conn hconn => ?_⟩
    · simp only [Function.update_apply, hhandlers] at hconn
      split_ifs at hconn
      exact hs.handlers fd' conn hconn
    · simp only [hactive, Function.update_apply] at hconn
      split_ifs at hconn
      exact hs.active fd' conn hconn
  | work o =>
    obtain ⟨task, queue, -, rfl⟩ := Step.work h
    cases task <;> exact ⟨hs.handlers, hs.active⟩
  | loop now =>
    obtain ⟨callback, callbacks, -, ⟨rest, metrics, rfl, -⟩ |
      ⟨t, result, saved, conn, -, -, -, hj⟩⟩ := Step.loop_cases h
    · exact ⟨hs.handlers, hs.active⟩
    have hsame : s'.handlers = s.handlers ∧ s'.activeConns = s.activeConns := by
      rw [hj.same.handlers, hj.activeConns]
      rcases switchAccount_cases { s with callbacks } t.fd result.playerId with
        ⟨heq, -⟩ | ⟨old, -, -, hr, hactive⟩
      · rw [heq]
        exact ⟨rfl, rfl⟩
      · exact ⟨hr.same.handlers, hactive⟩
    exact ⟨fun fd c hc => hs.handlers fd c (hsame.1 ▸ hc),
      fun fd c hc => hs.active fd c (hsame.2 ▸ hc)⟩

end Sessions

variable [Platform F] [Doubles E] [GameProto E] {s s' s₁ s₂ : GameService F (GameLobby E)}
  {p q : String} {c : Connection} {now now' : ℤ}

/-- A player who was in `s` is gone, and the others of his room and of the room he was in the world
are told. -/
structure Departed (s s' : GameService F (GameLobby E)) (p : String) : Prop where
  world : s'.world.players.lookup p = none
  rooms : ¬s'.lobby.InRoom p
  queue : p ∉ s'.lobby.matchQueue.ids
  conns : s'.playerConns p = none
  fds : ∀ fd, s'.fdToPlayer fd ≠ some p
  members : ∀ r room, s.lobby.roomMgr.rooms.lookup r = some room → p ∈ room.players →
    ∀ q ∈ room.players, q ≠ p → ∀ conn, s.playerConns q = some conn →
      ∃ room', s'.lobby.roomMgr.rooms.lookup r = some room' ∧
        (conn, .roomEvent (GameProto.serialize E (.playerLeaveNtf r p room'.playerCount))) ∈
          s'.wire.drop s.wire.length
  nearby : ∀ q room, q ≠ p → s.world.room p = some room → s.world.room q = some room →
    ∀ conn, s.playerConns q = some conn →
      (conn, .push (.playerLeave p)) ∈ s'.wire.drop s.wire.length

/-- What holds of the fds and of the lobby of a running service. -/
structure Sound (s : GameService F (GameLobby E)) : Prop where
  ports : Ports s
  listed : s.lobby.roomMgr.Listed
  listing : RoomServiceImpl.Listing s.lobby.roomMgr
  counted : RoomServiceImpl.Counted s.lobby.roomMgr
  queue : s.lobby.matchQueue.Distinct

omit [Platform F] [GameProto E] in
theorem sound_of_lobby (hports : Ports s)
    (hlobby : Reach GameLobby.step anyEvent GameLobby.new s.lobby) : Sound s := by
  have hmatches := MatchService.reach_of_lobby hlobby
  have hrooms := MatchService.rooms_reach (fun _ _ h => RoomServiceImpl.whole_of_arranges h)
    (fun _ _ h => h) hmatches
  exact ⟨hports, RoomServiceImpl.listed_reach hrooms, RoomServiceImpl.listing_reach hrooms,
    RoomServiceImpl.counted_reach hrooms, MatchService.distinct_reach hmatches⟩

/-- The disconnect leaves nothing of a player whom no other fd has. -/
theorem departed_close (h : Sound s) (hbound : s.playerConns p = some c)
    (hknown : s.fdToPlayer c.fd = some p) (hs : step s (.close c.fd now) = some s') :
    Departed s s' p ↔ Alone s p c := by
  obtain ⟨conn, hconn, rfl⟩ := Step.close hs
  rw [h.ports.handlers _ _ hconn]
  have hlobby : (s.onPlayerDisconnected c.fd now).lobby = (s.lobby.drop p).1 := by
    rw [onPlayerDisconnected_lobby, hknown]
    rfl
  have hwire : (s.onPlayerDisconnected c.fd now).wire = s.wire ++
      (s.delivered .roomEvent (Lobby.drop s.lobby now p).2 ++
        s.delivered .push (s.world.leave p).2) := onPlayerDisconnected_wire hknown
  obtain ⟨-, ⟨hnone, -⟩ | ⟨p', hp', hr⟩⟩ := s.onPlayerDisconnected_cases c.fd now
  · rw [hknown] at hnone
    cases hnone
  rw [hknown, Option.some.injEq] at hp'
  subst hp'
  generalize s.onPlayerDisconnected c.fd now = s₁ at *
  rw [← unknown_removed hbound hr]
  refine ⟨fun hd => hd.fds, fun hfds => ?_⟩
  exact {
    world := by
      show s₁.world.players.lookup p = none
      exact removed_gone hr
    rooms := by
      show ¬s₁.lobby.InRoom p
      rw [hlobby]
      exact GameLobby.drop_rooms h.listed
    queue := by
      show p ∉ s₁.lobby.matchQueue.ids
      rw [hlobby]
      exact h.queue.not_mem_cancelMatch p
    conns := by
      show s₁.playerConns p = none
      rw [hr.playerConns, Function.update_self]
    fds := hfds
    members := by
      intro r room hroom hp q hq hne conn hconn
      obtain ⟨room', hr', hsent⟩ :=
        GameLobby.drop_told h.listed h.listing h.counted hroom hp hq hne
      refine ⟨room', by rw [← hr', ← hlobby], ?_⟩
      show _ ∈ s₁.wire.drop s.wire.length
      rw [hwire, List.drop_left]
      refine List.mem_append_left _ (mem_delivered_of ?_ hconn)
      exact List.mem_map.2 ⟨_, hsent, rfl⟩
    nearby := by
      intro q room hne hp hq conn hconn
      show _ ∈ s₁.wire.drop s.wire.length
      rw [hwire, List.drop_left]
      exact List.mem_append_right _ (mem_delivered_of (WorldService.leave_told hp hq hne) hconn) }

/-- The account switch by value does so where the player was in no room and not in the queue. -/
theorem departed_switch (h : Sound s) (hbound : s.playerConns p = some c)
    (hknown : s.fdToPlayer c.fd = some p) (hlogin : s.completes (.loop now) = some (c, q))
    (hq : q ≠ p) (hs : step s (.loop now) = some s') : Departed s s' p ↔
      ¬s.lobby.InRoom p ∧ p ∉ s.lobby.matchQueue.ids ∧ Alone s p c := by
  have hlobby : s'.lobby = s.lobby := step_lobby hs
  rcases loop_completes hs with ⟨hnone, -⟩ | ⟨t, result, saved, conn, callbacks, hwho, hconn, -, hj⟩
  · rw [hlogin] at hnone
    cases hnone
  obtain ⟨rfl, rfl⟩ := Prod.mk.inj (Option.some.inj (hlogin.symm.trans hwho))
  rw [h.ports.active _ _ hconn] at hknown
  have hwire := switchAccount_wire (s := { s with callbacks }) hknown hq.symm
  obtain ⟨-, hold⟩ | ⟨old, hold, -, hr, -⟩ :=
    switchAccount_cases { s with callbacks } t.fd result.playerId
  · exact absurd (hold p hknown).symm hq
  obtain rfl := Option.some.inj (hknown.symm.trans hold)
  generalize switchAccount { s with callbacks } t.fd result.playerId = s₁ at *
  have hfds : (∀ fd, s'.fdToPlayer fd ≠ some p) ↔ Alone s p c := by
    have halone : (∀ fd, s₁.fdToPlayer fd ≠ some p) ↔ Alone s p c :=
      unknown_removed (s := { s with callbacks }) hbound hr
    rw [← halone]
    refine forall_congr' fun fd => ?_
    rw [hj.fdToPlayer, fds_removed (s := { s with callbacks }) hbound hr, Function.update_apply,
      Function.update_apply]
    split_ifs
    · simp [hq]
    · rfl
  have hworld : s'.world.inventory p = none := by
    rw [hj.world, (s₁.world.enterWithState_spec result.playerId result.playerId now saved.x saved.y
      saved.z saved.yaw saved.inv).inventory_eq, if_neg hq.symm]
    exact congrArg (Option.map _) (removed_gone hr)
  rw [← hfds]
  constructor
  · intro hd
    exact ⟨hlobby ▸ hd.rooms, hlobby ▸ hd.queue, hd.fds⟩
  · rintro ⟨hrooms, hqueue, hfds⟩
    exact {
      world := Option.map_eq_none_iff.1 hworld
      rooms := hlobby ▸ hrooms
      queue := hlobby ▸ hqueue
      conns := by
        rw [hj.playerConns, Function.update_of_ne hq.symm, hr.playerConns, Function.update_self]
      fds := hfds
      members := fun r room hroom hp => absurd ⟨r, room, hroom, hp⟩ hrooms
      nearby := by
        intro q room hne hp hq conn hconn
        rw [hj.wire, hwire, List.append_assoc, List.append_assoc, List.drop_left]
        exact List.mem_append_left _
          (mem_delivered_of (WorldService.leave_told hp hq hne) hconn) }

end GameService

namespace AliasedService

open GameService (Departed Alone Sound Ports)

variable [Platform F] [Doubles E] [GameProto E] {s s' s₁ s₂ : AliasedService F (GameLobby E)}
  {p q : String} {c : Connection} {now now' : ℤ}

/-- `s` is reached by allowed steps from a newly constructed service. -/
def Serving (ok : AliasedService F (GameLobby E) → Event F → Prop)
    (s : AliasedService F (GameLobby E)) : Prop :=
  ∃ db accounts players scenes o,
    Reach step ok (start GameLobby.new db accounts players scenes o) s

theorem sound_step {e : Event F} (h : Ports s.toGameService ∧
      Reach GameLobby.step anyEvent GameLobby.new s.lobby) (hs : s.step e = some s') :
    Ports s'.toGameService ∧ Reach GameLobby.step anyEvent GameLobby.new s'.lobby := by
  have hnext : ∀ s₀, TinRpc.step s.toGameService e = some s₀ → Ports s₀ ∧
      Reach GameLobby.step anyEvent GameLobby.new s₀.lobby := by
    intro s₀ hs₀
    refine ⟨GameService.ports_step h.1 hs₀, ?_⟩
    rw [GameService.step_lobby hs₀]
    exact GameService.lobby_next h.2 fun _ _ => trivial
  rcases step_cases hs with ⟨-, hstep, -⟩ |
    ⟨t, result, saved, conn, callbacks, now, s₀, -, -, -, -, hstep, hservice, -⟩
  · exact hnext _ hstep
  · obtain ⟨hports, hlobby⟩ := hnext s₀ hstep
    rw [hservice, GameService.keeping_lobby]
    refine ⟨⟨fun fd c hc => hports.handlers fd c ?_, fun fd c hc => hports.active fd c ?_⟩, hlobby⟩
    · rwa [GameService.keeping_handlers] at hc
    · rwa [GameService.keeping_activeConns] at hc

theorem sound_serving {ok : AliasedService F (GameLobby E) → Event F → Prop} (h : Serving ok s) :
    Sound s.toGameService := by
  obtain ⟨db, accounts, players, scenes, o, h⟩ := h
  obtain ⟨-, -, hactive, hhandlers, -⟩ :=
    GameService.start_eq (F := F) (GameLobby.new (E := E)) db accounts players scenes o
  have hlobby := GameService.start_lobby (F := F) (GameLobby.new (E := E)) db accounts players
    scenes o
  have hsound := h.invariant (P := fun s => Ports s.toGameService ∧
    Reach GameLobby.step anyEvent GameLobby.new s.lobby)
    ⟨⟨fun fd c hc => ?_, fun fd c hc => ?_⟩, ?_⟩ fun s e s' hs _ he => sound_step hs he
  · exact GameService.sound_of_lobby hsound.1 hsound.2
  · rw [show (start GameLobby.new db accounts players scenes o).handlers = fun _ => none from
      hhandlers] at hc
    cases hc
  · rw [show (start GameLobby.new db accounts players scenes o).activeConns = fun _ => none from
      hactive] at hc
    cases hc
  · rw [show (start GameLobby.new db accounts players scenes o).lobby = GameLobby.new from hlobby]
    exact .start

theorem departed_close (h : Sound s.toGameService) (hbound : s.playerConns p = some c)
    (hknown : s.fdToPlayer c.fd = some p) (hs : s.step (.close c.fd now) = some s') :
    Departed s.toGameService s'.toGameService p ↔ Alone s.toGameService p c := by
  rcases step_cases hs with ⟨-, hstep, -⟩ | ⟨t, result, saved, conn, callbacks, now, s₀, he, -⟩
  · exact GameService.departed_close h hbound hknown hstep
  · cases he

/-- The switch does so where besides the player's id is not in a buffer. -/
theorem departed_switch (h : Sound s.toGameService) (hbound : s.playerConns p = some c)
    (hknown : s.fdToPlayer c.fd = some p) (hlogin : s.completes (.loop now) = some (c, q))
    (hq : q ≠ p) (hs : s.step (.loop now) = some s') :
    Departed s.toGameService s'.toGameService p ↔ ¬s.lobby.InRoom p ∧
      p ∉ s.lobby.matchQueue.ids ∧ Alone s.toGameService p c ∧ s.onHeap c.fd = false := by
  rcases step_cases hs with ⟨hnone, -⟩ |
    ⟨t, result, saved, conn, callbacks, now, s₀, -, -, hconn, hwho, hstep, hservice, -⟩
  · rw [hlogin] at hnone
    cases hnone
  obtain ⟨rfl, rfl⟩ := Prod.mk.inj (Option.some.inj (hlogin.symm.trans hwho))
  have hfd := h.ports.active _ _ hconn
  cases hheap : s.onHeap c.fd with
  | true =>
    have hkept : s.kept t.fd result.playerId = some (p, c) :=
      mem_kept.2 ⟨hfd ▸ hknown, hbound, hq.symm, hfd, hfd ▸ hheap⟩
    refine iff_of_false (fun hd => ?_) fun h => by simp at h
    have hnone := hd.conns
    rw [hservice, hkept] at hnone
    exact absurd (hnone.symm.trans (Function.update_self ..)) (Option.some_ne_none c).symm
  | false =>
    have hkept : s.kept t.fd result.playerId = none := by
      refine Option.eq_none_iff_forall_ne_some.2 fun old hold => ?_
      obtain ⟨-, -, -, -, hold⟩ := mem_kept.1 hold
      rw [← hfd, hheap] at hold
      cases hold
    rw [hservice, hkept]
    simp only [and_true]
    exact GameService.departed_switch h hbound hknown hlogin hq hstep

/-- Of a player and his connection: his disconnect leaves nothing of him just where no other fd has
him; the completion of another account's login on it does so too just where besides he is in no room
and not in the queue and his id is not in a buffer, where it is short. -/
theorem departures_agree (h : Serving anyEvent s) (hbound : s.playerConns p = some c)
    (hknown : s.fdToPlayer c.fd = some p) (hlogin : s.completes (.loop now) = some (c, q))
    (hq : q ≠ p) (hs₁ : s.step (.loop now) = some s₁) (hs₂ : s.step (.close c.fd now') = some s₂) :
    (Departed s.toGameService s₂.toGameService p ↔ Alone s.toGameService p c) ∧
    (Departed s.toGameService s₁.toGameService p ∧ Departed s.toGameService s₂.toGameService p ↔
      ¬s.lobby.InRoom p ∧ p ∉ s.lobby.matchQueue.ids ∧ Alone s.toGameService p c ∧
        s.onHeap c.fd = false) ∧
    (s.onHeap c.fd = false → p.utf8ByteSize ≤ localCapacity) := by
  have hsound := sound_serving h
  have hclose := departed_close hsound hbound hknown hs₂
  have hswitch := departed_switch hsound hbound hknown hlogin hq hs₁
  refine ⟨hclose, ?_, fun hheap => ?_⟩
  · rw [hclose, hswitch]
    exact and_iff_left_of_imp fun h => h.2.2.1
  · by_contra hlong
    obtain ⟨db, accounts, players, scenes, o, h⟩ := h
    have hnobody := (GameService.start_eq (F := F) (GameLobby.new (E := E)) db accounts players
      scenes o).2.1
    rw [onHeap_of_long h hnobody hknown (Nat.not_le.1 hlong)] at hheap
    cases hheap

/-- As long as no login of a player completes while another connection is his, and no switch takes
the connection from a long id, no other fd has him. -/
theorem alone_of_serving (h : Serving Isolated s) (hbound : s.playerConns p = some c) :
    Alone s.toGameService p c := by
  obtain ⟨db, accounts, players, scenes, o, hreach⟩ := h
  intro fd hfd
  obtain ⟨conn, hconn, rfl⟩ := (GameService.inverse_reach
    (running_isolated ⟨_, db, accounts, players, scenes, o, hreach⟩).1 p fd).1 hfd
  rw [hbound, Option.some.injEq] at hconn
  rw [hconn]

/-- The run of a list of events from the start of a service on a database. -/
def serve (ok : AliasedService ℚ (GameLobby Score) → Event ℚ → Prop) [∀ s e, Decidable (ok s e)]
    (db : Database ℚ) (es : List (Event ℚ)) : Option (AliasedService ℚ (GameLobby Score)) :=
  es.foldlM (fun s e => if ok s e then s.step e else none)
    (start GameLobby.new db true true true {})

theorem serving_of_serve {ok : AliasedService ℚ (GameLobby Score) → Event ℚ → Prop}
    [∀ s e, Decidable (ok s e)] {db : Database ℚ} {es : List (Event ℚ)}
    {s : AliasedService ℚ (GameLobby Score)} (h : serve ok db es = some s) : Serving ok s :=
  ⟨db, true, true, true, {}, Reach.of_foldlM es h⟩

/-- A player logs in, does something and bob logs in on his connection, up to the completion. -/
def switching (username : String) (es : List (Event ℚ)) : List (Event ℚ) :=
  List.flatten [[.accept 5], login username, [.loop 0], es, login "bob"]

theorem departures_agree_ann : ∃ s s₁ s₂ : AliasedService ℚ (GameLobby Score),
    s.playerConns "ann" = some ⟨0, 5⟩ ∧ s.step (.loop 0) = some s₁ ∧
    s.step (.close 5 0) = some s₂ ∧ Departed s.toGameService s₁.toGameService "ann" ∧
    Departed s.toGameService s₂.toGameService "ann" := by
  have hplay : (serve Isolated twoAccounts (switching "ann" [])).bind (fun s =>
      (s.step (.loop 0)).bind fun _ => (s.step (.close 5 0)).map fun _ =>
        decide (s.playerConns "ann" = some ⟨0, 5⟩ ∧ s.fdToPlayer 5 = some "ann" ∧
          s.completes (.loop 0) = some (⟨0, 5⟩, "bob") ∧ ¬s.lobby.InRoom "ann" ∧
          "ann" ∉ s.lobby.matchQueue.ids ∧ s.onHeap 5 = false)) = some true := by
    decide +kernel
  obtain ⟨s, hs, hrest⟩ := Option.bind_eq_some_iff.1 hplay
  obtain ⟨s₁, hs₁, hrest⟩ := Option.bind_eq_some_iff.1 hrest
  obtain ⟨s₂, hs₂, hstate⟩ := Option.map_eq_some_iff.1 hrest
  obtain ⟨hann, hknown, hlogin, hroom, hqueue, hheap⟩ := of_decide_eq_true hstate
  have hserving := serving_of_serve hs
  obtain ⟨db, accounts, players, scenes, o, hreach⟩ := hserving
  have hany : Serving anyEvent s :=
    ⟨db, accounts, players, scenes, o, hreach.mono fun _ _ _ => trivial⟩
  obtain ⟨h₁, h₂⟩ := (departures_agree hany hann hknown hlogin (by decide) hs₁ hs₂).2.1.2
    ⟨hroom, hqueue, alone_of_serving (serving_of_serve hs) hann, hheap⟩
  exact ⟨s, s₁, s₂, hann, hs₁, hs₂, h₁, h₂⟩

/-- Ann has created a room when bob logs in on her connection: she stays its member. -/
theorem switched_member : ¬∀ (s s₁ s₂ : AliasedService ℚ (GameLobby Score)) p q c now now',
    Serving anyEvent s → s.playerConns p = some c → s.fdToPlayer c.fd = some p →
    s.completes (.loop now) = some (c, q) → q ≠ p → s.step (.loop now) = some s₁ →
    s.step (.close c.fd now') = some s₂ → Departed s.toGameService s₁.toGameService p ∧
      Departed s.toGameService s₂.toGameService p := by
  intro h
  have hplay : (serve anyEvent twoAccounts
      (switching "ann" [.frame 5 3 (.other "CreateRoom" GameService.annBody) 0])).bind (fun s =>
      (s.step (.loop 0)).bind fun s₁ => (s.step (.close 5 0)).map fun _ =>
        decide (s.playerConns "ann" = some ⟨0, 5⟩ ∧ s.fdToPlayer 5 = some "ann" ∧
          s.completes (.loop 0) = some (⟨0, 5⟩, "bob") ∧ s₁.lobby.InRoom "ann")) = some true := by
    decide +kernel
  obtain ⟨s, hs, hrest⟩ := Option.bind_eq_some_iff.1 hplay
  obtain ⟨s₁, hs₁, hrest⟩ := Option.bind_eq_some_iff.1 hrest
  obtain ⟨s₂, hs₂, hstate⟩ := Option.map_eq_some_iff.1 hrest
  obtain ⟨hann, hknown, hlogin, hroom⟩ := of_decide_eq_true hstate
  exact (h s s₁ s₂ "ann" "bob" ⟨0, 5⟩ 0 0 (serving_of_serve hs) hann hknown hlogin (by decide) hs₁
    hs₂).1.rooms hroom

/-- A player with a long id is in no room and in no queue when bob logs in on his connection: he
keeps it. -/
theorem switched_long : ∃ s s₁ : AliasedService ℚ (GameLobby Score), Serving anyEvent s ∧
    s.playerConns "ann_of_the_north" = some ⟨0, 5⟩ ∧
    s.fdToPlayer 5 = some "ann_of_the_north" ∧ ¬s.lobby.InRoom "ann_of_the_north" ∧
    "ann_of_the_north" ∉ s.lobby.matchQueue.ids ∧ s.step (.loop 0) = some s₁ ∧
    s₁.fdToPlayer 5 = some "bob" ∧ s₁.playerConns "ann_of_the_north" = some ⟨0, 5⟩ := by
  have hplay : (serve anyEvent longAccount (switching "ann_of_the_north" [])).bind (fun s =>
      (s.step (.loop 0)).map fun s₁ => decide (
        s.playerConns "ann_of_the_north" = some ⟨0, 5⟩ ∧
        s.fdToPlayer 5 = some "ann_of_the_north" ∧ ¬s.lobby.InRoom "ann_of_the_north" ∧
        "ann_of_the_north" ∉ s.lobby.matchQueue.ids ∧ s₁.fdToPlayer 5 = some "bob" ∧
        s₁.playerConns "ann_of_the_north" = some ⟨0, 5⟩)) = some true := by
    decide +kernel
  obtain ⟨s, hs, hrest⟩ := Option.bind_eq_some_iff.1 hplay
  obtain ⟨s₁, hs₁, hstate⟩ := Option.map_eq_some_iff.1 hrest
  obtain ⟨hann, hknown, hroom, hqueue, hbob, hkept⟩ := of_decide_eq_true hstate
  exact ⟨s, s₁, serving_of_serve hs, hann, hknown, hroom, hqueue, hs₁, hbob, hkept⟩

end AliasedService

end TinRpc
