import TinRpc.Proofs.Evictions
import TinRpc.Proofs.Pairs

/-!
# In the queue or in a room

A match takes its players out of the queue before it puts them into a room. Nothing else keeps the
queue and the rooms apart: a member of a room may enter the queue, a queued player may create or
join a room, and a match's timeout queues players who have gone on to another room. Just the
operations that do one of these end it (`apart_iff`).
-/

namespace TinRpc

open Transition MatchQueue

namespace RoomManager

/-- A room takes a player: he is in no other one, and it is open, has a place and has not got him.
-/
def Admits (m : RoomManager) (a : String × String) : Prop :=
  (∀ r ∈ m.playerRoom.lookup a.2, r = a.1) ∧ ∃ room ∈ m.rooms.lookup a.1,
    (room.state = .idle ∨ room.state = .waiting) ∧ room.isFull = false ∧ a.2 ∉ room.players

instance (m : RoomManager) (a : String × String) : Decidable (m.Admits a) :=
  inferInstanceAs (Decidable ((∀ r ∈ m.playerRoom.lookup a.2, _) ∧ ∃ room ∈ m.rooms.lookup a.1, _))

/-- A player is in a room other than this one. -/
def Elsewhere (m : RoomManager) (roomId p : String) : Prop :=
  ∃ r room, r ≠ roomId ∧ m.rooms.lookup r = some room ∧ p ∈ room.players

instance (m : RoomManager) (roomId p : String) : Decidable (m.Elsewhere roomId p) :=
  decidable_of_iff (∃ e ∈ m.rooms.entries, e.1 ≠ roomId ∧ p ∈ e.2.players)
    ⟨fun ⟨e, he, hne, hp⟩ => ⟨e.1, e.2, hne, AList.mem_entries_iff.1 he, hp⟩,
      fun ⟨r, room, hne, hr, hp⟩ => ⟨⟨r, room⟩, AList.mem_entries_iff.2 hr, hne, hp⟩⟩

end RoomManager

namespace MatchService

variable {E : Type} {g g' : GameLobby E} {op : Op E} {p r : String} {roomTimeoutMs now : ℤ}

/-- Nobody in the queue is a member of a room. -/
def Apart (g : GameLobby E) : Prop := ∀ p ∈ g.matchQueue.ids, ¬g.InRoom p

instance (g : GameLobby E) (p : String) : Decidable (g.InRoom p) :=
  decidable_of_iff (∃ e ∈ g.roomMgr.rooms.entries, p ∈ e.2.players)
    ⟨fun ⟨e, he, hp⟩ => ⟨e.1, e.2, AList.mem_entries_iff.1 he, hp⟩,
      fun ⟨r, room, hr, hp⟩ => ⟨⟨r, room⟩, AList.mem_entries_iff.2 hr, hp⟩⟩

/-- Who enters the queue is in no room; who gets a room, or joins one that takes him, is not in the
queue; and where a match's timeout queues its players, they are in no other room. -/
def KeepsApart (g : GameLobby E) : Op E → Prop
  | .enterQueue p _ _ => ¬g.InRoom p
  | .rooms op =>
    (∀ p ∈ op.opener, g.roomMgr.free p = true → p ∉ g.matchQueue.ids) ∧
      ∀ a ∈ op.joiner, g.roomMgr.Admits a → a.2 ∉ g.matchQueue.ids
  | .fire now => ∀ cb ∈ expired g now,
      ¬g.roomMgr.Elsewhere cb.roomId cb.p1 ∧ ¬g.roomMgr.Elsewhere cb.roomId cb.p2
  | _ => True

instance (g : GameLobby E) : ∀ op, Decidable (KeepsApart g op)
  | .enterQueue .. => inferInstanceAs (Decidable (¬_))
  | .rooms op => inferInstanceAs (Decidable ((∀ p ∈ op.opener, _ → p ∉ g.matchQueue.ids) ∧
      ∀ a ∈ op.joiner, _ → a.2 ∉ g.matchQueue.ids))
  | .fire now => inferInstanceAs (Decidable (∀ cb ∈ expired g now, _ ∧ _))
  | .cancelMatch _ | .tryMatch _ | .clean => .isTrue trivial

/-- Who is a member after something happened to the rooms was one, has got a room, or has joined
one. -/
theorem member_rooms [Doubles E] {o : RoomServiceImpl.Op}
    (h : Member (perform roomTimeoutMs g (.rooms o)).1 r p) :
    Member g r p ∨ (o.opener = some p ∧ g.roomMgr.free p = true) ∨
      o.joiner = some (r, p) ∧ g.roomMgr.Admits (r, p) := by
  obtain ⟨room', hr', hp⟩ := h
  obtain ⟨old, hr, he⟩ := RoomServiceImpl.effect_stored hr'
  cases he with
  | same => exact .inl ⟨room', hr, hp⟩
  | opened _ q n timer state by_ free =>
    obtain rfl := List.mem_singleton.1 hp
    exact .inr (.inl ⟨by_, by rw [RoomManager.free, free]; rfl⟩)
  | joined room q by_ index open_ place new =>
    rcases List.mem_append.1 hp with hp | hp
    · exact .inl ⟨room, hr, hp⟩
    · obtain rfl := List.mem_singleton.1 hp
      refine .inr (.inr ⟨by_, fun r' hr' => ?_, room, hr, open_, place, new⟩)
      rcases index with hi | hi
      · rw [hi] at hr'
        cases hr'
      · rw [hi] at hr'
        exact (Option.some.inj hr').symm
  | left room q => exact .inl ⟨room, hr, List.mem_of_mem_erase hp⟩
  | started room => exact .inl ⟨room, hr, hp⟩
  | input room => exact .inl ⟨room, hr, hp⟩
  | stopped room => exact .inl ⟨room, hr, hp⟩
  | driven room now => exact .inl ⟨room, hr, (room.tick_players now).1 ▸ hp⟩

/-- Who asks for a room and is in none gets one. -/
theorem perform_opener {m : RoomManager} {o : RoomServiceImpl.Op} (hop : o.opener = some p)
    (hfree : m.free p = true) : ∃ room, (RoomServiceImpl.perform m o).1.rooms.lookup
      (RoomManager.roomName m.roomIdCounter) = some room ∧ room.players = [p] := by
  rw [RoomManager.free, Option.isNone_iff_eq_none] at hfree
  have hcreated : ∀ n timeoutMs at_, ∃ timer, (m.createRoom p n timeoutMs at_).2 =
      .createSuccess (RoomManager.roomName m.roomIdCounter) ∧
      (m.createRoom p n timeoutMs at_).1.rooms = m.rooms.insert
        (RoomManager.roomName m.roomIdCounter)
        { GameRoom.new (RoomManager.roomName m.roomIdCounter) p n with timer } := by
    intro n timeoutMs at_
    rcases m.createRoom_cases p n timeoutMs at_ with ⟨hin, -⟩ | ⟨-, timer, -, he⟩
    · rw [hfree] at hin
      cases hin
    · exact ⟨timer, by rw [he], by rw [he]⟩
  cases o with
  | createRoom req now =>
    cases req with
    | none => cases hop
    | some req =>
      obtain rfl := Option.some.inj hop
      simp only [RoomServiceImpl.perform, RoomServiceImpl.createRoom_state]
      generalize (if 0 < req.maxPlayers then req.maxPlayers else 4) = n
      obtain ⟨timer, hres, hrooms⟩ := hcreated n kDefaultRoomTimeoutMs (steady now)
      rw [hres]
      simp only [Result.createSuccess, if_true, RoomManager.atRoom, AList.lookup_modify, hrooms,
        AList.lookup_insert, Option.map_some]
      exact ⟨_, rfl, rfl⟩
  | manager op =>
    cases op with
    | createRoom q n timeoutMs at_ =>
      obtain rfl := Option.some.inj hop
      obtain ⟨timer, -, hrooms⟩ := hcreated n timeoutMs at_
      simp only [RoomServiceImpl.perform, RoomManager.apply, hrooms, AList.lookup_insert]
      exact ⟨_, rfl, rfl⟩
    | _ => cases hop
  | _ => cases hop

/-- Who asks to join a room that takes him is in it. -/
theorem perform_joiner {m : RoomManager} {o : RoomServiceImpl.Op} (hop : o.joiner = some (r, p))
    (h : m.Admits (r, p)) : ∃ room, (RoomServiceImpl.perform m o).1.rooms.lookup r = some room ∧
      p ∈ room.players := by
  have hperform : (RoomServiceImpl.perform m o).1 = (m.joinRoom r p).1 := by
    cases o with
    | joinRoom req =>
      cases req with
      | none => cases hop
      | some req =>
        obtain ⟨rfl, rfl⟩ := Prod.mk.inj (Option.some.inj hop)
        simp only [RoomServiceImpl.perform, RoomServiceImpl.joinRoom_state]
    | manager op =>
      cases op with
      | joinRoom roomId q =>
        obtain ⟨rfl, rfl⟩ := Prod.mk.inj (Option.some.inj hop)
        rfl
      | _ => cases hop
    | _ => cases hop
  obtain ⟨hindex, room, hr, hopen, hplace, hnew⟩ := h
  rw [hperform]
  have hok : (room.addPlayer p).2.ok = true := by
    unfold GameRoom.addPlayer
    rw [if_neg (by rcases hopen with hs | hs <;> simp [hs]), if_neg (by simp [hplace]),
      if_neg (by simpa [GameRoom.hasPlayer] using hnew)]
    rfl
  have helse : (m.playerRoom.lookup p).any (· ≠ r) = false := by
    rcases hl : m.playerRoom.lookup p with _ | r'
    · rfl
    · simpa using hindex r' hl
  have hr' : m.rooms.lookup r = some room := hr
  unfold RoomManager.joinRoom
  rw [hr']
  simp only [helse, hok, if_true, Bool.false_eq_true, if_false, AList.lookup_insert]
  refine ⟨_, rfl, ?_⟩
  rw [(GameRoom.addPlayer_ok hok).1]
  exact List.mem_append_right _ (List.mem_singleton_self p)

/-- A round of matching makes only the players of the pairs members. -/
theorem member_onMatches : ∀ (ms : List (Matched E)) {g : GameLobby E},
    Member (onMatches roomTimeoutMs now ms g) r p → Member g r p ∨ p ∈ pairIds ms
  | [], _, h => .inl h
  | m :: ms, g, h => by
    unfold onMatches at h
    have hpairs : pairIds (m :: ms) = [m.p1, m.p2] ++ pairIds ms := rfl
    rcases member_onMatches ms h with h | h
    · rcases onMatchSuccess_cases roomTimeoutMs g now m with ⟨-, he⟩ |
        ⟨-, mgr, room, he, -, hroom, hothers, -, -, hplayers, -⟩
      · exact .inl (he ▸ h)
      · rw [he] at h
        obtain ⟨room', hr', hp⟩ := h
        by_cases hr : r = RoomManager.roomName g.roomMgr.roomIdCounter
        · rw [show mgr.rooms.lookup r = some room from hr ▸ hroom, Option.some.injEq] at hr'
          subst hr'
          refine .inr (hpairs ▸ List.mem_append_left _ ?_)
          rcases hplayers with hpl | hpl <;> rw [hpl] at hp
          · obtain rfl := List.mem_singleton.1 hp
            exact List.mem_cons_self
          · exact hp
        · exact .inl ⟨room', (hothers r hr) ▸ hr', hp⟩
    · exact .inr (hpairs ▸ List.mem_append_right _ h)

theorem queue_onMatches : ∀ (ms : List (Matched E)) (g : GameLobby E),
    (onMatches roomTimeoutMs now ms g).matchQueue = g.matchQueue
  | [], g => rfl
  | m :: ms, g => by
    unfold onMatches
    rw [queue_onMatches ms]
    rcases onMatchSuccess_cases roomTimeoutMs g now m with ⟨-, he⟩ | ⟨-, mgr, room, he, -⟩
    · rw [he]
    · rw [he]

section Runs

variable [Doubles E]

/-- The queue after the operation has nobody twice. -/
theorem distinct_perform (h : g.matchQueue.Distinct) (op : Op E) :
    (perform roomTimeoutMs g op).1.matchQueue.Distinct := by
  cases op with
  | enterQueue p score now => exact h.enterQueue now p score
  | cancelMatch p => exact h.cancelMatch p
  | tryMatch now =>
    simp only [perform, tryMatch, queue_onMatches]
    exact (h.tryMatch now).1
  | rooms op => exact h
  | clean => exact h
  | fire now =>
    simp only [perform]
    rcases hexpired : expired g now with _ | cb
    · obtain ⟨timer, he, -⟩ := fire_unexpired hexpired
      rw [he]
      exact h
    · obtain ⟨tm, -, he⟩ := fire_expired hexpired
      rw [he]
      exact Distinct.enterQueue (Distinct.enterQueue h _ _ _) _ _ _

theorem distinct_reach {ok : GameLobby E → Op E → Prop}
    (h : Reach (step roomTimeoutMs) ok GameLobby.new g) : g.matchQueue.Distinct :=
  h.invariant (P := fun g => g.matchQueue.Distinct) List.nodup_nil fun _ op _ hd _ hs =>
    Option.some.inj hs ▸ distinct_perform hd op

/-- A timeout that finds its room queues the two players, and the members of the other rooms stay.
-/
theorem fire_members {cb : MatchTimeout E} (h : expired g now = some cb) :
    (∀ q, q ∈ (fire g now).matchQueue.ids ↔ q = cb.p2 ∨ q = cb.p1 ∨ q ∈ g.matchQueue.ids) ∧
      ∀ r q, Member (fire g now) r q ↔ r ≠ cb.roomId ∧ Member g r q := by
  obtain ⟨tm, -, he⟩ := fire_expired h
  rw [he]
  refine ⟨fun q => mem_ids_enterQueue.trans (or_congr_right mem_ids_enterQueue), fun r q => ?_⟩
  unfold Member
  simp only [GameLobby.enterQueue, removeRoom_lookup]
  by_cases hrid : r = cb.roomId <;> simp [hrid]

/-- Where the queue and the rooms are apart, just these operations keep them so. -/
theorem apart_iff (ha : Apart g) (hd : g.matchQueue.Distinct) :
    Apart (perform roomTimeoutMs g op).1 ↔ KeepsApart g op := by
  cases op with
  | enterQueue p score now =>
    constructor
    · intro h
      exact h p (mem_ids_enterQueue.2 (.inl rfl))
    · intro hop q hq
      rcases mem_ids_enterQueue.1 hq with rfl | hq
      · exact hop
      · exact ha q hq
  | cancelMatch p => exact iff_of_true (fun q hq => ha q (mem_ids_cancelMatch hq)) trivial
  | tryMatch now =>
    refine iff_of_true (fun q hq => ?_) trivial
    simp only [perform, tryMatch, queue_onMatches] at hq
    obtain ⟨-, -, hout⟩ := hd.tryMatch now
    rintro ⟨r, hmember⟩
    rcases member_onMatches _ hmember with hold | hpair
    · refine ha q ?_ ⟨r, hold⟩
      exact (ids_tryMatch g.matchQueue now).subset (List.mem_append_right _ hq)
    · exact hout q hpair hq
  | rooms op =>
    constructor
    · intro h
      refine ⟨fun p hp hfree hq => ?_, fun a hjoin hadmits hq => ?_⟩
      · obtain ⟨room, hr, hplayers⟩ := perform_opener hp hfree
        exact h p hq ⟨_, room, hr, by simp [hplayers]⟩
      · obtain ⟨room, hr, hp⟩ := perform_joiner (r := a.1) (p := a.2) hjoin hadmits
        exact h a.2 hq ⟨a.1, room, hr, hp⟩
    · intro hop q hq
      rintro ⟨r, hmember⟩
      rcases member_rooms hmember with hold | ⟨hopen, hfree⟩ | ⟨hjoin, hadmits⟩
      · exact ha q hq ⟨r, hold⟩
      · exact hop.1 q hopen hfree hq
      · exact hop.2 (r, q) hjoin hadmits hq
  | clean => exact iff_of_true ha trivial
  | fire now =>
    constructor
    · intro h cb hcb
      obtain ⟨hids, hmembers⟩ := fire_members hcb
      refine ⟨?_, ?_⟩
      · rintro ⟨r, room, hne, hr, hp⟩
        refine h cb.p1 ((hids cb.p1).2 (.inr (.inl rfl))) ⟨r, ?_⟩
        exact (hmembers r cb.p1).2 ⟨hne, room, hr, hp⟩
      · rintro ⟨r, room, hne, hr, hp⟩
        refine h cb.p2 ((hids cb.p2).2 (.inl rfl)) ⟨r, ?_⟩
        exact (hmembers r cb.p2).2 ⟨hne, room, hr, hp⟩
    · intro hop q hq
      simp only [perform] at hq ⊢
      rcases hexpired : expired g now with _ | cb
      · obtain ⟨timer, he, -⟩ := fire_unexpired hexpired
        rw [he] at hq ⊢
        exact ha q hq
      · obtain ⟨hids, hmembers⟩ := fire_members hexpired
        obtain ⟨h1, h2⟩ := hop cb hexpired
        rintro ⟨r, hmember⟩
        obtain ⟨hne, room', hr', hp⟩ := (hmembers r q).1 hmember
        rcases (hids q).1 hq with rfl | rfl | hold
        · exact h2 ⟨r, room', hne, hr', hp⟩
        · exact h1 ⟨r, room', hne, hr', hp⟩
        · exact ha q hold ⟨r, room', hr', hp⟩

/-- In every run whose operations all keep the queue and the rooms apart, no player is queued and a
member of a room at the same time; where that is so, an operation keeps it so just where it is one
of these. What happens in the lobby is such operations, with 30 seconds to accept a match. -/
theorem queue_or_room (roomTimeoutMs : ℤ) :
    (∀ g : GameLobby E, Reach (step roomTimeoutMs) KeepsApart GameLobby.new g → Apart g) ∧
    (∀ (g : GameLobby E) op, Reach (step roomTimeoutMs) anyEvent GameLobby.new g → Apart g →
      (Apart (perform roomTimeoutMs g op).1 ↔ KeepsApart g op)) ∧
    ∀ g : GameLobby E, Reach GameLobby.step anyEvent GameLobby.new g →
      Reach (step 30000) anyEvent GameLobby.new g := by
  refine ⟨fun g h => ?_, fun g op h ha => apart_iff ha (distinct_reach h), fun g h =>
    (reach_of_lobby h).mono fun _ _ _ => trivial⟩
  refine h.invariant_of (fun g h => distinct_reach h) (fun p hp => by cases hp) ?_
  intro g op g' hd ha hop hs
  exact Option.some.inj hs ▸ (apart_iff ha hd).2 hop

end Runs

/-- A match that one player leaves for the queue, until its time is up. -/
theorem queue_or_room_left : ∃ g : GameLobby Score, g.matchQueue.ids = ["bob", "ann"] ∧ Apart g := by
  have hrun : (([.enterQueue "ann" (.fin 2) 0, .enterQueue "bob" (.fin 1) 0, .tryMatch 0,
      .rooms (.leaveRoom (some ⟨"ann", "room_001"⟩)), .enterQueue "ann" (.fin 2) 9,
      .fire 30000] : List (Op Score)).foldlM
        (fun g op => if KeepsApart g op then step 30000 g op else none) GameLobby.new).map
          (fun g => g.matchQueue.ids) = some ["bob", "ann"] := by
    decide +kernel
  obtain ⟨g, hg, hids⟩ := Option.map_eq_some_iff.1 hrun
  exact ⟨g, hids, (queue_or_room 30000).1 g (Reach.of_foldlM _ hg)⟩

/-- A member of a room enters the queue. -/
theorem queued_in_room : ¬∀ g : GameLobby Score, Reach (step 30000) anyEvent GameLobby.new g →
    Apart g := by
  intro h
  have hrun : (([.rooms (.createRoom (some ⟨"ann", "room", 2⟩) 0), .enterQueue "ann" (.fin 1) 0]
      : List (Op Score)).foldlM
        (fun g op => if anyEvent g op then step 30000 g op else none) GameLobby.new).map
          (fun g => (g.matchQueue.ids, decide (g.InRoom "ann"))) = some (["ann"], true) := by
    decide +kernel
  obtain ⟨g, hg, hann⟩ := Option.map_eq_some_iff.1 hrun
  obtain ⟨hids, hin⟩ := Prod.mk.inj hann
  exact h g (Reach.of_foldlM _ hg) "ann" (by simp [hids]) (of_decide_eq_true hin)

end MatchService

end TinRpc
