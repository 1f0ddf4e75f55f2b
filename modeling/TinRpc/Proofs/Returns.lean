import TinRpc.Proofs.Apart

/-!
# Whom a match's timeout returns to the queue

The timer of a match keeps the ids of its players, and its callback asks only whether the room is
there and PLAYING. In runs where every match brings its two players together, and as long as its
timer is pending nobody cancels, leaves or has the game stopped but where the room stays PLAYING,
the callback returns only players who have waited in the room since the match (`timeout_returns`).
-/

namespace TinRpc

open Transition MatchQueue

namespace MatchService

variable {E : Type}

inductive Record
  | matched (roomId : String)
  | started (roomId : String)
  | cancelled (playerId : String)
  | left (roomId playerId : String)
  deriving DecidableEq

/-- A match service and what has happened so far, the latest first. No code reads it. -/
structure Recorded (E : Type) where
  lobby : GameLobby E
  journal : List Record := []

/-- The room that a match gets. -/
def matchRecord (g : GameLobby E) (now : ℤ) (m : Matched E) : List Record :=
  let r := g.roomMgr.createRoom m.p1 2 kDefaultRoomTimeoutMs (steady now)
  if r.2.ok then [.matched r.2.roomId] else []

def matchRecords (roomTimeoutMs now : ℤ) : List (Matched E) → GameLobby E → List Record
  | [], _ => []
  | m :: ms, g =>
    matchRecords roomTimeoutMs now ms (onMatchSuccess roomTimeoutMs g now m) ++ matchRecord g now m

/-- The game that is started, and the player who leaves. -/
def roomRecords (m : RoomManager) (op : RoomServiceImpl.Op) : List Record :=
  ((op.starter.filter fun a => (m.startGame a.1 a.2).2.ok).map fun a => .started a.1).toList ++
    (((op.leaver m).filter fun a => (m.leaveRoom a.1 a.2).2.ok).map fun a => .left a.1 a.2).toList

/-- What has happened since the match that got this room. -/
def since (journal : List Record) (roomId : String) : List Record :=
  journal.takeWhile (· ≠ .matched roomId)

/-- A player is a member of the room of a match whose game has not been started, and has neither
cancelled nor left since the match. -/
structure Waits (s : Recorded E) (roomId p : String) : Prop where
  member : Member s.lobby roomId p
  matched : .matched roomId ∈ s.journal
  unstarted : .started roomId ∉ since s.journal roomId
  uncancelled : .cancelled p ∉ since s.journal roomId
  stayed : .left roomId p ∉ since s.journal roomId

/-- The matches whose timers are pending. -/
def pending (g : GameLobby E) : List (MatchTimeout E) :=
  g.timer.heap.filterMap fun t => if t.cancelled then none else t.callback

/-- While the room of a match is not PLAYING, the two players wait in it. -/
def Held (s : Recorded E) (cb : MatchTimeout E) : Prop :=
  ∀ room ∈ s.lobby.roomMgr.rooms.lookup cb.roomId, room.state ≠ .playing →
    ∀ p, p = cb.p1 ∨ p = cb.p2 → Waits s cb.roomId p

section Operations

variable [Doubles E]

def records (roomTimeoutMs : ℤ) (g : GameLobby E) : Op E → List Record
  | .cancelMatch p => [.cancelled p]
  | .tryMatch now =>
    let r := g.matchQueue.tryMatch now
    matchRecords roomTimeoutMs now r.2 { g with matchQueue := r.1 }
  | .rooms op => roomRecords g.roomMgr op
  | _ => []

/-- An operation, and what is written down of it. -/
def record (roomTimeoutMs : ℤ) (s : Recorded E) (op : Op E) : Option (Recorded E) :=
  some ⟨(perform roomTimeoutMs s.lobby op).1, records roomTimeoutMs s.lobby op ++ s.journal⟩

/-- A match whose first player gets a room finds the second one in none, no new room gets the name
of the room of a match whose timer is pending; and while such a room is there, who cancels a match
of his does so in a game, who leaves it leaves others in a game, and no game is stopped in it. -/
def Patient (s : Recorded E) : Op E → Prop
  | .cancelMatch p => ∀ cb ∈ pending s.lobby, p = cb.p1 ∨ p = cb.p2 →
      ∀ room ∈ s.lobby.roomMgr.rooms.lookup cb.roomId, room.state = .playing
  | .tryMatch now =>
    let ms := (s.lobby.matchQueue.tryMatch now).2
    (∀ m ∈ ms, s.lobby.roomMgr.free m.p1 = true → s.lobby.roomMgr.free m.p2 = true) ∧
      ms.length ≤ 2 ^ 64 ∧ ∀ k < ms.length, ∀ cb ∈ pending s.lobby,
        cb.roomId ≠ RoomManager.roomName (s.lobby.roomMgr.roomIdCounter + UInt64.ofNat k)
  | .rooms op => ∀ cb ∈ pending s.lobby,
      RoomServiceImpl.created s.lobby.roomMgr op ≠ some cb.roomId ∧
      ∀ room ∈ s.lobby.roomMgr.rooms.lookup cb.roomId,
        (∀ a ∈ op.leaver s.lobby.roomMgr, a.1 = cb.roomId → a.2 ∈ room.players →
          room.state = .playing ∧ ∃ q ∈ room.players, q ≠ a.2) ∧
        (op.stopped = some cb.roomId → room.state ≠ .playing)
  | _ => True

instance (s : Recorded E) : ∀ op, Decidable (Patient s op)
  | .cancelMatch _ => inferInstanceAs (Decidable (∀ cb ∈ pending s.lobby, _ ∨ _ →
      ∀ room ∈ s.lobby.roomMgr.rooms.lookup cb.roomId, room.state = .playing))
  | .tryMatch now => inferInstanceAs (Decidable ((∀ m ∈ (s.lobby.matchQueue.tryMatch now).2, _) ∧
      _ ∧ ∀ k < (s.lobby.matchQueue.tryMatch now).2.length, ∀ cb ∈ pending s.lobby, _))
  | .rooms op => inferInstanceAs (Decidable (∀ cb ∈ pending s.lobby, _ ∧
      ∀ room ∈ s.lobby.roomMgr.rooms.lookup cb.roomId, (∀ a ∈ op.leaver s.lobby.roomMgr,
        _ → _ → _ ∧ ∃ q ∈ room.players, _) ∧ (_ → _)))
  | .enterQueue .. | .clean | .fire _ => .isTrue trivial

end Operations

section Journal

variable {journal l : List Record} {r : String}

theorem since_matched : since (.matched r :: journal) r = [] :=
  List.takeWhile_cons_of_neg (by simp)

theorem since_append (h : .matched r ∉ l) : since (l ++ journal) r = l ++ since journal r :=
  List.takeWhile_append_of_pos fun e he => by
    rw [decide_eq_true_eq]
    rintro rfl
    exact h he

variable {m : RoomManager} {op : RoomServiceImpl.Op} {e : Record}

theorem mem_roomRecords : e ∈ roomRecords m op ↔
    (∃ r p, op.starter = some (r, p) ∧ (m.startGame r p).2.ok = true ∧ e = .started r) ∨
      ∃ r p, op.leaver m = some (r, p) ∧ (m.leaveRoom r p).2.ok = true ∧ e = .left r p := by
  unfold roomRecords
  simp only [List.mem_append, Option.mem_toList, Option.map_eq_some_iff, Option.filter_eq_some_iff,
    Prod.exists, and_assoc, eq_comm (a := e)]

/-- A game that has been started is on. -/
theorem playing_of_started {p : String} {room : GameRoom} (hop : op.starter = some (r, p))
    (hok : (m.startGame r p).2.ok = true)
    (hr : (RoomServiceImpl.perform m op).1.rooms.lookup r = some room) : room.state = .playing := by
  rcases m.startGame_cases r p with ⟨-, hno⟩ | ⟨old, hold, -, -, he⟩
  · rw [hok] at hno
    cases hno
  cases op with
  | startGame req now =>
    cases req with
    | none => cases hop
    | some req =>
      obtain ⟨rfl, rfl⟩ := Prod.mk.inj (Option.some.inj hop)
      simp only [RoomServiceImpl.perform, RoomServiceImpl.startGame_state] at hr
      rw [if_pos hok, he, RoomManager.atRoom, AList.lookup_modify, if_pos rfl, AList.lookup_insert,
        Option.map_some, Option.some.injEq] at hr
      obtain ⟨timer, frameSync, hstart⟩ :=
        RoomServiceImpl.startRoom_eq now { old with state := .playing }
      rw [← hr, hstart]
  | manager op =>
    cases op with
    | startGame roomId q =>
      obtain ⟨rfl, rfl⟩ := Prod.mk.inj (Option.some.inj hop)
      simp only [RoomServiceImpl.perform, RoomManager.apply, he, AList.lookup_insert,
        Option.some.injEq] at hr
      rw [← hr]
    | _ => cases hop
  | _ => cases hop

/-- A player waits on while he stays and nothing of this happens. -/
theorem Waits.after {s : Recorded E} {g : GameLobby E} {p : String} (h : Waits s r p)
    (hmember : Member g r p) (hl : ∀ e ∈ l, e ≠ .matched r ∧ e ≠ .started r ∧ e ≠ .cancelled p ∧
      e ≠ .left r p) : Waits ⟨g, l ++ s.journal⟩ r p := by
  have hsince : since (l ++ s.journal) r = l ++ since s.journal r :=
    since_append fun hm => (hl _ hm).1 rfl
  refine ⟨hmember, List.mem_append_right _ h.matched, ?_, ?_, ?_⟩
  · rw [hsince, List.mem_append]
    exact not_or.2 ⟨fun hm => (hl _ hm).2.1 rfl, h.unstarted⟩
  · rw [hsince, List.mem_append]
    exact not_or.2 ⟨fun hm => (hl _ hm).2.2.1 rfl, h.uncancelled⟩
  · rw [hsince, List.mem_append]
    exact not_or.2 ⟨fun hm => (hl _ hm).2.2.2 rfl, h.stayed⟩

theorem Held.kept {s : Recorded E} {cb : MatchTimeout E} {g : GameLobby E} (h : Held s cb)
    (hrooms : g.roomMgr = s.lobby.roomMgr) : Held ⟨g, s.journal⟩ cb := by
  intro room hr hnp p hp
  have hr : g.roomMgr.rooms.lookup cb.roomId = some room := hr
  have hwaits := h room (hrooms ▸ hr) hnp p hp
  obtain ⟨old, hold, hin⟩ := hwaits.member
  exact hwaits.after (l := []) ⟨old, hrooms ▸ hold, hin⟩ fun e he => by cases he

end Journal

section Rooms

variable {s : Recorded E} {cb : MatchTimeout E} {op : RoomServiceImpl.Op} {p : String}

/-- Nobody leaves the room of a pending match unless the game goes on. -/
theorem playing_of_left {m : RoomManager} {room' : GameRoom} {r : String}
    (hleave : ∀ room ∈ m.rooms.lookup r, ∀ a ∈ op.leaver m, a.1 = r → a.2 ∈ room.players →
      room.state = .playing ∧ ∃ q ∈ room.players, q ≠ a.2)
    (hop : op.leaver m = some (r, p)) (hok : (m.leaveRoom r p).2.ok = true)
    (hr' : (RoomServiceImpl.perform m op).1.rooms.lookup r = some room') :
    room'.state = .playing := by
  rcases m.leaveRoom_cases r p with ⟨-, hno⟩ | ⟨room, state, hr, hin, -⟩
  · rw [hok] at hno
    cases hno
  obtain ⟨hplaying, q, hq, hne⟩ := hleave room hr (r, p) hop rfl hin
  rw [RoomServiceImpl.perform_leaver hop, RoomManager.leaveRoom_of_mem hr hin,
    AList.lookup_insert, Option.some.injEq] at hr'
  rw [← hr']
  have hsome : room.players.erase p ≠ [] :=
    List.ne_nil_of_mem ((List.mem_erase_of_ne hne).2 hq)
  simp only [if_neg hsome, hplaying]

/-- Where the room is not PLAYING after an operation on the rooms, it was not before, and its
members stay. -/
theorem kept_of_effect {m : RoomManager} {r : String} {o : Option GameRoom} {room' : GameRoom}
    (hnew : RoomServiceImpl.created m op ≠ some r)
    (hstop : ∀ room ∈ o, op.stopped = some r → room.state ≠ .playing)
    (hleft : ∀ room ∈ o, ∀ p, op.leaver m = some (r, p) → p ∉ room.players)
    (h : RoomServiceImpl.Effect m op r o (some room')) (hnp : room'.state ≠ .playing) :
    ∃ room ∈ o, room.state ≠ .playing ∧ ∀ p ∈ room.players, p ∈ room'.players := by
  cases h with
  | same => exact ⟨room', rfl, hnp, fun p hp => hp⟩
  | opened _ p n timer state by_ free name =>
    refine absurd ?_ hnew
    simp [RoomServiceImpl.created, by_, free, name]
  | joined room p => exact ⟨room, rfl, hnp, fun q hq => List.mem_append_left _ hq⟩
  | left room p by_ mem => exact absurd mem (hleft room rfl p by_)
  | started => exact absurd rfl hnp
  | input room => exact ⟨room, rfl, hnp, fun p hp => hp⟩
  | stopped room frameSync by_ => exact ⟨room, rfl, hstop room rfl by_, fun p hp => hp⟩
  | driven room now =>
    refine ⟨room, rfl, ?_, fun p hp => (room.tick_players now).1.symm ▸ hp⟩
    rcases room.tick_state now with hs | ⟨hs, -, -⟩
    · rwa [hs] at hnp
    · exact hs

/-- The players of a pending match wait through an operation on the rooms. -/
theorem held_rooms [Doubles E] {roomTimeoutMs : ℤ} (h : Held s cb) (hcb : cb ∈ pending s.lobby)
    (hop : Patient s (.rooms op)) : Held ⟨(perform roomTimeoutMs s.lobby (.rooms op)).1,
      roomRecords s.lobby.roomMgr op ++ s.journal⟩ cb := by
  obtain ⟨hnew, hroom⟩ := hop cb hcb
  intro room' hr' hnp p hp
  have hr' : (RoomServiceImpl.perform s.lobby.roomMgr op).1.rooms.lookup cb.roomId = some room' :=
    hr'
  have hstarted : .started cb.roomId ∉ roomRecords s.lobby.roomMgr op := by
    intro hmem
    rcases mem_roomRecords.1 hmem with ⟨r, q, hstart, hok, heq⟩ | ⟨r, q, -, -, heq⟩
    · obtain rfl := Record.started.inj heq
      exact hnp (playing_of_started hstart hok hr')
    · cases heq
  have hleft : ∀ q, .left cb.roomId q ∉ roomRecords s.lobby.roomMgr op := by
    intro q hmem
    rcases mem_roomRecords.1 hmem with ⟨r, q', -, -, heq⟩ | ⟨r, q', hleave, hok, heq⟩
    · cases heq
    · obtain ⟨rfl, rfl⟩ := Record.left.inj heq
      exact hnp (playing_of_left (fun room hr => (hroom room hr).1) hleave hok hr')
  have heffect := RoomServiceImpl.effect_perform s.lobby.roomMgr op cb.roomId
  rw [hr'] at heffect
  obtain ⟨room, hr, hnp', hmembers⟩ := kept_of_effect hnew (fun room hr => (hroom room hr).2)
    (fun room hr q hq hin => hleft q (mem_roomRecords.2 (.inr ⟨cb.roomId, q, hq, by
      rw [RoomManager.leaveRoom_of_mem hr hin]
      rfl, rfl⟩))) heffect hnp
  have hwaits := h room hr hnp' p hp
  obtain ⟨old, hold, hin⟩ := hwaits.member
  rw [show s.lobby.roomMgr.rooms.lookup cb.roomId = some room from hr, Option.some.injEq] at hold
  refine hwaits.after ⟨room', hr', hmembers p (hold ▸ hin)⟩ fun e he => ⟨?_, ?_, ?_, ?_⟩
  · rcases mem_roomRecords.1 he with ⟨r, q, -, -, rfl⟩ | ⟨r, q, -, -, rfl⟩ <;> simp
  · exact fun heq => hstarted (heq ▸ he)
  · rcases mem_roomRecords.1 he with ⟨r, q, -, -, rfl⟩ | ⟨r, q, -, -, rfl⟩ <;> simp
  · exact fun heq => hleft p (heq ▸ he)

end Rooms

section Matches

variable {g : GameLobby E} {now roomTimeoutMs : ℤ} {m : Matched E} {journal : List Record}
  {cb cb' : MatchTimeout E}

theorem mem_pending : cb ∈ pending g ↔
    ∃ t ∈ g.timer.heap, t.cancelled = false ∧ t.callback = some cb := by
  unfold pending
  rw [List.mem_filterMap]
  refine exists_congr fun t => and_congr_right fun _ => ?_
  cases t.cancelled <;> simp

theorem pending_mono {g' : GameLobby E} (h : ∀ t ∈ g'.timer.heap, t ∈ g.timer.heap)
    (hcb : cb ∈ pending g') : cb ∈ pending g := by
  obtain ⟨t, ht, hrest⟩ := mem_pending.1 hcb
  exact mem_pending.2 ⟨t, h t ht, hrest⟩

theorem pending_schedule {mgr : RoomManager} (h : cb' ∈ pending { g with
      roomMgr := mgr, timer := (g.timer.schedule (steady now) roomTimeoutMs (some cb)).1 }) :
    cb' = cb ∨ cb' ∈ pending g := by
  obtain ⟨t, ht, hlive, hcb⟩ := mem_pending.1 h
  rcases TimerManager.mem_schedule.1 ht with rfl | ht
  · exact .inl (Option.some.inj hcb).symm
  · exact .inr (mem_pending.2 ⟨t, ht, hlive, hcb⟩)

/-- A match moves nobody but its players. -/
theorem free_onMatchSuccess {q : String} (h1 : q ≠ m.p1) (h2 : q ≠ m.p2) :
    (onMatchSuccess roomTimeoutMs g now m).roomMgr.free q = g.roomMgr.free q := by
  unfold onMatchSuccess RoomManager.free
  rcases g.roomMgr.createRoom_cases m.p1 2 kDefaultRoomTimeoutMs (steady now) with
    ⟨-, he⟩ | ⟨-, timer, -, he⟩
  · rw [he]
    rfl
  · rw [he]
    simp only [Result.createSuccess, if_true]
    generalize hmo : RoomManager.atRoom _ _ _ = mo
    have hindex : mo.playerRoom.lookup q = g.roomMgr.playerRoom.lookup q := by
      rw [← hmo]
      exact AList.lookup_insert_ne h1
    rcases mo.joinRoom_cases (RoomManager.roomName g.roomMgr.roomIdCounter) m.p2 with
      ⟨he, -⟩ | ⟨room, -, -, -, he⟩
    · rw [he, hindex]
    · rw [he, AList.lookup_insert_ne h2, hindex]

theorem matchRecord_eq (g : GameLobby E) (now : ℤ) (m : Matched E) :
    matchRecord g now m = if g.roomMgr.free m.p1 then
      [.matched (RoomManager.roomName g.roomMgr.roomIdCounter)] else [] := by
  unfold matchRecord RoomManager.free
  rcases g.roomMgr.createRoom_cases m.p1 2 kDefaultRoomTimeoutMs (steady now) with
    ⟨hin, he⟩ | ⟨hfree, timer, -, he⟩
  · rw [he, Option.isNone_eq_false_iff.2 hin]
    rfl
  · rw [he, hfree]
    rfl

/-- The players of pending matches wait through the opening of the room of another one, and those
of the new match wait in it. -/
theorem held_onMatchSuccess (hne : m.p1 ≠ m.p2)
    (hfree : g.roomMgr.free m.p1 = true → g.roomMgr.free m.p2 = true)
    (hname : ∀ cb ∈ pending g, cb.roomId ≠ RoomManager.roomName g.roomMgr.roomIdCounter)
    (h : ∀ cb ∈ pending g, Held ⟨g, journal⟩ cb)
    (hcb : cb ∈ pending (onMatchSuccess roomTimeoutMs g now m)) :
    Held ⟨onMatchSuccess roomTimeoutMs g now m, matchRecord g now m ++ journal⟩ cb := by
  rcases onMatchSuccess_cases roomTimeoutMs g now m with ⟨hbusy, he⟩ |
    ⟨hopen, mgr, room, he, -, hroom, hothers, -, -, -, hplayers⟩
  · rw [he] at hcb ⊢
    rw [matchRecord_eq, hbusy]
    exact h cb hcb
  rw [he] at hcb ⊢
  rw [matchRecord_eq, if_pos hopen, List.singleton_append]
  have hboth := hplayers (hfree hopen) hne
  rcases pending_schedule hcb with rfl | hold
  · intro room' _ _ p hp
    refine ⟨⟨room, hroom, ?_⟩, List.mem_cons_self, ?_, ?_, ?_⟩
    · rcases hp with rfl | rfl <;> simp [hboth]
    · simp [since_matched]
    · simp [since_matched]
    · simp [since_matched]
  · intro room' hr' hnp p hp
    have hne := hname cb hold
    have hr' : mgr.rooms.lookup cb.roomId = some room' := hr'
    rw [hothers cb.roomId hne] at hr'
    have hwaits := h cb hold room' hr' hnp p hp
    obtain ⟨old, hstored, hin⟩ := hwaits.member
    refine hwaits.after (l := [_]) ⟨old, (hothers cb.roomId hne).trans hstored, hin⟩ fun e he => ?_
    obtain rfl := List.mem_singleton.1 he
    simpa using hne.symm

/-- The names for later rooms are not taken by a match. -/
theorem names_onMatchSuccess {n : ℕ} (hlen : n + 1 ≤ 2 ^ 64)
    (hnames : ∀ k < n + 1, ∀ cb ∈ pending g,
      cb.roomId ≠ RoomManager.roomName (g.roomMgr.roomIdCounter + UInt64.ofNat k)) {k : ℕ}
    (hk : k < n) (hcb : cb ∈ pending (onMatchSuccess roomTimeoutMs g now m)) :
    cb.roomId ≠ RoomManager.roomName
      ((onMatchSuccess roomTimeoutMs g now m).roomMgr.roomIdCounter + UInt64.ofNat k) := by
  rcases onMatchSuccess_cases roomTimeoutMs g now m with ⟨-, he⟩ | ⟨-, mgr, room, he, hc, -⟩
  · rw [he] at hcb ⊢
    exact hnames k (by omega) cb hcb
  rw [he] at hcb ⊢
  simp only [hc]
  rcases pending_schedule hcb with rfl | hold
  · exact (RoomManager.name_ne (by omega)).symm
  · have := hnames (k + 1) (by omega) cb hold
    rwa [Nat.add_comm k 1, UInt64.ofNat_add, ← UInt64.add_assoc] at this

/-- The players of pending matches wait through a round of matching. -/
theorem held_onMatches : ∀ (ms : List (Matched E)) {g : GameLobby E} {journal : List Record},
    (pairIds ms).Nodup →
    (∀ m ∈ ms, g.roomMgr.free m.p1 = true → g.roomMgr.free m.p2 = true) → ms.length ≤ 2 ^ 64 →
    (∀ k < ms.length, ∀ cb ∈ pending g,
      cb.roomId ≠ RoomManager.roomName (g.roomMgr.roomIdCounter + UInt64.ofNat k)) →
    (∀ cb ∈ pending g, Held ⟨g, journal⟩ cb) →
    ∀ cb ∈ pending (onMatches roomTimeoutMs now ms g),
      Held ⟨onMatches roomTimeoutMs now ms g, matchRecords roomTimeoutMs now ms g ++ journal⟩ cb
  | [], g, journal, _, _, _, _, h => h
  | m :: ms, g, journal, hd, hfree, hlen, hnames, h => by
    obtain ⟨hm, hms, hdisjoint⟩ :=
      List.nodup_append.1 (show ([m.p1, m.p2] ++ pairIds ms).Nodup from hd)
    rw [List.length_cons] at hlen hnames
    have hname : ∀ cb ∈ pending g,
        cb.roomId ≠ RoomManager.roomName g.roomMgr.roomIdCounter := by
      intro cb hcb
      have := hnames 0 (Nat.succ_pos _) cb hcb
      rwa [show UInt64.ofNat 0 = 0 from rfl, UInt64.add_zero] at this
    have hkept : ∀ q ∈ pairIds ms,
        (onMatchSuccess roomTimeoutMs g now m).roomMgr.free q = g.roomMgr.free q :=
      fun q hq => free_onMatchSuccess
        (fun heq => hdisjoint m.p1 (by simp) q hq heq.symm)
        (fun heq => hdisjoint m.p2 (by simp) q hq heq.symm)
    unfold onMatches matchRecords
    rw [List.append_assoc]
    refine held_onMatches ms hms (fun m' hm' => ?_) (by omega)
      (fun k hk cb hcb => names_onMatchSuccess hlen hnames hk hcb)
      fun cb => held_onMatchSuccess (by simpa using hm) (hfree m List.mem_cons_self) hname h
    obtain ⟨h1, h2⟩ := GameLobby.mem_pairIds hm'
    rw [hkept _ h1, hkept _ h2]
    exact hfree m' (List.mem_cons_of_mem m hm')

end Matches

section Runs

variable [Doubles E] {s s' : Recorded E} {cb : MatchTimeout E} {roomTimeoutMs now : ℤ}

/-- A round of `Tick` takes a room away or leaves them all. -/
theorem held_fire (h : ∀ cb ∈ pending s.lobby, Held s cb) (hcb : cb ∈ pending (fire s.lobby now)) :
    Held ⟨fire s.lobby now, s.journal⟩ cb := by
  rcases he : expired s.lobby now with _ | cb'
  · obtain ⟨timer, hfire, hheap⟩ := fire_unexpired he
    rw [hfire] at hcb ⊢
    exact (h cb (pending_mono hheap hcb)).kept rfl
  · obtain ⟨tm, hheap, hfire⟩ := fire_expired he
    rw [hfire] at hcb ⊢
    intro room hr hnp p hp
    have hr : (s.lobby.roomMgr.removeRoom cb'.roomId).1.rooms.lookup cb.roomId = some room := hr
    rw [removeRoom_lookup] at hr
    split_ifs at hr with hname
    have hwaits := h cb (pending_mono hheap hcb) room hr hnp p hp
    obtain ⟨old, hold, hin⟩ := hwaits.member
    refine hwaits.after (l := []) ⟨old, ?_, hin⟩ fun e he => by cases he
    exact ((removeRoom_lookup _ _ _).trans (if_neg hname)).trans hold

/-- What keeps the players of pending matches waiting. -/
theorem held_record {op : Op E} (hd : s.lobby.matchQueue.Distinct)
    (h : ∀ cb ∈ pending s.lobby, Held s cb) (hop : Patient s op)
    (hs : record roomTimeoutMs s op = some s') : ∀ cb ∈ pending s'.lobby, Held s' cb := by
  obtain rfl := Option.some.inj hs
  cases op with
  | enterQueue p score now => exact fun cb hcb => (h cb hcb).kept rfl
  | cancelMatch p =>
    intro cb hcb room hr hnp q hq
    have hwaits := h cb hcb room hr hnp q hq
    refine hwaits.after (l := [_]) hwaits.member fun e he => ?_
    obtain rfl := List.mem_singleton.1 he
    have hne : p ≠ q := by
      rintro rfl
      exact hnp (hop cb hcb hq room hr)
    simpa using hne
  | tryMatch now =>
    obtain ⟨hfree, hlen, hnames⟩ := hop
    exact held_onMatches (s.lobby.matchQueue.tryMatch now).2 (hd.tryMatch now).2.1 hfree hlen hnames
      fun cb hcb => (h cb hcb).kept rfl
  | rooms op => exact fun cb hcb => held_rooms (h cb hcb) hcb hop
  | clean =>
    intro cb hcb
    exact (h cb (pending_mono (fun t ht => (List.dropWhile_suffix _).subset ht) hcb)).kept rfl
  | fire now => exact fun cb => held_fire h

/-- What is written down follows the run. -/
theorem reach_recorded {ok : Recorded E → Op E → Prop}
    (h : Reach (record roomTimeoutMs) ok ⟨GameLobby.new, []⟩ s) :
    Reach (step roomTimeoutMs) anyEvent GameLobby.new s.lobby := by
  refine h.invariant (P := fun s => Reach (step roomTimeoutMs) anyEvent GameLobby.new s.lobby)
    .start fun s op s' hr _ hs => ?_
  exact hr.next trivial (show step roomTimeoutMs s.lobby op = _ from by
    rw [← Option.some.inj hs]; rfl)

/-- Every run can be written down. -/
theorem recorded_reach {ok : GameLobby E → Op E → Prop} {g : GameLobby E}
    (h : Reach (step roomTimeoutMs) ok GameLobby.new g) :
    ∃ journal, Reach (record roomTimeoutMs) anyEvent ⟨GameLobby.new, []⟩ ⟨g, journal⟩ := by
  refine h.invariant (P := fun g => ∃ journal,
    Reach (record roomTimeoutMs) anyEvent ⟨GameLobby.new, []⟩ ⟨g, journal⟩) ⟨[], .start⟩ ?_
  rintro g op g' ⟨journal, hr⟩ - hs
  obtain rfl := Option.some.inj hs
  exact ⟨_, hr.trans (.one op trivial rfl)⟩

theorem held_reach (h : Reach (record roomTimeoutMs) Patient ⟨GameLobby.new, []⟩ s) :
    ∀ cb ∈ pending s.lobby, Held s cb := by
  refine h.invariant_of (P := fun s => ∀ cb ∈ pending s.lobby, Held s cb)
    (fun s hs => distinct_reach (reach_recorded hs)) (fun cb hcb => ?_)
    fun s op s' hd hi hop hs => held_record hd hi hop hs
  cases hcb

/-- In every run that meets the condition: when a match's timeout returns its players to the queue,
each of them is a member of its room, whose game has not been started, and has neither cancelled nor
left since the match. Any other round of `Tick` leaves the queue as it is, and what happens in the
lobby of the service happens in such a run. -/
theorem timeout_returns (roomTimeoutMs : ℤ) (s : Recorded E) :
    (Reach (record roomTimeoutMs) Patient ⟨GameLobby.new, []⟩ s → ∀ now cb,
      expired s.lobby now = some cb → Waits s cb.roomId cb.p1 ∧ Waits s cb.roomId cb.p2) ∧
    (∀ now, expired s.lobby now = none → (fire s.lobby now).matchQueue = s.lobby.matchQueue) ∧
    ∀ g : GameLobby E, Reach GameLobby.step anyEvent GameLobby.new g →
      ∃ journal, Reach (record 30000) anyEvent ⟨GameLobby.new, []⟩ ⟨g, journal⟩ := by
  refine ⟨fun h now cb he => ?_, fun now he => ?_, fun g h => recorded_reach (reach_of_lobby h)⟩
  · obtain ⟨t, tm, room, hpop, hlive, hcb, hr, hs⟩ := expired_eq_some.1 he
    obtain ⟨hheap, -⟩ := TimerManager.popDue_some hpop
    have hheld := held_reach h cb (mem_pending.2 ⟨t, hheap ▸ List.mem_cons_self, hlive, hcb⟩)
    exact ⟨hheld room hr hs cb.p1 (.inl rfl), hheld room hr hs cb.p2 (.inr rfl)⟩
  · obtain ⟨timer, hfire, -⟩ := fire_unexpired he
    rw [hfire]

end Runs

/-- A match that nobody accepts. -/
theorem timeout_returns_unaccepted : ∃ s : Recorded Score,
    expired s.lobby 30000 = some ⟨"room_001", "bob", "ann", .fin 1, .fin 2⟩ ∧
    Waits s "room_001" "bob" ∧ Waits s "room_001" "ann" := by
  have hrun : (([.enterQueue "ann" (.fin 2) 0, .enterQueue "bob" (.fin 1) 0, .tryMatch 0] :
      List (Op Score)).foldlM (fun s op => if Patient s op then record 30000 s op else none)
        ⟨GameLobby.new, []⟩).map (fun s => expired s.lobby 30000) =
      some (some ⟨"room_001", "bob", "ann", .fin 1, .fin 2⟩) := by
    decide +kernel
  obtain ⟨s, hs, he⟩ := Option.map_eq_some_iff.1 hrun
  exact ⟨s, he, (timeout_returns 30000 s).1 (Reach.of_foldlM _ hs) _ _ he⟩

/-- A player leaves the room of his match, and its timeout returns him to the queue all the same. -/
theorem left_and_returned : ¬∀ s : Recorded Score,
    Reach (record 30000) anyEvent ⟨GameLobby.new, []⟩ s → ∀ now cb,
      expired s.lobby now = some cb → Waits s cb.roomId cb.p1 ∧ Waits s cb.roomId cb.p2 := by
  intro h
  have hrun : (([.enterQueue "ann" (.fin 2) 0, .enterQueue "bob" (.fin 1) 0, .tryMatch 0,
      .rooms (.leaveRoom (some ⟨"ann", "room_001"⟩))] :
      List (Op Score)).foldlM (fun s op => if anyEvent s op then record 30000 s op else none)
        ⟨GameLobby.new, []⟩).map (fun s => (expired s.lobby 30000,
          (s.lobby.roomMgr.rooms.lookup "room_001").map GameRoom.players)) =
      some (some ⟨"room_001", "bob", "ann", .fin 1, .fin 2⟩, some ["bob"]) := by
    decide +kernel
  obtain ⟨s, hs, hstate⟩ := Option.map_eq_some_iff.1 hrun
  obtain ⟨he, hplayers⟩ := Prod.mk.inj hstate
  obtain ⟨room, hr, hp⟩ := (h s (Reach.of_foldlM _ hs) _ _ he).2.member
  rw [hr, Option.map_some, Option.some.injEq] at hplayers
  rw [hplayers] at hp
  simp at hp

end MatchService

end TinRpc
