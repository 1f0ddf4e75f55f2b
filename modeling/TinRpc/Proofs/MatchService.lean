import TinRpc.MatchService
import TinRpc.Proofs.Notices

/-!
# What the match service does to rooms

A match opens a room under the next name where its first player is in none, and touches no other
room (`onMatchSuccess_rooms`). A timer that is due takes the room of its match out, unless the game
is on.
-/

namespace TinRpc

open Transition

namespace MatchService

variable {E : Type} {g : GameLobby E} {now roomTimeoutMs : ℤ} {r : String} {m : Matched E}

/-- What a match does: nothing where its first player is in a room, and else it opens a room with
him, and the second player where he may join. -/
theorem onMatchSuccess_cases (roomTimeoutMs : ℤ) (g : GameLobby E) (now : ℤ)
    (m : Matched E) :
    g.roomMgr.free m.p1 = false ∧ onMatchSuccess roomTimeoutMs g now m = g ∨
      g.roomMgr.free m.p1 = true ∧ ∃ mgr room,
        onMatchSuccess roomTimeoutMs g now m = { g with
          roomMgr := mgr
          timer := (g.timer.schedule (steady now) roomTimeoutMs
            (some ⟨RoomManager.roomName g.roomMgr.roomIdCounter, m.p1, m.p2, m.s1, m.s2⟩)).1 } ∧
        mgr.roomIdCounter = g.roomMgr.roomIdCounter + 1 ∧
        mgr.rooms.lookup (RoomManager.roomName g.roomMgr.roomIdCounter) = some room ∧
        (∀ r ≠ RoomManager.roomName g.roomMgr.roomIdCounter,
          mgr.rooms.lookup r = g.roomMgr.rooms.lookup r) ∧
        room.ownerId = m.p1 ∧ room.state = .waiting ∧
        (room.players = [m.p1] ∨ room.players = [m.p1, m.p2]) ∧
        (g.roomMgr.free m.p2 = true → m.p1 ≠ m.p2 → room.players = [m.p1, m.p2]) := by
  unfold onMatchSuccess
  rcases g.roomMgr.createRoom_cases m.p1 2 kDefaultRoomTimeoutMs (steady now) with
    ⟨hin, he⟩ | ⟨hfree, timer, -, he⟩
  · rw [he]
    refine .inl ⟨?_, rfl⟩
    rw [RoomManager.free, Option.isNone_eq_false_iff]
    exact hin
  rw [he]
  refine .inr ⟨by rw [RoomManager.free, hfree]; rfl, ?_⟩
  simp only [Result.createSuccess, if_true]
  have hopened : ∀ r, (RoomManager.atRoom ⟨g.roomMgr.rooms.insert _ _, g.roomMgr.playerRoom.insert
      m.p1 (RoomManager.roomName g.roomMgr.roomIdCounter), g.roomMgr.roomIdCounter + 1⟩
        (RoomManager.roomName g.roomMgr.roomIdCounter) (·.setState .waiting)).rooms.lookup r =
      if r = RoomManager.roomName g.roomMgr.roomIdCounter
      then some ({ GameRoom.new (RoomManager.roomName g.roomMgr.roomIdCounter) m.p1 2 with
        timer }.setState .waiting) else g.roomMgr.rooms.lookup r :=
    fun r => (AList.lookup_modify _ _ _ _).trans <| by
      split_ifs with hr
      · rw [hr, AList.lookup_insert]
        rfl
      · exact AList.lookup_insert_ne hr
  generalize hmo : RoomManager.atRoom _ _ _ = mo at hopened ⊢
  have hcounter : mo.roomIdCounter = g.roomMgr.roomIdCounter + 1 := by rw [← hmo]; rfl
  have hindex : mo.playerRoom = g.roomMgr.playerRoom.insert m.p1
    (RoomManager.roomName g.roomMgr.roomIdCounter) := by rw [← hmo]; rfl
  have hroom := (hopened (RoomManager.roomName g.roomMgr.roomIdCounter)).trans (if_pos rfl)
  rcases RoomManager.joinRoom_stored hroom m.p2 with ⟨he, hno⟩ | ⟨-, he⟩
  · refine ⟨mo, _, by rw [he], hcounter, hroom, fun r hr => (hopened r).trans (if_neg hr), rfl, rfl,
      .inl rfl, fun hfree2 hne => ?_⟩
    rw [RoomManager.free, Option.isNone_iff_eq_none] at hfree2
    have hnone : mo.playerRoom.lookup m.p2 = none := by
      rw [hindex, AList.lookup_insert_ne hne.symm, hfree2]
    have := hno hnone
    rw [GameLobby.addPlayer_second hne] at this
    cases this
  · rw [he]
    refine ⟨_, _, rfl, hcounter, AList.lookup_insert _, fun r hr => ?_, rfl, rfl, .inr rfl,
      fun _ _ => rfl⟩
    exact (AList.lookup_insert_ne hr).trans ((hopened r).trans (if_neg hr))

/-- Rooms that keep their names do not change in a round of matching. -/
theorem onMatches_rooms (roomTimeoutMs now : ℤ) (r : String) :
    ∀ (ms : List (Matched E)) (g : GameLobby E),
      (onMatches roomTimeoutMs now ms g).roomMgr.rooms.lookup r = g.roomMgr.rooms.lookup r ∨
      ∃ k < ms.length, r = RoomManager.roomName (g.roomMgr.roomIdCounter + UInt64.ofNat k)
  | [], g => .inl rfl
  | m :: ms, g => by
    unfold onMatches
    rcases onMatchSuccess_cases roomTimeoutMs g now m with ⟨-, he⟩ |
      ⟨-, mgr, room, he, hc, -, hothers, -⟩
    · rw [he]
      rcases onMatches_rooms roomTimeoutMs now r ms g with h | ⟨k, hk, h⟩
      · exact .inl h
      · exact .inr ⟨k, by rw [List.length_cons]; omega, h⟩
    · rw [he]
      rcases onMatches_rooms roomTimeoutMs now r ms { g with
        roomMgr := mgr
        timer := (g.timer.schedule (steady now) roomTimeoutMs (some
          ⟨RoomManager.roomName g.roomMgr.roomIdCounter, m.p1, m.p2, m.s1, m.s2⟩)).1 } with
        h | ⟨k, hk, h⟩
      · by_cases hr : r = RoomManager.roomName g.roomMgr.roomIdCounter
        · refine .inr ⟨0, by simp, ?_⟩
          rw [hr, show UInt64.ofNat 0 = 0 from rfl, UInt64.add_zero]
        · exact .inl (h.trans (hothers r hr))
      · refine .inr ⟨k + 1, by rw [List.length_cons]; omega, ?_⟩
        rw [h, hc, Nat.add_comm k 1, UInt64.ofNat_add, ← UInt64.add_assoc]
        rfl

/-- The match whose timer a round takes off while its room is there and the game is not on. -/
def expired (g : GameLobby E) (now : ℤ) : Option (MatchTimeout E) :=
  (g.timer.popDue (steady now)).bind fun r =>
    if r.1.cancelled then none
    else r.1.callback.filter fun cb =>
      (g.roomMgr.rooms.lookup cb.roomId).any fun room => room.state ≠ .playing

theorem expired_eq_some {cb : MatchTimeout E} : expired g now = some cb ↔
    ∃ t tm room, g.timer.popDue (steady now) = some (t, tm) ∧ t.cancelled = false ∧
      t.callback = some cb ∧ g.roomMgr.rooms.lookup cb.roomId = some room ∧
      room.state ≠ .playing := by
  unfold expired
  rw [Option.bind_eq_some_iff]
  constructor
  · rintro ⟨⟨t, tm⟩, hpop, h⟩
    split_ifs at h with hlive
    rw [Option.filter_eq_some_iff, Option.any_eq_true] at h
    obtain ⟨hcb, room, hr, hs⟩ := h
    exact ⟨t, tm, room, hpop, by simpa using hlive, hcb, hr, by simpa using hs⟩
  · rintro ⟨t, tm, room, hpop, hlive, hcb, hr, hs⟩
    refine ⟨(t, tm), hpop, ?_⟩
    rw [if_neg (by simp [hlive]), Option.filter_eq_some_iff, Option.any_eq_true]
    exact ⟨hcb, room, hr, by simpa using hs⟩

theorem fire_of_popDue [Doubles E] {t : Timer (MatchTimeout E)}
    {tm : TimerManager (MatchTimeout E)} (h : g.timer.popDue (steady now) = some (t, tm)) :
    fire g now = match t.cancelled, t.callback with
      | false, some cb => { g with timer := tm }.matchTimeout now cb
      | _, _ => { g with timer := tm } := by
  rcases hlive : t.cancelled with _ | _
  · rcases hcb : t.callback with _ | cb
    · simp only [fire, h, hlive, hcb]
    · simp only [fire, h, hlive, hcb]
  · simp only [fire, h, hlive]

/-- A round takes out the room of a match whose time has run out, and puts its players into the
queue. -/
theorem fire_expired [Doubles E] {cb : MatchTimeout E} (h : expired g now = some cb) :
    ∃ tm, (∀ t ∈ tm.heap, t ∈ g.timer.heap) ∧ fire g now = ({ g with
      timer := tm
      roomMgr := (g.roomMgr.removeRoom cb.roomId).1 }.enterQueue now cb.p1
        cb.score1).enterQueue now cb.p2 cb.score2 := by
  obtain ⟨t, tm, room, hpop, hlive, hcb, hr, hs⟩ := expired_eq_some.1 h
  obtain ⟨hheap, -⟩ := TimerManager.popDue_some hpop
  refine ⟨tm, fun u hu => hheap ▸ List.mem_cons_of_mem _ hu, ?_⟩
  unfold fire
  simp only [hpop, hlive, hcb, GameLobby.matchTimeout, RoomManager.getRoom, hr, if_neg hs]

/-- Else at most a timer comes off. -/
theorem fire_unexpired [Doubles E] (h : expired g now = none) :
    ∃ timer, fire g now = { g with timer } ∧ ∀ t ∈ timer.heap, t ∈ g.timer.heap := by
  rcases hpop : g.timer.popDue (steady now) with _ | ⟨t, tm⟩
  · exact ⟨g.timer, by simp only [fire, hpop], fun t h => h⟩
  obtain ⟨hheap, -⟩ := TimerManager.popDue_some hpop
  refine ⟨tm, ?_, fun u hu => hheap ▸ List.mem_cons_of_mem _ hu⟩
  rw [fire_of_popDue hpop]
  rcases hlive : t.cancelled with _ | _
  · rcases hcb : t.callback with _ | cb
    · rfl
    · unfold GameLobby.matchTimeout RoomManager.getRoom
      simp only []
      rcases hr : g.roomMgr.rooms.lookup cb.roomId with _ | room
      · rfl
      · have hs : room.state = .playing := by
          by_contra hs
          have := expired_eq_some.2 ⟨t, tm, room, hpop, hlive, hcb, hr, hs⟩
          rw [h] at this
          cases this
        simp only [hs, if_true]
  · rfl

/-- `Tick` drops the cancelled timers at the top and goes through the rounds of its loop. -/
theorem tickLoop_rounds [Doubles E] (now : ℤ) : ∀ (n : ℕ) (g : GameLobby E),
    g.tickLoop now n = (fun g => fire g now)^[n] g
  | 0, g => rfl
  | n + 1, g => by
    rw [Function.iterate_succ_apply, ← tickLoop_rounds now n, GameLobby.tickLoop]
    rcases hpop : g.timer.popDue (steady now) with _ | ⟨t, tm⟩
    · have hfire : fire g now = g := by simp only [fire, hpop]
      rw [hfire]
      cases n with
      | zero => rfl
      | succ n =>
        rw [GameLobby.tickLoop, hpop]
    · rw [fire_of_popDue hpop]
      rcases hlive : t.cancelled with _ | _
      · rcases hcb : t.callback with _ | cb
        · simp only [hlive, hcb]
        · simp only [hlive, hcb]
      · simp only [hlive]

section Runs

theorem onMatchFound_eq (m : Matched E) :
    (g.onMatchFound now m).1 = onMatchSuccess 30000 g now m := by
  unfold GameLobby.onMatchFound onMatchSuccess
  simp only []
  split <;> rfl

theorem onMatches_eq : ∀ (ms : List (Matched E)) (g : GameLobby E),
    (GameLobby.onMatches now ms g).1 = onMatches 30000 now ms g
  | [], g => rfl
  | m :: ms, g => by
    unfold GameLobby.onMatches onMatches
    rw [← onMatchFound_eq]
    exact onMatches_eq ms _

variable [Doubles E] {g' : GameLobby E}

omit [Doubles E] in
/-- The timers of rooms are driven by `CheckRoomTimeout` alone. -/
def Whole (g : GameLobby E) : Op E → Prop
  | .rooms op => RoomServiceImpl.Whole g.roomMgr op
  | _ => True

theorem reach_step (op : Op E) (h : Whole g op) (hg : (perform roomTimeoutMs g op).1 = g') :
    Reach (step roomTimeoutMs) Whole g g' :=
  .one op h (congrArg some hg)

theorem reach_rooms (op : RoomServiceImpl.Op) (h : RoomServiceImpl.Whole g.roomMgr op) :
    Reach (step roomTimeoutMs) Whole g
      { g with roomMgr := (RoomServiceImpl.perform g.roomMgr op).1 } :=
  reach_step (.rooms op) h rfl

theorem reach_fire (n : ℕ) :
    Reach (step roomTimeoutMs) Whole g ((fun g => fire g now)^[n] g) := by
  induction n with
  | zero => exact .start
  | succ n ih =>
    rw [Function.iterate_succ_apply']
    exact ih.trans (reach_step (.fire now) trivial rfl)

/-- What happens in a lobby happens in a match service, one thing after another, where a match is to
be accepted in 30 seconds. -/
theorem reach_lobby {op : GameLobby.Op E} (h : GameLobby.step g op = some g') :
    Reach (step 30000) Whole g g' := by
  cases op with
  | request r metrics now =>
    obtain rfl := Option.some.inj h
    cases r with
    | createRoom req => exact reach_rooms (.createRoom req now) trivial
    | joinRoom req => exact reach_rooms (.joinRoom req) trivial
    | leaveRoom req => exact reach_rooms (.leaveRoom req) trivial
    | sendMessage req => exact reach_rooms (.sendMessage req now) trivial
    | getRoomList parsed => exact reach_rooms (.getRoomList parsed) trivial
    | startGame req => exact reach_rooms (.startGame req now) trivial
    | sendInput req => exact reach_rooms (.sendInput req) trivial
    | stopGame req => exact reach_rooms (.stopGame req) trivial
    | getMetrics => exact .start
    | enterMatch req =>
      cases req with
      | none => exact .start
      | some req =>
        exact (reach_step (.enterQueue req.playerId req.eloScore now) trivial rfl).trans
          (reach_step (.tryMatch now) trivial (onMatches_eq _ _).symm)
    | cancelMatch req =>
      cases req with
      | none => exact .start
      | some p => exact reach_step (.cancelMatch p) trivial rfl
  | drop p =>
    obtain rfl := Option.some.inj h
    refine (reach_rooms (.disconnect p) trivial).trans (reach_step (.cancelMatch p) trivial ?_)
    unfold GameLobby.drop
    simp only [perform, RoomServiceImpl.perform, RoomServiceImpl.disconnect]
  | enterQueue p score now =>
    exact reach_step (.enterQueue p score now) trivial (Option.some.inj h)
  | tryMatch now =>
    obtain rfl := Option.some.inj h
    exact reach_step (.tryMatch now) trivial (onMatches_eq _ _).symm
  | tick now =>
    obtain rfl := Option.some.inj h
    unfold GameLobby.tick
    simp only []
    rw [tickLoop_rounds]
    exact (reach_step .clean trivial rfl).trans (reach_fire _)
  | checkRoomTimeout now =>
    obtain rfl := Option.some.inj h
    exact reach_rooms (.manager (.checkRoomTimeout (steady now))) trivial

theorem reach_of_lobby {ok : GameLobby E → GameLobby.Op E → Prop} {g₀ : GameLobby E}
    (h : Reach GameLobby.step ok g₀ g) : Reach (step 30000) Whole g₀ g := by
  induction h with
  | start => exact .start
  | next _ _ hs ih => exact ih.trans (reach_lobby hs)

end Runs

end MatchService

end TinRpc
