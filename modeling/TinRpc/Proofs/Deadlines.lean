import TinRpc.Proofs.Routing

/-!
# Deadlines

The loop waits for descriptors and runs callbacks; it ticks no `TimerManager`. So timers are only
added, and a timer that is due stays where it is. Nothing is overdue after an event just where
nothing was when it came (`timers_due`).
-/

namespace TinRpc

open Transition

namespace RoomManager

/-- Every room has the property. -/
def All (P : GameRoom → Prop) (m : RoomManager) : Prop :=
  ∀ r room, m.rooms.lookup r = some room → P room

/-- A timer is in the heap of a room. -/
def HasTimer (r : String) (t : Timer RoomCallback) (m : RoomManager) : Prop :=
  ∃ room, m.rooms.lookup r = some room ∧ t ∈ room.timer.heap

variable {P : GameRoom → Prop} {m : RoomManager} {r : String} {t : Timer RoomCallback}

theorem All.put {roomId : String} {room : GameRoom} {playerRoom : Table String String}
    {counter : UInt64} (h : All P m) (hroom : P room) :
    All P ⟨m.rooms.insert roomId room, playerRoom, counter⟩ := by
  intro r room' hr
  rw [AList.lookup_insert_if] at hr
  split_ifs at hr
  · exact Option.some.inj hr ▸ hroom
  · exact h r room' hr

theorem All.atRoom {f : GameRoom → GameRoom} (h : All P m) (hf : ∀ room, P room → P (f room))
    (roomId : String) : All P (m.atRoom roomId f) := by
  intro r room hr
  rw [RoomManager.atRoom, AList.lookup_modify] at hr
  split_ifs at hr
  · obtain ⟨room', hr', rfl⟩ := Option.map_eq_some_iff.1 hr
    exact hf room' (h r room' hr')
  · exact h r room hr

/-- A property of rooms that what requests do at a time does not change. -/
structure Stable (now : ℤ) (P : GameRoom → Prop) : Prop where
  created : ∀ rid owner maxPlayers, P { GameRoom.new rid owner maxPlayers with
    timer := (({} : TimerManager RoomCallback).schedule (steady now) kDefaultRoomTimeoutMs
      (some .timeout)).1 }
  moved : ∀ room players state, P room → P { room with players := players, state := state }
  changed : ∀ f, RoomServiceImpl.Change now f → ∀ room, P room → P (f room)

section Stable

variable {now : ℤ} (hP : Stable now P)
include hP

theorem Stable.createRoom (h : All P m) (p : String) (maxPlayers : Int32) :
    All P (m.createRoom p maxPlayers kDefaultRoomTimeoutMs (steady now)).1 := by
  rcases m.createRoom_cases p maxPlayers kDefaultRoomTimeoutMs (steady now) with
    ⟨-, he⟩ | ⟨-, timer, ht, he⟩
  · rw [he]
    exact h
  · rw [he, ht]
    exact h.put (hP.created _ _ _)

theorem Stable.joinRoom (h : All P m) (roomId p : String) : All P (m.joinRoom roomId p).1 := by
  rcases m.joinRoom_cases roomId p with ⟨he, -⟩ | ⟨room, hr, -, -, he⟩
  · rw [he]
    exact h
  · rw [he]
    refine h.put ?_
    have hroom := h roomId room hr
    unfold GameRoom.addPlayer
    split_ifs
    · exact hroom
    · exact hroom
    · exact hroom
    · exact hP.moved room _ _ hroom

theorem Stable.leaveRoom (h : All P m) (roomId p : String) : All P (m.leaveRoom roomId p).1 := by
  rcases m.leaveRoom_cases roomId p with ⟨he, -⟩ | ⟨room, state, hr, -, he⟩
  · rw [he]
    exact h
  · rw [he]
    exact h.put (hP.moved room _ state (h roomId room hr))

theorem Stable.startGame (h : All P m) (roomId p : String) : All P (m.startGame roomId p).1 := by
  rcases m.startGame_cases roomId p with ⟨he, -⟩ | ⟨room, hr, -, -, he⟩
  · rw [he]
    exact h
  · rw [he]
    exact h.put (hP.moved room room.players .playing (h roomId room hr))

end Stable

end RoomManager

namespace GameLobby

open RoomManager

variable {E : Type} {P : GameRoom → Prop} {now : ℤ} {g : GameLobby E}

theorem all_onMatchFound (hP : Stable now P) (h : All P g.roomMgr) (m : Matched E) :
    All P (g.onMatchFound now m).1.roomMgr := by
  have hcreated := hP.createRoom h m.p1 2
  unfold onMatchFound
  simp only []
  split
  · exact hP.joinRoom (hcreated.atRoom (hP.changed _ .waiting) _) _ _
  · exact hcreated

theorem all_onMatches (hP : Stable now P) : ∀ (ms : List (Matched E)) {g : GameLobby E},
    All P g.roomMgr → All P (onMatches now ms g).1.roomMgr
  | [], _, h => h
  | m :: ms, _, h => all_onMatches hP ms (all_onMatchFound hP h m)

theorem all_handle [Doubles E] (hP : Stable now P) (h : All P g.roomMgr) (metrics : Metrics)
    (r : LobbyRequest E) : All P (g.handle now metrics r).state.roomMgr :=
  handle_rule h (fun req n _ _ => hP.createRoom h req.playerId n) (hP.joinRoom h) (hP.leaveRoom h)
    (hP.startGame h) (fun _ roomId f hm hf => hm.atRoom (hP.changed f hf) roomId)
    fun _ _ => all_onMatches hP _ h

theorem all_drop (hP : Stable now P) (h : All P g.roomMgr) (p : String) :
    All P (g.drop p).1.roomMgr :=
  drop_rule h fun roomId => hP.leaveRoom h roomId p

/-- A match arms its timer for later, and takes none off. -/
theorem timer_onMatchFound (now : ℤ) (m : Matched E) (t : Timer (MatchTimeout E)) :
    (t ∈ g.timer.heap → t ∈ (g.onMatchFound now m).1.timer.heap) ∧
      (t ∈ (g.onMatchFound now m).1.timer.heap → t ∈ g.timer.heap ∨ steady now < t.deadline) := by
  unfold onMatchFound
  simp only []
  split
  · rw [TimerManager.mem_schedule]
    refine ⟨.inr, ?_⟩
    rintro (rfl | h)
    · exact .inr (by show steady now < steady now + 30000 * 1000000; omega)
    · exact .inl h
  · exact ⟨id, .inl⟩

theorem timer_onMatches (now : ℤ) : ∀ (ms : List (Matched E)) {g : GameLobby E}
    (t : Timer (MatchTimeout E)),
    (t ∈ g.timer.heap → t ∈ (onMatches now ms g).1.timer.heap) ∧
      (t ∈ (onMatches now ms g).1.timer.heap → t ∈ g.timer.heap ∨ steady now < t.deadline)
  | [], _, _ => ⟨id, .inl⟩
  | m :: ms, g, t => by
    obtain ⟨hfirst, hfirst'⟩ := timer_onMatchFound now (g := g) m t
    obtain ⟨hrest, hrest'⟩ := timer_onMatches now ms (g := (g.onMatchFound now m).1) t
    exact ⟨fun h => hrest (hfirst h), fun h => (hrest' h).elim hfirst' .inr⟩

theorem timer_handle [Doubles E] (metrics : Metrics) (r : LobbyRequest E)
    (t : Timer (MatchTimeout E)) :
    (t ∈ g.timer.heap → t ∈ (g.handle now metrics r).state.timer.heap) ∧
      (t ∈ (g.handle now metrics r).state.timer.heap →
        t ∈ g.timer.heap ∨ steady now < t.deadline) := by
  cases r with
  | enterMatch req =>
    cases req with
    | none => exact ⟨id, .inl⟩
    | some req =>
      let entered := g.enterQueue now req.playerId req.eloScore
      exact timer_onMatches now _ (g := { entered with
        matchQueue := (entered.matchQueue.tryMatch now).1 }) t
  | cancelMatch req => cases req <;> exact ⟨id, .inl⟩
  | _ => exact ⟨id, .inl⟩

end GameLobby

namespace GameRoom

/-- The room's frame sync, if it has one, is at its first frame, and ticks 20 times a second. -/
def Still (room : GameRoom) : Prop :=
  ∀ fs ∈ room.frameSync, fs.frameNo = 0 ∧ fs.tickIntervalMs = 50

/-- The room stands still, and its timers that are not cancelled are for later. -/
structure Quiet (at_ : ℤ) (room : GameRoom) : Prop where
  still : room.Still
  later : ∀ t ∈ room.timer.heap, t.cancelled = false → at_ < t.deadline

end GameRoom

namespace RoomManager

open GameRoom

variable {now : ℤ}

/-- A started room has a frame sync, the one it had or a new one, and its next tick may be armed. -/
theorem startRoom_cases (now : ℤ) (room : GameRoom) : ∃ fs : FrameSyncManager,
    (fs.frameNo = 0 ∧ fs.tickIntervalMs = 50 ∨
      ∃ old ∈ room.frameSync, fs.frameNo = old.frameNo ∧ fs.tickIntervalMs = old.tickIntervalMs) ∧
    (RoomServiceImpl.startRoom now room = { room with frameSync := some fs } ∨
      RoomServiceImpl.startRoom now room =
        { room with frameSync := some fs }.rescheduleTick (steady now) fs.tickIntervalMs) := by
  obtain ⟨rid, owner, state, players, maxPlayers, timer, _ | old⟩ := room
  · exact ⟨_, .inl ⟨rfl, rfl⟩, .inr rfl⟩
  · rcases hrun : old.running with _ | _
    · refine ⟨{ old.setFrameCallback with running := true }, .inr ⟨old, rfl, rfl, rfl⟩, .inr ?_⟩
      show (if old.running then _ else _) = _
      rw [hrun]
      rfl
    · refine ⟨old.setFrameCallback, .inr ⟨old, rfl, rfl, rfl⟩, .inl ?_⟩
      show (if old.running then _ else _) = _
      rw [hrun]
      rfl

theorem stable_still (now : ℤ) : Stable now Still where
  created rid owner maxPlayers fs hfs := by cases hfs
  moved room players state h := h
  changed f hf room h fs hfs := by
    cases hf with
    | waiting => exact h fs hfs
    | started =>
      obtain ⟨fs', hfs', hstart⟩ := startRoom_cases now room
      have hfirst : fs'.frameNo = 0 ∧ fs'.tickIntervalMs = 50 := by
        rcases hfs' with hnew | ⟨old, hold, hno, hinterval⟩
        · exact hnew
        · rw [hno, hinterval]
          exact h old hold
      rcases hstart with he | he
      all_goals
        rw [he] at hfs
        exact Option.some.inj hfs ▸ hfirst
    | input k p data =>
      obtain ⟨fs', hfs', rfl⟩ := Option.map_eq_some_iff.1 hfs
      exact h fs' hfs'
    | stopped =>
      obtain ⟨fs', hfs', rfl⟩ := Option.map_eq_some_iff.1 hfs
      exact h fs' hfs'

theorem stable_quiet (now : ℤ) : Stable now (Quiet (steady now)) where
  created rid owner maxPlayers := by
    refine ⟨(stable_still now).created rid owner maxPlayers, fun t ht _ => ?_⟩
    obtain rfl := List.mem_singleton.1 ht
    show steady now < steady now + 300000 * 1000000
    omega
  moved room players state h := ⟨h.still, h.later⟩
  changed f hf room h := by
    refine ⟨(stable_still now).changed f hf room h.still, ?_⟩
    have hstill := (stable_still now).changed f hf room h.still
    cases hf with
    | waiting => exact h.later
    | started =>
      obtain ⟨fs, -, he | he⟩ := startRoom_cases now room
      · rw [he]
        exact h.later
      · rw [he] at hstill ⊢
        intro t ht hc
        rcases TimerManager.mem_schedule.1 ht with rfl | ht
        · show steady now < steady now + fs.tickIntervalMs * 1000000
          rw [(hstill fs rfl).2]
          omega
        · exact h.later t ht hc
    | input k p data => exact h.later
    | stopped => exact h.later

variable {m : RoomManager} {r : String} {t : Timer RoomCallback}

theorem HasTimer.fresh {roomId : String} {room : GameRoom} {playerRoom : Table String String}
    {counter : UInt64} (h : HasTimer r t m) (hroom : m.rooms.lookup roomId = none) :
    HasTimer r t ⟨m.rooms.insert roomId room, playerRoom, counter⟩ := by
  obtain ⟨old, hold, ht⟩ := h
  have hr : r ≠ roomId := by
    rintro rfl
    rw [hroom] at hold
    cases hold
  exact ⟨old, (AList.lookup_insert_ne hr).trans hold, ht⟩

theorem HasTimer.put {roomId : String} {room old : GameRoom} {playerRoom : Table String String}
    {counter : UInt64} (h : HasTimer r t m) (hold : m.rooms.lookup roomId = some old)
    (hroom : t ∈ old.timer.heap → t ∈ room.timer.heap) :
    HasTimer r t ⟨m.rooms.insert roomId room, playerRoom, counter⟩ := by
  obtain ⟨room', hr, ht⟩ := h
  by_cases hrid : r = roomId
  · subst hrid
    rw [hold, Option.some.injEq] at hr
    exact ⟨room, AList.lookup_insert _, hroom (hr ▸ ht)⟩
  · exact ⟨room', (AList.lookup_insert_ne hrid).trans hr, ht⟩

theorem HasTimer.atRoom {f : GameRoom → GameRoom} (h : HasTimer r t m)
    (hf : ∀ room : GameRoom, t ∈ room.timer.heap → t ∈ (f room).timer.heap) (roomId : String) :
    HasTimer r t (m.atRoom roomId f) := by
  obtain ⟨room, hr, ht⟩ := h
  have hlookup : (m.atRoom roomId f).rooms.lookup r =
      if r = roomId then (m.rooms.lookup r).map f else m.rooms.lookup r :=
    AList.lookup_modify _ _ _ r
  rw [hr] at hlookup
  split_ifs at hlookup
  · exact ⟨f room, hlookup, hf room ht⟩
  · exact ⟨room, hlookup, ht⟩

/-- What a handler does to a room takes no timer off. -/
theorem timer_changed {now : ℤ} {f : GameRoom → GameRoom} (hf : RoomServiceImpl.Change now f)
    (room : GameRoom) (ht : t ∈ room.timer.heap) : t ∈ (f room).timer.heap := by
  cases hf with
  | started =>
    obtain ⟨fs, -, he | he⟩ := startRoom_cases now room
    · rw [he]
      exact ht
    · rw [he]
      exact TimerManager.mem_schedule.2 (.inr ht)
  | _ => exact ht

theorem HasTimer.createRoom (h : HasTimer r t m) {p : String} (maxPlayers : Int32)
    (timeoutMs at_ : ℤ)
    (hname : m.free p = true → m.rooms.lookup (roomName m.roomIdCounter) = none) :
    HasTimer r t (m.createRoom p maxPlayers timeoutMs at_).1 := by
  rcases m.createRoom_cases p maxPlayers timeoutMs at_ with ⟨-, he⟩ | ⟨hfree, timer, -, he⟩
  · rw [he]
    exact h
  · rw [he]
    exact h.fresh (hname (Option.isNone_iff_eq_none.2 hfree))

theorem HasTimer.joinRoom (h : HasTimer r t m) (roomId p : String) :
    HasTimer r t (m.joinRoom roomId p).1 := by
  rcases m.joinRoom_cases roomId p with ⟨he, -⟩ | ⟨room, hr, -, -, he⟩
  · rw [he]
    exact h
  · rw [he]
    refine h.put hr fun ht => ?_
    unfold GameRoom.addPlayer
    split_ifs <;> exact ht

theorem HasTimer.leaveRoom (h : HasTimer r t m) (roomId p : String) :
    HasTimer r t (m.leaveRoom roomId p).1 := by
  rcases m.leaveRoom_cases roomId p with ⟨he, -⟩ | ⟨room, state, hr, -, he⟩
  · rw [he]
    exact h
  · rw [he]
    exact h.put hr id

theorem HasTimer.startGame (h : HasTimer r t m) (roomId p : String) :
    HasTimer r t (m.startGame roomId p).1 := by
  rcases m.startGame_cases roomId p with ⟨he, -⟩ | ⟨room, hr, -, -, he⟩
  · rw [he]
    exact h
  · rw [he]
    exact h.put hr id

end RoomManager

namespace GameLobby

open RoomManager

variable {E : Type} {g : GameLobby E} {now : ℤ} {rid : String} {t : Timer RoomCallback}

theorem hasTimer_onMatchFound {m : Matched E} (h : HasTimer rid t g.roomMgr)
    (hname : g.roomMgr.free m.p1 = true →
      g.roomMgr.rooms.lookup (roomName g.roomMgr.roomIdCounter) = none) :
    HasTimer rid t (g.onMatchFound now m).1.roomMgr := by
  have hcreated := h.createRoom 2 kDefaultRoomTimeoutMs (steady now) hname
  unfold onMatchFound
  simp only []
  split
  · exact (hcreated.atRoom (timer_changed (.waiting : RoomServiceImpl.Change now _)) _).joinRoom _ _
  · exact hcreated

theorem hasTimer_handle [Doubles E] {metrics : Metrics} {r : LobbyRequest E} (hf : Fine g)
    (hu : NamesUnused g (.request r metrics now)) (h : HasTimer rid t g.roomMgr) :
    HasTimer rid t (g.handle now metrics r).state.roomMgr := by
  refine handle_rule h ?_ h.joinRoom h.leaveRoom h.startGame
    (fun _ roomId _ hm hchange => hm.atRoom (timer_changed hchange) roomId) ?_
  · rintro req n rfl -
    refine h.createRoom n _ _ fun hfree => ?_
    rw [NamesUnused, creates, if_pos hfree] at hu
    exact hu.name
  · rintro req rfl
    have hentered := hf.enterQueue now req.playerId req.eloScore
    exact onMatches_rule (P := fun g => HasTimer rid t g.roomMgr)
      (fun _ _ hname hg => hasTimer_onMatchFound hg hname) _ hentered.rooms
      (hentered.queue.tryMatch now).2.1 hu h

end GameLobby

/-- The deadlines of the timers that are not cancelled. -/
def TimerManager.deadlines {α : Type} (tm : TimerManager α) : List ℤ :=
  (tm.heap.filter fun t => !t.cancelled).map (·.deadline)

theorem TimerManager.mem_deadlines {α : Type} {tm : TimerManager α} {d : ℤ} :
    d ∈ tm.deadlines ↔ ∃ t ∈ tm.heap, t.cancelled = false ∧ t.deadline = d := by
  simp [deadlines, and_assoc]

namespace GameLobby

open RoomManager

variable {E : Type} {g g' : GameLobby E} {now : ℤ}

/-- The deadlines pending in `timer_` and in the rooms. -/
def deadlines (g : GameLobby E) : List ℤ :=
  g.timer.deadlines ++ g.roomMgr.rooms.entries.flatMap fun e => e.2.timer.deadlines

/-- A timer that is not cancelled is pending at its deadline or after it. -/
def Overdue (g : GameLobby E) (now : ℤ) : Prop := ∃ d ∈ g.deadlines, d ≤ steady now

instance (g : GameLobby E) (now : ℤ) : Decidable (g.Overdue now) :=
  inferInstanceAs (Decidable (∃ d ∈ g.deadlines, d ≤ steady now))

theorem mem_deadlines {d : ℤ} : d ∈ g.deadlines ↔
    (∃ t ∈ g.timer.heap, t.cancelled = false ∧ t.deadline = d) ∨
      ∃ r t, HasTimer r t g.roomMgr ∧ t.cancelled = false ∧ t.deadline = d := by
  unfold deadlines
  rw [List.mem_append, TimerManager.mem_deadlines, List.mem_flatMap]
  refine or_congr_right ⟨?_, ?_⟩
  · rintro ⟨⟨r, room⟩, hr, hd⟩
    obtain ⟨t, ht, hc, hd⟩ := TimerManager.mem_deadlines.1 hd
    exact ⟨r, t, ⟨room, AList.mem_lookup_iff.2 hr, ht⟩, hc, hd⟩
  · rintro ⟨r, t, ⟨room, hr, ht⟩, hc, hd⟩
    exact ⟨⟨r, room⟩, AList.mem_lookup_iff.1 hr, TimerManager.mem_deadlines.2 ⟨t, ht, hc, hd⟩⟩

/-- Nothing is overdue, said of each timer. -/
theorem not_overdue (hstill : All GameRoom.Still g.roomMgr) : ¬ g.Overdue now ↔
    (∀ t ∈ g.timer.heap, t.cancelled = false → steady now < t.deadline) ∧
      All (GameRoom.Quiet (steady now)) g.roomMgr := by
  unfold Overdue
  simp only [mem_deadlines, not_exists, not_and, not_le]
  constructor
  · intro h
    exact ⟨fun t ht hc => h _ (.inl ⟨t, ht, hc, rfl⟩), fun r room hr =>
      ⟨hstill r room hr, fun t ht hc => h _ (.inr ⟨r, t, ⟨room, hr, ht⟩, hc, rfl⟩)⟩⟩
  · rintro ⟨hmatches, hrooms⟩ d (⟨t, ht, hc, rfl⟩ | ⟨r, t, ⟨room, hr, ht⟩, hc, rfl⟩)
    · exact hmatches t ht hc
    · exact (hrooms r room hr).later t ht hc

/-- What is overdue stays so as long as no timer is taken off. -/
theorem Overdue.kept (h : g.Overdue now) (hmatches : ∀ t ∈ g.timer.heap, t ∈ g'.timer.heap)
    (hrooms : ∀ r t, HasTimer r t g.roomMgr → HasTimer r t g'.roomMgr) : g'.Overdue now := by
  obtain ⟨d, hd, hdue⟩ := h
  refine ⟨d, mem_deadlines.2 ?_, hdue⟩
  rcases mem_deadlines.1 hd with ⟨t, ht, h⟩ | ⟨r, t, ht, h⟩
  · exact .inl ⟨t, hmatches t ht, h⟩
  · exact .inr ⟨r, t, hrooms r t ht, h⟩

end GameLobby

/-- What the clock reads in an event that reads it. -/
def Event.clock {F : Type} : Event F → Option ℤ
  | .accept _ => none
  | .frame _ _ _ now => some now
  | .close _ now => some now
  | .work _ => none
  | .loop now => some now

namespace GameService

open GameLobby RoomManager

variable {F E : Type} [Platform F] [Doubles E] [GameProto E]
variable {s s' : GameService F (GameLobby E)} {e : Event F} {now : ℤ}

/-- An event at a time that is not before the last event's. -/
def timedStep (st : GameService F (GameLobby E) × ℤ) (e : Event F × ℤ) :
    Option (GameService F (GameLobby E) × ℤ) :=
  if st.2 ≤ e.2 ∧ ∀ now ∈ e.1.clock, now = e.2 then (step st.1 e.1).map fun s => (s, e.2) else none

/-- A run of a newly constructed service, with the time of its last event. -/
def Timed (ok : GameService F (GameLobby E) × ℤ → Event F × ℤ → Prop)
    (st : GameService F (GameLobby E) × ℤ) : Prop :=
  ∃ db accounts players scenes o t,
    Reach timedStep ok (start GameLobby.new db accounts players scenes o, t) st

/-- No pending timer is due when the event comes. -/
def InTime (st : GameService F (GameLobby E) × ℤ) (e : Event F × ℤ) : Prop :=
  ¬ st.1.lobby.Overdue e.2

instance (st : GameService F (GameLobby E) × ℤ) (e : Event F × ℤ) : Decidable (InTime st e) :=
  inferInstanceAs (Decidable (¬ _))

/-- An event asks nothing of the lobby, or it is a request or a disconnect. -/
theorem step_asks (h : step s e = some s') (hclock : ∀ t ∈ e.clock, t = now) :
    s'.lobby = s.lobby ∨
    (∃ r metrics, s.operation e = some (.request r metrics now) ∧
      s'.lobby = (s.lobby.handle now metrics r).state) ∨
    ∃ p, s'.lobby = (s.lobby.drop p).1 := by
  rcases step_operation h with ⟨-, heq⟩ | ⟨op, hop, hstep⟩
  · exact .inl heq
  · cases e with
    | frame fd rid request t =>
      cases request with
      | other method body =>
        obtain rfl := hclock t rfl
        obtain ⟨r, hr, rfl⟩ := Option.map_eq_some_iff.1 hop
        exact .inr (.inl ⟨r, s.metrics, by rw [operation, hr]; rfl, (Option.some.inj hstep).symm⟩)
      | _ => cases hop
    | close fd t =>
      obtain ⟨p, -, rfl⟩ := Option.map_eq_some_iff.1 hop
      exact .inr (.inr ⟨p, (Option.some.inj hstep).symm⟩)
    | _ => cases hop

/-- No frame sync gets past its first frame. -/
theorem still_step (hs : All GameRoom.Still s.lobby.roomMgr) (h : step s e = some s')
    (hclock : ∀ t ∈ e.clock, t = now) : All GameRoom.Still s'.lobby.roomMgr := by
  rcases step_asks h hclock with heq | ⟨r, metrics, -, heq⟩ | ⟨p, heq⟩
  · rw [heq]
    exact hs
  · rw [heq]
    exact all_handle (stable_still now) hs metrics r
  · rw [heq]
    exact all_drop (stable_still now) hs p

/-- What an event arms is for later. -/
theorem overdue_step (hs : All GameRoom.Still s.lobby.roomMgr) (h : step s e = some s')
    (hclock : ∀ t ∈ e.clock, t = now) (hdue : ¬ s.lobby.Overdue now) : ¬ s'.lobby.Overdue now := by
  have hs' := still_step hs h hclock
  obtain ⟨hmatches, hrooms⟩ := (not_overdue hs).1 hdue
  rw [not_overdue hs']
  rcases step_asks h hclock with heq | ⟨r, metrics, -, heq⟩ | ⟨p, heq⟩
  · rw [heq]
    exact ⟨hmatches, hrooms⟩
  · rw [heq]
    refine ⟨fun t ht hc => ?_, all_handle (stable_quiet now) hrooms metrics r⟩
    exact ((timer_handle metrics r t).2 ht).elim (fun hold => hmatches t hold hc) id
  · rw [heq]
    exact ⟨hmatches, all_drop (stable_quiet now) hrooms p⟩

/-- An event takes no timer off. -/
theorem overdue_kept (hf : Fine s.lobby) (hn : NewNames s e) (h : step s e = some s')
    (hclock : ∀ t ∈ e.clock, t = now) (hdue : s.lobby.Overdue now) : s'.lobby.Overdue now := by
  rcases step_asks h hclock with heq | ⟨r, metrics, hop, heq⟩ | ⟨p, heq⟩
  · rw [heq]
    exact hdue
  · rw [heq]
    exact hdue.kept (fun t => (timer_handle metrics r t).1) fun _ _ =>
      hasTimer_handle hf (hn _ (by rw [hop]; rfl))
  · rw [heq]
    exact hdue.kept (fun _ => id) fun _ _ ht => drop_rule ht fun roomId => ht.leaveRoom roomId p

section Runs

variable {ok : GameService F (GameLobby E) × ℤ → Event F × ℤ → Prop}
variable {st st' : GameService F (GameLobby E) × ℤ} {ev : Event F × ℤ}

theorem timedStep_eq_some (h : timedStep st ev = some st') :
    step st.1 ev.1 = some st'.1 ∧ st'.2 = ev.2 ∧ ∀ t ∈ ev.1.clock, t = ev.2 := by
  unfold timedStep at h
  split_ifs at h with htime
  obtain ⟨s, hs, rfl⟩ := Option.map_eq_some_iff.1 h
  exact ⟨hs, rfl, htime.2⟩

/-- What holds of a new lobby and what each allowed event keeps. -/
theorem Timed.rule {P : GameService F (GameLobby E) × ℤ → Prop} (h : Timed ok st)
    (hstart : ∀ st, st.1.lobby = GameLobby.new → P st)
    (hP : ∀ st ev st', P st → ok st ev → timedStep st ev = some st' → P st') : P st := by
  obtain ⟨db, accounts, players, scenes, o, t, h⟩ := h
  exact h.invariant (hstart _ (start_lobby _ _ _ _ _ _)) hP

theorem Timed.serving {ok' : GameService F (GameLobby E) → Event F → Prop} (h : Timed ok st)
    (hok : ∀ st ev, ok st ev → ok' st.1 ev.1) : Serving ok' st.1 := by
  obtain ⟨db, accounts, players, scenes, o, t, h⟩ := h
  refine ⟨db, accounts, players, scenes, o, ?_⟩
  refine h.invariant (P := fun st =>
    Reach step ok' (start GameLobby.new db accounts players scenes o) st.1) .start
      fun st ev st' hr ha he => ?_
  exact hr.next (hok st ev ha) (timedStep_eq_some he).1

theorem still_timed (h : Timed ok st) : All GameRoom.Still st.1.lobby.roomMgr := by
  refine h.rule (P := fun st => All GameRoom.Still st.1.lobby.roomMgr) (fun st hst => ?_)
    fun st ev st' hs _ he => ?_
  · rw [hst]
    intro r room hr
    cases hr
  · obtain ⟨he, -, hclock⟩ := timedStep_eq_some he
    exact still_step hs he hclock

end Runs

/-- In a run whose events all come before the deadlines of the pending timers, nothing is overdue
after any of them. As long as new rooms get unused names, an event that does not come before them
leaves something overdue. No started game gets past its first frame, whatever the events are. -/
theorem timers_due :
    (∀ st : GameService F (GameLobby E) × ℤ, Timed InTime st → ¬ st.1.lobby.Overdue st.2) ∧
    (∀ (st st' : GameService F (GameLobby E) × ℤ) (e : Event F × ℤ),
      Timed (fun st e => NewNames st.1 e.1) st → NewNames st.1 e.1 → timedStep st e = some st' →
      (¬ st'.1.lobby.Overdue st'.2 ↔ InTime st e)) ∧
    ∀ st : GameService F (GameLobby E) × ℤ, Timed anyEvent st →
      ∀ r room, st.1.lobby.roomMgr.rooms.lookup r = some room →
        ∀ fs ∈ room.frameSync, fs.frameNo = 0 := by
  refine ⟨fun st h => ?_, fun st st' e h hn he => ?_, fun st h r room hr fs hfs => ?_⟩
  · have hall : All GameRoom.Still st.1.lobby.roomMgr ∧ ¬ st.1.lobby.Overdue st.2 := by
      refine h.rule (P := fun st => All GameRoom.Still st.1.lobby.roomMgr ∧
        ¬ st.1.lobby.Overdue st.2) (fun st hst => ?_) fun st e st' ⟨hs, _⟩ hin he => ?_
      · rw [hst]
        refine ⟨fun r room hr => (by cases hr), ?_⟩
        rintro ⟨d, hd, -⟩
        cases hd
      · obtain ⟨hstep, htime, hclock⟩ := timedStep_eq_some he
        rw [htime]
        exact ⟨still_step hs hstep hclock, overdue_step hs hstep hclock hin⟩
    exact hall.2
  · obtain ⟨hstep, htime, hclock⟩ := timedStep_eq_some he
    have hf : Fine st.1.lobby := fine_reach (lobby_reach (h.serving fun _ _ => id))
    rw [htime]
    exact ⟨fun hafter hdue => hafter (overdue_kept hf hn hstep hclock hdue),
      overdue_step (still_timed h) hstep hclock⟩
  · exact (still_timed h r room hr fs hfs).1

/-- The run of a list of events with their times. -/
def serveTimed (ok : GameService ℚ (GameLobby Score) × ℤ → Event ℚ × ℤ → Prop)
    [∀ st e, Decidable (ok st e)] (es : List (Event ℚ × ℤ)) :
    Option (GameService ℚ (GameLobby Score) × ℤ) :=
  es.foldlM (fun st e => if ok st e then timedStep st e else none)
    (start GameLobby.new twoAccounts true true true {}, 0)

theorem timed_of_serveTimed {ok : GameService ℚ (GameLobby Score) × ℤ → Event ℚ × ℤ → Prop}
    [∀ st e, Decidable (ok st e)] {es : List (Event ℚ × ℤ)}
    {st : GameService ℚ (GameLobby Score) × ℤ} (h : serveTimed ok es = some st) : Timed ok st :=
  ⟨twoAccounts, true, true, true, {}, 0, Reach.of_foldlM es h⟩

/-- The room of `ann` is about to run out of time, and nothing is overdue. -/
theorem timers_due_room : ∃ st : GameService ℚ (GameLobby Score) × ℤ, st.2 = 299999 ∧
    st.1.lobby.deadlines = [300000 * 1000000] ∧ ¬ st.1.lobby.Overdue st.2 := by
  have hplay : (serveTimed InTime [(.accept 5, 0), (.frame 5 1 (.other "CreateRoom" annBody) 0, 0),
      (.frame 5 2 (.other "GetMetrics" []) 299999, 299999)]).map (fun st =>
        decide (st.2 = 299999 ∧ st.1.lobby.deadlines = [300000 * 1000000])) = some true := by
    decide +kernel
  obtain ⟨st, hst, hstate⟩ := Option.map_eq_some_iff.1 hplay
  obtain ⟨htime, hdeadlines⟩ := of_decide_eq_true hstate
  exact ⟨st, htime, hdeadlines, timers_due.1 st (timed_of_serveTimed hst)⟩

/-- `ann` starts a game. Minutes later the first tick and the end of the room are still pending, and
the game is at its first frame. -/
theorem timers_stay : ∃ st : GameService ℚ (GameLobby Score) × ℤ, Timed anyEvent st ∧
    st.2 = 400000 ∧ st.1.lobby.deadlines = [50 * 1000000, 300000 * 1000000] ∧
    st.1.lobby.Overdue st.2 ∧
    ((st.1.lobby.roomMgr.rooms.lookup "room_001").bind fun room =>
      room.frameSync.map fun fs => (room.state, fs.running, fs.frameNo)) =
        some (.playing, true, 0) := by
  have hplay : (serveTimed anyEvent [(.accept 5, 0),
      (.frame 5 1 (.other "CreateRoom" annBody) 0, 0),
      (.frame 5 2 (.other "StartGame" annInRoomBody) 0, 0),
      (.frame 5 3 (.other "GetMetrics" []) 400000, 400000)]).map (fun st =>
        decide (st.2 = 400000 ∧ st.1.lobby.deadlines = [50 * 1000000, 300000 * 1000000] ∧
          st.1.lobby.Overdue st.2 ∧
          ((st.1.lobby.roomMgr.rooms.lookup "room_001").bind fun room =>
            room.frameSync.map fun fs => (room.state, fs.running, fs.frameNo)) =
              some (.playing, true, 0))) = some true := by
    decide +kernel
  obtain ⟨st, hst, hstate⟩ := Option.map_eq_some_iff.1 hplay
  exact ⟨st, timed_of_serveTimed hst, of_decide_eq_true hstate⟩

end GameService

end TinRpc
