import TinRpc.Lib.Reach
import TinRpc.Proofs.Lobby
import TinRpc.RoomRuns

/-!
# What an operation does to each room

Whatever happens, the room under a name stays as it was, is new, gets or loses one player, is
started or stopped, has its timers driven, or goes (`effect_perform`). Everything about runs of the
room service is derived from this.
-/

namespace TinRpc

namespace GameRoom

variable {r : GameRoom} {p : String}

/-- What taking a timer off and running a callback keep, driving the timers keeps. -/
theorem tickLoop_rule {P : GameRoom → Prop} {now : ℤ}
    (timer : ∀ r timer, P r → P { r with timer }) (call : ∀ r cb, P r → P (r.runCallback now cb)) :
    ∀ (n : ℕ) {r : GameRoom}, P r → P (r.tickLoop now n)
  | 0, _, h => h
  | n + 1, r, h => by
    unfold tickLoop
    rcases r.timer.popDue now with _ | ⟨t, tm⟩
    · exact h
    simp only []
    split
    · exact tickLoop_rule timer call n (call _ _ (timer r tm h))
    · exact tickLoop_rule timer call n (timer r tm h)

theorem tick_owner (r : GameRoom) (now : ℤ) : (r.tick now).ownerId = r.ownerId := by
  refine tickLoop_rule (P := fun r' => r'.ownerId = r.ownerId) (fun _ _ h => h) (fun r' cb h => ?_)
    _ rfl
  cases cb with
  | timeout =>
    simp only [runCallback]
    split_ifs
    · exact h
    · exact h
  | frameTick intervalMs =>
    simp only [runCallback]
    split
    · exact h
    · split_ifs
      · exact h
      · exact h

/-- What a callback does to the state of its room. -/
theorem runCallback_state (r : GameRoom) (now : ℤ) (cb : RoomCallback) :
    (r.runCallback now cb).state = r.state ∨
      cb = .timeout ∧ r.state ≠ .playing ∧ (r.runCallback now cb).state = .destroyed := by
  cases cb with
  | timeout =>
    unfold runCallback
    split_ifs with h
    · exact .inl rfl
    · exact .inr ⟨rfl, h, rfl⟩
  | frameTick intervalMs =>
    refine .inl ?_
    simp only [runCallback]
    split
    · rfl
    · split_ifs <;> rfl

/-- The timeout of a room is due. -/
def TimeoutDue (r : GameRoom) (now : ℤ) : Prop :=
  ∃ t ∈ r.timer.heap, t.cancelled = false ∧ t.callback = some .timeout ∧ t.deadline ≤ now

theorem timeoutDue_runCallback {now at_ : ℤ} {cb : RoomCallback}
    (h : (r.runCallback at_ cb).TimeoutDue now) : r.TimeoutDue now := by
  cases cb with
  | timeout =>
    simp only [runCallback] at h
    split_ifs at h
    · exact h
    · exact h
  | frameTick intervalMs =>
    simp only [runCallback] at h
    split at h
    · exact h
    · split_ifs at h
      · obtain ⟨t, ht, hc, hcb, hd⟩ := h
        rcases TimerManager.mem_pushHeap.1 ht with rfl | ht
        · cases hcb
        · exact ⟨t, ht, hc, hcb, hd⟩
      · exact h

/-- Timers leave a room's state, or a due timeout marks a room that is not PLAYING. -/
theorem tickLoop_state (now : ℤ) : ∀ (n : ℕ) (r : GameRoom), (r.tickLoop now n).state = r.state ∨
    r.state ≠ .playing ∧ (r.tickLoop now n).state = .destroyed ∧ r.TimeoutDue now
  | 0, r => .inl rfl
  | n + 1, r => by
    unfold tickLoop
    rcases hpop : r.timer.popDue now with _ | ⟨t, tm⟩
    · exact .inl rfl
    obtain ⟨hheap, hdeadline⟩ := TimerManager.popDue_some hpop
    have hdue : GameRoom.TimeoutDue { r with timer := tm } now → r.TimeoutDue now := by
      rintro ⟨u, hu, hrest⟩
      exact ⟨u, hheap ▸ List.mem_cons_of_mem _ hu, hrest⟩
    simp only []
    split
    · next cb hlive hcb =>
      rcases runCallback_state { r with timer := tm } now cb with hs | ⟨rfl, hs, hd⟩
      · rcases tickLoop_state now n (runCallback { r with timer := tm } now cb) with ht | ⟨hp, ht, ho⟩
        · exact .inl (ht.trans hs)
        · exact .inr ⟨by rwa [hs] at hp, ht, hdue (timeoutDue_runCallback ho)⟩
      · refine .inr ⟨hs, ?_, t, hheap ▸ List.mem_cons_self, hlive, hcb, hdeadline⟩
        rcases tickLoop_state now n (runCallback { r with timer := tm } now .timeout) with ht | ht
        · exact ht.trans hd
        · exact ht.2.1
    · rcases tickLoop_state now n { r with timer := tm } with ht | ⟨hp, ht, ho⟩
      · exact .inl ht
      · exact .inr ⟨hp, ht, hdue ho⟩

theorem tick_state (r : GameRoom) (now : ℤ) : (r.tick now).state = r.state ∨
    r.state ≠ .playing ∧ (r.tick now).state = .destroyed ∧ r.TimeoutDue now := by
  rcases tickLoop_state now _ { r with timer := r.timer.cleanCancelled } with h | ⟨hp, hd, ho⟩
  · exact .inl h
  · refine .inr ⟨hp, hd, ?_⟩
    obtain ⟨t, ht, hrest⟩ := ho
    exact ⟨t, (List.dropWhile_suffix _).subset ht, hrest⟩

end GameRoom

namespace RoomManager

variable {m : RoomManager} {roomId playerId r : String}

theorem createRoom_rooms (m : RoomManager) (playerId : String) (maxPlayers : Int32)
    (timeoutMs now : ℤ) :
    m.createRoom playerId maxPlayers timeoutMs now = (m, .failure .playerAlreadyInRoom) ∨
      m.playerRoom.lookup playerId = none ∧
      (m.createRoom playerId maxPlayers timeoutMs now).2 =
        .createSuccess (roomName m.roomIdCounter) ∧
      ∃ timer, (m.createRoom playerId maxPlayers timeoutMs now).1.rooms =
        m.rooms.insert (roomName m.roomIdCounter)
          { GameRoom.new (roomName m.roomIdCounter) playerId maxPlayers with timer } := by
  rcases createRoom_cases m playerId maxPlayers timeoutMs now with ⟨-, he⟩ | ⟨hp, timer, -, he⟩
  · exact .inl he
  · rw [he]
    exact .inr ⟨hp, rfl, timer, rfl⟩

/-- A player joins a room, or nothing changes; whoever is in no room joins one that takes him. -/
theorem joinRoom_stored {room : GameRoom} (hr : m.rooms.lookup roomId = some room) (p : String) :
    (m.joinRoom roomId p).1 = m ∧
        (m.playerRoom.lookup p = none → (room.addPlayer p).2.ok = false) ∨
      (room.addPlayer p).2.ok = true ∧ (m.joinRoom roomId p).1 = { m with
        rooms := m.rooms.insert roomId { room with players := room.players ++ [p] }
        playerRoom := m.playerRoom.insert p roomId } := by
  unfold joinRoom
  rw [hr]
  simp only []
  split_ifs with hp hok
  · refine .inl ⟨rfl, fun hnone => ?_⟩
    rw [hnone] at hp
    cases hp
  · exact .inr ⟨hok, by rw [(GameRoom.addPlayer_ok hok).1]⟩
  · exact .inl ⟨rfl, fun _ => by simpa using hok⟩

/-- A cleanup takes out the rooms that are DESTROYED. -/
theorem cleanupLoop_lookup (r : String) : ∀ (es : List (Sigma fun _ : String => GameRoom))
    {m : RoomManager}, (∀ e ∈ es, m.rooms.lookup e.1 = some e.2) → (es.map Sigma.fst).Nodup →
    (m.cleanupLoop es).1.rooms.lookup r =
      if ∃ e ∈ es, e.1 = r ∧ e.2.state = .destroyed then none else m.rooms.lookup r
  | [], _, _, _ => by simp [cleanupLoop]
  | ⟨roomId, room⟩ :: rest, m, he, hn => by
    obtain ⟨hroom, hrest⟩ := List.forall_mem_cons.1 he
    obtain ⟨hnot, hn⟩ := List.nodup_cons.1 hn
    have hother : ∀ e ∈ rest, (m.rooms.erase roomId).lookup e.1 = some e.2 := fun e hin => by
      rw [AList.lookup_erase_ne, hrest e hin]
      rintro heq
      exact hnot (List.mem_map.2 ⟨e, hin, heq⟩)
    unfold cleanupLoop
    simp only [List.exists_mem_cons_iff]
    by_cases hd : room.state = .destroyed
    · rw [if_pos hd]
      refine (cleanupLoop_lookup r rest hother hn).trans ?_
      simp only [AList.lookup_erase_if, hd, and_true]
      by_cases hr : roomId = r
      · simp [hr]
      · simp only [hr, false_or, Ne.symm hr, if_false]
        rfl
    · simp only [hd, and_false, false_or, if_false]
      exact cleanupLoop_lookup r rest hrest hn

theorem cleanupDestroyed_lookup (m : RoomManager) (r : String) :
    m.cleanupDestroyed.1.rooms.lookup r =
      (m.rooms.lookup r).filter fun room => room.state ≠ .destroyed := by
  unfold cleanupDestroyed
  rw [cleanupLoop_lookup r _ (fun _ he => AList.mem_entries_iff.1 he) m.rooms.nodupKeys]
  have hiff : (∃ e ∈ m.rooms.entries, e.1 = r ∧ e.2.state = .destroyed) ↔
      ∃ room, m.rooms.lookup r = some room ∧ room.state = .destroyed := by
    constructor
    · rintro ⟨e, he, rfl, hd⟩
      exact ⟨e.2, AList.mem_entries_iff.1 he, hd⟩
    · rintro ⟨room, hr, hd⟩
      exact ⟨⟨r, room⟩, AList.mem_entries_iff.2 hr, rfl, hd⟩
  simp only [hiff]
  rcases m.rooms.lookup r with _ | room
  · simp
  · by_cases hd : room.state = .destroyed <;> simp [Option.filter, hd]

end RoomManager

/-! ## What an operation does -/

namespace RoomServiceImpl

/-- What becomes of the room under a name. -/
inductive Effect (m : RoomManager) (op : Op) (r : String) :
    Option GameRoom → Option GameRoom → Prop
  | same (o : Option GameRoom) : Effect m op r o o
  | opened (o : Option GameRoom) (p : String) (maxPlayers : Int32)
      (timer : TimerManager RoomCallback) (state : RoomStatus) (by_ : op.opener = some p)
      (free : m.playerRoom.lookup p = none) (name : r = RoomManager.roomName m.roomIdCounter)
      (start : state = .idle ∨ state = .waiting) :
      Effect m op r o (some { GameRoom.new r p maxPlayers with timer, state })
  | joined (room : GameRoom) (p : String) (by_ : op.joiner = some (r, p))
      (index : m.playerRoom.lookup p = none ∨ m.playerRoom.lookup p = some r)
      (open_ : room.state = .idle ∨ room.state = .waiting) (place : room.isFull = false)
      (new : p ∉ room.players) :
      Effect m op r (some room) (some { room with players := room.players ++ [p] })
  | left (room : GameRoom) (p : String) (by_ : op.leaver m = some (r, p)) (mem : p ∈ room.players) :
      Effect m op r (some room) (some { room with
        players := room.players.erase p
        state := if room.players.erase p = [] then .destroyed else room.state })
  | started (room : GameRoom) (timer : TimerManager RoomCallback)
      (frameSync : Option FrameSyncManager) (by_ : op.starter = some (r, room.ownerId))
      (ready : room.state = .waiting) :
      Effect m op r (some room) (some { room with state := .playing, timer, frameSync })
  | input (room : GameRoom) (frameSync : Option FrameSyncManager) :
      Effect m op r (some room) (some { room with frameSync })
  | stopped (room : GameRoom) (frameSync : Option FrameSyncManager) (by_ : op.stopped = some r) :
      Effect m op r (some room) (some { room with state := .finished, frameSync })
  | driven (room : GameRoom) (now : ℤ) (by_ : op.driven r = some now)
      (kept : op.cleans = true → (room.tick now).state ≠ .destroyed) :
      Effect m op r (some room) (some (room.tick now))
  | removed (room : GameRoom) (by_ : op = .manager (.removeRoom r)) : Effect m op r (some room) none
  | cleaned (room : GameRoom) (by_ : op.cleans) (now : Option ℤ) (at_ : op.driven r = now)
      (destroyed : (now.elim room room.tick).state = .destroyed) : Effect m op r (some room) none

variable {m m' : RoomManager} {op : Op} {r : String} {now : ℤ}

theorem startRoom_eq (now : ℤ) (room : GameRoom) : ∃ timer frameSync,
    startRoom now room = { room with timer, frameSync } := by
  unfold startRoom GameRoom.startFrameSync GameRoom.rescheduleTick
  simp only []
  split
  · split_ifs <;> exact ⟨_, _, rfl⟩
  · split_ifs <;> exact ⟨_, _, rfl⟩

theorem effect_createRoom {p : String} {n : Int32} {timeoutMs at_ : ℤ} (hop : op.opener = some p) :
    Effect m op r (m.rooms.lookup r) ((m.createRoom p n timeoutMs at_).1.rooms.lookup r) ∧
    ∀ name, (m.createRoom p n timeoutMs at_).2.ok = true →
      name = (m.createRoom p n timeoutMs at_).2.roomId →
      Effect m op r (m.rooms.lookup r)
        (((m.createRoom p n timeoutMs at_).1.atRoom name (·.setState .waiting)).rooms.lookup r) := by
  rcases m.createRoom_rooms p n timeoutMs at_ with he | ⟨hfree, hres, timer, hrooms⟩
  · rw [he]
    exact ⟨.same _, fun name h => by cases h⟩
  refine ⟨?_, fun name _ hname => ?_⟩
  · rw [hrooms, AList.lookup_insert_if]
    split_ifs with hr
    · subst hr
      exact .opened _ p n timer .idle hop hfree rfl (.inl rfl)
    · exact .same _
  · rw [RoomManager.atRoom, AList.lookup_modify, hrooms, hname, hres]
    simp only [Result.createSuccess, AList.lookup_insert_if]
    split_ifs with hr
    · subst hr
      exact .opened _ p n timer .waiting hop hfree rfl (.inr rfl)
    · exact .same _

theorem effect_joinRoom {roomId p : String} (hop : op.joiner = some (roomId, p)) :
    Effect m op r (m.rooms.lookup r) ((m.joinRoom roomId p).1.rooms.lookup r) := by
  rcases m.joinRoom_cases roomId p with ⟨he, -⟩ | ⟨room, hr, hindex, hok, he⟩
  · rw [he]
    exact .same _
  obtain ⟨hroom, hopen, hplace, hnew⟩ := GameRoom.addPlayer_ok hok
  rw [he, AList.lookup_insert_if]
  split_ifs with h
  · subst h
    rw [hr, hroom]
    exact .joined room p hop hindex hopen hplace hnew
  · exact .same _

theorem effect_leaveRoom {roomId p : String} (hop : op.leaver m = some (roomId, p)) :
    Effect m op r (m.rooms.lookup r) ((m.leaveRoom roomId p).1.rooms.lookup r) := by
  by_cases h : ∃ room, m.rooms.lookup roomId = some room ∧ p ∈ room.players
  · obtain ⟨room, hr, hin⟩ := h
    rw [RoomManager.leaveRoom_of_mem hr hin, AList.lookup_insert_if]
    by_cases h : r = roomId
    · subst h
      rw [hr, if_pos rfl]
      exact .left room p hop hin
    · rw [if_neg h]
      exact .same _
  · rw [(RoomManager.leaveRoom_of_not_mem fun room hr hin => h ⟨room, hr, hin⟩).1]
    exact .same _

theorem effect_startGame (now : ℤ) {roomId p : String} (hop : op.starter = some (roomId, p)) :
    Effect m op r (m.rooms.lookup r) ((m.startGame roomId p).1.rooms.lookup r) ∧
    ((m.startGame roomId p).2.ok = true → Effect m op r (m.rooms.lookup r)
      (((m.startGame roomId p).1.atRoom roomId (startRoom now)).rooms.lookup r)) := by
  rcases m.startGame_cases roomId p with ⟨he, hno⟩ | ⟨room, hr, rfl, hs, he⟩
  · rw [he, hno]
    exact ⟨.same _, fun h => by cases h⟩
  rw [he]
  refine ⟨?_, fun _ => ?_⟩
  · rw [AList.lookup_insert_if]
    split_ifs with h
    · subst h
      rw [hr]
      exact .started room room.timer room.frameSync hop hs
    · exact .same _
  · rw [RoomManager.atRoom, AList.lookup_modify, AList.lookup_insert_if]
    split_ifs with h
    · subst h
      obtain ⟨timer, frameSync, heq⟩ := startRoom_eq now { room with state := .playing }
      rw [hr, Option.map_some, heq]
      exact .started room timer frameSync hop hs
    · exact .same _

theorem effect_atRoom {roomId : String} {f : GameRoom → GameRoom}
    (hf : ∀ room, Effect m op roomId (some room) (some (f room))) :
    Effect m op r (m.rooms.lookup r) ((m.atRoom roomId f).rooms.lookup r) := by
  rw [RoomManager.atRoom, AList.lookup_modify]
  split_ifs with h
  · subst h
    rcases m.rooms.lookup r with _ | room
    · exact .same _
    · exact hf room
  · exact .same _

/-- Who asks to leave leaves by `LeaveRoom`, and nothing happens where a disconnected player has no
room. -/
theorem perform_leaver {roomId p : String} (hop : op.leaver m = some (roomId, p)) :
    (perform m op).1 = (m.leaveRoom roomId p).1 := by
  cases op with
  | leaveRoom req =>
    cases req with
    | none => cases hop
    | some req =>
      obtain ⟨rfl, rfl⟩ := Prod.mk.inj (Option.some.inj hop)
      simp only [perform, leaveRoom_state]
  | disconnect q =>
    unfold Op.leaver at hop
    simp only [] at hop
    split_ifs at hop with hnone
    obtain ⟨rfl, rfl⟩ := Prod.mk.inj (Option.some.inj hop)
    simp only [perform, disconnect, if_neg hnone]
    exact leaveRoomAndNotify_rooms _ _ _
  | manager op =>
    cases op with
    | leaveRoom r q =>
      obtain ⟨rfl, rfl⟩ := Prod.mk.inj (Option.some.inj hop)
      rfl
    | _ => cases hop
  | _ => cases hop

theorem effect_leaver {roomId p : String} (hop : op.leaver m = some (roomId, p)) :
    Effect m op r (m.rooms.lookup r) ((perform m op).1.rooms.lookup r) := by
  rw [perform_leaver hop]
  exact effect_leaveRoom hop

/-- What the operations of the manager do to the room under a name. -/
theorem effect_apply (m : RoomManager) (op : RoomManager.Op) (r : String) :
    Effect m (.manager op) r (m.rooms.lookup r)
      ((perform m (.manager op)).1.rooms.lookup r) := by
  cases op with
  | createRoom p n timeoutMs at_ => exact (effect_createRoom rfl).1
  | joinRoom roomId p => exact effect_joinRoom rfl
  | leaveRoom roomId p => exact effect_leaver rfl
  | startGame roomId p => exact (effect_startGame 0 rfl).1
  | removeRoom roomId =>
    simp only [perform, RoomManager.apply, RoomManager.removeRoom]
    rcases hroom : m.rooms.lookup roomId with _ | room
    · exact .same _
    simp only [AList.lookup_erase_if]
    split_ifs with h
    · subst h
      rw [hroom]
      exact .removed room rfl
    · exact .same _
  | cleanupDestroyed =>
    simp only [perform, RoomManager.apply, RoomManager.cleanupDestroyed_lookup]
    rcases m.rooms.lookup r with _ | room
    · exact .same _
    · by_cases hd : room.state = .destroyed
      · simpa [Option.filter, hd] using Effect.cleaned room rfl none rfl hd
      · simpa [Option.filter, hd] using Effect.same _
  | checkRoomTimeout now =>
    simp only [perform, RoomManager.apply, RoomManager.checkRoomTimeout,
      RoomManager.cleanupDestroyed_lookup, AList.lookup_mapValues]
    rcases m.rooms.lookup r with _ | room
    · exact .same _
    · by_cases hd : (room.tick now).state = .destroyed
      · simpa [Option.filter, hd] using Effect.cleaned room rfl (some now) rfl hd
      · simpa [Option.filter, hd] using Effect.driven room now rfl fun _ => hd

/-- Every operation does one of these things to the room under a name. -/
theorem effect_perform (m : RoomManager) (op : Op) (r : String) :
    Effect m op r (m.rooms.lookup r) ((perform m op).1.rooms.lookup r) := by
  cases op with
  | createRoom req now =>
    cases req with
    | none => exact .same _
    | some req =>
      simp only [perform, createRoom_state]
      generalize (if 0 < req.maxPlayers then req.maxPlayers else 4) = n
      split
      · next hok => exact (effect_createRoom rfl).2 _ hok rfl
      · exact (effect_createRoom rfl).1
  | joinRoom req =>
    cases req with
    | none => exact .same _
    | some req =>
      simp only [perform, joinRoom_state]
      exact effect_joinRoom rfl
  | leaveRoom req =>
    cases req with
    | none => exact .same _
    | some req => exact effect_leaver rfl
  | sendMessage req now =>
    simp only [perform, sendMessage_state]
    exact .same _
  | getRoomList parsed =>
    simp only [perform, getRoomList_state]
    exact .same _
  | startGame req now =>
    cases req with
    | none => exact .same _
    | some req =>
      simp only [perform, startGame_state]
      split
      · next hok => exact (effect_startGame now rfl).2 hok
      · exact (effect_startGame now rfl).1
  | sendInput req =>
    cases req with
    | none => exact .same _
    | some req =>
      simp only [perform, sendInput_state]
      split
      · exact .same _
      · exact effect_atRoom fun room => .input room _
  | stopGame req =>
    cases req with
    | none => exact .same _
    | some req =>
      simp only [perform, stopGame_state]
      exact effect_atRoom fun room => .stopped room _ rfl
  | disconnect p =>
    by_cases hnone : m.getPlayerRoom p = ""
    · simp only [perform, disconnect, if_pos hnone]
      exact .same _
    · exact effect_leaver (if_neg hnone)
  | manager op => exact effect_apply m op r
  | drive roomId now =>
    exact effect_atRoom fun room => .driven room now (by simp [Op.driven]) fun h => by cases h

/-- What an operation did to a room that is stored after it. -/
theorem effect_stored {room' : GameRoom} (h : (perform m op).1.rooms.lookup r = some room') :
    ∃ o, m.rooms.lookup r = o ∧ Effect m op r o (some room') :=
  ⟨_, rfl, h ▸ effect_perform m op r⟩

end RoomServiceImpl

end TinRpc
