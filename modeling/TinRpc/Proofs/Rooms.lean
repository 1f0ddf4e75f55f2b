import TinRpc.Lib.Roster
import TinRpc.Proofs.Keys
import TinRpc.Rooms

/-!
# Who is in which room

`player_room_` is the index of the rooms' player lists: every operation changes the two together.
Room numbers are handed out in turn by a counter of 64 bits, so no two rooms have one name before
it comes round.
-/

namespace TinRpc

open Roster

namespace RoomManager

theorem roomName_injective {m n : UInt64} (h : roomName m = roomName n) : m = n := by
  have hl := congrArg String.toList h
  simp only [roomName, String.toList_append, String.toList_ofList] at hl
  have hd := congrArg (Nat.ofDigitChars 10 · 0) (List.append_cancel_left hl)
  simp only [List.leftpad, Nat.ofDigitChars_append, Nat.ofDigitChars_replicate_zero, Nat.mul_zero]
    at hd
  have ht : ∀ k : ℕ, (toString k).toList = Nat.toDigits 10 k := fun k => Nat.toList_repr
  rw [ht, ht, Nat.ofDigitChars_ten_toDigits, Nat.ofDigitChars_ten_toDigits] at hd
  exact UInt64.toNat_inj.1 hd

/-- The name of the room created after `n` others. -/
def nthName (n : ℕ) : String := roomName (UInt64.ofNat (n + 1))

theorem nthName_injOn {m n : ℕ} (hm : m < 2 ^ 64) (hn : n < 2 ^ 64) (h : nthName m = nthName n) :
    m = n := by
  have := congrArg UInt64.toNat (roomName_injective h)
  rw [UInt64.toNat_ofNat', UInt64.toNat_ofNat'] at this
  omega

theorem nthName_wraps (n : ℕ) : nthName (n + 2 ^ 64) = nthName n := by
  refine congrArg roomName (UInt64.toNat_inj.1 ?_)
  rw [UInt64.toNat_ofNat', UInt64.toNat_ofNat']
  omega

end RoomManager

namespace TimerManager

variable {α : Type} {t u : Timer α}

theorem mem_pushHeap : ∀ {l : List (Timer α)}, u ∈ pushHeap t l ↔ u = t ∨ u ∈ l
  | [] => by simp [pushHeap]
  | v :: l => by
    rw [pushHeap]
    split_ifs
    · rw [List.mem_cons, mem_pushHeap, List.mem_cons]
      tauto
    · rw [List.mem_cons]

theorem mem_schedule {tm : TimerManager α} {now delayMs : ℤ} {callback : Option α} :
    u ∈ (tm.schedule now delayMs callback).1.heap ↔
      u = ⟨tm.nextId, now + delayMs * 1000000, callback, false⟩ ∨ u ∈ tm.heap :=
  mem_pushHeap

theorem popDue_some {tm tm' : TimerManager α} {now : ℤ} (h : tm.popDue now = some (t, tm')) :
    tm.heap = t :: tm'.heap ∧ t.deadline ≤ now := by
  unfold popDue at h
  split at h
  · cases h
  · next v vs hv =>
    split_ifs at h with hd
    obtain ⟨rfl, rfl⟩ := Prod.mk.inj (Option.some.inj h)
    exact ⟨hv, hd⟩

end TimerManager

namespace GameRoom

/-- What holds of each room: nobody is listed twice and there is place for all. -/
structure Tidy (r : GameRoom) : Prop where
  nodup : r.players.Nodup
  size : (r.players.length : ℤ) ≤ r.maxPlayers.toInt

variable {r : GameRoom} {p : String}

theorem tidy_new (roomId ownerId : String) {maxPlayers : Int32} (h : 1 ≤ maxPlayers) :
    (new roomId ownerId maxPlayers).Tidy :=
  ⟨List.nodup_singleton ownerId, by simpa [new] using Int32.le_iff_toInt_le.1 h⟩

/-- While a room is tidy, the count in an `int` is the number of players. -/
theorem Tidy.isFull_iff (h : r.Tidy) :
    r.isFull = true ↔ r.maxPlayers.toInt ≤ r.players.length := by
  have hmax := r.maxPlayers.toInt_lt
  have hsize := h.size
  have hcount : r.playerCount.toInt = r.players.length := by
    unfold playerCount
    rw [Int32.toInt_ofNat', Int.bmod_eq_of_le] <;> unfold Int32.size <;> omega
  unfold isFull
  rw [decide_eq_true_eq, Int32.le_iff_toInt_le, hcount]

/-- A room takes a player who is not in it, as long as it is open and has a place. -/
theorem addPlayer_ok (h : (r.addPlayer p).2.ok = true) :
    (r.addPlayer p).1 = { r with players := r.players ++ [p] } ∧
      (r.state = .idle ∨ r.state = .waiting) ∧ r.isFull = false ∧ p ∉ r.players := by
  unfold addPlayer at h ⊢
  split_ifs at h ⊢ with hs hf hp
  · cases h
  · cases h
  · cases h
  · refine ⟨rfl, ?_, by simpa using hf, by simpa [hasPlayer] using hp⟩
    by_contra hno
    exact hs (not_or.1 hno)

theorem runCallback_players (r : GameRoom) (now : ℤ) (cb : RoomCallback) :
    (r.runCallback now cb).players = r.players ∧
      (r.runCallback now cb).maxPlayers = r.maxPlayers := by
  unfold runCallback
  split
  · split_ifs <;> exact ⟨rfl, rfl⟩
  · split
    · exact ⟨rfl, rfl⟩
    · split_ifs <;> exact ⟨rfl, rfl⟩

theorem tickLoop_players (now : ℤ) : ∀ (n : ℕ) (r : GameRoom),
    (r.tickLoop now n).players = r.players ∧ (r.tickLoop now n).maxPlayers = r.maxPlayers
  | 0, r => ⟨rfl, rfl⟩
  | n + 1, r => by
    unfold tickLoop
    rcases r.timer.popDue now with _ | ⟨t, tm⟩
    · exact ⟨rfl, rfl⟩
    simp only []
    split
    · rename_i cb _ _
      obtain ⟨hp, hm⟩ := tickLoop_players now n (runCallback { r with timer := tm } now cb)
      rw [hp, hm]
      exact runCallback_players _ now cb
    · exact tickLoop_players now n _

/-- Timers mark a room and leave its players. -/
theorem tick_players (r : GameRoom) (now : ℤ) :
    (r.tick now).players = r.players ∧ (r.tick now).maxPlayers = r.maxPlayers :=
  tickLoop_players now _ _

theorem Tidy.tick (h : r.Tidy) (now : ℤ) : (r.tick now).Tidy := by
  obtain ⟨hp, hm⟩ := tick_players r now
  exact ⟨hp ▸ h.nodup, by rw [hp, hm]; exact h.size⟩

end GameRoom

namespace RoomManager

/-- The index has the players of the rooms, and the rooms are tidy. -/
structure Orderly (m : RoomManager) : Prop where
  indexed : Indexed GameRoom.players m.rooms m.playerRoom
  tidy : ∀ r room, m.rooms.lookup r = some room → room.Tidy

/-- The state after the ids `ids` have been handed out. -/
structure Consistent (m : RoomManager) (ids : List String) : Prop where
  indexed : Indexed GameRoom.players m.rooms m.playerRoom
  tidy : ∀ r room, m.rooms.lookup r = some room → room.Tidy
  known : ∀ r room, m.rooms.lookup r = some room → r ∈ ids
  issued : ids = (List.range ids.length).map nthName
  counter : m.roomIdCounter = UInt64.ofNat (ids.length + 1)

variable {m m' : RoomManager} {ids : List String} {roomId playerId : String}
  {room room' : GameRoom}

theorem createRoom_cases (m : RoomManager) (playerId : String) (maxPlayers : Int32)
    (timeoutMs now : ℤ) :
    ((m.playerRoom.lookup playerId).isSome
        ∧ m.createRoom playerId maxPlayers timeoutMs now = (m, .failure .playerAlreadyInRoom))
      ∨ (m.playerRoom.lookup playerId = none
        ∧ ∃ timer, timer = (if 0 < timeoutMs
            then (({} : TimerManager RoomCallback).schedule now timeoutMs (some .timeout)).1
            else {})
          ∧ m.createRoom playerId maxPlayers timeoutMs now
          = ({ rooms := m.rooms.insert (roomName m.roomIdCounter)
                { GameRoom.new (roomName m.roomIdCounter) playerId maxPlayers with timer := timer }
               playerRoom := m.playerRoom.insert playerId (roomName m.roomIdCounter)
               roomIdCounter := m.roomIdCounter + 1 },
            .createSuccess (roomName m.roomIdCounter))) := by
  unfold createRoom
  split
  · next hp => exact .inl ⟨hp, rfl⟩
  · next hp =>
    refine .inr ⟨by simpa using hp, _, rfl, ?_⟩
    simp only []
    split_ifs <;> rfl

theorem joinRoom_cases (m : RoomManager) (roomId playerId : String) :
    ((m.joinRoom roomId playerId).1 = m ∧ (m.joinRoom roomId playerId).2.ok = false)
      ∨ ∃ room, m.rooms.lookup roomId = some room
        ∧ (m.playerRoom.lookup playerId = none ∨ m.playerRoom.lookup playerId = some roomId)
        ∧ (room.addPlayer playerId).2.ok = true
        ∧ m.joinRoom roomId playerId
          = ({ m with
                rooms := m.rooms.insert roomId (room.addPlayer playerId).1
                playerRoom := m.playerRoom.insert playerId roomId }, .success) := by
  unfold joinRoom
  split
  · exact .inl ⟨rfl, rfl⟩
  · next room hr =>
    simp only []
    split_ifs with hp hok
    · exact .inl ⟨rfl, rfl⟩
    · refine .inr ⟨room, hr, ?_, hok, rfl⟩
      rcases hl : m.playerRoom.lookup playerId with _ | r
      · exact .inl rfl
      · rw [hl] at hp
        exact .inr (by simpa using hp)
    · exact .inl ⟨rfl, by simpa using hok⟩

/-- A player of a room leaves it. -/
theorem leaveRoom_of_mem {room : GameRoom} (hr : m.rooms.lookup roomId = some room)
    (hp : playerId ∈ room.players) : m.leaveRoom roomId playerId = ({ m with
      rooms := m.rooms.insert roomId { room with
        players := room.players.erase playerId
        state := if room.players.erase playerId = [] then .destroyed else room.state }
      playerRoom := m.playerRoom.erase playerId }, .success) := by
  unfold leaveRoom GameRoom.removePlayer
  rw [hr]
  simp only [if_pos hp]
  rfl

/-- Whoever is not in a room does not leave it. -/
theorem leaveRoom_of_not_mem
    (h : ∀ room ∈ m.rooms.lookup roomId, playerId ∉ room.players) :
    (m.leaveRoom roomId playerId).1 = m ∧ (m.leaveRoom roomId playerId).2.ok = false := by
  unfold leaveRoom GameRoom.removePlayer
  rcases hr : m.rooms.lookup roomId with _ | room
  · exact ⟨rfl, rfl⟩
  · simp only [if_neg (h room hr)]
    exact ⟨rfl, rfl⟩

theorem leaveRoom_cases (m : RoomManager) (roomId playerId : String) :
    ((m.leaveRoom roomId playerId).1 = m ∧ (m.leaveRoom roomId playerId).2.ok = false)
      ∨ ∃ room state, m.rooms.lookup roomId = some room ∧ playerId ∈ room.players
        ∧ m.leaveRoom roomId playerId
          = ({ m with
                rooms := m.rooms.insert roomId
                  { room with players := room.players.erase playerId, state := state }
                playerRoom := m.playerRoom.erase playerId }, .success) := by
  by_cases h : ∃ room ∈ m.rooms.lookup roomId, playerId ∈ room.players
  · obtain ⟨room, hr, hp⟩ := h
    exact .inr ⟨room, _, hr, hp, leaveRoom_of_mem hr hp⟩
  · exact .inl (leaveRoom_of_not_mem fun room hr hp => h ⟨room, hr, hp⟩)

theorem startGame_cases (m : RoomManager) (roomId requesterId : String) :
    ((m.startGame roomId requesterId).1 = m ∧ (m.startGame roomId requesterId).2.ok = false)
      ∨ ∃ room, m.rooms.lookup roomId = some room ∧ requesterId = room.ownerId
        ∧ room.state = .waiting
        ∧ m.startGame roomId requesterId
          = ({ m with rooms := m.rooms.insert roomId { room with state := .playing } },
            .success) := by
  unfold startGame
  split
  · exact .inl ⟨rfl, rfl⟩
  · next room hr =>
    split_ifs with ho hs
    · exact .inl ⟨rfl, rfl⟩
    · exact .inl ⟨rfl, rfl⟩
    · exact .inr ⟨room, hr, not_not.1 ho, not_not.1 hs, rfl⟩

theorem orderly_new : Orderly {} where
  indexed := indexed_empty
  tidy r room h := by
    rw [show (∅ : Table String GameRoom).lookup r = none from AList.lookup_empty r] at h
    cases h

/-- A room is replaced or comes, and the index changes along with it. -/
theorem Orderly.put (h : m.Orderly) {playerRoom : Table String String} {counter : UInt64}
    (hi : Indexed GameRoom.players (m.rooms.insert roomId room) playerRoom) (ht : room.Tidy) :
    Orderly ⟨m.rooms.insert roomId room, playerRoom, counter⟩ where
  indexed := hi
  tidy r room' hr := by
    rw [AList.lookup_insert_if] at hr
    split_ifs at hr
    · exact Option.some.inj hr ▸ ht
    · exact h.tidy r room' hr

/-- A room goes and its players are struck from the index. -/
theorem Orderly.removed (h : m.Orderly) (hr : m.rooms.lookup roomId = some room) :
    Orderly { m.clearRoomPlayers room with rooms := m.rooms.erase roomId } where
  indexed := h.indexed.drop hr
  tidy r room' hl := by
    rw [AList.lookup_erase_if] at hl
    split_ifs at hl
    exact h.tidy r room' hl

/-- A room is created under a name that no room has. -/
theorem Orderly.createRoom (h : m.Orderly) (playerId : String) (maxPlayers : Int32)
    (timeoutMs now : ℤ) (hmax : 1 ≤ maxPlayers) (hname : m.playerRoom.lookup playerId = none →
      m.rooms.lookup (roomName m.roomIdCounter) = none) :
    (m.createRoom playerId maxPlayers timeoutMs now).1.Orderly := by
  rcases createRoom_cases m playerId maxPlayers timeoutMs now with ⟨-, he⟩ | ⟨hp, timer, -, he⟩
  · rw [he]
    exact h
  · rw [he]
    obtain ⟨hnd, hsz⟩ := GameRoom.tidy_new (roomName m.roomIdCounter) playerId hmax
    exact h.put (h.indexed.create (hname hp) hp rfl) ⟨hnd, hsz⟩

theorem Orderly.joinRoom (h : m.Orderly) (roomId playerId : String) :
    (m.joinRoom roomId playerId).1.Orderly := by
  rcases joinRoom_cases m roomId playerId with ⟨hm, -⟩ | ⟨room, hr, hp, hok, he⟩
  · rw [hm]
    exact h
  have ht := h.tidy roomId room hr
  obtain ⟨hadd, -, hfull, hnot⟩ := GameRoom.addPlayer_ok hok
  have hlt : (room.players.length : ℤ) < room.maxPlayers.toInt := by
    rw [← not_le, ← ht.isFull_iff, hfull]
    exact Bool.false_ne_true
  rw [he, hadd]
  refine h.put (h.indexed.join hr hp ?_) ⟨?_, ?_⟩
  · simp [or_comm]
  · exact List.nodup_append.2 ⟨ht.nodup, List.nodup_singleton _,
      by rintro a ha b hb rfl; exact hnot (List.mem_singleton.1 hb ▸ ha)⟩
  · show ((room.players ++ [playerId]).length : ℤ) ≤ _
    rw [List.length_append, List.length_singleton]
    push_cast
    omega

theorem Orderly.leaveRoom (h : m.Orderly) (roomId playerId : String) :
    (m.leaveRoom roomId playerId).1.Orderly := by
  rcases leaveRoom_cases m roomId playerId with ⟨hm, -⟩ | ⟨room, state, hr, hin, he⟩
  · rw [hm]
    exact h
  have ht := h.tidy roomId room hr
  rw [he]
  refine h.put (h.indexed.leave hr hin fun q => ?_) ⟨ht.nodup.erase _, ?_⟩
  · exact ht.nodup.mem_erase_iff
  · have hle := (room.players.erase_sublist (a := playerId)).length_le
    have := ht.size
    show ((room.players.erase playerId).length : ℤ) ≤ room.maxPlayers.toInt
    omega

/-- A room changes and keeps its players and their number. -/
theorem Orderly.update (h : m.Orderly) (hr : m.rooms.lookup roomId = some room)
    (hp : room'.players = room.players) (hm : room'.maxPlayers = room.maxPlayers) :
    Orderly { m with rooms := m.rooms.insert roomId room' } := by
  have ht := h.tidy roomId room hr
  refine h.put (h.indexed.update hr fun q => by rw [hp]) ⟨hp ▸ ht.nodup, ?_⟩
  rw [hp, hm]
  exact ht.size

theorem Orderly.atRoom (h : m.Orderly) (roomId : String) {f : GameRoom → GameRoom}
    (hp : ∀ room, (f room).players = room.players)
    (hm : ∀ room, (f room).maxPlayers = room.maxPlayers) : (m.atRoom roomId f).Orderly where
  indexed := h.indexed.modify roomId fun room q => by rw [hp]
  tidy r room hr := by
    rw [RoomManager.atRoom, AList.lookup_modify] at hr
    split_ifs at hr
    · obtain ⟨room', hr', rfl⟩ := Option.map_eq_some_iff.1 hr
      obtain ⟨hnd, hsz⟩ := h.tidy r room' hr'
      exact ⟨(hp room').symm ▸ hnd, by rw [hp, hm]; exact hsz⟩
    · exact h.tidy r room hr

theorem Orderly.startGame (h : m.Orderly) (roomId requesterId : String) :
    (m.startGame roomId requesterId).1.Orderly := by
  rcases startGame_cases m roomId requesterId with ⟨hm, -⟩ | ⟨room, hr, -, -, he⟩
  · rw [hm]
    exact h
  · rw [he]
    exact h.update hr rfl rfl

theorem Orderly.removeRoom (h : m.Orderly) (roomId : String) :
    (m.removeRoom roomId).1.Orderly := by
  unfold RoomManager.removeRoom
  split
  · exact h
  · next room hr => exact h.removed hr

/-- A part of the index and the rooms that a cleanup keeps. -/
theorem cleanupLoop_rule {P : RoomManager → Prop}
    (hP : ∀ {m roomId room}, P m → m.rooms.lookup roomId = some room →
      P { m.clearRoomPlayers room with rooms := m.rooms.erase roomId }) :
    ∀ (es : List (Sigma fun _ : String => GameRoom)) {m : RoomManager},
    P m → (∀ e ∈ es, m.rooms.lookup e.1 = some e.2) → (es.map Sigma.fst).Nodup →
    P (m.cleanupLoop es).1
  | [], _, h, _, _ => h
  | ⟨roomId, room⟩ :: rest, m, h, he, hn => by
    obtain ⟨hroom, hrest⟩ := List.forall_mem_cons.1 he
    obtain ⟨hnot, hn⟩ := List.nodup_cons.1 hn
    unfold RoomManager.cleanupLoop
    split_ifs
    · refine cleanupLoop_rule hP rest (hP h hroom) (fun e hin => ?_) hn
      show (m.rooms.erase roomId).lookup e.1 = some e.2
      rw [AList.lookup_erase_ne, hrest e hin]
      rintro heq
      exact hnot (List.mem_map.2 ⟨e, hin, heq⟩)
    · exact cleanupLoop_rule hP rest h hrest hn

/-- What the removal of a room keeps, a cleanup keeps. -/
theorem cleanupDestroyed_rule {P : RoomManager → Prop}
    (hP : ∀ {m roomId room}, P m → m.rooms.lookup roomId = some room →
      P { m.clearRoomPlayers room with rooms := m.rooms.erase roomId })
    (h : P m) : P m.cleanupDestroyed.1 :=
  cleanupLoop_rule hP _ h (fun _ he => AList.mem_entries_iff.1 he) m.rooms.nodupKeys

theorem Orderly.ticked (h : m.Orderly) (now : ℤ) :
    Orderly { m with rooms := m.rooms.mapValues fun room : GameRoom => room.tick now } where
  indexed := h.indexed.mapValues fun g q => by rw [(g.tick_players now).1]
  tidy r room hr := by
    rw [AList.lookup_mapValues, Option.map_eq_some_iff] at hr
    obtain ⟨room', hr', rfl⟩ := hr
    exact (h.tidy r room' hr').tick now

theorem Orderly.checkRoomTimeout (h : m.Orderly) (now : ℤ) :
    (m.checkRoomTimeout now).1.Orderly :=
  cleanupDestroyed_rule (fun h hr => h.removed hr) (h.ticked now)

theorem Consistent.orderly (h : m.Consistent ids) : m.Orderly := ⟨h.indexed, h.tidy⟩

theorem consistent_new : Consistent {} [] where
  indexed := orderly_new.indexed
  tidy := orderly_new.tidy
  known r room h := by
    rw [show (∅ : Table String GameRoom).lookup r = none from AList.lookup_empty r] at h
    cases h
  issued := rfl
  counter := rfl

/-- No room comes and no id is handed out. -/
theorem Consistent.kept (h : m.Consistent ids) (ho : m'.Orderly)
    (hr : ∀ r room, m'.rooms.lookup r = some room → ∃ room', m.rooms.lookup r = some room')
    (hc : m'.roomIdCounter = m.roomIdCounter) : m'.Consistent ids where
  indexed := ho.indexed
  tidy := ho.tidy
  known r room hl := by
    obtain ⟨room', hr'⟩ := hr r room hl
    exact h.known r room' hr'
  issued := h.issued
  counter := hc ▸ h.counter

theorem Consistent.put (h : m.Consistent ids) (hr : m.rooms.lookup roomId = some room)
    {playerRoom : Table String String}
    (ho : Orderly { m with rooms := m.rooms.insert roomId room', playerRoom := playerRoom }) :
    Consistent { m with rooms := m.rooms.insert roomId room', playerRoom := playerRoom } ids := by
  refine h.kept ho (fun r room'' hl => ?_) rfl
  simp only [AList.lookup_insert_if] at hl
  split_ifs at hl with he
  · exact ⟨room, he ▸ hr⟩
  · exact ⟨room'', hl⟩

theorem Consistent.removed (h : m.Consistent ids) (hr : m.rooms.lookup roomId = some room) :
    Consistent { m.clearRoomPlayers room with rooms := m.rooms.erase roomId } ids := by
  refine h.kept (h.orderly.removed hr) (fun r room' hl => ?_) rfl
  simp only [AList.lookup_erase_if] at hl
  split_ifs at hl
  exact ⟨room', hl⟩

theorem Consistent.fresh (h : m.Consistent ids) (hn : ids.length < 2 ^ 64) :
    nthName ids.length ∉ ids := by
  intro hin
  rw [h.issued] at hin
  obtain ⟨k, hk, he⟩ := List.mem_map.1 hin
  rw [List.length_map, List.length_range] at he
  have hlt := List.mem_range.1 hk
  have := nthName_injOn (by omega) hn he
  omega

theorem Consistent.createRoom (h : m.Consistent ids) (maxPlayers : Int32) (timeoutMs now : ℤ)
    (hmax : 1 ≤ maxPlayers) (hn : ids.length < 2 ^ 64) :
    Consistent (m.createRoom playerId maxPlayers timeoutMs now).1
      (if (m.createRoom playerId maxPlayers timeoutMs now).2.ok
        then ids ++ [(m.createRoom playerId maxPlayers timeoutMs now).2.roomId] else ids) := by
  have hname : roomName m.roomIdCounter = nthName ids.length := by rw [h.counter]; rfl
  have hnone : m.rooms.lookup (roomName m.roomIdCounter) = none := by
    rcases hl : m.rooms.lookup (roomName m.roomIdCounter) with _ | room
    · rfl
    · exact absurd (hname ▸ h.known _ _ hl) (h.fresh hn)
  have ho := h.orderly.createRoom playerId maxPlayers timeoutMs now hmax
    fun _ => hnone
  rcases createRoom_cases m playerId maxPlayers timeoutMs now with ⟨-, he⟩ | ⟨hp, timer, -, he⟩
  · rw [he]
    exact h
  · rw [he] at ho ⊢
    simp only [Result.createSuccess, ↓reduceIte]
    refine ⟨ho.indexed, ho.tidy, fun r room hr => ?_, ?_, ?_⟩
    · rw [AList.lookup_insert_if] at hr
      split_ifs at hr with hrn
      · exact hrn ▸ List.mem_append_right _ (List.mem_singleton_self _)
      · exact List.mem_append_left _ (h.known r room hr)
    · rw [List.length_append, List.length_singleton, List.range_succ, List.map_append,
        ← h.issued, hname, List.map_singleton]
    · rw [List.length_append, List.length_singleton]
      show m.roomIdCounter + 1 = _
      rw [h.counter]
      exact (UInt64.ofNat_add _ 1).symm

theorem Consistent.joinRoom (h : m.Consistent ids) (roomId playerId : String) :
    (m.joinRoom roomId playerId).1.Consistent ids := by
  have ho := h.orderly.joinRoom roomId playerId
  rcases joinRoom_cases m roomId playerId with ⟨hm, -⟩ | ⟨room, hr, -, -, he⟩
  · rw [hm]
    exact h
  · rw [he] at ho ⊢
    exact h.put hr ho

theorem Consistent.leaveRoom (h : m.Consistent ids) (roomId playerId : String) :
    (m.leaveRoom roomId playerId).1.Consistent ids := by
  have ho := h.orderly.leaveRoom roomId playerId
  rcases leaveRoom_cases m roomId playerId with ⟨hm, -⟩ | ⟨room, state, hr, -, he⟩
  · rw [hm]
    exact h
  · rw [he] at ho ⊢
    exact h.put hr ho

theorem Consistent.startGame (h : m.Consistent ids) (roomId requesterId : String) :
    (m.startGame roomId requesterId).1.Consistent ids := by
  have ho := h.orderly.startGame roomId requesterId
  rcases startGame_cases m roomId requesterId with ⟨hm, -⟩ | ⟨room, hr, -, -, he⟩
  · rw [hm]
    exact h
  · rw [he] at ho ⊢
    exact h.put hr ho

theorem Consistent.removeRoom (h : m.Consistent ids) (roomId : String) :
    (m.removeRoom roomId).1.Consistent ids := by
  unfold RoomManager.removeRoom
  split
  · exact h
  · next room hr => exact h.removed hr

theorem Consistent.cleanupDestroyed (h : m.Consistent ids) :
    m.cleanupDestroyed.1.Consistent ids :=
  cleanupDestroyed_rule (P := (Consistent · ids)) (fun h hr => h.removed hr) h

theorem Consistent.checkRoomTimeout (h : m.Consistent ids) (now : ℤ) :
    (m.checkRoomTimeout now).1.Consistent ids := by
  refine Consistent.cleanupDestroyed (h.kept (h.orderly.ticked now) (fun r room hr => ?_) rfl)
  simp only [AList.lookup_mapValues, Option.map_eq_some_iff] at hr
  obtain ⟨room', hr', -⟩ := hr
  exact ⟨room', hr'⟩

theorem ids_apply (s : RoomManager × List String) (op : Op) :
    s.2.length ≤ (apply s op).2.length := by
  cases op with
  | createRoom playerId maxPlayers timeoutMs now =>
    unfold apply
    simp only []
    split_ifs <;> simp
  | _ => exact le_rfl

theorem ids_foldl : ∀ (ops : List Op) (s : RoomManager × List String),
    s.2.length ≤ (ops.foldl apply s).2.length
  | [], _ => le_rfl
  | op :: ops, s => (ids_apply s op).trans (ids_foldl ops (apply s op))

/-- A call that hands out a room id does so before the counter comes round. -/
theorem Consistent.apply {s : RoomManager × List String} (h : s.1.Consistent s.2) (op : Op)
    (hop : op.HasPlace) (hn : (apply s op).2.length ≤ 2 ^ 64) :
    (apply s op).1.Consistent (apply s op).2 := by
  cases op with
  | createRoom playerId maxPlayers timeoutMs now =>
    rcases createRoom_cases s.1 playerId maxPlayers timeoutMs now with ⟨-, he⟩ | ⟨hp, timer, -, he⟩
    · unfold RoomManager.apply
      simp only [he, Result.failure, Bool.false_eq_true, ↓reduceIte]
      exact h
    · refine h.createRoom maxPlayers timeoutMs now hop ?_
      unfold RoomManager.apply at hn
      simp only [he, Result.createSuccess, ↓reduceIte, List.length_append, List.length_singleton]
        at hn
      omega
  | joinRoom roomId playerId => exact h.joinRoom roomId playerId
  | leaveRoom roomId playerId => exact h.leaveRoom roomId playerId
  | startGame roomId requesterId => exact h.startGame roomId requesterId
  | removeRoom roomId => exact h.removeRoom roomId
  | cleanupDestroyed => exact h.cleanupDestroyed
  | checkRoomTimeout now => exact h.checkRoomTimeout now

theorem Consistent.foldl : ∀ (ops : List Op) {s : RoomManager × List String},
    s.1.Consistent s.2 → (∀ op ∈ ops, op.HasPlace) →
    (ops.foldl RoomManager.apply s).2.length ≤ 2 ^ 64 →
    (ops.foldl RoomManager.apply s).1.Consistent (ops.foldl RoomManager.apply s).2
  | [], _, h, _, _ => h
  | op :: ops, s, h, hops, hn => by
    obtain ⟨hop, hops⟩ := List.forall_mem_cons.1 hops
    have hle := ids_foldl ops (RoomManager.apply s op)
    rw [List.foldl_cons] at hn
    exact Consistent.foldl ops (h.apply op hop (hle.trans hn)) hops hn

/-- After any calls that handed out at most `2 ^ 64` room ids the index says of each player exactly
which room lists it; a player is in one room only, and listed once; rooms keep to their size; and
the ids are all different. -/
theorem membership (ops : List Op) (hops : ∀ op ∈ ops, op.HasPlace)
    (hn : (run ops).2.length ≤ 2 ^ 64) :
    (∀ p r, (run ops).1.playerRoom.lookup p = some r
        ↔ ∃ room, (run ops).1.rooms.lookup r = some room ∧ p ∈ room.players)
      ∧ (∀ p r r' room room', (run ops).1.rooms.lookup r = some room →
        (run ops).1.rooms.lookup r' = some room' → p ∈ room.players → p ∈ room'.players → r = r')
      ∧ (∀ r room, (run ops).1.rooms.lookup r = some room →
        room.players.Nodup ∧ (room.players.length : ℤ) ≤ room.maxPlayers.toInt)
      ∧ (run ops).2.Nodup := by
  have h := Consistent.foldl ops consistent_new hops hn
  refine ⟨h.indexed, fun p r r' room room' hr hr' hp hp' => h.indexed.unique hr hr' hp hp',
    fun r room hr => ⟨(h.tidy r room hr).nodup, (h.tidy r room hr).size⟩, ?_⟩
  have hnd : ((List.range (run ops).2.length).map nthName).Nodup := by
    refine List.Nodup.map_on (fun m hm n hn' he => ?_) List.nodup_range
    have := List.mem_range.1 hm
    have := List.mem_range.1 hn'
    exact nthName_injOn (by omega) (by omega) he
  rw [show (run ops).2 = (List.range (run ops).2.length).map nthName from h.issued]
  exact hnd

/-- Two rooms, a player who moves from one to the other, and a timeout. -/
theorem membership_moves :
    (run [.createRoom "a" 2 0 0, .createRoom "b" 2 1 0, .joinRoom "room_001" "c",
      .leaveRoom "room_001" "c", .joinRoom "room_002" "c", .checkRoomTimeout 2000000]).2.Nodup :=
  (membership [.createRoom "a" 2 0 0, .createRoom "b" 2 1 0, .joinRoom "room_001" "c",
    .leaveRoom "room_001" "c", .joinRoom "room_002" "c", .checkRoomTimeout 2000000]
    (by decide) (by decide)).2.2.2

/-- One player creates a room and the room is removed, so many times. -/
def refill (n : ℕ) : List Op :=
  (List.range n).flatMap fun k => [.createRoom "p" 4 0 0, .removeRoom (nthName k)]

theorem run_refill (n : ℕ) : run (refill n)
    = ({ roomIdCounter := UInt64.ofNat (n + 1) }, (List.range n).map nthName) := by
  induction n with
  | zero => rfl
  | succ n ih =>
    unfold run refill at ih ⊢
    rw [List.range_succ, List.flatMap_append, List.foldl_append, ih, List.map_append]
    simp [RoomManager.apply, createRoom, generateRoomId, removeRoom, clearRoomPlayers, GameRoom.new,
      Result.createSuccess, nthName, AList.lookup_singleton, AList.erase_singleton]

theorem nthName_repeats {n : ℕ} (hn : 2 ^ 64 < n) : ¬ ((List.range n).map nthName).Nodup := by
  intro h
  have h₀ : 0 ∈ List.range n := List.mem_range.2 (by omega)
  have h₁ : 0 + 2 ^ 64 ∈ List.range n := List.mem_range.2 (by omega)
  have := List.inj_on_of_nodup_map h h₀ h₁ (nthName_wraps 0).symm
  omega

/-- With one room more than `2 ^ 64`, the first room's id is handed out again. -/
theorem ids_repeat : (∀ op ∈ refill (2 ^ 64 + 1), op.HasPlace)
    ∧ ¬ (run (refill (2 ^ 64 + 1))).2.Nodup := by
  constructor
  · intro op hop
    obtain ⟨k, -, hop⟩ := List.mem_flatMap.1 hop
    rcases List.mem_pair.1 hop with rfl | rfl
    · decide
    · trivial
  · obtain ⟨n, hn⟩ : ∃ n, n = 2 ^ 64 + 1 := ⟨_, rfl⟩
    rw [← hn, run_refill]
    exact nthName_repeats (by omega)

end RoomManager

end TinRpc
