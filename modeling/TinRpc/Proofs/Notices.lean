import TinRpc.Proofs.Owners

/-!
# Who is notified

A refused operation on rooms leaves them as they are and sends nothing. One that is carried out
notifies each member that the rooms list after it, and nobody else; the count in a notice is the
length of that list (`operations_notify`).
-/

namespace TinRpc

open Transition

namespace GameRoom

variable {room : GameRoom}

/-- A room lists at most as many players as it has places, or the one who created it. -/
def InBounds (room : GameRoom) : Prop :=
  (room.players.length : ℤ) ≤ max 1 room.maxPlayers.toInt

/-- The count in an `int` is the number of players. -/
theorem InBounds.playerCount (h : room.InBounds) :
    room.playerCount.toInt = room.players.length := by
  have hmax := room.maxPlayers.toInt_lt
  unfold InBounds at h
  unfold GameRoom.playerCount
  rw [Int32.toInt_ofNat', Int.bmod_eq_of_le] <;> unfold Int32.size <;> omega

end GameRoom

namespace RoomServiceImpl

variable {m : RoomManager} {op : Op} {r p : String} {room : GameRoom}

/-- The timers of rooms are driven by `CheckRoomTimeout` alone. -/
def Whole (_ : RoomManager) : Op → Prop
  | .drive _ _ => False
  | _ => True

instance (m : RoomManager) : ∀ op, Decidable (Whole m op)
  | .drive .. => .isFalse not_false
  | .createRoom .. | .joinRoom _ | .leaveRoom _ | .sendMessage .. | .getRoomList _
  | .startGame .. | .sendInput _ | .stopGame _ | .disconnect _ | .manager _ => .isTrue trivial

/-- Rooms keep to their size, and nobody is left in one that is DESTROYED. -/
def Counted (m : RoomManager) : Prop :=
  ∀ r room, m.rooms.lookup r = some room → room.InBounds ∧
    (room.state = .destroyed → room.players = [])

theorem cleans_of_driven {now : ℤ} (hop : Whole m op) (h : op.driven r = some now) :
    op.cleans = true := by
  cases op with
  | drive => exact hop.elim
  | manager op =>
    cases op with
    | checkRoomTimeout => rfl
    | _ => cases h
  | _ => cases h

theorem Counted.perform (h : Counted m) (hop : Whole m op) : Counted (perform m op).1 := by
  intro r room' hr'
  obtain ⟨o, hm, he⟩ := effect_stored hr'
  cases he with
  | same => exact h r room' hm
  | opened _ p n timer state by_ free name start =>
    refine ⟨le_max_left _ _, fun hd => ?_⟩
    rcases start with hs | hs <;> simp [hs] at hd
  | joined room p by_ index open_ place new =>
    obtain ⟨hbounds, -⟩ := h r room hm
    refine ⟨?_, fun hd => ?_⟩
    · unfold GameRoom.isFull at place
      rw [decide_eq_false_iff_not, Int32.le_iff_toInt_le, hbounds.playerCount] at place
      unfold GameRoom.InBounds
      rw [List.length_append, List.length_singleton]
      push_cast
      omega
    · rcases open_ with hs | hs <;> simp [hs] at hd
  | left room p by_ mem =>
    obtain ⟨hbounds, hempty⟩ := h r room hm
    refine ⟨?_, fun hd => ?_⟩
    · have hlen := List.length_erase_of_mem mem
      unfold GameRoom.InBounds at hbounds ⊢
      simp only [hlen]
      omega
    · by_contra hsome
      simp only [hsome, if_false] at hd
      rw [hempty hd] at mem
      cases mem
  | started room timer frameSync by_ ready => exact ⟨(h r room hm).1, fun hd => by cases hd⟩
  | input room => exact h r room hm
  | stopped room => exact ⟨(h r room hm).1, fun hd => by cases hd⟩
  | driven room now by_ kept =>
    obtain ⟨hplayers, hmax⟩ := room.tick_players now
    refine ⟨?_, fun hd => absurd hd (kept (cleans_of_driven hop by_))⟩
    unfold GameRoom.InBounds
    rw [hplayers, hmax]
    exact (h r room hm).1

theorem counted_reach (h : Reach step Whole {} m) : Counted m := by
  refine h.invariant (fun r room hr => ?_) fun m op m' hi hop hs => ?_
  · rw [show (∅ : Table String GameRoom).lookup r = none from AList.lookup_empty r] at hr
    cases hr
  · exact Option.some.inj hs ▸ hi.perform hop

/-- Each recipient is sent the notice once, and nobody else is sent anything. -/
structure Notified (events : Events) (recipient : String → Prop) (notice : LobbyMessage) :
    Prop where
  once : (events.map Prod.fst).Nodup
  receivers : ∀ q, q ∈ events.map Prod.fst ↔ recipient q
  notice : ∀ e ∈ events, e.2 = notice

theorem notified_map {players : List String} (notice : LobbyMessage) (h : players.Nodup) :
    Notified (players.map fun q => (q, notice)) (· ∈ players) notice := by
  have hfst : (players.map fun q => (q, notice)).map Prod.fst = players := by
    rw [List.map_map]
    exact List.map_id _
  refine ⟨hfst.symm ▸ h, fun q => by rw [hfst], fun e he => ?_⟩
  obtain ⟨q, -, rfl⟩ := List.mem_map.1 he
  rfl

theorem notified_room (hr : m.rooms.lookup r = some room) (h : room.players.Nodup)
    (notice : LobbyMessage) :
    Notified (m.broadcastToRoom r notice) (· ∈ room.players) notice := by
  unfold RoomManager.broadcastToRoom RoomManager.getRoom
  rw [hr]
  exact notified_map notice h

theorem notified_except (hr : m.rooms.lookup r = some room) (h : room.players.Nodup)
    (notice : LobbyMessage) :
    Notified (m.broadcastToRoomExcept r p notice) (fun q => q ∈ room.players ∧ q ≠ p) notice := by
  unfold RoomManager.broadcastToRoomExcept RoomManager.getRoom
  rw [hr]
  obtain ⟨honce, hreceivers, hnotice⟩ := notified_map notice (h.filter fun q => q ≠ p)
  refine ⟨honce, fun q => ?_, hnotice⟩
  rw [hreceivers, List.mem_filter, decide_eq_true_eq]

theorem createRoom_refused {n : Int32} {timeoutMs now : ℤ}
    (h : (m.createRoom p n timeoutMs now).2.ok = false) :
    (m.createRoom p n timeoutMs now).1 = m := by
  rcases m.createRoom_rooms p n timeoutMs now with he | ⟨-, hres, -⟩
  · rw [he]
  · rw [hres] at h
    cases h

theorem createRoom_events (m : RoomManager) (now : ℤ) (req : Option CreateRoomReq) :
    (createRoom m now req).events = [] := by
  unfold createRoom
  split
  · rfl
  · next req =>
    simp only []
    generalize (if 0 < req.maxPlayers then req.maxPlayers else 4) = n
    split <;> rfl

theorem joinRoomAndNotify_refused (h : (m.joinRoomAndNotify r p).2.1.ok = false) :
    (m.joinRoomAndNotify r p).1 = m ∧ (m.joinRoomAndNotify r p).2.2 = [] := by
  unfold RoomManager.joinRoomAndNotify at h ⊢
  rcases m.joinRoom_cases r p with ⟨hm, hno⟩ | ⟨room, -, -, -, he⟩
  · simp only [hno, hm, Bool.false_eq_true, if_false]
    exact ⟨trivial, trivial⟩
  · rw [he] at h
    cases h

theorem leaveRoomAndNotify_refused (h : (m.leaveRoomAndNotify r p).2.1.ok = false) :
    (m.leaveRoomAndNotify r p).1 = m ∧ (m.leaveRoomAndNotify r p).2.2 = [] := by
  unfold RoomManager.leaveRoomAndNotify at h ⊢
  rcases m.leaveRoom_cases r p with ⟨hm, hno⟩ | ⟨room, state, -, -, he⟩
  · simp only [hno, hm, Bool.false_eq_true, if_false]
    exact ⟨trivial, trivial⟩
  · rw [he] at h
    cases h

theorem startGameAndNotify_refused {now : ℤ} (h : (m.startGameAndNotify r p now).2.1.ok = false) :
    (m.startGameAndNotify r p now).1 = m ∧ (m.startGameAndNotify r p now).2.2 = [] := by
  unfold RoomManager.startGameAndNotify at h ⊢
  rcases m.startGame_cases r p with ⟨hm, hno⟩ | ⟨room, -, -, -, he⟩
  · simp only [hno, hm, Bool.false_eq_true, if_false]
    exact ⟨trivial, trivial⟩
  · rw [he] at h
    cases h

/-- A join is told to the members that were there. -/
theorem joinRoomAndNotify_notified (hl : Listing (m.joinRoom r p).1)
    (hc : Counted (m.joinRoom r p).1) (h : (m.joinRoomAndNotify r p).2.1.ok = true) :
    ∃ room, (m.joinRoomAndNotify r p).1.rooms.lookup r = some room ∧ p ∈ room.players ∧
      room.playerCount.toInt = room.players.length ∧
      Notified (m.joinRoomAndNotify r p).2.2 (fun q => q ∈ room.players ∧ q ≠ p)
        (.playerJoinNtf r p room.playerCount) := by
  unfold RoomManager.joinRoomAndNotify at h ⊢
  rcases m.joinRoom_cases r p with ⟨-, hno⟩ | ⟨room, -, -, hok, he⟩
  · simp [hno] at h
  rw [he] at hl hc ⊢
  have hr : (m.rooms.insert r (room.addPlayer p).1).lookup r = some (room.addPlayer p).1 :=
    AList.lookup_insert _
  obtain ⟨hroom, -⟩ := GameRoom.addPlayer_ok hok
  refine ⟨_, hr, ?_, (hc r _ hr).1.playerCount, ?_⟩
  · rw [hroom]
    exact List.mem_append_right _ (List.mem_singleton_self p)
  · simp only [Result.success, if_true, RoomManager.getRoom, hr]
    exact notified_except hr (hl r _ hr).1 _

/-- A player who leaves is told to those who remain. -/
theorem leaveRoomAndNotify_notified (hl : Listing (m.leaveRoom r p).1)
    (hc : Counted (m.leaveRoom r p).1) (hm : Listing m)
    (h : (m.leaveRoomAndNotify r p).2.1.ok = true) :
    ∃ room, (m.leaveRoomAndNotify r p).1.rooms.lookup r = some room ∧ p ∉ room.players ∧
      room.playerCount.toInt = room.players.length ∧
      Notified (m.leaveRoomAndNotify r p).2.2 (· ∈ room.players)
        (.playerLeaveNtf r p room.playerCount) := by
  unfold RoomManager.leaveRoomAndNotify at h ⊢
  rcases m.leaveRoom_cases r p with ⟨-, hno⟩ | ⟨room, state, hroom, -, he⟩
  · simp [hno] at h
  rw [he] at hl hc ⊢
  have hr : (m.rooms.insert r { room with players := room.players.erase p, state }).lookup r =
      some { room with players := room.players.erase p, state } := AList.lookup_insert _
  refine ⟨_, hr, (hm r room hroom).1.not_mem_erase, (hc r _ hr).1.playerCount, ?_⟩
  simp only [Result.success, if_true, RoomManager.getRoom, hr]
  split_ifs with hd
  · have hempty : room.players.erase p = [] := (hc r _ hr).2 hd
    rw [hempty]
    exact notified_map _ List.nodup_nil
  · exact notified_room hr (hl r _ hr).1 _

/-- The start of a game is told to all members. -/
theorem startGameAndNotify_notified {now : ℤ} (hm : Listing m)
    (h : (m.startGameAndNotify r p now).2.1.ok = true) :
    ∃ room, (m.startGameAndNotify r p now).1.rooms.lookup r = some room ∧
      Notified (m.startGameAndNotify r p now).2.2 (· ∈ room.players) (.gameStartNtf r now) := by
  unfold RoomManager.startGameAndNotify at h ⊢
  rcases m.startGame_cases r p with ⟨-, hno⟩ | ⟨room, hroom, -, -, he⟩
  · simp [hno] at h
  rw [he]
  have hr : (m.rooms.insert r { room with state := .playing }).lookup r =
      some { room with state := .playing } := AList.lookup_insert _
  have hplayers : ({ room with state := .playing } : GameRoom).players.Nodup := (hm r room hroom).1
  exact ⟨_, hr, notified_room hr hplayers _⟩

/-- In every state that operations lead to: a refused `CreateRoom`, `JoinRoomAndNotify`,
`LeaveRoomAndNotify` or `StartGameAndNotify` leaves the rooms, the index and the counter as they are
and sends nothing; a join is told to the other members, a leave to those who remain, a start to all
members, to each once, with the number of players after the operation. -/
theorem operations_notify (h : Reach step Whole {} m) :
    (∀ p n timeoutMs now, (m.createRoom p n timeoutMs now).2.ok = false →
      (m.createRoom p n timeoutMs now).1 = m) ∧
    (∀ now req, (createRoom m now req).events = []) ∧
    (∀ r p, ((m.joinRoomAndNotify r p).2.1.ok = false →
        (m.joinRoomAndNotify r p).1 = m ∧ (m.joinRoomAndNotify r p).2.2 = []) ∧
      ((m.joinRoomAndNotify r p).2.1.ok = true →
        ∃ room, (m.joinRoomAndNotify r p).1.rooms.lookup r = some room ∧ p ∈ room.players ∧
          room.playerCount.toInt = room.players.length ∧
          Notified (m.joinRoomAndNotify r p).2.2 (fun q => q ∈ room.players ∧ q ≠ p)
            (.playerJoinNtf r p room.playerCount))) ∧
    (∀ r p, ((m.leaveRoomAndNotify r p).2.1.ok = false →
        (m.leaveRoomAndNotify r p).1 = m ∧ (m.leaveRoomAndNotify r p).2.2 = []) ∧
      ((m.leaveRoomAndNotify r p).2.1.ok = true →
        ∃ room, (m.leaveRoomAndNotify r p).1.rooms.lookup r = some room ∧ p ∉ room.players ∧
          room.playerCount.toInt = room.players.length ∧
          Notified (m.leaveRoomAndNotify r p).2.2 (· ∈ room.players)
            (.playerLeaveNtf r p room.playerCount))) ∧
    ∀ r p now, ((m.startGameAndNotify r p now).2.1.ok = false →
        (m.startGameAndNotify r p now).1 = m ∧ (m.startGameAndNotify r p now).2.2 = []) ∧
      ((m.startGameAndNotify r p now).2.1.ok = true →
        ∃ room, (m.startGameAndNotify r p now).1.rooms.lookup r = some room ∧
          Notified (m.startGameAndNotify r p now).2.2 (· ∈ room.players) (.gameStartNtf r now)) := by
  have hl := listing_reach h
  have hc := counted_reach h
  refine ⟨fun p n timeoutMs now => createRoom_refused, createRoom_events m,
    fun r p => ⟨joinRoomAndNotify_refused, ?_⟩, fun r p => ⟨leaveRoomAndNotify_refused, ?_⟩,
    fun r p now => ⟨startGameAndNotify_refused, startGameAndNotify_notified hl⟩⟩
  · exact joinRoomAndNotify_notified (hl.perform (.manager (.joinRoom r p)))
      (hc.perform (show Whole m (.manager (.joinRoom r p)) from trivial))
  · exact leaveRoomAndNotify_notified (hl.perform (.manager (.leaveRoom r p)))
      (hc.perform (show Whole m (.manager (.leaveRoom r p)) from trivial)) hl

/-- Two players, of whom one leaves. -/
theorem operations_notify_leave : ∃ m : RoomManager, ∃ room,
    (m.leaveRoomAndNotify "room_001" "bob").1.rooms.lookup "room_001" = some room ∧
    Notified (m.leaveRoomAndNotify "room_001" "bob").2.2 (· ∈ room.players)
      (.playerLeaveNtf "room_001" "bob" room.playerCount) := by
  have hrun : (([.createRoom (some ⟨"ann", "room", 2⟩) 0, .joinRoom (some ⟨"bob", "room_001"⟩)]
      : List Op).foldlM (fun m op => if Whole m op then step m op else none)
        ({} : RoomManager)).map (fun m => (m.leaveRoomAndNotify "room_001" "bob").2.1.ok) =
      some true := by
    decide +kernel
  obtain ⟨m, hm, hok⟩ := Option.map_eq_some_iff.1 hrun
  obtain ⟨-, -, -, hleave, -⟩ := operations_notify (Reach.of_foldlM _ hm)
  obtain ⟨room, hr, -, -, hnotified⟩ := (hleave "room_001" "bob").2 hok
  exact ⟨m, room, hr, hnotified⟩

end RoomServiceImpl

end TinRpc
