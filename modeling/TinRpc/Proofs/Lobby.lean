import TinRpc.Lib.Reach
import TinRpc.Lobby
import TinRpc.Proofs.Matching
import TinRpc.Proofs.Rooms

/-!
# What operations do to the lobby

Every operation keeps the rooms in line with the index and nobody in the queue twice, as long as
the names of new rooms are not in use (`fine_reach`). The rooms of a round of matching bring the
players of a pair together where neither was in a room or both were in one, and leave everybody
else where he was (`Housed`).
-/

namespace TinRpc

open Transition MatchQueue

namespace RoomManager

/-- The next `n` names for rooms differ, and no room has one of them. -/
def Unused (m : RoomManager) (n : ℕ) : Prop :=
  n ≤ 2 ^ 64 ∧ ∀ k < n, m.rooms.lookup (roomName (m.roomIdCounter + UInt64.ofNat k)) = none

instance (m : RoomManager) (n : ℕ) : Decidable (m.Unused n) :=
  inferInstanceAs (Decidable (_ ∧ _))

/-- Whether a player is in no room. -/
def free (m : RoomManager) (p : String) : Bool := (m.playerRoom.lookup p).isNone

variable {m m' : RoomManager} {n : ℕ}

theorem Unused.name (h : m.Unused (n + 1)) : m.rooms.lookup (roomName m.roomIdCounter) = none := by
  have hzero := h.2 0 (Nat.succ_pos n)
  rwa [show UInt64.ofNat 0 = 0 from rfl, UInt64.add_zero] at hzero

/-- The name that is used next differs from those behind it. -/
theorem name_ne {c : UInt64} {k : ℕ} (hk : k + 1 < 2 ^ 64) :
    roomName (c + 1 + UInt64.ofNat k) ≠ roomName c := by
  intro h
  have hc := congrArg UInt64.toNat (roomName_injective h)
  rw [UInt64.toNat_add, UInt64.toNat_add, UInt64.toNat_ofNat', UInt64.toNat_one] at hc
  have := c.toNat_lt
  omega

/-- Once a room has the next name, one fewer are free. -/
theorem Unused.next (h : m.Unused (n + 1)) (hc : m'.roomIdCounter = m.roomIdCounter + 1)
    (hr : ∀ r ≠ roomName m.roomIdCounter, m'.rooms.lookup r = m.rooms.lookup r) : m'.Unused n := by
  obtain ⟨hn, hfree⟩ := h
  refine ⟨by omega, fun k hk => ?_⟩
  rw [hc, hr _ (name_ne (by omega))]
  have hnext := hfree (k + 1) (by omega)
  rwa [Nat.add_comm k 1, UInt64.ofNat_add, ← UInt64.add_assoc] at hnext

/-- Who is in a room that exists does not join another one. -/
theorem joinRoom_elsewhere {r roomId p : String} (hp : m.playerRoom.lookup p = some r)
    (hne : r ≠ roomId) : (m.joinRoom roomId p).1 = m := by
  rcases joinRoom_cases m roomId p with ⟨hm, -⟩ | ⟨room, -, hnone | hsome, -, -⟩
  · exact hm
  · rw [hp] at hnone
    cases hnone
  · rw [hp, Option.some.injEq] at hsome
    exact absurd hsome hne

/-- Who is in no room joins one that takes him. -/
theorem joinRoom_free {room : GameRoom} {roomId p : String} (hr : m.rooms.lookup roomId = some room)
    (hp : m.playerRoom.lookup p = none) (hadd : (room.addPlayer p).2.ok = true) :
    (m.joinRoom roomId p).1 = { m with
      rooms := m.rooms.insert roomId (room.addPlayer p).1
      playerRoom := m.playerRoom.insert p roomId } := by
  unfold joinRoom
  rw [hr]
  simp only [hp, Option.any_none, Bool.false_eq_true, if_false, hadd, if_true]

theorem Orderly.lookup_ne {roomId : String} (h : m.Orderly) (hr : m.rooms.lookup roomId = none)
    (p : String) : m.playerRoom.lookup p ≠ some roomId := by
  intro hp
  obtain ⟨room, hroom, -⟩ := (h.indexed p roomId).1 hp
  rw [hr] at hroom
  cases hroom

/-- Nothing is done where there is no room, or where nothing is to do. -/
theorem atRoom_eq_self {roomId : String} {f : GameRoom → GameRoom}
    (hf : ∀ room ∈ m.rooms.lookup roomId, f room = room) : m.atRoom roomId f = m := by
  unfold atRoom
  rw [AList.modify_eq_self hf]

theorem atRoom_missing {roomId : String} {f : GameRoom → GameRoom} (h : m.getRoom roomId = none) :
    m.atRoom roomId f = m :=
  atRoom_eq_self fun room hroom => by
    rw [show m.rooms.lookup roomId = none from h] at hroom
    cases hroom

/-- `m'` is `m` with one more room, `room`, under the next name, and `p` in it. -/
structure Opened (m : RoomManager) (p : String) (room : GameRoom) (m' : RoomManager) : Prop where
  orderly : m'.Orderly
  counter : m'.roomIdCounter = m.roomIdCounter + 1
  room : m'.rooms.lookup (roomName m.roomIdCounter) = some room
  others : ∀ r ≠ roomName m.roomIdCounter, m'.rooms.lookup r = m.rooms.lookup r
  index : ∀ q, m'.playerRoom.lookup q =
    if q = p then some (roomName m.roomIdCounter) else m.playerRoom.lookup q

theorem createRoom_opened {p : String} {maxPlayers : Int32} (h : m.Orderly) (hfree : m.free p)
    (hmax : 1 ≤ maxPlayers) (hname : m.rooms.lookup (roomName m.roomIdCounter) = none)
    (timeoutMs at_ : ℤ) : ∃ m₁ timer,
      m.createRoom p maxPlayers timeoutMs at_ = (m₁, .createSuccess (roomName m.roomIdCounter)) ∧
      m.Opened p ({ GameRoom.new (roomName m.roomIdCounter) p maxPlayers with timer }.setState
        .waiting) (m₁.atRoom (roomName m.roomIdCounter) (·.setState .waiting)) := by
  have hcreated := h.createRoom p maxPlayers timeoutMs at_ hmax fun _ => hname
  rcases m.createRoom_cases p maxPlayers timeoutMs at_ with ⟨hin, he⟩ | ⟨-, timer, -, he⟩
  · rw [free, Option.isNone_iff_eq_none] at hfree
    rw [hfree] at hin
    cases hin
  rw [he] at hcreated
  refine ⟨_, timer, he, hcreated.atRoom _ (fun _ => rfl) fun _ => rfl, rfl, ?_, fun r hr => ?_,
    fun q => AList.lookup_insert_if _ _ _ _⟩
  · exact (AList.lookup_modify _ _ _ _).trans (by rw [if_pos rfl, AList.lookup_insert]; rfl)
  · exact (AList.lookup_modify _ _ _ _).trans (by rw [if_neg hr, AList.lookup_insert_ne hr])

end RoomManager

namespace GameLobby

variable {E : Type} {g g' : GameLobby E} {now : ℤ} {m : Matched E}

/-- Two players have the same room in the index. -/
def SameRoom (g : GameLobby E) (p q : String) : Prop :=
  ∃ r, g.roomMgr.playerRoom.lookup p = some r ∧ g.roomMgr.playerRoom.lookup q = some r

/-- How many of the matches get a room. -/
def creations (g : GameLobby E) (ms : List (Matched E)) : ℕ :=
  ms.countP fun m => g.roomMgr.free m.p1

/-- What the callbacks of matches do to the rooms: the players of the matches end up in one room
where neither was in a room or both were in one, and the others stay where they are. -/
structure Housed (ms : List (Matched E)) (g g' : GameLobby E) : Prop where
  orderly : g'.roomMgr.Orderly
  queue : g'.matchQueue = g.matchQueue
  others : ∀ p ∉ pairIds ms, g'.roomMgr.playerRoom.lookup p = g.roomMgr.playerRoom.lookup p
  pairs : ∀ m ∈ ms, g'.SameRoom m.p1 m.p2 ↔
    g.roomMgr.free m.p1 ∧ g.roomMgr.free m.p2 ∨ g.SameRoom m.p1 m.p2
  unused : ∀ n, g.roomMgr.Unused (g.creations ms + n) → g'.roomMgr.Unused n

/-- A match's room takes the second player. -/
theorem addPlayer_second {rid p q : String} {timer : TimerManager RoomCallback} (hne : p ≠ q) :
    ((({ GameRoom.new rid p 2 with timer }).setState .waiting).addPlayer q).2.ok = true := by
  have hhas : (({ GameRoom.new rid p 2 with timer }).setState .waiting).hasPlayer q = false := by
    simpa [GameRoom.hasPlayer, GameRoom.setState, GameRoom.new] using hne.symm
  have hfull : (({ GameRoom.new rid p 2 with timer := timer }).setState .waiting).isFull = false :=
    rfl
  unfold GameRoom.addPlayer
  rw [hhas, hfull]
  rfl

/-- The room of a match: the name it takes, and who is in which room after it. -/
theorem onMatchFound_free (now : ℤ) (h : g.roomMgr.Orderly) (hne : m.p1 ≠ m.p2)
    (hfree : g.roomMgr.free m.p1 = true)
    (hname : g.roomMgr.rooms.lookup (RoomManager.roomName g.roomMgr.roomIdCounter) = none) :
    ∃ mgr timer,
      (g.onMatchFound now m).1 = { g with roomMgr := mgr, timer := timer } ∧ mgr.Orderly ∧
      mgr.roomIdCounter = g.roomMgr.roomIdCounter + 1 ∧
      (∀ r ≠ RoomManager.roomName g.roomMgr.roomIdCounter,
        mgr.rooms.lookup r = g.roomMgr.rooms.lookup r) ∧
      ∀ p, mgr.playerRoom.lookup p =
        if p = m.p1 ∨ p = m.p2 ∧ g.roomMgr.free m.p2
        then some (RoomManager.roomName g.roomMgr.roomIdCounter)
        else g.roomMgr.playerRoom.lookup p := by
  obtain ⟨m₁, timer, he, hopened⟩ := RoomManager.createRoom_opened h hfree
    (by decide : (1 : Int32) ≤ 2) hname kDefaultRoomTimeoutMs (steady now)
  unfold onMatchFound
  rw [he]
  simp only [Result.createSuccess, if_true]
  refine ⟨_, _, rfl, hopened.orderly.joinRoom _ m.p2, ?_⟩
  generalize m₁.atRoom _ (·.setState .waiting) = opened at *
  have hsecond := hopened.index m.p2
  rw [if_neg hne.symm] at hsecond
  rcases hp2 : g.roomMgr.playerRoom.lookup m.p2 with _ | r
  · rw [hp2] at hsecond
    rw [RoomManager.joinRoom_free hopened.room hsecond (addPlayer_second hne)]
    refine ⟨hopened.counter, fun r hr => (AList.lookup_insert_ne hr).trans (hopened.others r hr),
      fun p => ?_⟩
    simp only [AList.lookup_insert_if, hopened.index, RoomManager.free, hp2, Option.isNone_none,
      and_true]
    by_cases h1 : p = m.p1
    · simp [h1]
    · simp [h1]
  · rw [hp2] at hsecond
    have hr : r ≠ RoomManager.roomName g.roomMgr.roomIdCounter := by
      rintro rfl
      exact h.lookup_ne hname m.p2 hp2
    rw [RoomManager.joinRoom_elsewhere hsecond hr]
    refine ⟨hopened.counter, hopened.others, fun p => ?_⟩
    simp only [hopened.index, RoomManager.free, hp2, Option.isNone_some, Bool.false_eq_true,
      and_false, or_false]

/-- Where the first player is in a room, nothing happens. -/
theorem onMatchFound_busy (hbusy : g.roomMgr.free m.p1 = false) :
    g.onMatchFound now m = (g, []) := by
  unfold onMatchFound
  rcases g.roomMgr.createRoom_cases m.p1 2 kDefaultRoomTimeoutMs (steady now) with
    ⟨-, he⟩ | ⟨hfree, -⟩
  · rw [he]
    rfl
  · rw [RoomManager.free, hfree] at hbusy
    cases hbusy

theorem housed_onMatchFound (h : g.roomMgr.Orderly) (hne : m.p1 ≠ m.p2)
    (hname : g.roomMgr.free m.p1 = true →
      g.roomMgr.rooms.lookup (RoomManager.roomName g.roomMgr.roomIdCounter) = none) :
    Housed [m] g (g.onMatchFound now m).1 := by
  rcases hfree : g.roomMgr.free m.p1 with _ | _
  · rw [onMatchFound_busy hfree]
    exact ⟨h, rfl, fun _ _ => rfl, by simp [hfree], fun n hn => by
      simpa [creations, hfree] using hn⟩
  · obtain ⟨mgr, timer, he, ho, hc, hr, hp⟩ := onMatchFound_free now h hne hfree (hname hfree)
    rw [he]
    refine ⟨ho, rfl, fun p hout => ?_, ?_, fun n hn => ?_⟩
    · simp only [pairIds, List.flatMap_cons, List.flatMap_nil, List.append_nil, List.mem_cons,
        List.not_mem_nil, or_false, not_or] at hout
      rw [hp p, if_neg]
      rintro (rfl | ⟨rfl, -⟩)
      · exact hout.1 rfl
      · exact hout.2 rfl
    · rw [List.forall_mem_singleton]
      have hp1 : mgr.playerRoom.lookup m.p1 =
          some (RoomManager.roomName g.roomMgr.roomIdCounter) := by
        rw [hp, if_pos (.inl rfl)]
      have hnot : ¬ g.SameRoom m.p1 m.p2 := by
        rintro ⟨r, hr, -⟩
        rw [RoomManager.free, hr] at hfree
        cases hfree
      rw [or_iff_left hnot]
      constructor
      · rintro ⟨r, hr1, hr2⟩
        refine ⟨hfree, ?_⟩
        rw [hp1, Option.some.injEq] at hr1
        by_contra hbusy
        rw [hp, if_neg (by rintro (heq | ⟨-, hfree⟩) <;> [exact hne heq.symm; exact hbusy hfree]),
          ← hr1] at hr2
        exact h.lookup_ne (hname hfree) _ hr2
      · rintro ⟨-, hfree2⟩
        exact ⟨_, hp1, by rw [hp, if_pos (.inr ⟨rfl, hfree2⟩)]⟩
    · refine RoomManager.Unused.next ?_ hc hr
      simpa [creations, hfree, Nat.add_comm] using hn

theorem mem_pairIds {ms : List (Matched E)} (hm : m ∈ ms) : m.p1 ∈ pairIds ms ∧ m.p2 ∈ pairIds ms :=
  ⟨List.mem_flatMap.2 ⟨m, hm, by simp⟩, List.mem_flatMap.2 ⟨m, hm, by simp⟩⟩

/-- The first of several matches has a name for its room, and leaves the players of the others where
they are. -/
theorem first_match {ms : List (Matched E)} (now : ℤ) (h : g.roomMgr.Orderly)
    (hd : (pairIds (m :: ms)).Nodup) (hu : g.roomMgr.Unused (g.creations (m :: ms))) :
    (g.roomMgr.free m.p1 = true →
      g.roomMgr.rooms.lookup (RoomManager.roomName g.roomMgr.roomIdCounter) = none) ∧
    Housed [m] g (g.onMatchFound now m).1 ∧
    (∀ p ∈ pairIds ms, (g.onMatchFound now m).1.roomMgr.playerRoom.lookup p =
      g.roomMgr.playerRoom.lookup p) ∧
    (g.onMatchFound now m).1.creations ms = g.creations ms ∧
    (pairIds ms).Nodup ∧
    (g.onMatchFound now m).1.roomMgr.Unused ((g.onMatchFound now m).1.creations ms) := by
  obtain ⟨hm, hms, hdisjoint⟩ :=
    List.nodup_append.1 (show ([m.p1, m.p2] ++ pairIds ms).Nodup from hd)
  have hname : g.roomMgr.free m.p1 = true →
      g.roomMgr.rooms.lookup (RoomManager.roomName g.roomMgr.roomIdCounter) = none := by
    intro hfree
    refine RoomManager.Unused.name (n := g.creations ms) ?_
    simpa [creations, List.countP_cons, hfree] using hu
  have hfirst : Housed [m] g (g.onMatchFound now m).1 :=
    housed_onMatchFound h (by simpa using hm) hname
  have hkept : ∀ p ∈ pairIds ms, (g.onMatchFound now m).1.roomMgr.playerRoom.lookup p =
      g.roomMgr.playerRoom.lookup p :=
    fun p hp => hfirst.others p fun hin => hdisjoint p hin p hp rfl
  have hcount : (g.onMatchFound now m).1.creations ms = g.creations ms :=
    List.countP_congr fun m' hm' => by
      unfold RoomManager.free
      rw [hkept _ (mem_pairIds hm').1]
  refine ⟨hname, hfirst, hkept, hcount, hms, hfirst.unused _ ?_⟩
  rw [hcount]
  simpa [creations, List.countP_cons, Nat.add_comm] using hu

/-- What each match keeps whose room has a name, all the matches keep. -/
theorem onMatches_rule {P : GameLobby E → Prop}
    (hP : ∀ g m, (g.roomMgr.free m.p1 = true →
      g.roomMgr.rooms.lookup (RoomManager.roomName g.roomMgr.roomIdCounter) = none) →
      P g → P (g.onMatchFound now m).1) :
    ∀ (ms : List (Matched E)) {g : GameLobby E}, g.roomMgr.Orderly → (pairIds ms).Nodup →
      g.roomMgr.Unused (g.creations ms) → P g → P (onMatches now ms g).1
  | [], _, _, _, _, hg => hg
  | m :: ms, g, h, hd, hu, hg => by
    obtain ⟨hname, hfirst, -, -, hms, hrest⟩ := first_match now h hd hu
    exact onMatches_rule hP ms hfirst.orderly hms hrest (hP g m hname hg)

/-- The callbacks of matches between different players, in turn. -/
theorem housed_onMatches : ∀ (ms : List (Matched E)) {g : GameLobby E}, g.roomMgr.Orderly →
    (pairIds ms).Nodup → g.roomMgr.Unused (g.creations ms) →
    Housed ms g (onMatches now ms g).1
  | [], g, h, _, _ => ⟨h, rfl, fun _ _ => rfl, by simp, fun n hn => by
      rwa [creations, List.countP_nil, Nat.zero_add] at hn⟩
  | m :: ms, g, h, hd, hu => by
    obtain ⟨-, hfirst, hkept, hcount, hms, hunused⟩ := first_match now h hd hu
    have hfree : ∀ p ∈ pairIds ms, (g.onMatchFound now m).1.roomMgr.free p = g.roomMgr.free p :=
      fun p hp => congrArg Option.isNone (hkept p hp)
    have hrest := housed_onMatches ms hfirst.orderly hms hunused
    refine ⟨hrest.orderly, hrest.queue.trans hfirst.queue, fun p hp => ?_, ?_, fun n hn => ?_⟩
    · exact (hrest.others p fun hin => hp (List.mem_append_right _ hin)).trans
        (hfirst.others p fun hin => hp (List.mem_append_left _ hin))
    · refine List.forall_mem_cons.2 ⟨?_, fun m' hm' => ?_⟩
      · rw [← hfirst.pairs m List.mem_cons_self]
        obtain ⟨-, -, hdisjoint⟩ :=
          List.nodup_append.1 (show ([m.p1, m.p2] ++ pairIds ms).Nodup from hd)
        have hout : ∀ p ∈ [m.p1, m.p2],
            (onMatches now ms (g.onMatchFound now m).1).1.roomMgr.playerRoom.lookup p =
              (g.onMatchFound now m).1.roomMgr.playerRoom.lookup p :=
          fun p hp => hrest.others p fun hin => hdisjoint p hp p hin rfl
        have h1 := hout m.p1 (by simp)
        have h2 := hout m.p2 (by simp)
        unfold SameRoom
        rw [← h1, ← h2]
        rfl
      · refine (hrest.pairs m' hm').trans ?_
        unfold SameRoom
        obtain ⟨h1, h2⟩ := mem_pairIds hm'
        rw [hfree _ h1, hfree _ h2, hkept _ h1, hkept _ h2]
    · refine hrest.unused n (hfirst.unused _ ?_)
      rw [hcount, ← Nat.add_assoc]
      simpa [creations, List.countP_cons, Nat.add_comm] using hn

end GameLobby

namespace RoomServiceImpl

variable {m : RoomManager} {now : ℤ}

/-- The number of places that the handler of `CreateRoom` asks for. -/
theorem maxPlayers_pos (n : Int32) : 1 ≤ (if 0 < n then n else 4 : Int32) := by
  split_ifs with h
  · rw [Int32.lt_iff_toInt_lt] at h
    exact Int32.le_iff_toInt_le.2 h
  · decide

/-- What a handler does to a room in its place. -/
inductive Change (now : ℤ) : (GameRoom → GameRoom) → Prop
  | waiting : Change now (·.setState .waiting)
  | started : Change now (startRoom now)
  | input (k : UInt32) (p : String) (data : List UInt8) :
    Change now (·.onPlayerFrameInput k p data)
  | stopped : Change now fun room => room.stopFrameSync.setState .finished

/-- A change leaves the players and their number. -/
theorem Change.players {f : GameRoom → GameRoom} (h : Change now f) (room : GameRoom) :
    (f room).players = room.players ∧ (f room).maxPlayers = room.maxPlayers := by
  cases h with
  | waiting => exact ⟨rfl, rfl⟩
  | started =>
    unfold startRoom GameRoom.startFrameSync
    simp only []
    split
    · split_ifs <;> exact ⟨rfl, rfl⟩
    · split_ifs <;> exact ⟨rfl, rfl⟩
  | input => exact ⟨rfl, rfl⟩
  | stopped => exact ⟨rfl, rfl⟩

theorem createRoom_state (req : CreateRoomReq) : (createRoom m now (some req)).state =
    let r := m.createRoom req.playerId (if 0 < req.maxPlayers then req.maxPlayers else 4)
      kDefaultRoomTimeoutMs (steady now)
    if r.2.ok then r.1.atRoom r.2.roomId (·.setState .waiting) else r.1 := by
  unfold createRoom
  simp only []
  generalize (if 0 < req.maxPlayers then req.maxPlayers else 4) = n
  split <;> rfl

theorem joinRoom_state (req : JoinRoomReq) :
    (joinRoom m (some req)).state = (m.joinRoom req.roomId req.playerId).1 := by
  unfold joinRoom RoomManager.joinRoomAndNotify
  simp only []
  split_ifs <;> rfl

theorem leaveRoomAndNotify_rooms (m : RoomManager) (roomId p : String) :
    (m.leaveRoomAndNotify roomId p).1 = (m.leaveRoom roomId p).1 := by
  unfold RoomManager.leaveRoomAndNotify
  simp only []
  split_ifs <;> rfl

theorem leaveRoom_state (req : LeaveRoomReq) :
    (leaveRoom m (some req)).state = (m.leaveRoom req.roomId req.playerId).1 := by
  rw [← leaveRoomAndNotify_rooms]
  unfold leaveRoom
  simp only []
  split_ifs <;> rfl

theorem sendMessage_state (req : Option SendMessageReq) : (sendMessage m now req).state = m := by
  unfold sendMessage
  split
  · rfl
  · split <;> rfl

theorem getRoomList_state (parsed : Bool) : (getRoomList m parsed).state = m := by
  unfold getRoomList
  split_ifs <;> rfl

theorem startGame_state (req : StartGameReq) : (startGame m now (some req)).state =
    let r := m.startGame req.roomId req.playerId
    if r.2.ok then r.1.atRoom req.roomId (startRoom now) else r.1 := by
  unfold startGame RoomManager.startGameAndNotify
  simp only []
  rcases hok : (m.startGame req.roomId req.playerId).2.ok with _ | _
  · simp only [hok, Bool.false_eq_true, if_false]
  · rfl

theorem sendInput_state (req : PlayerInputReq) : (sendInput m (some req)).state =
    if m.getPlayerRoom req.playerId = "" then m
    else m.atRoom (m.getPlayerRoom req.playerId)
      (·.onPlayerFrameInput req.frameNo req.playerId req.inputData) := by
  unfold sendInput
  simp only []
  split
  · rfl
  · rcases hroom : m.getRoom (m.getPlayerRoom req.playerId) with _ | room
    · exact (RoomManager.atRoom_missing hroom).symm
    · rfl

theorem stopGame_state (req : StopGameReq) : (stopGame m (some req)).state =
    m.atRoom req.roomId fun room => room.stopFrameSync.setState .finished := by
  unfold stopGame
  simp only []
  rcases hroom : m.getRoom req.roomId with _ | room
  · exact (RoomManager.atRoom_missing hroom).symm
  · rfl

section Rules

variable {Q : RoomManager → Prop}
  (change : ∀ m roomId f, Q m → Change now f → Q (m.atRoom roomId f))

include change

/-- A new room is marked as WAITING. -/
theorem createRoom_rule {req : CreateRoomReq} (create : ∀ n, 1 ≤ n →
    Q (m.createRoom req.playerId n kDefaultRoomTimeoutMs (steady now)).1) :
    Q (createRoom m now (some req)).state := by
  rw [createRoom_state]
  have hcreated := create _ (maxPlayers_pos req.maxPlayers)
  generalize (if 0 < req.maxPlayers then req.maxPlayers else 4) = n at hcreated ⊢
  simp only []
  split
  · exact change _ _ _ hcreated .waiting
  · exact hcreated

/-- The frames of a game that is started begin. -/
theorem startGame_rule {req : StartGameReq}
    (start : Q (m.startGame req.roomId req.playerId).1) :
    Q (startGame m now (some req)).state := by
  rw [startGame_state]
  simp only []
  split
  · exact change _ _ _ start .started
  · exact start

theorem sendInput_rule {req : PlayerInputReq} (same : Q m) :
    Q (sendInput m (some req)).state := by
  rw [sendInput_state]
  split
  · exact same
  · exact change _ _ _ same (.input _ _ _)

end Rules

end RoomServiceImpl

/-! ## Runs -/

namespace GameLobby

variable {E : Type} [Doubles E] {g g' : GameLobby E} {now : ℤ}

/-- How many rooms an operation creates. -/
def creates (g : GameLobby E) : Op E → ℕ
  | .request (.createRoom (some req)) _ _ => if g.roomMgr.free req.playerId then 1 else 0
  | .request (.enterMatch (some req)) _ now =>
    g.creations ((g.enterQueue now req.playerId req.eloScore).matchQueue.tryMatch now).2
  | .tryMatch now => g.creations (g.matchQueue.tryMatch now).2
  | _ => 0

/-- No room has a name that the operation gives to a new one. -/
def NamesUnused (g : GameLobby E) (op : Op E) : Prop := g.roomMgr.Unused (g.creates op)

instance (g : GameLobby E) (op : Op E) : Decidable (NamesUnused g op) :=
  inferInstanceAs (Decidable (g.roomMgr.Unused _))

omit [Doubles E] in
/-- The rooms agree with the index, and nobody is in the queue twice. -/
structure Fine (g : GameLobby E) : Prop where
  rooms : g.roomMgr.Orderly
  queue : g.matchQueue.Distinct

theorem fine_new : Fine (new : GameLobby E) := ⟨RoomManager.orderly_new, List.nodup_nil⟩

/-- A round of matching, with what it does to the players of the pairs. -/
theorem housed_tryMatch (h : Fine g)
    (hu : g.roomMgr.Unused (g.creations (g.matchQueue.tryMatch now).2)) :
    Housed (g.matchQueue.tryMatch now).2 { g with matchQueue := (g.matchQueue.tryMatch now).1 }
      (g.tryMatch now).1 :=
  housed_onMatches _ h.rooms (h.queue.tryMatch now).2.1 hu

theorem Fine.tryMatch (h : Fine g)
    (hu : g.roomMgr.Unused (g.creations (g.matchQueue.tryMatch now).2)) :
    Fine (g.tryMatch now).1 := by
  have hhoused := housed_tryMatch h hu
  refine ⟨hhoused.orderly, ?_⟩
  rw [hhoused.queue]
  exact (h.queue.tryMatch now).1

theorem Fine.enterQueue (h : Fine g) (now : ℤ) (p : String) (score : E) :
    Fine (g.enterQueue now p score) :=
  ⟨h.rooms, h.queue.enterQueue now p score⟩

/-- A request leaves the rooms as they are or does one of these things to them. -/
theorem handle_rule {Q : RoomManager → Prop} {r : LobbyRequest E} {metrics : Metrics}
    (same : Q g.roomMgr)
    (create : ∀ req n, r = .createRoom (some req) → 1 ≤ n →
      Q (g.roomMgr.createRoom req.playerId n kDefaultRoomTimeoutMs (steady now)).1)
    (join : ∀ roomId p, Q (g.roomMgr.joinRoom roomId p).1)
    (leave : ∀ roomId p, Q (g.roomMgr.leaveRoom roomId p).1)
    (start : ∀ roomId p, Q (g.roomMgr.startGame roomId p).1)
    (change : ∀ m roomId f, Q m → RoomServiceImpl.Change now f → Q (m.atRoom roomId f))
    (enter : ∀ req, r = .enterMatch (some req) →
      Q ((g.enterQueue now req.playerId req.eloScore).tryMatch now).1.roomMgr) :
    Q (g.handle now metrics r).state.roomMgr := by
  cases r with
  | createRoom req =>
    cases req with
    | none => exact same
    | some req =>
      show Q (RoomServiceImpl.createRoom g.roomMgr now (some req)).state
      exact RoomServiceImpl.createRoom_rule change fun n hn => create req n rfl hn
  | joinRoom req =>
    cases req with
    | none => exact same
    | some req =>
      show Q (RoomServiceImpl.joinRoom g.roomMgr (some req)).state
      rw [RoomServiceImpl.joinRoom_state]
      exact join _ _
  | leaveRoom req =>
    cases req with
    | none => exact same
    | some req =>
      show Q (RoomServiceImpl.leaveRoom g.roomMgr (some req)).state
      rw [RoomServiceImpl.leaveRoom_state]
      exact leave _ _
  | sendMessage req =>
    show Q (RoomServiceImpl.sendMessage g.roomMgr now req).state
    rw [RoomServiceImpl.sendMessage_state]
    exact same
  | getRoomList parsed =>
    show Q (RoomServiceImpl.getRoomList g.roomMgr parsed).state
    rw [RoomServiceImpl.getRoomList_state]
    exact same
  | startGame req =>
    cases req with
    | none => exact same
    | some req =>
      show Q (RoomServiceImpl.startGame g.roomMgr now (some req)).state
      exact RoomServiceImpl.startGame_rule change (start _ _)
  | sendInput req =>
    cases req with
    | none => exact same
    | some req =>
      show Q (RoomServiceImpl.sendInput g.roomMgr (some req)).state
      exact RoomServiceImpl.sendInput_rule change same
  | stopGame req =>
    cases req with
    | none => exact same
    | some req =>
      show Q (RoomServiceImpl.stopGame g.roomMgr (some req)).state
      rw [RoomServiceImpl.stopGame_state]
      exact change _ _ _ same .stopped
  | getMetrics => exact same
  | enterMatch req =>
    cases req with
    | none => exact same
    | some req => exact enter req rfl
  | cancelMatch req => cases req <;> exact same

omit [Doubles E] in
/-- A disconnect leaves the rooms as they are or takes the player out of his. -/
theorem drop_rule {Q : RoomManager → Prop} {p : String} (same : Q g.roomMgr)
    (leave : ∀ roomId, Q (g.roomMgr.leaveRoom roomId p).1) : Q (g.drop p).1.roomMgr := by
  unfold GameLobby.drop
  simp only []
  split
  · exact same
  · show Q (g.roomMgr.leaveRoomAndNotify _ p).1
    rw [RoomServiceImpl.leaveRoomAndNotify_rooms]
    exact leave _

theorem Fine.handle (h : Fine g) {r : LobbyRequest E} {metrics : Metrics}
    (hu : NamesUnused g (.request r metrics now)) : Fine (g.handle now metrics r).state where
  rooms := by
    refine handle_rule h.rooms (fun req n hr hn => ?_) h.rooms.joinRoom h.rooms.leaveRoom
      h.rooms.startGame (fun m roomId f hm hf => ?_) fun req hr => ?_
    · subst hr
      refine h.rooms.createRoom req.playerId n _ _ hn fun hfree =>
        RoomManager.Unused.name (n := 0) ?_
      have hone : g.creates (.request (.createRoom (some req)) metrics now) = 1 := by
        simp [creates, RoomManager.free, hfree]
      rwa [NamesUnused, hone] at hu
    · exact hm.atRoom roomId (fun room => (hf.players room).1) fun room => (hf.players room).2
    · subst hr
      exact ((h.enterQueue now req.playerId req.eloScore).tryMatch hu).rooms
  queue := by
    cases r with
    | enterMatch req =>
      cases req with
      | none => exact h.queue
      | some req => exact ((h.enterQueue now req.playerId req.eloScore).tryMatch hu).queue
    | cancelMatch req =>
      cases req with
      | none => exact h.queue
      | some p => exact h.queue.cancelMatch p
    | _ => exact h.queue

omit [Doubles E] in
theorem Fine.drop (h : Fine g) (p : String) : Fine (g.drop p).1 :=
  ⟨drop_rule h.rooms fun roomId => h.rooms.leaveRoom roomId p, h.queue.cancelMatch p⟩

theorem Fine.matchTimeout (h : Fine g) (now : ℤ) (t : MatchTimeout E) :
    Fine (g.matchTimeout now t) := by
  unfold GameLobby.matchTimeout
  split
  · exact h
  · split_ifs
    · exact h
    · refine Fine.enterQueue (Fine.enterQueue ?_ _ _ _) _ _ _
      exact ⟨h.rooms.removeRoom t.roomId, h.queue⟩

theorem Fine.tickLoop (now : ℤ) : ∀ (n : ℕ) {g : GameLobby E}, Fine g → Fine (g.tickLoop now n)
  | 0, _, h => h
  | n + 1, g, h => by
    unfold GameLobby.tickLoop
    split
    · exact h
    · next t tm _ =>
      have htaken : Fine { g with timer := tm } := ⟨h.rooms, h.queue⟩
      simp only []
      split
      · exact Fine.tickLoop now n (htaken.matchTimeout now _)
      · exact Fine.tickLoop now n htaken

theorem Fine.step {op : Op E} (h : Fine g) (hu : NamesUnused g op) (hs : step g op = some g') :
    Fine g' := by
  cases op with
  | request r metrics now => exact Option.some.inj hs ▸ h.handle hu
  | drop p => exact Option.some.inj hs ▸ h.drop p
  | enterQueue p score now => exact Option.some.inj hs ▸ h.enterQueue now p score
  | tryMatch now => exact Option.some.inj hs ▸ h.tryMatch hu
  | tick now => exact Option.some.inj hs ▸ Fine.tickLoop now _ ⟨h.rooms, h.queue⟩
  | checkRoomTimeout now =>
    exact Option.some.inj hs ▸ ⟨h.rooms.checkRoomTimeout (steady now), h.queue⟩

/-- The lobby of every run whose new rooms get unused names. -/
theorem fine_reach (h : Reach step NamesUnused new g) : Fine g :=
  h.invariant fine_new fun _ _ _ hf hu hs => hf.step hu hs

end GameLobby

end TinRpc
