import Mathlib.Data.Finset.Card
import TinRpc.Proofs.Residents

/-!
# Rooms that nobody is in

`LeaveRoom` marks an empty room DESTROYED and keeps it, and nothing in the server calls
`CleanupDestroyed` or `CheckRoomTimeout`. While nobody leaves a room that he is the only member of,
every room has a member, so there are no more rooms than members; and just the operations in which
somebody does so end this (`rooms_inhabited`).
-/

namespace TinRpc

open Transition

namespace RoomManager

variable {m : RoomManager}

/-- Every room has a member. -/
def Inhabited (m : RoomManager) : Prop :=
  ∀ r room, m.rooms.lookup r = some room → room.players ≠ []

/-- The players who are members of some room. -/
def members (m : RoomManager) : Finset String :=
  (m.rooms.entries.flatMap fun e => e.2.players).toFinset

theorem mem_members {p : String} : p ∈ m.members ↔
    ∃ r room, m.rooms.lookup r = some room ∧ p ∈ room.players := by
  unfold members
  rw [List.mem_toFinset, List.mem_flatMap]
  constructor
  · rintro ⟨⟨r, room⟩, he, hp⟩
    exact ⟨r, room, AList.mem_entries_iff.1 he, hp⟩
  · rintro ⟨r, room, hr, hp⟩
    exact ⟨⟨r, room⟩, AList.mem_entries_iff.2 hr, hp⟩

/-- Where every room has a member, there are at most as many rooms as members. -/
theorem Inhabited.card (h : m.Inhabited) (hl : m.Listed) :
    m.getAllRoomIds.length ≤ m.members.card := by
  have hnodup : m.getAllRoomIds.Nodup := m.rooms.nodupKeys
  rw [← List.toFinset_card_of_nodup hnodup]
  refine (Finset.card_le_card fun r hr => ?_).trans
    (Finset.card_image_le (s := m.members) (f := m.getPlayerRoom))
  obtain ⟨⟨r, room⟩, he, rfl⟩ := List.mem_map.1 (List.mem_toFinset.1 hr)
  have hr := AList.mem_entries_iff.1 he
  obtain ⟨p, hp⟩ := List.exists_mem_of_ne_nil _ (h r room hr)
  refine Finset.mem_image.2 ⟨p, mem_members.2 ⟨r, room, hr, hp⟩, ?_⟩
  rw [getPlayerRoom, hl.covered p r room hr hp]
  rfl

end RoomManager

namespace RoomServiceImpl

variable {m : RoomManager} {op : Op}

/-- Nobody leaves a room that he is the only member of. -/
def LeavesCompany (m : RoomManager) (op : Op) : Prop :=
  ∀ a ∈ op.leaver m, ∀ room ∈ m.rooms.lookup a.1, room.players ≠ [a.2]

instance (m : RoomManager) (op : Op) : Decidable (LeavesCompany m op) :=
  inferInstanceAs (Decidable (∀ a ∈ op.leaver m, ∀ room ∈ m.rooms.lookup a.1, _ ≠ _))

/-- From a state where every room has a member, an operation leads to one just where nobody leaves a
room that he is the only member of. -/
theorem inhabited_perform (h : m.Inhabited) :
    (perform m op).1.Inhabited ↔ LeavesCompany m op := by
  constructor
  · rintro h' ⟨r, p⟩ hop room hr hone
    have hp : p ∈ room.players := hone ▸ List.mem_singleton_self p
    rw [perform_leaver hop, RoomManager.leaveRoom_of_mem hr hp] at h'
    exact h' r _ (AList.lookup_insert _) (by simp [hone])
  · intro hop r room' hr' hempty
    obtain ⟨o, hr, he⟩ := effect_stored hr'
    cases he with
    | same => exact h r room' hr hempty
    | opened => exact absurd hempty (List.cons_ne_nil _ _)
    | joined => simp at hempty
    | left room p by_ mem =>
      rcases List.erase_eq_nil_iff.1 hempty with hnil | hone
      · exact h r room hr hnil
      · exact hop (r, p) by_ room hr hone
    | started room => exact h r room hr hempty
    | input room => exact h r room hr hempty
    | stopped room => exact h r room hr hempty
    | driven room now => exact h r room hr ((room.tick_players now).1 ▸ hempty)

end RoomServiceImpl

namespace GameLobby

variable {E : Type}

/-- What an operation of the lobby asks of the rooms. -/
def Op.onRooms : Op E → Option RoomServiceImpl.Op
  | .request (.createRoom req) _ now => some (.createRoom req now)
  | .request (.joinRoom req) _ _ => some (.joinRoom req)
  | .request (.leaveRoom req) _ _ => some (.leaveRoom req)
  | .request (.sendMessage req) _ now => some (.sendMessage req now)
  | .request (.getRoomList parsed) _ _ => some (.getRoomList parsed)
  | .request (.startGame req) _ now => some (.startGame req now)
  | .request (.sendInput req) _ _ => some (.sendInput req)
  | .request (.stopGame req) _ _ => some (.stopGame req)
  | .drop p => some (.disconnect p)
  | .checkRoomTimeout now => some (.manager (.checkRoomTimeout (steady now)))
  | _ => none

variable [Doubles E] {g g' : GameLobby E} {op : Op E}

theorem rooms_tryMatch (now : ℤ) (g : GameLobby E) :
    Reach RoomServiceImpl.step RoomServiceImpl.Arranges g.roomMgr (g.tryMatch now).1.roomMgr := by
  unfold tryMatch
  rw [MatchService.onMatches_eq]
  exact MatchService.rooms_onMatches (g.matchQueue.tryMatch now).2
    { g with matchQueue := (g.matchQueue.tryMatch now).1 }

theorem rooms_rounds (now : ℤ) (n : ℕ) (g : GameLobby E) :
    Reach RoomServiceImpl.step RoomServiceImpl.Arranges g.roomMgr
      ((fun g => MatchService.fire g now)^[n] g).roomMgr := by
  induction n with
  | zero => exact .start
  | succ n ih =>
    rw [Function.iterate_succ_apply']
    exact ih.trans (MatchService.rooms_fire now _)

/-- An operation of the lobby does to the rooms what it asks of them, or what matches do. -/
theorem step_rooms (h : step g op = some g') :
    (∃ o, op.onRooms = some o ∧ g'.roomMgr = (RoomServiceImpl.perform g.roomMgr o).1) ∨
      op.onRooms = none ∧
        Reach RoomServiceImpl.step RoomServiceImpl.Arranges g.roomMgr g'.roomMgr := by
  cases op with
  | request r metrics now =>
    obtain rfl := Option.some.inj h
    cases r with
    | getMetrics => exact .inr ⟨rfl, .start⟩
    | enterMatch req =>
      cases req with
      | none => exact .inr ⟨rfl, .start⟩
      | some req =>
        exact .inr ⟨rfl, rooms_tryMatch now (g.enterQueue now req.playerId req.eloScore)⟩
    | cancelMatch req => exact .inr ⟨rfl, by cases req <;> exact .start⟩
    | _ => exact .inl ⟨_, rfl, rfl⟩
  | drop p => exact Option.some.inj h ▸ .inl ⟨_, rfl, rfl⟩
  | enterQueue p score now => exact Option.some.inj h ▸ .inr ⟨rfl, .start⟩
  | tryMatch now => exact Option.some.inj h ▸ .inr ⟨rfl, rooms_tryMatch now g⟩
  | tick now =>
    obtain rfl := Option.some.inj h
    refine .inr ⟨rfl, ?_⟩
    unfold GameLobby.tick
    simp only []
    rw [MatchService.tickLoop_rounds]
    exact rooms_rounds now _ { g with timer := g.timer.cleanCancelled }
  | checkRoomTimeout now => exact Option.some.inj h ▸ .inl ⟨_, rfl, rfl⟩

end GameLobby

namespace GameService

variable {F E : Type} [Platform F] [Doubles E] [GameProto E] {s s' : GameService F (GameLobby E)}

/-- Nobody leaves a room that he is the only member of, by `LeaveRoom` or by a disconnect. -/
def LeavesCompany (s : GameService F (GameLobby E)) (e : Event F) : Prop :=
  ∀ op ∈ s.operation e, ∀ o ∈ op.onRooms, RoomServiceImpl.LeavesCompany s.lobby.roomMgr o

instance (s : GameService F (GameLobby E)) (e : Event F) : Decidable (LeavesCompany s e) :=
  inferInstanceAs (Decidable (∀ op ∈ s.operation e, ∀ o ∈ op.onRooms, _))

theorem inhabited_step {e : Event F} (h : s.lobby.roomMgr.Inhabited) (hs : step s e = some s') :
    s'.lobby.roomMgr.Inhabited ↔ LeavesCompany s e := by
  unfold LeavesCompany
  rcases step_operation hs with ⟨hnone, hlobby⟩ | ⟨op, hop, hstep⟩
  · rw [hnone, hlobby]
    simpa using h
  rw [hop]
  simp only [Option.mem_some_iff, forall_eq']
  rcases GameLobby.step_rooms hstep with ⟨o, ho, hrooms⟩ | ⟨hnone, hreach⟩
  · rw [hrooms, ho, RoomServiceImpl.inhabited_perform h]
    simp
  · rw [hnone]
    refine iff_of_true ?_ (by simp)
    refine hreach.invariant h fun m o m' hm ho hm' => ?_
    obtain rfl := Option.some.inj hm'
    refine (RoomServiceImpl.inhabited_perform hm).2 ?_
    unfold RoomServiceImpl.LeavesCompany
    rw [RoomServiceImpl.leaver_of_arranges ho]
    simp

/-- In a run in which nobody leaves a room that he is the only member of, every room that is stored
has a member, and there are at most as many rooms as members. From a state where every room has one,
a step leads to such a state just where it meets the condition. -/
theorem rooms_inhabited (s : GameService F (GameLobby E)) :
    (Serving LeavesCompany s → s.lobby.roomMgr.Inhabited ∧
      s.lobby.roomMgr.getAllRoomIds.length ≤ s.lobby.roomMgr.members.card) ∧
    (s.lobby.roomMgr.Inhabited → ∀ e s', step s e = some s' →
      (s'.lobby.roomMgr.Inhabited ↔ LeavesCompany s e)) := by
  refine ⟨fun h => ?_, fun h e s' hs => inhabited_step h hs⟩
  have hl := RoomServiceImpl.listed_reach (serving_rooms h)
  have hi : s.lobby.roomMgr.Inhabited := by
    obtain ⟨db, accounts, players, scenes, o, h⟩ := h
    refine h.invariant (P := fun s => s.lobby.roomMgr.Inhabited) ?_ fun s e s' hi hok hs =>
      (inhabited_step hi hs).2 hok
    rw [start_lobby]
    intro r room hr
    rw [show (GameLobby.new : GameLobby E).roomMgr.rooms.lookup r = none
      from AList.lookup_empty r] at hr
    cases hr
  exact ⟨hi, hi.card hl⟩

/-- The second field of a message, `room_001`. -/
def inRoomBody : List UInt8 := [0x12, 8, 0x72, 0x6F, 0x6F, 0x6D, 0x5F, 0x30, 0x30, 0x31]

/-- Two players in one room, which one of them leaves. -/
theorem rooms_inhabited_left : ∃ s : GameService ℚ (GameLobby Score),
    s.lobby.roomMgr.getAllRoomIds = ["room_001"] ∧ s.lobby.roomMgr.Inhabited := by
  have hplay : (serve LeavesCompany twoAccounts [.accept 5,
      .frame 5 1 (.other "CreateRoom" annBody) 0,
      .frame 5 2 (.other "JoinRoom" (bobBody ++ inRoomBody)) 0,
      .frame 5 3 (.other "LeaveRoom" (annBody ++ inRoomBody)) 0]).map
        (fun s => s.lobby.roomMgr.getAllRoomIds) = some ["room_001"] := by
    decide +kernel
  obtain ⟨s, hs, hids⟩ := Option.map_eq_some_iff.1 hplay
  exact ⟨s, hids, ((rooms_inhabited s).1 (serving_of_serve hs)).1⟩

/-- A room that its only member leaves is kept. -/
theorem room_leaked : ¬∀ s : GameService ℚ (GameLobby Score), Serving anyEvent s →
    s.lobby.roomMgr.getAllRoomIds.length ≤ s.lobby.roomMgr.members.card := by
  intro h
  have hplay : (serve anyEvent twoAccounts [.accept 5,
      .frame 5 1 (.other "CreateRoom" annBody) 0,
      .frame 5 2 (.other "LeaveRoom" (annBody ++ inRoomBody)) 0]).map
        (fun s => (s.lobby.roomMgr.getAllRoomIds,
          s.lobby.roomMgr.rooms.entries.flatMap fun e => e.2.players)) =
      some (["room_001"], []) := by
    decide +kernel
  obtain ⟨s, hs, hstate⟩ := Option.map_eq_some_iff.1 hplay
  obtain ⟨hids, hplayers⟩ := Prod.mk.inj hstate
  have hle := h s (serving_of_serve hs)
  unfold RoomManager.members at hle
  rw [hids, hplayers] at hle
  exact absurd hle (by decide)

end GameService

end TinRpc
