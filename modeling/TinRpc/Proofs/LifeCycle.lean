import TinRpc.Proofs.RoomRuns

/-!
# The life of a room

`StartGame` asks for a WAITING room and a timeout spares a PLAYING one, but `StopGame` makes any
room FINISHED. Each change of a room's state is one of the diagram just where `StopGame` finds the
room PLAYING or FINISHED, and in runs where it always does, a room without players is DESTROYED
(`life_cycle`).
-/

namespace TinRpc

open Transition

namespace RoomServiceImpl

variable {m m' : RoomManager} {op : Op} {r : String} {room room' : GameRoom}

/-- The changes of a room's state in the diagram, where its timers may be driven. -/
inductive Lawful (driven : Option ℤ) (room room' : GameRoom) : Prop
  | same (h : room'.state = room.state)
  | ready (h : room.state = .idle) (h' : room'.state = .waiting)
  | start (h : room.state = .waiting) (h' : room'.state = .playing)
  | finish (h : room.state = .playing) (h' : room'.state = .finished)
  | timeout (now : ℤ) (at_ : driven = some now) (due : room.TimeoutDue now)
      (h : room.state ≠ .playing) (h' : room'.state = .destroyed)
  | emptied (p : String) (h : room.players = [p]) (empty : room'.players = [])
      (h' : room'.state = .destroyed)

/-- The name that the operation gives to a new room. -/
def created (m : RoomManager) (op : Op) : Option String :=
  op.opener.bind fun p =>
    if (m.playerRoom.lookup p).isSome then none else some (RoomManager.roomName m.roomIdCounter)

/-- `StopGame` finds no room, or one that is PLAYING or FINISHED. -/
def StopsPlaying (m : RoomManager) (op : Op) : Prop :=
  ∀ r ∈ op.stopped, ∀ room ∈ m.rooms.lookup r, room.state = .playing ∨ room.state = .finished

instance (m : RoomManager) (op : Op) : Decidable (StopsPlaying m op) :=
  inferInstanceAs (Decidable (∀ r ∈ op.stopped, ∀ room ∈ m.rooms.lookup r, _ ∨ _))

theorem Lawful.destroyed {driven : Option ℤ} (h : Lawful driven room room')
    (hd : room.state = .destroyed) : room'.state = .destroyed := by
  cases h with
  | same h => rw [h, hd]
  | ready h => simp [hd] at h
  | start h => simp [hd] at h
  | finish h => simp [hd] at h
  | timeout _ _ _ _ h' => exact h'
  | emptied _ _ _ h' => exact h'

theorem lawful_effect (hop : StopsPlaying m op) (hm : m.rooms.lookup r = some room)
    (hnew : created m op ≠ some r) (h : Effect m op r (some room) (some room')) :
    Lawful (op.driven r) room room' := by
  cases h with
  | same => exact .same rfl
  | opened _ p n timer state by_ free name =>
    refine absurd ?_ hnew
    simp [created, by_, free, name]
  | joined => exact .same rfl
  | left _ p by_ mem =>
    by_cases he : room.players.erase p = []
    · refine .emptied p ?_ he (by simp [he])
      exact (List.erase_eq_nil_iff.1 he).resolve_left (List.ne_nil_of_mem mem)
    · exact .same (by simp [he])
  | started _ timer frameSync by_ ready => exact .start ready rfl
  | input => exact .same rfl
  | stopped _ frameSync by_ =>
    rcases hop r by_ room hm with h | h
    · exact .finish h rfl
    · exact .same h.symm
  | driven _ now by_ =>
    rcases room.tick_state now with h | ⟨hp, hd, hdue⟩
    · exact .same h
    · exact .timeout now by_ hdue hp hd

/-- A game that is stopped outside PLAYING and FINISHED breaks the diagram. -/
theorem stopGame_unlawful (hr : op.stopped = some r) (hm : m.rooms.lookup r = some room)
    (h : ∀ room', (perform m op).1.rooms.lookup r = some room' → created m op ≠ some r →
      Lawful (op.driven r) room room') : room.state = .playing ∨ room.state = .finished := by
  cases op with
  | stopGame req =>
    cases req with
    | none => cases hr
    | some req =>
      obtain rfl := Option.some.inj hr
      have hstopped : (perform m (.stopGame (some req))).1.rooms.lookup req.roomId =
          some (room.stopFrameSync.setState .finished) := by
        simp only [perform, stopGame_state, RoomManager.atRoom, AList.lookup_modify, if_true, hm,
          Option.map_some]
      cases h _ hstopped (by simp [created, Op.opener]) with
      | same h => exact .inr h.symm
      | ready _ h' => cases h'
      | start _ h' => cases h'
      | finish h => exact .inl h
      | timeout _ _ _ _ h' => cases h'
      | emptied _ _ _ h' => cases h'
  | _ => cases hr

/-- Rooms without players are DESTROYED. -/
def EmptyDestroyed (m : RoomManager) : Prop :=
  ∀ r room, m.rooms.lookup r = some room → room.players = [] → room.state = .destroyed

theorem EmptyDestroyed.perform (h : EmptyDestroyed m) (hop : StopsPlaying m op) :
    EmptyDestroyed (perform m op).1 := by
  intro r room' hr' hempty
  obtain ⟨o, hm, he⟩ := effect_stored hr'
  cases he with
  | same => exact h r room' hm hempty
  | opened => simp [GameRoom.new] at hempty
  | joined => simp at hempty
  | left => exact if_pos hempty
  | started room timer frameSync by_ ready =>
    have := h r room hm hempty
    simp [ready] at this
  | input room => exact h r room hm hempty
  | stopped room frameSync by_ =>
    have hd := h r room hm hempty
    rcases hop r by_ room hm with hs | hs <;> simp [hd] at hs
  | driven room now =>
    rw [(room.tick_players now).1] at hempty
    rcases room.tick_state now with hs | hs
    · rw [hs]
      exact h r room hm hempty
    · exact hs.2.1

/-- In every run where `StopGame` finds its room PLAYING or FINISHED, rooms without players are
DESTROYED. In every state, an operation changes the states of rooms by the diagram just where that
is so of it, and then no room leaves DESTROYED. And a new room is made WAITING when it is IDLE. -/
theorem life_cycle (m : RoomManager) :
    (Reach step StopsPlaying {} m → EmptyDestroyed m) ∧
    (∀ op, StopsPlaying m op ↔ ∀ r room room', m.rooms.lookup r = some room →
      (perform m op).1.rooms.lookup r = some room' → created m op ≠ some r →
      Lawful (op.driven r) room room') ∧
    (∀ op, StopsPlaying m op → ∀ r room room', m.rooms.lookup r = some room →
      (perform m op).1.rooms.lookup r = some room' → created m op ≠ some r →
      room.state = .destroyed → room'.state = .destroyed) ∧
    ∀ p n timeoutMs now, (m.createRoom p n timeoutMs now).2.ok = true →
      ∃ room, (m.createRoom p n timeoutMs now).1.rooms.lookup
          (m.createRoom p n timeoutMs now).2.roomId = some room ∧ room.state = .idle := by
  have hlawful : ∀ op, StopsPlaying m op → ∀ r room room', m.rooms.lookup r = some room →
      (perform m op).1.rooms.lookup r = some room' → created m op ≠ some r →
      Lawful (op.driven r) room room' := by
    intro op hop r room room' hm hm' hnew
    have he := effect_perform m op r
    rw [hm, hm'] at he
    exact lawful_effect hop hm hnew he
  refine ⟨fun h => ?_, fun op => ⟨hlawful op, fun h r hr room hm => ?_⟩,
    fun op hop r room room' hm hm' hnew => (hlawful op hop r room room' hm hm' hnew).destroyed,
    fun p n timeoutMs now hok => ?_⟩
  · refine h.invariant (fun r room hr => ?_) fun m op m' hi hop hs => ?_
    · rw [show (∅ : Table String GameRoom).lookup r = none from AList.lookup_empty r] at hr
      cases hr
    · exact Option.some.inj hs ▸ hi.perform hop
  · exact stopGame_unlawful hr hm fun room' => h r room room' hm
  · rcases m.createRoom_rooms p n timeoutMs now with he | ⟨-, hres, timer, hrooms⟩
    · rw [he] at hok
      cases hok
    · rw [hrooms, hres]
      exact ⟨_, AList.lookup_insert _, rfl⟩

/-- A game that is started, stopped and left. -/
theorem life_cycle_game : ∃ m : RoomManager,
    ((m.rooms.lookup "room_001").map fun room => (room.state, room.players)) =
      some (.destroyed, []) ∧ EmptyDestroyed m ∧
    ∀ room', (perform m (.drive "room_001" (steady 400000))).1.rooms.lookup "room_001" =
      some room' → room'.state = .destroyed := by
  have hrun : (([.createRoom (some ⟨"ann", "room", 2⟩) 0, .joinRoom (some ⟨"bob", "room_001"⟩),
      .startGame (some ⟨"room_001", "ann"⟩) 1000, .stopGame (some ⟨"room_001", "ann"⟩),
      .leaveRoom (some ⟨"ann", "room_001"⟩), .disconnect "bob"] : List Op).foldlM
        (fun m op => if StopsPlaying m op then step m op else none) ({} : RoomManager)).map
          (fun m => (m.rooms.lookup "room_001").map fun room => (room.state, room.players)) =
      some (some (.destroyed, [])) := by
    decide +kernel
  obtain ⟨m, hm, hroom⟩ := Option.map_eq_some_iff.1 hrun
  obtain ⟨room, hr, hstate⟩ := Option.map_eq_some_iff.1 hroom
  obtain ⟨hempty, hlawful, hkept, -⟩ := life_cycle m
  refine ⟨m, hroom, hempty (Reach.of_foldlM _ hm), fun room' hr' => ?_⟩
  exact hkept (.drive "room_001" (steady 400000)) (by rintro r ⟨⟩) "room_001" room room' hr hr'
    (by simp [created, Op.opener]) (Prod.mk.inj hstate).1

/-- A room that is left is DESTROYED, and then its game is stopped. -/
theorem stopGame_revives : ¬∀ m, Reach step anyEvent {} m → EmptyDestroyed m ∧
    ∀ op r room room', m.rooms.lookup r = some room →
      (perform m op).1.rooms.lookup r = some room' → created m op ≠ some r →
      Lawful (op.driven r) room room' ∧ (room.state = .destroyed → room'.state = .destroyed) := by
  intro h
  have hrun : (([.createRoom (some ⟨"ann", "room", 2⟩) 0, .leaveRoom (some ⟨"ann", "room_001"⟩),
      .stopGame (some ⟨"room_001", "ann"⟩)] : List Op).foldlM
        (fun m op => if anyEvent m op then step m op else none) ({} : RoomManager)).map
          (fun m => (m.rooms.lookup "room_001").map fun room => (room.state, room.players)) =
      some (some (.finished, [])) := by
    decide +kernel
  obtain ⟨m, hm, hroom⟩ := Option.map_eq_some_iff.1 hrun
  obtain ⟨room, hr, hstate⟩ := Option.map_eq_some_iff.1 hroom
  obtain ⟨hstate, hplayers⟩ := Prod.mk.inj hstate
  have hdestroyed := (h m (Reach.of_foldlM _ hm)).1 "room_001" room hr hplayers
  rw [hstate] at hdestroyed
  cases hdestroyed

end RoomServiceImpl

end TinRpc
