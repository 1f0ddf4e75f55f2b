import TinRpc.Proofs.LifeCycle

/-!
# The owner of a room

A room is its owner's from the start, whoever is in it. While no owner leaves a room that others
are in, he is one of its players, and just the operations in which one does so end this
(`owner_present`).
-/

namespace TinRpc

open Transition

namespace RoomServiceImpl

variable {m m' : RoomManager} {op : Op} {r p : String} {room room' : GameRoom}

/-- A room with players has its owner among them. -/
def OwnerPresent (m : RoomManager) : Prop :=
  ∀ r room, m.rooms.lookup r = some room → room.players ≠ [] → room.ownerId ∈ room.players

/-- No owner leaves a room that somebody else is in. -/
def OwnerStays (m : RoomManager) (op : Op) : Prop :=
  ∀ a ∈ op.leaver m, ∀ room ∈ m.rooms.lookup a.1, a.2 = room.ownerId → a.2 ∈ room.players →
    ∀ q ∈ room.players, q = a.2

instance (m : RoomManager) (op : Op) : Decidable (OwnerStays m op) :=
  inferInstanceAs (Decidable (∀ a ∈ op.leaver m, ∀ room ∈ m.rooms.lookup a.1, _))

/-- No room lists a player twice, and the games of rooms without players are over. -/
def Listing (m : RoomManager) : Prop :=
  ∀ r room, m.rooms.lookup r = some room → room.players.Nodup ∧
    (room.players = [] → room.state = .destroyed ∨ room.state = .finished)

theorem Listing.perform (h : Listing m) (op : Op) : Listing (perform m op).1 := by
  intro r room' hr'
  obtain ⟨o, hm, he⟩ := effect_stored hr'
  cases he with
  | same => exact h r room' hm
  | opened => exact ⟨List.nodup_singleton _, fun hempty => by cases hempty⟩
  | joined room p _ _ _ _ new =>
    refine ⟨?_, fun hempty => by simp at hempty⟩
    refine List.nodup_append.2 ⟨(h r room hm).1, List.nodup_singleton _, ?_⟩
    rintro a ha b hb rfl
    exact new (List.mem_singleton.1 hb ▸ ha)
  | left room p => exact ⟨(h r room hm).1.erase p, fun hempty => .inl (if_pos hempty)⟩
  | started room timer frameSync by_ ready =>
    refine ⟨(h r room hm).1, fun hempty => ?_⟩
    rcases (h r room hm).2 hempty with hs | hs <;> simp [ready] at hs
  | input room => exact h r room hm
  | stopped room => exact ⟨(h r room hm).1, fun _ => .inr rfl⟩
  | driven room now =>
    obtain ⟨hplayers, -⟩ := room.tick_players now
    refine ⟨hplayers ▸ (h r room hm).1, fun hempty => ?_⟩
    rcases room.tick_state now with hs | ⟨-, hs, -⟩
    · rw [hs]
      exact (h r room hm).2 (hplayers ▸ hempty)
    · exact .inl hs

theorem listing_reach {ok : RoomManager → Op → Prop} (h : Reach step ok {} m) : Listing m := by
  refine h.invariant (fun r room hr => ?_) fun m op m' hi _ hs => ?_
  · rw [show (∅ : Table String GameRoom).lookup r = none from AList.lookup_empty r] at hr
    cases hr
  · exact Option.some.inj hs ▸ hi.perform op

theorem OwnerPresent.perform (h : OwnerPresent m) (hl : Listing m) (hop : OwnerStays m op) :
    OwnerPresent (perform m op).1 := by
  intro r room' hr' hsome
  obtain ⟨o, hm, he⟩ := effect_stored hr'
  cases he with
  | same => exact h r room' hm hsome
  | opened => exact List.mem_singleton_self _
  | joined room p by_ index open_ =>
    refine List.mem_append_left _ (h r room hm fun hempty => ?_)
    rcases (hl r room hm).2 hempty with hs | hs <;> simp [hs] at open_
  | left room p by_ mem =>
    have hin := h r room hm (List.ne_nil_of_mem mem)
    by_cases hp : p = room.ownerId
    · obtain ⟨q, hq⟩ := List.exists_mem_of_ne_nil _ hsome
      have heq : q = p := hop _ by_ room hm hp mem q (List.mem_of_mem_erase hq)
      rw [heq, hp] at hq
      exact hp ▸ hq
    · exact (List.mem_erase_of_ne (Ne.symm hp)).2 hin
  | started room => exact h r room hm hsome
  | input room => exact h r room hm hsome
  | stopped room => exact h r room hm hsome
  | driven room now =>
    rw [(room.tick_players now).1] at hsome ⊢
    rw [room.tick_owner]
    exact h r room hm hsome

/-- An owner who leaves the others behind is missing in his room. -/
theorem ownerStays_of_present (hl : Listing m) (h : OwnerPresent (perform m op).1) :
    OwnerStays m op := by
  rintro ⟨r, p⟩ hop room hm rfl hin q hq
  have hleft : (perform m op).1.rooms.lookup r = some { room with
      players := room.players.erase room.ownerId
      state := if room.players.erase room.ownerId = [] then .destroyed else room.state } := by
    rw [perform_leaver hop, RoomManager.leaveRoom_of_mem hm hin]
    exact AList.lookup_insert _
  by_contra hne
  have hother : q ∈ room.players.erase room.ownerId := (List.mem_erase_of_ne hne).2 hq
  have hpresent := h r _ hleft (List.ne_nil_of_mem hother)
  exact (hl r room hm).1.not_mem_erase hpresent

theorem owner_effect (hnew : created m op ≠ some r)
    (h : Effect m op r (some room) (some room')) : room'.ownerId = room.ownerId := by
  cases h with
  | opened _ p n timer state by_ free name =>
    refine absurd ?_ hnew
    simp [created, by_, free, name]
  | driven _ now => exact room.tick_owner now
  | _ => rfl

/-- Who starts a game: the owner of a room that is WAITING. -/
theorem startGame_ok_iff : (m.startGame r p).2.ok = true ↔
    ∃ room, m.rooms.lookup r = some room ∧ p = room.ownerId ∧ room.state = .waiting := by
  unfold RoomManager.startGame
  rcases m.rooms.lookup r with _ | room
  · simp [Result.failure]
  · by_cases ho : p = room.ownerId
    · by_cases hs : room.state = .waiting <;> simp [ho, hs, Result.failure, Result.success]
    · simp [ho, Result.failure]

/-- In every run in which no owner leaves a room that somebody else is in, the owner of a room with
players is one of them, only members start games, and a WAITING room has a member who can. In every
run, just an owner who leaves somebody behind ends this. The owner of a room does not change, and he
alone can start its game, in the room or not. -/
theorem owner_present :
    (∀ m, Reach step OwnerStays {} m → OwnerPresent m ∧
      (∀ r p, (m.startGame r p).2.ok = true →
        ∃ room, m.rooms.lookup r = some room ∧ p ∈ room.players) ∧
      ∀ r room, m.rooms.lookup r = some room → room.state = .waiting →
        ∃ p ∈ room.players, (m.startGame r p).2.ok = true) ∧
    (∀ m op, Reach step anyEvent {} m → OwnerPresent m →
      (OwnerPresent (perform m op).1 ↔ OwnerStays m op)) ∧
    (∀ m op r room room', m.rooms.lookup r = some room →
      (perform m op).1.rooms.lookup r = some room' → created m op ≠ some r →
      room'.ownerId = room.ownerId) ∧
    ∀ m r p, (RoomManager.startGame m r p).2.ok = true ↔
      ∃ room, m.rooms.lookup r = some room ∧ p = room.ownerId ∧ room.state = .waiting := by
  refine ⟨fun m h => ?_, fun m op h hp => ⟨ownerStays_of_present (listing_reach h), ?_⟩,
    fun m op r room room' hm hm' hnew => ?_, fun m r p => startGame_ok_iff⟩
  · have hpresent : OwnerPresent m := by
      refine h.invariant_of (fun m h => listing_reach h) (fun r room hr => ?_)
        fun m op m' hl hp hop hs => ?_
      · rw [show (∅ : Table String GameRoom).lookup r = none from AList.lookup_empty r] at hr
        cases hr
      · exact Option.some.inj hs ▸ hp.perform hl hop
    have hwaiting : ∀ r room, m.rooms.lookup r = some room → room.state = .waiting →
        room.ownerId ∈ room.players := by
      intro r room hr hs
      refine hpresent r room hr fun hempty => ?_
      rcases (listing_reach h r room hr).2 hempty with h | h <;> simp [hs] at h
    refine ⟨hpresent, fun r p hok => ?_, fun r room hr hs => ?_⟩
    · obtain ⟨room, hr, rfl, hs⟩ := startGame_ok_iff.1 hok
      exact ⟨room, hr, hwaiting r room hr hs⟩
    · exact ⟨room.ownerId, hwaiting r room hr hs, startGame_ok_iff.2 ⟨room, hr, rfl, hs⟩⟩
  · exact hp.perform (listing_reach h)
  · have he := effect_perform m op r
    rw [hm, hm'] at he
    exact owner_effect hnew he

/-- An owner with one more player, who leaves first. -/
theorem owner_present_ann : ∃ m : RoomManager,
    ((m.rooms.lookup "room_001").map fun room => (room.state, room.players)) =
      some (.waiting, ["ann"]) ∧ OwnerPresent m ∧
    ∃ p ∈ ["ann"], (m.startGame "room_001" p).2.ok = true := by
  have hrun : (([.createRoom (some ⟨"ann", "room", 2⟩) 0, .joinRoom (some ⟨"bob", "room_001"⟩),
      .leaveRoom (some ⟨"bob", "room_001"⟩)] : List Op).foldlM
        (fun m op => if OwnerStays m op then step m op else none) ({} : RoomManager)).map
          (fun m => (m.rooms.lookup "room_001").map fun room => (room.state, room.players)) =
      some (some (.waiting, ["ann"])) := by
    decide +kernel
  obtain ⟨m, hm, hroom⟩ := Option.map_eq_some_iff.1 hrun
  obtain ⟨room, hr, hstate⟩ := Option.map_eq_some_iff.1 hroom
  obtain ⟨hstate, hplayers⟩ := Prod.mk.inj hstate
  obtain ⟨hpresent, -, hstarter⟩ := owner_present.1 m (Reach.of_foldlM _ hm)
  obtain ⟨p, hp, hok⟩ := hstarter "room_001" room hr hstate
  exact ⟨m, hroom, hpresent, p, hplayers ▸ hp, hok⟩

/-- The owner leaves and starts the game of a room that he is not in. -/
theorem owner_gone : ¬∀ m, Reach step anyEvent {} m → OwnerPresent m ∧
    (∀ r p, (m.startGame r p).2.ok = true →
      ∃ room, m.rooms.lookup r = some room ∧ p ∈ room.players) ∧
    ∀ r room, m.rooms.lookup r = some room → room.state = .waiting → room.players ≠ [] →
      ∃ p ∈ room.players, (m.startGame r p).2.ok = true := by
  intro h
  have hrun : (([.createRoom (some ⟨"ann", "room", 2⟩) 0, .joinRoom (some ⟨"bob", "room_001"⟩),
      .leaveRoom (some ⟨"ann", "room_001"⟩)] : List Op).foldlM
        (fun m op => if anyEvent m op then step m op else none) ({} : RoomManager)).map
          (fun m => (m.rooms.lookup "room_001").map fun room => (room.ownerId, room.players)) =
      some (some ("ann", ["bob"])) := by
    decide +kernel
  obtain ⟨m, hm, hroom⟩ := Option.map_eq_some_iff.1 hrun
  obtain ⟨room, hr, howner⟩ := Option.map_eq_some_iff.1 hroom
  obtain ⟨howner, hplayers⟩ := Prod.mk.inj howner
  have hin := (h m (Reach.of_foldlM _ hm)).1 "room_001" room hr (by simp [hplayers])
  rw [howner, hplayers] at hin
  exact absurd hin (by decide)

end RoomServiceImpl

end TinRpc
