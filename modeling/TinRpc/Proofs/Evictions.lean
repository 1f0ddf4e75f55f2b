import TinRpc.Proofs.MatchService
import TinRpc.Proofs.Notices
import TinRpc.Score

/-!
# How memberships end

A player stops being a member when he asks to leave or disconnects, or when his room goes with
everybody in it. Nothing is sent to anybody when a room goes (`membership_ends`).
-/

namespace TinRpc

open Transition

namespace MatchService

variable {E : Type} {g : GameLobby E} {r p : String}

def Member (g : GameLobby E) (r p : String) : Prop :=
  ∃ room, g.roomMgr.rooms.lookup r = some room ∧ p ∈ room.players

/-- A player asks to leave a room, or disconnects. -/
def Asks (g : GameLobby E) (r p : String) : Op E → Prop
  | .rooms op => op.leaver g.roomMgr = some (r, p)
  | _ => False

/-- A room is taken out: by its name, because it is DESTROYED, or because the time of its match has
run out and the game is not on. -/
inductive TakenOut (g : GameLobby E) (r : String) : Op E → Prop
  | removed : TakenOut g r (.rooms (.manager (.removeRoom r)))
  | destroyed (op : RoomServiceImpl.Op) (room : GameRoom) (by_ : op.cleans = true)
      (stored : g.roomMgr.rooms.lookup r = some room)
      (destroyed : ((op.driven r).elim room room.tick).state = .destroyed) :
      TakenOut g r (.rooms op)
  | timeout (now : ℤ) (cb : MatchTimeout E) (by_ : expired g now = some cb) (name : cb.roomId = r) :
      TakenOut g r (.fire now)

/-- A new room gets the name of one that is stored. -/
inductive Replaced [Doubles E] (g : GameLobby E) (r : String) : Op E → Prop
  | created (op : RoomServiceImpl.Op) (by_ : RoomServiceImpl.created g.roomMgr op = some r) :
      Replaced g r (.rooms op)
  | matched (now : ℤ) (k : ℕ) (lt : k < (g.matchQueue.tryMatch now).2.length)
      (name : r = RoomManager.roomName (g.roomMgr.roomIdCounter + UInt64.ofNat k)) :
      Replaced g r (.tryMatch now)

/-- A room that a match's timeout takes out is the only one that goes. -/
theorem removeRoom_lookup (m : RoomManager) (rid r : String) :
    (m.removeRoom rid).1.rooms.lookup r = if r = rid then none else m.rooms.lookup r := by
  unfold RoomManager.removeRoom
  rcases hr : m.rooms.lookup rid with _ | room
  · split_ifs with h
    · rw [h, hr]
    · rfl
  · exact AList.lookup_erase_if _ _ _

theorem opener_events {m : RoomManager} {op : RoomServiceImpl.Op} (h : op.opener = some p) :
    (RoomServiceImpl.perform m op).2 = [] := by
  cases op with
  | createRoom req now => exact RoomServiceImpl.createRoom_events m now req
  | manager op => rfl
  | _ => cases h

theorem cleans_events {m : RoomManager} {op : RoomServiceImpl.Op} (h : op.cleans = true) :
    (RoomServiceImpl.perform m op).2 = [] := by
  cases op with
  | manager op => rfl
  | _ => cases h

section Ends

variable [Doubles E] {roomTimeoutMs : ℤ}

/-- A room goes with everybody in it. -/
def Goes (roomTimeoutMs : ℤ) (g : GameLobby E) (r : String) (op : Op E) : Prop :=
  TakenOut g r op ∧ (perform roomTimeoutMs g op).1.roomMgr.rooms.lookup r = none ∨ Replaced g r op

theorem rooms_end {op : RoomServiceImpl.Op} (h : Member g r p)
    (hout : ¬Member (perform roomTimeoutMs g (.rooms op)).1 r p) :
    Asks g r p (.rooms op) ∨
      Goes roomTimeoutMs g r (.rooms op) ∧ (RoomServiceImpl.perform g.roomMgr op).2 = [] := by
  obtain ⟨room, hr, hp⟩ := h
  have he := RoomServiceImpl.effect_perform g.roomMgr op r
  have hgone : ∀ room', (RoomServiceImpl.perform g.roomMgr op).1.rooms.lookup r = some room' →
      p ∉ room'.players := fun room' hr' hp' => hout ⟨room', hr', hp'⟩
  rw [hr] at he
  generalize ho : (RoomServiceImpl.perform g.roomMgr op).1.rooms.lookup r = o at he hgone
  cases he with
  | same => exact (hgone _ rfl hp).elim
  | opened _ q n timer state by_ free name =>
    refine .inr ⟨.inr (.created op ?_), opener_events by_⟩
    simp [RoomServiceImpl.created, by_, free, name]
  | joined => exact (hgone _ rfl (List.mem_append_left _ hp)).elim
  | left _ q by_ mem =>
    by_cases hq : p = q
    · exact .inl (hq ▸ by_)
    · exact (hgone _ rfl ((List.mem_erase_of_ne hq).2 hp)).elim
  | started => exact (hgone _ rfl hp).elim
  | input => exact (hgone _ rfl hp).elim
  | stopped => exact (hgone _ rfl hp).elim
  | driven _ now => exact (hgone _ rfl ((room.tick_players now).1.symm ▸ hp)).elim
  | removed _ by_ =>
    subst by_
    exact .inr ⟨.inl ⟨.removed, ho⟩, rfl⟩
  | cleaned _ by_ now at_ destroyed =>
    exact .inr ⟨.inl ⟨.destroyed op room by_ hr (at_ ▸ destroyed), ho⟩, cleans_events by_⟩

theorem tryMatch_ends {now : ℤ} (h : Member g r p)
    (hout : ¬Member (perform roomTimeoutMs g (.tryMatch now)).1 r p) :
    Goes roomTimeoutMs g r (.tryMatch now) := by
  obtain ⟨room, hr, hp⟩ := h
  rcases onMatches_rooms roomTimeoutMs now r (g.matchQueue.tryMatch now).2
    { g with matchQueue := (g.matchQueue.tryMatch now).1 } with he | ⟨k, hk, hname⟩
  · exact (hout ⟨room, he.trans hr, hp⟩).elim
  · exact .inr (.matched now k hk hname)

theorem fire_ends {now : ℤ} (h : Member g r p)
    (hout : ¬Member (perform roomTimeoutMs g (.fire now)).1 r p) :
    Goes roomTimeoutMs g r (.fire now) := by
  obtain ⟨room, hr, hp⟩ := h
  unfold Goes
  simp only [perform] at hout ⊢
  rcases hexpired : expired g now with _ | cb
  · obtain ⟨timer, he, -⟩ := fire_unexpired hexpired
    rw [he] at hout
    exact (hout ⟨room, hr, hp⟩).elim
  · obtain ⟨tm, -, he⟩ := fire_expired hexpired
    have hlookup := removeRoom_lookup g.roomMgr cb.roomId r
    rw [he] at hout ⊢
    by_cases hname : r = cb.roomId
    · exact .inl ⟨.timeout now cb hexpired hname.symm, hlookup.trans (if_pos hname)⟩
    · exact (hout ⟨room, (hlookup.trans (if_neg hname)).trans hr, hp⟩).elim

/-- Whenever a player stops being a member of a room, he asked to leave it or disconnected, or the
room went with everybody in it; and then nothing is sent to anybody. -/
theorem membership_ends (roomTimeoutMs : ℤ) (g : GameLobby E) (op : Op E) (r p : String)
    (h : Member g r p) (hout : ¬Member (perform roomTimeoutMs g op).1 r p) :
    Asks g r p op ∨ Goes roomTimeoutMs g r op ∧ (perform roomTimeoutMs g op).2 = [] := by
  cases op with
  | enterQueue => exact (hout h).elim
  | cancelMatch => exact (hout h).elim
  | tryMatch now => exact .inr ⟨tryMatch_ends h hout, rfl⟩
  | rooms op => exact rooms_end h hout
  | clean => exact (hout h).elim
  | fire now => exact .inr ⟨fire_ends h hout, rfl⟩

end Ends

/-- The time of a room is up when `CheckRoomTimeout` comes. -/
def roomTimesOut : Op Score := .rooms (.manager (.checkRoomTimeout (steady 300000)))

theorem annAlone : ∃ g : GameLobby Score, Reach (step 30000) anyEvent GameLobby.new g ∧
    Member g "room_001" "ann" ∧ ¬Member (perform 30000 g roomTimesOut).1 "room_001" "ann" := by
  have hrun : (([.rooms (.createRoom (some ⟨"ann", "room", 2⟩) 0)] : List (Op Score)).foldlM
      (fun g op => if anyEvent g op then step 30000 g op else none) GameLobby.new).map
        (fun g => ((g.roomMgr.rooms.lookup "room_001").map (·.players),
          ((perform 30000 g roomTimesOut).1.roomMgr.rooms.lookup "room_001").map (·.players))) =
      some (some ["ann"], none) := by
    decide +kernel
  obtain ⟨g, hg, hrooms⟩ := Option.map_eq_some_iff.1 hrun
  obtain ⟨hbefore, hafter⟩ := Prod.mk.inj hrooms
  obtain ⟨room, hr, hplayers⟩ := Option.map_eq_some_iff.1 hbefore
  refine ⟨g, Reach.of_foldlM _ hg, ⟨room, hr, by simp [hplayers]⟩, ?_⟩
  rintro ⟨room', hr', -⟩
  rw [hr'] at hafter
  cases hafter

/-- A room whose time is up goes, and nothing is sent. -/
theorem membership_ends_timeout : ∃ g : GameLobby Score, Member g "room_001" "ann" ∧
    Goes 30000 g "room_001" roomTimesOut ∧ (perform 30000 g roomTimesOut).2 = [] := by
  obtain ⟨g, -, hin, hout⟩ := annAlone
  rcases membership_ends 30000 g roomTimesOut "room_001" "ann" hin hout with h | h
  · cases h
  · exact ⟨g, hin, h⟩

/-- Its player is not told. -/
theorem silent_timeout : ¬∀ g : GameLobby Score, Reach (step 30000) anyEvent GameLobby.new g →
    ∀ op r p, Member g r p → ¬Member (perform 30000 g op).1 r p → ¬Asks g r p op →
      ∃ e ∈ (perform 30000 g op).2, e.1 = p := by
  intro h
  obtain ⟨g, hreach, hin, hout⟩ := annAlone
  obtain ⟨e, he, -⟩ := h g hreach roomTimesOut "room_001" "ann" hin hout fun hasks => by cases hasks
  cases he

end MatchService

end TinRpc
