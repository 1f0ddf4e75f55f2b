import TinRpc.Proofs.MatchService
import TinRpc.Proofs.Notices
import TinRpc.Proofs.Routing

/-!
# Members in the index

Whoever a room lists has it in `player_room_`, also where a new room takes the place of an old one
with its name: then its members are still in the index, and no room lists them (`listed_reach`). All
that a match service does to the rooms is operations of the room service (`rooms_reach`), so this
holds in every service.
-/

namespace TinRpc

open Transition Roster

namespace RoomManager

variable {m : RoomManager} {roomId p : String} {room : GameRoom}

/-- The players of the rooms are in the index, none twice in a room, and rooms have names. -/
structure Listed (m : RoomManager) : Prop where
  covered : Covered GameRoom.players m.rooms m.playerRoom
  nodup : ∀ r room, m.rooms.lookup r = some room → room.players.Nodup
  named : m.rooms.lookup "" = none

theorem roomName_ne (c : UInt64) : roomName c ≠ "" := by
  intro h
  have hl := congrArg String.toList h
  simp [roomName] at hl

theorem listed_new : Listed {} where
  covered := Covered.empty
  nodup r room h := by
    rw [show (∅ : Table String GameRoom).lookup r = none from AList.lookup_empty r] at h
    cases h
  named := AList.lookup_empty _

namespace Listed

theorem ne_empty (h : m.Listed) (hr : m.rooms.lookup roomId = some room) : roomId ≠ "" := by
  rintro rfl
  rw [h.named] at hr
  cases hr

/-- A room is replaced or comes, and the index changes along with it. -/
theorem put (h : m.Listed) (hr : roomId ≠ "") {playerRoom : Table String String}
    {counter : UInt64} (hm : ∀ q ∈ room.players, playerRoom.lookup q = some roomId)
    (hkept : ∀ q s, s ≠ roomId → m.playerRoom.lookup q = some s → playerRoom.lookup q = some s)
    (hnd : room.players.Nodup) : Listed ⟨m.rooms.insert roomId room, playerRoom, counter⟩ where
  covered := h.covered.put hm hkept
  nodup r room' hl := by
    rw [AList.lookup_insert_if] at hl
    split_ifs at hl
    · exact Option.some.inj hl ▸ hnd
    · exact h.nodup r room' hl
  named := by rw [AList.lookup_insert_ne hr.symm, h.named]

theorem removed (h : m.Listed) (hr : m.rooms.lookup roomId = some room) :
    Listed { m.clearRoomPlayers room with rooms := m.rooms.erase roomId } where
  covered := h.covered.drop hr
  nodup r room' hl := by
    rw [AList.lookup_erase_if] at hl
    split_ifs at hl
    exact h.nodup r room' hl
  named := by
    rw [AList.lookup_erase_if, h.named]
    exact ite_self _

theorem createRoom (h : m.Listed) (p : String) (maxPlayers : Int32) (timeoutMs now : ℤ) :
    (m.createRoom p maxPlayers timeoutMs now).1.Listed := by
  rcases m.createRoom_cases p maxPlayers timeoutMs now with ⟨-, he⟩ | ⟨hp, timer, -, he⟩
  · rw [he]
    exact h
  rw [he]
  refine h.put (roomName_ne _) (fun q hq => ?_) (fun q s _ hq => ?_) (List.nodup_singleton p)
  · rw [List.mem_singleton.1 hq, AList.lookup_insert]
  · rw [AList.lookup_insert_ne, hq]
    rintro rfl
    rw [hp] at hq
    cases hq

theorem joinRoom (h : m.Listed) (roomId p : String) : (m.joinRoom roomId p).1.Listed := by
  rcases m.joinRoom_cases roomId p with ⟨hm, -⟩ | ⟨room, hr, hp, hok, he⟩
  · rw [hm]
    exact h
  obtain ⟨hroom, -, -, hnew⟩ := GameRoom.addPlayer_ok hok
  rw [he, hroom]
  refine h.put (h.ne_empty hr) (fun q hq => ?_) (fun q s hs hq => ?_) ?_
  · rw [AList.lookup_insert_if]
    split_ifs with hqp
    · rfl
    · rcases List.mem_append.1 hq with hq | hq
      · exact h.covered q roomId room hr hq
      · exact absurd (List.mem_singleton.1 hq) hqp
  · rw [AList.lookup_insert_ne, hq]
    rintro rfl
    rcases hp with hp | hp
    · rw [hp] at hq
      cases hq
    · rw [hp, Option.some.injEq] at hq
      exact hs hq.symm
  · refine List.nodup_append.2 ⟨h.nodup roomId room hr, List.nodup_singleton p, ?_⟩
    rintro a ha b hb rfl
    exact hnew (List.mem_singleton.1 hb ▸ ha)

theorem leaveRoom (h : m.Listed) (roomId p : String) : (m.leaveRoom roomId p).1.Listed := by
  rcases m.leaveRoom_cases roomId p with ⟨hm, -⟩ | ⟨room, state, hr, hin, he⟩
  · rw [hm]
    exact h
  have hnd := h.nodup roomId room hr
  rw [he]
  refine h.put (h.ne_empty hr) (fun q hq => ?_) (fun q s hs hq => ?_) (hnd.erase p)
  · obtain ⟨hne, hq⟩ := hnd.mem_erase_iff.1 hq
    rw [AList.lookup_erase_ne hne]
    exact h.covered q roomId room hr hq
  · rw [AList.lookup_erase_ne, hq]
    rintro rfl
    rw [h.covered q roomId room hr hin, Option.some.injEq] at hq
    exact hs hq.symm

theorem startGame (h : m.Listed) (roomId p : String) : (m.startGame roomId p).1.Listed := by
  rcases m.startGame_cases roomId p with ⟨hm, -⟩ | ⟨room, hr, -, -, he⟩
  · rw [hm]
    exact h
  · rw [he]
    exact h.put (h.ne_empty hr) (fun q hq => h.covered q roomId room hr hq)
      (fun q s _ hq => hq) (h.nodup roomId room hr)

theorem atRoom (h : m.Listed) (roomId : String) {f : GameRoom → GameRoom}
    (hf : ∀ room, (f room).players = room.players) : (m.atRoom roomId f).Listed where
  covered := h.covered.modify roomId fun room q => by rw [hf]
  nodup r room hr := by
    rw [RoomManager.atRoom, AList.lookup_modify] at hr
    split_ifs at hr
    · obtain ⟨room', hr', rfl⟩ := Option.map_eq_some_iff.1 hr
      rw [hf]
      exact h.nodup r room' hr'
    · exact h.nodup r room hr
  named := by
    rw [RoomManager.atRoom, AList.lookup_modify, h.named]
    exact ite_self _

theorem ticked (h : m.Listed) (now : ℤ) :
    Listed { m with rooms := m.rooms.mapValues fun room : GameRoom => room.tick now } where
  covered := h.covered.mapValues fun g q => by rw [(g.tick_players now).1]
  nodup r room hr := by
    rw [AList.lookup_mapValues, Option.map_eq_some_iff] at hr
    obtain ⟨room', hr', rfl⟩ := hr
    rw [(room'.tick_players now).1]
    exact h.nodup r room' hr'
  named := by rw [AList.lookup_mapValues, h.named, Option.map_none]

/-- Whoever leaves the room that lists him is in none. -/
theorem leaveRoom_out (h : m.Listed) (hr : m.rooms.lookup roomId = some room)
    (hp : p ∈ room.players) {r : String} {room' : GameRoom}
    (hr' : (m.leaveRoom roomId p).1.rooms.lookup r = some room') : p ∉ room'.players := by
  rw [leaveRoom_of_mem hr hp, AList.lookup_insert_if] at hr'
  by_cases he : r = roomId
  · rw [if_pos he] at hr'
    obtain rfl := Option.some.inj hr'
    exact (h.nodup roomId room hr).not_mem_erase
  · rw [if_neg he] at hr'
    exact fun hp' => he (h.covered.unique hr' hr hp' hp)

end Listed

end RoomManager

namespace RoomServiceImpl

variable {m : RoomManager} {op : Op}

/-- An operation leaves the rooms as they are or does one of these things to them. -/
theorem perform_rule {Q : RoomManager → Prop} (same : Q m)
    (create : ∀ p n timeoutMs at_, Q (m.createRoom p n timeoutMs at_).1)
    (join : ∀ roomId p, Q (m.joinRoom roomId p).1)
    (leave : ∀ roomId p, Q (m.leaveRoom roomId p).1)
    (start : ∀ roomId p, Q (m.startGame roomId p).1)
    (update : ∀ m roomId f, Q m → (∀ room, (f room).players = room.players) →
      Q (m.atRoom roomId f))
    (remove : ∀ {m roomId room}, Q m → m.rooms.lookup roomId = some room →
      Q { m.clearRoomPlayers room with rooms := m.rooms.erase roomId })
    (drive : ∀ now, Q { m with rooms := m.rooms.mapValues fun room : GameRoom => room.tick now }) :
    Q (perform m op).1 := by
  have hchange : ∀ now m roomId f, Q m → Change now f → Q (m.atRoom roomId f) :=
    fun now m roomId f hm hf => update m roomId f hm fun room => (hf.players room).1
  cases op with
  | createRoom req now =>
    cases req with
    | none => exact same
    | some req => exact createRoom_rule (hchange now) fun n _ => create _ n _ _
  | joinRoom req =>
    cases req with
    | none => exact same
    | some req =>
      simp only [perform, joinRoom_state]
      exact join _ _
  | leaveRoom req =>
    cases req with
    | none => exact same
    | some req =>
      simp only [perform, leaveRoom_state]
      exact leave _ _
  | sendMessage req now =>
    simp only [perform, sendMessage_state]
    exact same
  | getRoomList parsed =>
    simp only [perform, getRoomList_state]
    exact same
  | startGame req now =>
    cases req with
    | none => exact same
    | some req => exact startGame_rule (hchange now) (start _ _)
  | sendInput req =>
    cases req with
    | none => exact same
    | some req => exact sendInput_rule (hchange 0) same
  | stopGame req =>
    cases req with
    | none => exact same
    | some req =>
      simp only [perform, stopGame_state]
      exact update _ _ _ same fun _ => rfl
  | disconnect p =>
    simp only [perform, disconnect]
    split_ifs
    · exact same
    · rw [leaveRoomAndNotify_rooms]
      exact leave _ _
  | manager op =>
    cases op with
    | createRoom p n timeoutMs at_ => exact create p n timeoutMs at_
    | joinRoom roomId p => exact join roomId p
    | leaveRoom roomId p => exact leave roomId p
    | startGame roomId p => exact start roomId p
    | removeRoom roomId =>
      simp only [perform, RoomManager.apply, RoomManager.removeRoom]
      rcases hr : m.rooms.lookup roomId with _ | room
      · exact same
      · exact remove same hr
    | cleanupDestroyed => exact RoomManager.cleanupDestroyed_rule remove same
    | checkRoomTimeout now => exact RoomManager.cleanupDestroyed_rule remove (drive now)
  | drive roomId now => exact update _ _ _ same fun room => (room.tick_players now).1

theorem listed_perform (h : m.Listed) (op : Op) : (perform m op).1.Listed :=
  perform_rule h h.createRoom h.joinRoom h.leaveRoom h.startGame
    (fun _ roomId _ hm hf => hm.atRoom roomId hf) (fun hm hr => hm.removed hr) h.ticked

theorem listed_reach {ok : RoomManager → Op → Prop} (h : Reach step ok {} m) : m.Listed :=
  h.invariant RoomManager.listed_new fun _ op _ hi _ hs => Option.some.inj hs ▸ listed_perform hi op

/-- What matches do to the rooms: they create one and join it, and their timeouts remove it. -/
def Arranges (_ : RoomManager) : Op → Prop
  | .createRoom .. | .manager (.joinRoom ..) | .manager (.removeRoom _) => True
  | _ => False

theorem whole_of_arranges (h : Arranges m op) : Whole m op := by
  cases op with
  | drive => exact h.elim
  | _ => trivial

/-- Nobody leaves by what matches do. -/
theorem leaver_of_arranges (h : Arranges m op) : op.leaver m = none := by
  cases op with
  | leaveRoom => exact h.elim
  | disconnect => exact h.elim
  | manager op =>
    cases op with
    | leaveRoom => exact h.elim
    | _ => rfl
  | _ => rfl

end RoomServiceImpl

namespace MatchService

open RoomServiceImpl (Arranges)

variable {E : Type} {g g' : GameLobby E} {roomTimeoutMs now : ℤ}

/-- A match creates a room and joins it. -/
theorem rooms_onMatchSuccess (g : GameLobby E) (m : Matched E) :
    Reach RoomServiceImpl.step Arranges g.roomMgr
      (onMatchSuccess roomTimeoutMs g now m).roomMgr := by
  have hcreated : Reach RoomServiceImpl.step Arranges g.roomMgr
      (RoomServiceImpl.createRoom g.roomMgr now (some ⟨m.p1, "", 2⟩)).state :=
    .one (.createRoom (some ⟨m.p1, "", 2⟩) now) trivial rfl
  rw [RoomServiceImpl.createRoom_state,
    show (if (0 : Int32) < 2 then 2 else 4 : Int32) = 2 from rfl] at hcreated
  unfold onMatchSuccess
  simp only [] at hcreated ⊢
  split
  · next hok =>
    rw [if_pos hok] at hcreated
    exact hcreated.trans (.one (.manager (.joinRoom
      (g.roomMgr.createRoom m.p1 2 kDefaultRoomTimeoutMs (steady now)).2.roomId m.p2)) trivial rfl)
  · next hno =>
    rwa [if_neg hno] at hcreated

theorem rooms_onMatches : ∀ (ms : List (Matched E)) (g : GameLobby E),
    Reach RoomServiceImpl.step Arranges g.roomMgr (onMatches roomTimeoutMs now ms g).roomMgr
  | [], _ => .start
  | m :: ms, g => (rooms_onMatchSuccess g m).trans (rooms_onMatches ms _)

section Runs

variable [Doubles E]

theorem rooms_fire (now : ℤ) (g : GameLobby E) :
    Reach RoomServiceImpl.step Arranges g.roomMgr (fire g now).roomMgr := by
  rcases he : expired g now with _ | cb
  · obtain ⟨timer, hfire, -⟩ := fire_unexpired he
    rw [hfire]
    exact .start
  · obtain ⟨tm, -, hfire⟩ := fire_expired he
    rw [hfire]
    exact .one (.manager (.removeRoom cb.roomId)) trivial rfl

/-- What the match service does to the rooms, the room service does. -/
theorem rooms_perform {ok : RoomManager → RoomServiceImpl.Op → Prop} {op : Op E}
    (harranges : ∀ m o, Arranges m o → ok m o) (hop : ∀ o, op = .rooms o → ok g.roomMgr o) :
    Reach RoomServiceImpl.step ok g.roomMgr (perform roomTimeoutMs g op).1.roomMgr := by
  cases op with
  | enterQueue => exact .start
  | cancelMatch => exact .start
  | tryMatch now =>
    exact (rooms_onMatches (g.matchQueue.tryMatch now).2
      { g with matchQueue := (g.matchQueue.tryMatch now).1 }).mono harranges
  | rooms o => exact .one o (hop o rfl) rfl
  | clean => exact .start
  | fire now => exact (rooms_fire now g).mono harranges

theorem rooms_reach {ok : GameLobby E → Op E → Prop}
    {ok' : RoomManager → RoomServiceImpl.Op → Prop}
    (harranges : ∀ m o, Arranges m o → ok' m o)
    (hop : ∀ (g : GameLobby E) o, ok g (.rooms o) → ok' g.roomMgr o)
    (h : Reach (step roomTimeoutMs) ok GameLobby.new g) :
    Reach RoomServiceImpl.step ok' {} g.roomMgr := by
  refine h.invariant (P := fun g => Reach RoomServiceImpl.step ok' {} g.roomMgr) .start ?_
  intro g op g' hr hok hs
  obtain rfl := Option.some.inj hs
  exact hr.trans (rooms_perform harranges fun o ho => hop g o (ho ▸ hok))

end Runs

end MatchService

namespace GameService

variable {F E : Type} [Platform F] [Doubles E] [GameProto E] {s : GameService F (GameLobby E)}

/-- The lobby of a running service is one of a match service. -/
theorem serving_lobby {ok : GameService F (GameLobby E) → Event F → Prop} (h : Serving ok s) :
    Reach (MatchService.step 30000) MatchService.Whole GameLobby.new s.lobby := by
  have hlobby : Reach GameLobby.step anyEvent GameLobby.new s.lobby :=
    lobby_reach (h.mono fun _ _ _ _ _ => trivial)
  exact MatchService.reach_of_lobby hlobby

/-- The rooms of a running service are rooms that its room service's operations lead to. -/
theorem serving_rooms {ok : GameService F (GameLobby E) → Event F → Prop} (h : Serving ok s) :
    Reach RoomServiceImpl.step RoomServiceImpl.Whole {} s.lobby.roomMgr :=
  MatchService.rooms_reach (fun _ _ h => RoomServiceImpl.whole_of_arranges h) (fun _ _ h => h)
    (serving_lobby h)

end GameService

end TinRpc
