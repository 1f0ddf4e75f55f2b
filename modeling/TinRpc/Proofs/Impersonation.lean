import TinRpc.Proofs.Twins

/-!
# Requests in another's name

A handler of `dispatch_` gets the body of a frame and not the connection, so the player that a body
names is taken at its word. Frames that name a player from connections other than his leave no trace
in the lobby just as long as the rooms and the queue refuse what they ask for
(`impersonation_refused`).
-/

namespace TinRpc

open Transition

variable {E : Type}

/-- The player that a request acts for. -/
def LobbyRequest.names : LobbyRequest E → Option String
  | .createRoom req => req.map (·.playerId)
  | .joinRoom req => req.map (·.playerId)
  | .leaveRoom req => req.map (·.playerId)
  | .startGame req => req.map (·.playerId)
  | .sendInput req => req.map (·.playerId)
  | .enterMatch req => req.map (·.playerId)
  | .cancelMatch req => req
  | _ => none

namespace GameLobby

/-- The rooms that have the player. -/
def roomsOf (g : GameLobby E) (p : String) : List String :=
  (g.roomMgr.rooms.entries.filter fun e => p ∈ e.2.players).map (·.1)

/-- The entries of the match queue under the player's id, with their scores. -/
def entriesOf (g : GameLobby E) (p : String) : List (Entry E) :=
  g.matchQueue.queue.filter fun e => e.playerId = p

/-- The inputs recorded for the player, those that wait for their frame and those of past frames,
each with its room and its frame. -/
def inputsOf (g : GameLobby E) (p : String) : List (String × UInt32 × List UInt8) :=
  g.roomMgr.rooms.entries.flatMap fun e => e.2.frameSync.toList.flatMap fun fs =>
    (fs.inputBuffer.buffer.map fun fi => (fi.frameNo, fi.players)) ++
      (fs.frameHistory.map fun fr => (fr.frameNo, fr.inputs)) |>.filterMap fun f =>
        (f.2.lookup p).map fun data => (e.1, f.1, data)

/-- Two lobbies agree on a player: the room he is in, his place in the queue, and his inputs. -/
structure AgreeOn (p : String) (g g' : GameLobby E) : Prop where
  room : g'.roomMgr.playerRoom.lookup p = g.roomMgr.playerRoom.lookup p
  rooms : g'.roomsOf p = g.roomsOf p
  entries : g'.entriesOf p = g.entriesOf p
  inputs : g'.inputsOf p = g.inputsOf p

/-- The rooms and the queue do not let the player do what the request asks for. -/
def Refused (g : GameLobby E) : LobbyRequest E → Prop
  | .createRoom (some req) => g.roomMgr.free req.playerId = false
  | .joinRoom (some req) => ∀ room ∈ g.roomMgr.getRoom req.roomId,
      (∃ r ∈ g.roomMgr.playerRoom.lookup req.playerId, r ≠ req.roomId) ∨
        (room.state ≠ .idle ∧ room.state ≠ .waiting) ∨ room.isFull = true ∨
          req.playerId ∈ room.players
  | .leaveRoom (some req) => ∀ room ∈ g.roomMgr.getRoom req.roomId, req.playerId ∉ room.players
  | .startGame (some req) => ∀ room ∈ g.roomMgr.getRoom req.roomId,
      req.playerId ≠ room.ownerId ∨ room.state ≠ .waiting
  | .sendInput (some req) => g.roomMgr.getPlayerRoom req.playerId = "" ∨
      ∀ room ∈ g.roomMgr.getRoom (g.roomMgr.getPlayerRoom req.playerId), room.hasFrameSync = false
  | .enterMatch (some _) => False
  | .cancelMatch (some playerId) => g.matchQueue.isInQueue playerId = false
  | _ => True

instance (g : GameLobby E) : DecidablePred g.Refused
  | .createRoom (some _) => inferInstanceAs (Decidable (_ = _))
  | .joinRoom (some req) => inferInstanceAs (Decidable (∀ room ∈ g.roomMgr.getRoom req.roomId,
      (∃ r ∈ g.roomMgr.playerRoom.lookup req.playerId, r ≠ req.roomId) ∨ _ ∨ _ ∨ _))
  | .leaveRoom (some req) => inferInstanceAs (Decidable (∀ room ∈ g.roomMgr.getRoom req.roomId, _))
  | .startGame (some req) => inferInstanceAs (Decidable (∀ room ∈ g.roomMgr.getRoom req.roomId, _))
  | .sendInput (some _) => inferInstanceAs (Decidable (_ ∨ ∀ room ∈ g.roomMgr.getRoom _, _))
  | .enterMatch (some _) => .isFalse id
  | .cancelMatch (some _) => inferInstanceAs (Decidable (_ = _))
  | .createRoom none | .joinRoom none | .leaveRoom none | .startGame none | .sendInput none
  | .enterMatch none | .cancelMatch none | .sendMessage _ | .getRoomList _ | .stopGame _
  | .getMetrics => .isTrue trivial

variable {g : GameLobby E}

open RoomServiceImpl

theorem createRoom_refused {req : CreateRoomReq} (hr : g.Refused (.createRoom (some req)))
    (now : ℤ) : (createRoom g.roomMgr now (some req)).state = g.roomMgr := by
  rw [createRoom_state]
  generalize (if 0 < req.maxPlayers then req.maxPlayers else 4) = n
  rcases g.roomMgr.createRoom_cases req.playerId n kDefaultRoomTimeoutMs (steady now) with
    ⟨-, he⟩ | ⟨hfree, -⟩
  · rw [he]
    rfl
  · rw [Refused, RoomManager.free, hfree] at hr
    cases hr

theorem joinRoom_refused {req : JoinRoomReq} (hr : g.Refused (.joinRoom (some req))) :
    (joinRoom g.roomMgr (some req)).state = g.roomMgr := by
  rw [joinRoom_state]
  rcases g.roomMgr.joinRoom_cases req.roomId req.playerId with ⟨he, -⟩ |
    ⟨room, hroom, hin, hok, -⟩
  · exact he
  · obtain ⟨-, hstate, hfull, hout⟩ := GameRoom.addPlayer_ok hok
    exfalso
    rcases hr room hroom with ⟨r, hr, hne⟩ | hr | hr | hr
    · rcases hin with hin | hin
      · rw [hin] at hr
        cases hr
      · rw [hin] at hr
        exact hne (Option.some.inj hr).symm
    · exact hstate.elim hr.1 hr.2
    · rw [hfull] at hr
      cases hr
    · exact hout hr

theorem leaveRoom_refused {req : LeaveRoomReq} (hr : g.Refused (.leaveRoom (some req))) :
    (leaveRoom g.roomMgr (some req)).state = g.roomMgr := by
  rw [leaveRoom_state]
  rcases g.roomMgr.leaveRoom_cases req.roomId req.playerId with ⟨he, -⟩ |
    ⟨room, state, hroom, hin, -⟩
  · exact he
  · exact absurd hin (hr room hroom)

theorem startGame_refused {req : StartGameReq} (hr : g.Refused (.startGame (some req)))
    (now : ℤ) : (startGame g.roomMgr now (some req)).state = g.roomMgr := by
  rw [startGame_state]
  rcases g.roomMgr.startGame_cases req.roomId req.playerId with ⟨he, hno⟩ |
    ⟨room, hroom, howner, hstate, -⟩
  · simp only [hno, Bool.false_eq_true, if_false, he]
  · rcases hr room hroom with hne | hne
    · exact absurd howner hne
    · exact absurd hstate hne

/-- Without frame synchronisation an input is dropped. -/
theorem onPlayerFrameInput_dropped {room : GameRoom} (h : room.hasFrameSync = false)
    (frameNo : UInt32) (p : String) (data : List UInt8) :
    room.onPlayerFrameInput frameNo p data = room := by
  have hsync : room.frameSync = none := by simpa [GameRoom.hasFrameSync] using h
  unfold GameRoom.onPlayerFrameInput
  rw [hsync, Option.map_none, ← hsync]

theorem sendInput_refused {req : PlayerInputReq} (hr : g.Refused (.sendInput (some req))) :
    (sendInput g.roomMgr (some req)).state = g.roomMgr := by
  rw [sendInput_state]
  split_ifs with hnone
  · rfl
  · refine RoomManager.atRoom_eq_self fun room hroom => ?_
    rcases hr with hr | hr
    · exact absurd hr hnone
    · exact onPlayerFrameInput_dropped (hr room hroom) _ _ _

theorem withRooms_eq_self {h : Handled RoomManager} (hh : h.state = g.roomMgr) :
    (g.withRooms h).state = g := by
  show { g with roomMgr := h.state } = g
  rw [hh]

/-- A refused request that acts for a player leaves the lobby as it is. -/
theorem handle_refused [Doubles E] {r : LobbyRequest E} {p : String} (hr : g.Refused r)
    (hp : r.names = some p) (now : ℤ) (metrics : Metrics) :
    (g.handle now metrics r).state = g := by
  cases r with
  | createRoom req =>
    obtain ⟨req, rfl, -⟩ := Option.map_eq_some_iff.1 hp
    exact withRooms_eq_self (createRoom_refused hr now)
  | joinRoom req =>
    obtain ⟨req, rfl, -⟩ := Option.map_eq_some_iff.1 hp
    exact withRooms_eq_self (joinRoom_refused hr)
  | leaveRoom req =>
    obtain ⟨req, rfl, -⟩ := Option.map_eq_some_iff.1 hp
    exact withRooms_eq_self (leaveRoom_refused hr)
  | startGame req =>
    obtain ⟨req, rfl, -⟩ := Option.map_eq_some_iff.1 hp
    exact withRooms_eq_self (startGame_refused hr now)
  | sendInput req =>
    obtain ⟨req, rfl, -⟩ := Option.map_eq_some_iff.1 hp
    exact withRooms_eq_self (sendInput_refused hr)
  | enterMatch req =>
    obtain ⟨req, rfl, -⟩ := Option.map_eq_some_iff.1 hp
    exact hr.elim
  | cancelMatch req =>
    obtain rfl : req = some p := hp
    have hnone : g.matchQueue.findIndex p = none := Option.not_isSome_iff_eq_none.1
      (Bool.eq_false_iff.1 hr)
    show { g with matchQueue := g.matchQueue.cancelMatch p } = g
    rw [MatchQueue.cancelMatch, hnone]
  | _ => cases hp

end GameLobby

namespace GameService

open GameLobby

variable {F : Type} {c : Connection} {p : String} {s s' t : GameService F (GameLobby E)}

/-- A frame that acts for a player who is logged in on `c`, from another connection. -/
def Impersonates [GameProto E] (p : String) (c : Connection) (s : GameService F (GameLobby E)) :
    Event F → Prop
  | .frame fd _ (.other method body) _ => s.playerConns p = some c ∧ s.handlers fd ≠ some c ∧
      (LobbyRequest.read (E := E) method body).bind LobbyRequest.names = some p
  | _ => False

/-- What the frame asks for is refused; and its connection has sent frames before, or no login is
going to be completed on it. -/
def InVain [GameProto E] (s : GameService F (GameLobby E)) : Event F → Prop
  | .frame fd _ (.other method body) _ =>
      (∀ r ∈ LobbyRequest.read (E := E) method body, s.lobby.Refused r) ∧
        ∀ conn ∈ s.handlers fd, s.activeConns conn.fd = some conn ∨ conn.fd ∉ s.logins
  | _ => True

variable [Platform F] [Doubles E] [GameProto E]

/-- Two runs of a newly constructed service that differ in frames naming `p` from connections other
than `c`, each of them allowed by `ok`. -/
def TwinRuns (p : String) (c : Connection) (ok : GameService F (GameLobby E) → Event F → Prop)
    (s t : GameService F (GameLobby E)) : Prop :=
  ∃ db accounts players scenes o, Twins step (fun s e => Impersonates p c s e ∧ ok s e)
    (start GameLobby.new db accounts players scenes o) s t

omit [Doubles E] [GameProto E] in
/-- A frame for `dispatch_` changes the lobby and `active_conns_`, and what clients see. -/
theorem same_dispatched {rid : ℕ} {conn : Connection} {now : ℤ} {method : String}
    {body : List UInt8} (h : Framed s rid conn now (.other method body) s') : Same s s' where
  sessions := h.sessions
  stores := h.stores
  world := h.world
  queue := h.queue.trans (List.append_nil _)
  callbacks := h.callbacks
  posted := h.posted.trans (List.append_nil _)
  acts := h.acts.trans (List.append_nil _)
  effects := h.effects.trans (List.append_nil _)
  since := h.since

/-- A frame in vain leaves the service alike to one that never got it. -/
theorem alike_inVain {e : Event F} (h : Alike s t) (he : Impersonates p c s e) (hok : InVain s e)
    (hs : step s e = some s') : Alike s' t := by
  cases e with
  | frame fd rid request now =>
    cases request with
    | other method body =>
      obtain ⟨-, -, hread⟩ := he
      obtain ⟨hrefused, hactive⟩ := hok
      obtain ⟨r, hread, hp⟩ := Option.bind_eq_some_iff.1 hread
      have hlobby : s'.lobby = s.lobby := by
        rw [step_lobby hs]
        simp only [lobbyAfter, Lobby.call, hread]
        exact handle_refused (hrefused r hread) hp now s.metrics
      obtain ⟨conn, hconn, hf⟩ := Step.frame hs
      have hsame := same_dispatched hf
      refine ⟨hsame.symm.trans h.same, h.lobby.trans hlobby.symm, fun d hd => ?_⟩
      rw [logins, hsame.queue, hsame.callbacks] at hd
      rw [hf.activeConns, h.conns d hd, Function.update_apply]
      split_ifs with heq
      · subst heq
        exact (hactive conn hconn).resolve_right (not_not.2 hd)
      · rfl
    | _ => exact he.elim
  | _ => exact he.elim

/-- Two runs that differ in frames in vain agree on the player that these act for. -/
theorem impersonation_refused (h : TwinRuns p c InVain s t) : AgreeOn p s.lobby t.lobby := by
  obtain ⟨db, accounts, players, scenes, o, h⟩ := h
  have ha : Alike s t := h.rule (.refl _) (fun _ _ => Alike.symm)
    (fun _ _ _ _ _ ha hs ht => alike_step ha hs ht)
    fun _ _ _ _ ha ⟨he, hok⟩ hs => alike_inVain ha he hok hs
  rw [ha.lobby]
  exact ⟨rfl, rfl, rfl, rfl⟩

instance (p : String) (c : Connection) (s : GameService ℚ (GameLobby Score)) :
    DecidablePred (Impersonates p c s)
  | .frame _ _ (.other _ _) _ => inferInstanceAs (Decidable (_ ∧ _ ∧ _))
  | .frame _ _ (.register _) _ | .frame _ _ (.login _) _ | .frame _ _ (.selectMap _) _
  | .frame _ _ (.move _) _ | .frame _ _ (.voxelEdit _) _ | .frame _ _ (.craft _) _
  | .frame _ _ (.gather _) _ | .frame _ _ (.placeBuilding _) _ | .accept _ | .close _ _ | .work _
  | .loop _ => .isFalse id

instance (s : GameService ℚ (GameLobby Score)) : DecidablePred (InVain s)
  | .frame fd _ (.other method body) _ => inferInstanceAs (Decidable
      ((∀ r ∈ LobbyRequest.read (E := Score) method body, s.lobby.Refused r) ∧
        ∀ conn ∈ s.handlers fd, _))
  | .frame _ _ (.register _) _ | .frame _ _ (.login _) _ | .frame _ _ (.selectMap _) _
  | .frame _ _ (.move _) _ | .frame _ _ (.voxelEdit _) _ | .frame _ _ (.craft _) _
  | .frame _ _ (.gather _) _ | .frame _ _ (.placeBuilding _) _ | .accept _ | .close _ _ | .work _
  | .loop _ => .isTrue trivial

/-- `ann` logs in, somebody connects, and she creates a room. -/
def annAtHome : List (Event ℚ) :=
  .accept 5 :: loginAnn 5 ++ [.accept 6, .frame 5 2 (.other "CreateRoom" annBody) 0]

/-- Somebody else asks for a second room for `ann`, and then she enters the queue. -/
theorem impersonation_refused_ann : ∃ s t : GameService ℚ (GameLobby Score),
    s.wire.length = t.wire.length + 1 ∧ t.lobby.roomMgr.playerRoom.lookup "ann" = some "room_001" ∧
    t.lobby.matchQueue.ids = ["ann"] ∧ AgreeOn "ann" s.lobby t.lobby := by
  have hplay : (serve anyEvent twoAccounts annAtHome).bind (fun s =>
      (step s (.frame 6 1 (.other "CreateRoom" annBody) 0)).bind fun s₁ =>
        (step s₁ (.frame 5 3 (.other "EnterMatch" annBody) 0)).bind fun s' =>
          (step s (.frame 5 3 (.other "EnterMatch" annBody) 0)).map fun t' =>
            decide ((Impersonates "ann" ⟨0, 5⟩ s (.frame 6 1 (.other "CreateRoom" annBody) 0) ∧
              InVain s (.frame 6 1 (.other "CreateRoom" annBody) 0)) ∧
              s'.wire.length = t'.wire.length + 1 ∧
              t'.lobby.roomMgr.playerRoom.lookup "ann" = some "room_001" ∧
              t'.lobby.matchQueue.ids = ["ann"])) = some true := by
    decide +kernel
  obtain ⟨s, hs, hplay⟩ := Option.bind_eq_some_iff.1 hplay
  obtain ⟨s₁, hs₁, hplay⟩ := Option.bind_eq_some_iff.1 hplay
  obtain ⟨s', hs', hplay⟩ := Option.bind_eq_some_iff.1 hplay
  obtain ⟨t', ht', hplay⟩ := Option.map_eq_some_iff.1 hplay
  obtain ⟨hextra, hwire, hroom, hids⟩ := of_decide_eq_true hplay
  have htwins : TwinRuns "ann" ⟨0, 5⟩ InVain s' t' :=
    ⟨twoAccounts, true, true, true, {},
      .both (.left (.of_reach (Reach.of_foldlM _ hs)) hextra hs₁) hs' ht'⟩
  exact ⟨s', t', hwire, hroom, hids, impersonation_refused htwins⟩

/-- Somebody else leaves the room for `ann`. -/
theorem leave_in_her_name : ∃ s t : GameService ℚ (GameLobby Score),
    TwinRuns "ann" ⟨0, 5⟩ anyEvent s t ∧ t.playerConns "ann" = some ⟨0, 5⟩ ∧
    t.lobby.roomMgr.playerRoom.lookup "ann" = some "room_001" ∧
    s.lobby.roomMgr.playerRoom.lookup "ann" = none ∧ ¬ AgreeOn "ann" s.lobby t.lobby := by
  let leave : Event ℚ := .frame 6 1 (.other "LeaveRoom"
    (annBody ++ [0x12, 8, 0x72, 0x6F, 0x6F, 0x6D, 0x5F, 0x30, 0x30, 0x31])) 0
  have hplay : (serve anyEvent twoAccounts annAtHome).bind (fun t => (step t leave).map fun s =>
      decide (Impersonates "ann" ⟨0, 5⟩ t leave ∧ t.playerConns "ann" = some ⟨0, 5⟩ ∧
        t.lobby.roomMgr.playerRoom.lookup "ann" = some "room_001" ∧
        s.lobby.roomMgr.playerRoom.lookup "ann" = none)) = some true := by
    decide +kernel
  obtain ⟨t, ht, hplay⟩ := Option.bind_eq_some_iff.1 hplay
  obtain ⟨s, hs, hplay⟩ := Option.map_eq_some_iff.1 hplay
  obtain ⟨hextra, hconn, hin, hout⟩ := of_decide_eq_true hplay
  have htwins : TwinRuns "ann" ⟨0, 5⟩ anyEvent s t :=
    ⟨twoAccounts, true, true, true, {},
      .left (.of_reach (Reach.of_foldlM _ ht)) ⟨hextra, trivial⟩ hs⟩
  refine ⟨s, t, htwins, hconn, hin, hout, fun h => ?_⟩
  have hroom := h.room
  rw [hin, hout] at hroom
  cases hroom

end GameService

end TinRpc
