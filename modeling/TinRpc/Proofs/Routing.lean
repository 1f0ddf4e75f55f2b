import TinRpc.Proofs.Lobby
import TinRpc.Proofs.Sessions
import TinRpc.Proto

/-!
# The lobby of the service

The lobby changes by the frames that go to `dispatch_` and by disconnects, and by nothing else
(`step_lobby`). So the lobby of a running service is one that its own operations lead to
(`lobby_reach`).
-/

namespace TinRpc

open Transition

namespace GameService

variable {F D : Type} [Platform F] {s s' : GameService F D}

section Handlers

variable (s) (rid : ℕ) (conn : Connection) (now : ℤ)

theorem handleMove_lobby (req : Option (MoveReq F)) :
    (s.handleMove rid conn now req).lobby = s.lobby := by
  unfold handleMove
  split <;> rfl

theorem handleSelectMap_lobby (req : Option (String × ℤ)) :
    (s.handleSelectMap rid conn now req).lobby = s.lobby := by
  unfold handleSelectMap
  split <;> rfl

theorem handleVoxelEdit_lobby (req : Option VoxelEditReq) :
    (s.handleVoxelEdit rid conn req).lobby = s.lobby := by
  unfold handleVoxelEdit
  split
  · simp only [savePlayerAsync_eq]
    split <;> rfl
  · rfl

theorem handleCraft_lobby (recipeId : Option ℤ) :
    (s.handleCraft rid conn recipeId).lobby = s.lobby := by
  unfold handleCraft
  split
  · rfl
  · rfl
  · simp only [savePlayerAsync_eq]
    split <;> rfl

theorem handleGather_lobby (resourceId : Option String) :
    (s.handleGather rid conn resourceId).lobby = s.lobby := by
  unfold handleGather
  split
  · simp only [savePlayerAsync_eq]
    split <;> rfl
  · rfl

theorem handlePlaceBuilding_lobby (req : Option (PlaceBuildingReq F)) :
    (s.handlePlaceBuilding rid conn req).lobby = s.lobby := by
  unfold handlePlaceBuilding
  split
  · simp only [savePlayerAsync_eq]
    split <;> rfl
  · rfl

omit [Platform F] in
theorem handleRegister_lobby (req : Option (String × String)) :
    (s.handleRegister rid conn req).lobby = s.lobby := by
  unfold handleRegister
  split <;> rfl

omit [Platform F] in
theorem handleLogin_lobby (req : Option (String × String)) :
    (s.handleLogin rid conn req).lobby = s.lobby := by
  unfold handleLogin
  split <;> rfl

theorem switchAccount_lobby (fd : ℤ) (p : String) : (s.switchAccount fd p).lobby = s.lobby := by
  unfold switchAccount
  split
  · rfl
  · split_ifs
    · rfl
    · rw [savePlayerAsync_eq]
      rfl

theorem loggedIn_lobby (t : Ticket) (result : AccountResult) (saved : PlayerState F) :
    (s.loggedIn t result saved now).lobby = s.lobby := by
  unfold loggedIn
  split
  · rfl
  · split
    · exact s.switchAccount_lobby t.fd result.playerId
    · rfl

theorem runCallback_lobby (callback : Callback F) :
    (s.runCallback now callback).lobby = s.lobby := by
  cases callback with
  | registered t result =>
    show (s.registered t result).lobby = s.lobby
    rcases s.registered_cases t result with ⟨-, he⟩ | ⟨conn, msg, -, he⟩
    · rw [he]
    · rw [he]
      rfl
  | loggedIn t result saved => exact s.loggedIn_lobby now t result saved

theorem runTask_lobby (o : DbOutcome) (task : Task F) :
    (s.runTask o task).lobby = s.lobby := by
  cases task <;> rfl

end Handlers

variable [Lobby D]

/-- The lobby after an event that can happen. -/
def lobbyAfter (s : GameService F D) : Event F → D
  | .frame _ _ (.other method body) now => (Lobby.call s.lobby s.metrics now method body).1
  | .close fd now =>
    match (s.handlers fd).bind fun conn => s.fdToPlayer conn.fd with
    | some p => (Lobby.drop s.lobby now p).1
    | none => s.lobby
  | _ => s.lobby

theorem onServerFrame_lobby (rid : ℕ) (conn : Connection) (now : ℤ) (request : Request F) :
    (s.onServerFrame rid conn now request).lobby =
      match request with
      | .other method body => (Lobby.call s.lobby s.metrics now method body).1
      | _ => s.lobby := by
  cases request with
  | register req => exact handleRegister_lobby _ rid conn req
  | login req => exact handleLogin_lobby _ rid conn req
  | selectMap req => exact handleSelectMap_lobby _ rid conn now req
  | move req => exact handleMove_lobby _ rid conn now req
  | voxelEdit req => exact handleVoxelEdit_lobby _ rid conn req
  | craft recipeId => exact handleCraft_lobby _ rid conn recipeId
  | gather resourceId => exact handleGather_lobby _ rid conn resourceId
  | placeBuilding req => exact handlePlaceBuilding_lobby _ rid conn req
  | other method body =>
    unfold onServerFrame dispatch
    simp only []
    split <;> rfl

theorem onPlayerDisconnected_lobby (fd now : ℤ) : (s.onPlayerDisconnected fd now).lobby =
    match s.fdToPlayer fd with
    | some p => (Lobby.drop s.lobby now p).1
    | none => s.lobby := by
  rcases hp : s.fdToPlayer fd with _ | p
  · simp only [onPlayerDisconnected, hp]
  · simp only [onPlayerDisconnected, hp, savePlayerAsync_eq]
    rfl

theorem step_lobby {e : Event F} (h : step s e = some s') : s'.lobby = s.lobbyAfter e := by
  cases e with
  | accept fd =>
    obtain ⟨-, rfl⟩ := Step.accept h
    rfl
  | frame fd rid request now =>
    simp only [step, Option.map_eq_some_iff] at h
    obtain ⟨conn, -, rfl⟩ := h
    rw [onServerFrame_lobby]
    cases request <;> rfl
  | close fd now =>
    obtain ⟨conn, hconn, rfl⟩ := Step.close h
    simp only [lobbyAfter, hconn, Option.bind_some]
    exact onPlayerDisconnected_lobby conn.fd now
  | work o =>
    obtain ⟨task, queue, -, rfl⟩ := Step.work h
    exact runTask_lobby _ o task
  | loop now =>
    obtain ⟨callback, callbacks, -, rfl⟩ := Step.loop h
    exact runCallback_lobby _ now callback

omit [Lobby D] in
theorem start_lobby (lobby : D) (db : Database F) (accounts players scenes : Bool)
    (o : DbOutcome) : (start lobby db accounts players scenes o).lobby = lobby := by
  unfold start loadOrSeedScene
  simp only []
  split_ifs <;> rfl

/-- `s` is reached by allowed steps from a newly constructed service. -/
def Serving {E : Type} [Doubles E] [GameProto E]
    (ok : GameService F (GameLobby E) → Event F → Prop) (s : GameService F (GameLobby E)) : Prop :=
  ∃ db accounts players scenes o,
    Reach step ok (start GameLobby.new db accounts players scenes o) s

theorem Serving.mono {E : Type} [Doubles E] [GameProto E]
    {ok ok' : GameService F (GameLobby E) → Event F → Prop} {s : GameService F (GameLobby E)}
    (h : Serving ok s) (hok : ∀ s e, ok s e → ok' s e) : Serving ok' s := by
  obtain ⟨db, accounts, players, scenes, o, h⟩ := h
  exact ⟨db, accounts, players, scenes, o, h.mono hok⟩

section Operations

variable {E : Type} [Doubles E] [GameProto E] {s s' : GameService F (GameLobby E)}

/-- What an event asks of the lobby. -/
def operation (s : GameService F (GameLobby E)) : Event F → Option (GameLobby.Op E)
  | .frame _ _ (.other method body) now =>
    (LobbyRequest.read method body).map fun r => .request r s.metrics now
  | .close fd _ => ((s.handlers fd).bind fun conn => s.fdToPlayer conn.fd).map .drop
  | _ => none

omit [Platform F] in
theorem lobbyAfter_operation (s : GameService F (GameLobby E)) (e : Event F) :
    (s.operation e = none ∧ s.lobbyAfter e = s.lobby) ∨
      ∃ op, s.operation e = some op ∧ GameLobby.step s.lobby op = some (s.lobbyAfter e) := by
  cases e with
  | frame fd rid request now =>
    cases request with
    | other method body =>
      simp only [operation, lobbyAfter, Lobby.call]
      rcases LobbyRequest.read (E := E) method body with _ | r
      · exact .inl ⟨rfl, rfl⟩
      · exact .inr ⟨_, rfl, rfl⟩
    | _ => exact .inl ⟨rfl, rfl⟩
  | close fd now =>
    simp only [operation, lobbyAfter, Lobby.drop]
    rcases (s.handlers fd).bind fun conn => s.fdToPlayer conn.fd with _ | p
    · exact .inl ⟨rfl, rfl⟩
    · exact .inr ⟨_, rfl, rfl⟩
  | _ => exact .inl ⟨rfl, rfl⟩

theorem step_operation {e : Event F} (h : step s e = some s') :
    (s.operation e = none ∧ s'.lobby = s.lobby) ∨
      ∃ op, s.operation e = some op ∧ GameLobby.step s.lobby op = some s'.lobby := by
  rw [step_lobby h]
  exact s.lobbyAfter_operation e

/-- What an event asks of the lobby takes unused names. -/
def NewNames (s : GameService F (GameLobby E)) (e : Event F) : Prop :=
  ∀ op ∈ s.operation e, GameLobby.NamesUnused s.lobby op

instance (s : GameService F (GameLobby E)) (e : Event F) : Decidable (NewNames s e) :=
  inferInstanceAs (Decidable (∀ op ∈ s.operation e, GameLobby.NamesUnused s.lobby op))

omit [Platform F] in
/-- What an event does to the lobby is an operation, or nothing. -/
theorem lobby_next {ok : GameLobby E → GameLobby.Op E → Prop} {e : Event F}
    (h : Reach GameLobby.step ok GameLobby.new s.lobby)
    (hok : ∀ op ∈ s.operation e, ok s.lobby op) :
    Reach GameLobby.step ok GameLobby.new (s.lobbyAfter e) := by
  rcases s.lobbyAfter_operation e with ⟨-, heq⟩ | ⟨op, hop, hstep⟩
  · rw [heq]
    exact h
  · exact h.next (hok op hop) hstep

/-- The lobby of a running service is one that its operations lead to. -/
theorem lobby_reach {ok : GameLobby E → GameLobby.Op E → Prop}
    (h : Serving (fun s e => ∀ op ∈ s.operation e, ok s.lobby op) s) :
    Reach GameLobby.step ok GameLobby.new s.lobby := by
  obtain ⟨db, accounts, players, scenes, o, h⟩ := h
  refine h.invariant (P := fun s => Reach GameLobby.step ok GameLobby.new s.lobby) ?_
    fun s e s' hr hok hs => ?_
  · rw [start_lobby]
    exact .start
  · rw [step_lobby hs]
    exact lobby_next hr hok

end Operations

/-- The run of a list of events from the start of a service on a database. -/
def serve (ok : GameService ℚ (GameLobby Score) → Event ℚ → Prop) [∀ s e, Decidable (ok s e)]
    (db : Database ℚ) (es : List (Event ℚ)) : Option (GameService ℚ (GameLobby Score)) :=
  es.foldlM (fun s e => if ok s e then step s e else none)
    (start GameLobby.new db true true true {})

theorem serving_of_serve {ok : GameService ℚ (GameLobby Score) → Event ℚ → Prop}
    [∀ s e, Decidable (ok s e)] {db : Database ℚ} {es : List (Event ℚ)}
    {s : GameService ℚ (GameLobby Score)} (h : serve ok db es = some s) : Serving ok s :=
  ⟨db, true, true, true, {}, Reach.of_foldlM es h⟩

/-- A message whose first field is `ann`. -/
def annBody : List UInt8 := [0x0A, 3, 0x61, 0x6E, 0x6E]

/-- A message whose first field is `bob`. -/
def bobBody : List UInt8 := [0x0A, 3, 0x62, 0x6F, 0x62]

/-- A message whose first fields are `room_001` and `ann`. -/
def annInRoomBody : List UInt8 :=
  [0x0A, 8, 0x72, 0x6F, 0x6F, 0x6D, 0x5F, 0x30, 0x30, 0x31, 0x12, 3, 0x61, 0x6E, 0x6E]

end GameService

end TinRpc
