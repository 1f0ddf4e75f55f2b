import TinRpc.Service

/-!
# The account switch by reference

`HandleLogin` passes `UnregisterPlayerConn` the string in an entry of `fd_to_player_`, and where
this is the entry that is erased, the string is gone before `player_conns_` is searched for it. A
`std::string` keeps up to 15 bytes in itself, which an entry's end leaves as they are; the bytes of
a buffer from the heap are overwritten as it is freed, and the search finds nothing. `GameService`
has the switch of an id that is still there. What is sent by an entry of `player_conns_` that has
stayed is recorded like the rest, also once its connection is gone.
-/

namespace TinRpc

/-- `_S_local_capacity`: the bytes a `std::string` holds without a buffer. -/
def localCapacity : ℕ := 15

/-- The service, and which entries of `fd_to_player_` have their string in a buffer. -/
structure AliasedService (F D : Type) extends GameService F D where
  onHeap : ℤ → Bool := fun _ => false

namespace AliasedService

variable {F D : Type} [Platform F] [Lobby D] (s : AliasedService F D)

/-- A string that is assigned to keeps the buffer it has. -/
def registerPlayerConn (playerId : String) (conn : Connection) : AliasedService F D :=
  { toGameService := s.toGameService.registerPlayerConn playerId conn
    onHeap := Function.update s.onHeap conn.fd
      (((s.fdToPlayer conn.fd).isSome && s.onHeap conn.fd) ||
        decide (localCapacity < playerId.utf8ByteSize)) }

/-- `UnregisterPlayerConn`, where `playerId` is the string in the entry of `fd`. -/
def unregisterPlayerConn (fd : ℤ) (playerId : String) : AliasedService F D :=
  match s.playerConns playerId with
  | none => s
  | some conn =>
    let erased := { s with fdToPlayer := Function.update s.fdToPlayer conn.fd none }
    if conn.fd = fd ∧ s.onHeap fd = true then erased
    else { erased with playerConns := Function.update s.playerConns playerId none }

def switchAccount (fd : ℤ) (playerId : String) : AliasedService F D :=
  match s.fdToPlayer fd with
  | none => s
  | some old =>
    if old = playerId then s
    else unregisterPlayerConn
      { s with toGameService := (s.savePlayerAsync old).run (.leave old) } fd old

/-- The completion of a login request. -/
def loggedIn (t : Ticket) (result : AccountResult) (saved : PlayerState F) (now : ℤ) :
    AliasedService F D :=
  match s.activeConns t.fd with
  | none => s
  | some conn =>
    if result.ok then
      let s := (s.switchAccount t.fd result.playerId).registerPlayerConn result.playerId conn
      let entered := s.onConnect.run (.enterWithState result.playerId result.playerId now saved.x
        saved.y saved.z saved.yaw saved.inv)
      { s with toGameService := entered.send conn (.response t.requestId
          (.login true "" (some (result.playerId, result.playerId)))) }
    else
      { s with toGameService := (s.send conn (.response t.requestId (.login false
          (if result.errorMsg = "" then "invalid credentials" else result.errorMsg)
          none))).onError }

/-- One event, where it can happen. -/
def step : Event F → Option (AliasedService F D)
  | .loop now => match s.callbacks with
    | [] => none
    | .registered t result :: callbacks =>
      some { s with toGameService := GameService.registered { s with callbacks } t result }
    | .loggedIn t result saved :: callbacks =>
      some (loggedIn { s with callbacks } t result saved now)
  | e => (TinRpc.step s.toGameService e).map fun service => { s with toGameService := service }

/-- The service as constructed. -/
def start (lobby : D) (db : Database F) (accounts players scenes : Bool) (o : DbOutcome) :
    AliasedService F D :=
  { toGameService := GameService.start lobby db accounts players scenes o }

end AliasedService

end TinRpc
