import TinRpc.Client

/-!
# The players a client shows

`PlayerSpawner` of `godot_client/scripts/game/player_spawner.gd`, with what `main.gd` has it do,
and the server with its clients as one machine. What either side sends waits in order until the
other side takes it, however long that is. `--token` is the id a client takes for its own until a
login completes. The buttons and `--auto-map` give `_select_map` one of three maps.
-/

namespace TinRpc

/-! ## The spawner -/

/-- What a placeholder shows. -/
structure RemotePlayer (F : Type) where
  position : F × F × F
  yaw : F
  appearance : ℤ

structure PlayerSpawner (F : Type) where
  localPlayerId : String := ""
  remotePlayers : Table String (RemotePlayer F) := ∅

namespace PlayerSpawner

variable {F : Type} (c : PlayerSpawner F)

def applyPlayerTransform (player : PlayerTransform F) : PlayerSpawner F :=
  if player.playerId = "" ∨ player.playerId = c.localPlayerId then c
  else { c with
    remotePlayers := c.remotePlayers.insert player.playerId
      ⟨(player.x, player.y, player.z), player.yaw, VoxelWorld.clampi player.appearance 0 3⟩ }

def applyWorldState (players : List (PlayerTransform F)) : PlayerSpawner F :=
  players.foldl (fun c player =>
    if player.playerId = "" ∨ player.playerId = c.localPlayerId then c
    else c.applyPlayerTransform player) c

def despawnPlayer (playerId : String) : PlayerSpawner F :=
  match c.remotePlayers.lookup playerId with
  | none => c
  | some _ => { c with remotePlayers := c.remotePlayers.erase playerId }

def onLoginCompleted (success : Bool) (playerId : String) : PlayerSpawner F :=
  if success then despawnPlayer { c with localPlayerId := playerId } playerId else c

/-- What `_select_map` does before it sends the request. -/
def selectMap : PlayerSpawner F := c.remotePlayers.keys.foldl despawnPlayer c

/-- `_on_notify`. -/
def onNotify : Push F → PlayerSpawner F
  | .worldState state => c.applyWorldState state.players
  | .playerEnter player => c.applyPlayerTransform player
  | .playerLeave playerId => c.despawnPlayer playerId
  | _ => c

/-- `_on_response`. -/
def onResponse : Response F → PlayerSpawner F
  | .login success _ info => c.onLoginCompleted success ((info.map Prod.fst).getD "")
  | _ => c

/-- `_dispatch_frame`. -/
def dispatchFrame : Message F → PlayerSpawner F
  | .response 0 _ => c
  | .response (_ + 1) r => c.onResponse r
  | .push p => c.onNotify p
  | .error .. | .roomEvent _ => c

end PlayerSpawner

/-! ## The server and its clients -/

/-- The room a `SelectMap` asks for. -/
def Request.selects {F : Type} : Request F → Option String
  | .selectMap (some (roomId, _)) => some roomId
  | _ => none

/-- The server and a client for each connection, with what is on its way to a client and to the
server. What a client has handled since it last cleared its players is kept for the proofs. -/
structure Network (F D : Type) where
  server : GameService F D
  spawners : Connection → PlayerSpawner F
  inbound : Connection → List (Message F) := fun _ => []
  outbound : Connection → List (ℕ × Request F) := fun _ => []
  handled : Connection → List (Message F) := fun _ => []

/-- The server's events but for the frames; the server takes a frame that a client has sent; a
client handles a message, sends a request that is no `SelectMap`, or selects a map. -/
inductive Action (F : Type)
  | server (e : Event F)
  | serve (fd now : ℤ)
  | handle (conn : Connection)
  | request (conn : Connection) (requestId : ℕ) (request : Request F)
  | selectMap (conn : Connection) (requestId : ℕ) (mapId : ℤ)

namespace Network

variable {F D : Type} (s : Network F D)

/-- A server with clients started with these tokens. -/
def start (server : GameService F D) (tokens : Connection → String) : Network F D :=
  { server, spawners := fun conn => { localPlayerId := tokens conn } }

/-- What of all that is sent is for one connection. -/
def arriving (conn : Connection) (sent : List (Connection × Message F)) : List (Message F) :=
  (sent.filter fun m => m.1 = conn).map Prod.snd

/-- The server after a step: what it sent is on its way. -/
def advance (server : GameService F D) : Network F D :=
  { s with
    server
    inbound := fun conn =>
      s.inbound conn ++ arriving conn (server.wire.drop s.server.wire.length) }

/-- The connection of an fd, the first request on its way there and those behind it. -/
def next (fd : ℤ) : Option (Connection × (ℕ × Request F) × List (ℕ × Request F)) :=
  (s.server.handlers fd).bind fun conn => match s.outbound conn with
    | [] => none
    | f :: rest => some (conn, f, rest)

def send (conn : Connection) (f : ℕ × Request F) : Network F D :=
  { s with outbound := Function.update s.outbound conn (s.outbound conn ++ [f]) }

/-- One action, where it can happen. The client's request ids are not zero. -/
def step {F D : Type} [Platform F] [Lobby D] (s : Network F D) : Action F → Option (Network F D)
  | .server (.frame ..) => none
  | .server e => (TinRpc.step s.server e).map s.advance
  | .serve fd now => (s.next fd).bind fun (conn, f, rest) =>
      (TinRpc.step s.server (.frame fd f.1 f.2 now)).map fun server =>
        { s.advance server with outbound := Function.update s.outbound conn rest }
  | .handle conn => match s.inbound conn with
    | [] => none
    | m :: rest => some { s with
        spawners := Function.update s.spawners conn ((s.spawners conn).dispatchFrame m)
        inbound := Function.update s.inbound conn rest
        handled := Function.update s.handled conn (s.handled conn ++ [m]) }
  | .request conn rid request =>
    if rid ≠ 0 ∧ request.selects = none then some (s.send conn (rid, request)) else none
  | .selectMap conn rid mapId =>
    if rid ≠ 0 ∧ 0 ≤ mapId ∧ mapId ≤ 2 then
      some (send { s with
        spawners := Function.update s.spawners conn (s.spawners conn).selectMap
        handled := Function.update s.handled conn [] } conn
          (rid, .selectMap (some ("map_" ++ toString mapId, mapId))))
    else none

end Network

end TinRpc
