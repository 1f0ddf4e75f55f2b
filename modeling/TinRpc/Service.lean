import TinRpc.Economy

/-!
# The game service

`GameService` of `src/game/game_service.cpp` with the event loop, the connections and the database
worker it runs on, as a machine. One step is one thing the process does: it accepts a connection,
handles a frame, notices a close, runs the worker's next task or the loop's next callback. The
operating system may hand out any fd number that is not open, so a connection is known by its
accept. A frame's body arrives parsed, `none` where `ParseFromArray` fails; what a clock reads and
what the database answers are part of the step.
-/

namespace TinRpc

/-! ## Requests and responses -/

structure MoveReq (F : Type) where
  x : F
  y : F
  z : F
  yaw : F
  appearance : ℤ

structure VoxelEditReq where
  x : ℤ
  y : ℤ
  z : ℤ
  action : ℤ
  blockType : ℤ
  deriving DecidableEq

structure PlaceBuildingReq (F : Type) where
  buildingType : ℤ
  x : F
  y : F
  z : F
  yaw : F

/-- The method of a frame with its parsed body. -/
inductive Request (F : Type)
  | register (req : Option (String × String))
  | login (req : Option (String × String))
  | selectMap (req : Option (String × ℤ))
  | move (req : Option (MoveReq F))
  | voxelEdit (req : Option VoxelEditReq)
  | craft (recipeId : Option ℤ)
  | gather (resourceId : Option String)
  | placeBuilding (req : Option (PlaceBuildingReq F))
  | other (method : String) (body : List UInt8)

inductive Response (F : Type)
  | register (success : Bool) (errorMsg playerId : String)
  | login (success : Bool) (errorMsg : String) (playerInfo : Option (String × String))
  | selectMap (success : Bool) (mapId : ℤ) (errorMsg : String)
  | move (success : Bool) (errorMsg : String) (corrected : Option (F × F × F))
  | voxelEdit (success : Bool) (errorMsg : String) (edit : Option VoxelEditReq)
      (inventory : Option Inventory)
  | craft (success : Bool) (errorMsg : String) (inventory : Option Inventory)
  | gather (success : Bool) (errorMsg : String) (resource : Resource F) (inventory : Inventory)
  | placeBuilding (success : Bool) (errorMsg : String) (building : BuildingState F)
      (inventory : Inventory)
  | other (method : String) (body : List UInt8)

/-- What the server sends on a connection. -/
inductive Message (F : Type)
  | response (requestId : ℕ) (r : Response F)
  | error (requestId : ℕ) (method : String)
  | push (p : Push F)
  | roomEvent (data : List UInt8)

/-! ## The parts of the service -/

/-- A connection: the how manieth it was accepted, and its fd. -/
structure Connection where
  accept : ℕ
  fd : ℤ
  deriving DecidableEq

structure Metrics where
  activeConnections : ℤ := 0
  errorCount : ℕ := 0
  totalRequests : ℕ := 0

/-- The room and match services behind `dispatch_`. `call` is `Dispatch::Call` and `drop` what a
disconnect does there; both return the room events sent to players. -/
class Lobby (D : Type) where
  call : D → Metrics → ℤ → String → List UInt8 →
    D × Option (List UInt8) × List (String × List UInt8)
  drop : D → ℤ → String → D × List (String × List UInt8)

/-- What a task keeps of its request. The source keeps the request id and the fd; the connection
and the numbers of effects there had been and of tasks posted are kept for the proofs. -/
structure Ticket where
  requestId : ℕ
  conn : Connection
  done : ℕ
  posted : ℕ

def Ticket.fd (t : Ticket) : ℤ := t.conn.fd

/-- A task of `DbWorker`. -/
inductive Task (F : Type)
  | createAccount (t : Ticket) (username password : String)
  | verifyLogin (t : Ticket) (username password : String)
  | savePlayer (st : PlayerState F)
  | saveScene (snap : SceneSnapshot F)

/-- A callback posted to the loop. -/
inductive Callback (F : Type)
  | registered (t : Ticket) (result : AccountResult)
  | loggedIn (t : Ticket) (result : AccountResult) (saved : PlayerState F)

/-- How the database behaves in one task: whether its cursor, in a login the one of the player's
document too, and its write succeed, what `HashPassword` makes and the time written. -/
structure DbOutcome where
  readOk : Bool := true
  loadOk : Bool := true
  writeOk : Bool := true
  hash : String := ""
  ms : ℤ := 0

/-- What has happened so far. No code reads it: the connections logins were verified for, the
players acted for, the effects in order and each player's since he last entered, the tasks posted,
and what has been stored of the scene and of each player, the oldest first. -/
structure Log (F : Type) where
  verified : List (Connection × String) := []
  acts : List (Connection × String) := []
  effects : List (Effect F) := []
  since : String → List (Effect F) := fun _ => []
  posted : List (Task F) := []
  scenes : List (Content F) := []
  saves : String → List Inventory := fun _ => []

def Log.record {F : Type} (l : Log F) (call : Call F) (e : Option (Effect F)) : Log F :=
  { l with
    effects := l.effects ++ e.toList
    since := match call with
      | .enterWithState p .. => Function.update l.since p []
      | _ => e.elim l.since fun e => Function.update l.since e.player (l.since e.player ++ [e]) }

structure GameService (F D : Type) where
  world : WorldService F
  lobby : D
  playerConns : String → Option Connection := fun _ => none
  fdToPlayer : ℤ → Option String := fun _ => none
  activeConns : ℤ → Option Connection := fun _ => none
  metrics : Metrics := {}
  /-- `EventLoop::handlers_`: the open connections. -/
  handlers : ℤ → Option Connection := fun _ => none
  accepted : ℕ := 0
  /-- `DbWorker::q_`. -/
  queue : List (Task F) := []
  /-- `EventLoop::pending_callbacks_`. -/
  callbacks : List (Callback F) := []
  db : Database F
  /-- Which stores have a client. -/
  accounts : Bool := true
  players : Bool := true
  scenes : Bool := true
  /-- Everything sent, in order. -/
  wire : List (Connection × Message F) := []
  log : Log F := {}

namespace GameService

variable {F D : Type} [Platform F] [Lobby D] (s : GameService F D)

/-! ## Sending, posting and the connection maps -/

def send (conn : Connection) (m : Message F) : GameService F D :=
  { s with wire := s.wire ++ [(conn, m)] }

/-- `SendToPlayer`: a message for each player who has a connection. -/
def sendToPlayers {M : Type} (msg : M → Message F) (sent : List (String × M)) :
    GameService F D :=
  { s with wire := s.wire ++ sent.filterMap fun e =>
      (s.playerConns e.1).map fun conn => (conn, msg e.2) }

/-- `DbWorker::Post`. -/
def post (task : Task F) : GameService F D :=
  { s with queue := s.queue ++ [task], log := { s.log with posted := s.log.posted ++ [task] } }

/-- A call of the world service, which hands its messages to `SendToPlayer`. -/
def run (call : Call F) : GameService F D :=
  let r := call.run s.world
  sendToPlayers
    { s with world := r.world, log := s.log.record call (call.effect s.world) } .push r.sent

/-- A call made for the player of a frame on `conn`. -/
def act (conn : Connection) (call : Call F) : GameService F D :=
  run { s with log := { s.log with acts := s.log.acts ++ [(conn, call.player)] } } call

def onError : GameService F D :=
  { s with metrics := { s.metrics with errorCount := s.metrics.errorCount + 1 } }

def onRequest : GameService F D :=
  { s with metrics := { s.metrics with totalRequests := s.metrics.totalRequests + 1 } }

def onConnect : GameService F D :=
  { s with metrics := { s.metrics with
      activeConnections := s.metrics.activeConnections + 1 } }

def onDisconnect : GameService F D :=
  { s with metrics := { s.metrics with
      activeConnections := s.metrics.activeConnections - 1 } }

def registerPlayerConn (playerId : String) (conn : Connection) : GameService F D :=
  { s with
    playerConns := Function.update s.playerConns playerId (some conn)
    fdToPlayer := Function.update s.fdToPlayer conn.fd (some playerId) }

def unregisterPlayerConn (playerId : String) : GameService F D :=
  { s with
    fdToPlayer := match s.playerConns playerId with
      | some conn => Function.update s.fdToPlayer conn.fd none
      | none => s.fdToPlayer
    playerConns := Function.update s.playerConns playerId none }

def savePlayerAsync (playerId : String) : GameService F D :=
  match s.world.getSnapshot playerId with
  | none => s
  | some st => s.post (.savePlayer st)

def saveSceneAsync : GameService F D :=
  s.post (.saveScene (s.world.exportScene "default"))

/-! ## Frames -/

def handleMove (rid : ℕ) (conn : Connection) (now : ℤ) (req : Option (MoveReq F)) :
    GameService F D :=
  match s.fdToPlayer conn.fd, req with
  | none, _ => s.send conn (.response rid (.move false "玩家未登录" none))
  | some _, none => s.onError.send conn (.error rid "Move")
  | some player, some req =>
    let r := (s.world.tryMove player req.x req.y req.z req.yaw now req.appearance).result
    (s.act conn (.tryMove player req.x req.y req.z req.yaw now req.appearance)).send conn
      (.response rid
        (.move r.success r.errorMsg (some (r.correctedX, r.correctedY, r.correctedZ))))

def handleSelectMap (rid : ℕ) (conn : Connection) (now : ℤ) (req : Option (String × ℤ)) :
    GameService F D :=
  match s.fdToPlayer conn.fd, req with
  | some player, some (roomId, mapId) =>
    let ok := (s.world.selectRoom player roomId mapId now).result
    (s.act conn (.selectRoom player roomId mapId now)).send conn
      (.response rid (.selectMap ok mapId (if ok then "" else "invalid room or map")))
  | _, _ => s.send conn (.response rid (.selectMap false 0 "player is not logged in"))

def handleVoxelEdit (rid : ℕ) (conn : Connection) (req : Option VoxelEditReq) :
    GameService F D :=
  match s.fdToPlayer conn.fd, req with
  | some player, some req =>
    let r := (s.world.applyVoxelEdit player req.x req.y req.z req.action req.blockType).result
    let s := s.act conn (.applyVoxelEdit player req.x req.y req.z req.action req.blockType)
    let s := if r.success then s.saveSceneAsync.savePlayerAsync player else s
    s.send conn (.response rid (.voxelEdit r.success r.errorMsg (some req)
      (if r.success then some ⟨r.wood, r.stone, r.dirt, r.copper, 0⟩ else none)))
  | _, _ => s.send conn (.response rid (.voxelEdit false "" req none))

def handleCraft (rid : ℕ) (conn : Connection) (recipeId : Option ℤ) : GameService F D :=
  match s.fdToPlayer conn.fd, recipeId with
  | none, _ => s.send conn (.response rid (.craft false "player is not in world" none))
  | some _, none => s.send conn (.response rid (.craft false "invalid recipe" none))
  | some player, some recipeId =>
    let r := (s.world.tryCraft player recipeId).result
    let s := s.act conn (.tryCraft player recipeId)
    let s := if r.success then s.savePlayerAsync player else s
    s.send conn (.response rid
      (.craft r.success r.errorMsg (if r.success then some r.inv else none)))

def handleGather (rid : ℕ) (conn : Connection) (resourceId : Option String) : GameService F D :=
  match s.fdToPlayer conn.fd, resourceId with
  | some player, some resourceId =>
    let r := (s.world.tryGather player resourceId).result
    let s := s.act conn (.tryGather player resourceId)
    let s := if r.success then (s.savePlayerAsync player).saveSceneAsync else s
    s.send conn (.response rid (.gather r.success r.errorMsg
      ⟨r.resourceId, r.resourceType, r.x, r.y, r.z, r.remaining⟩ ⟨r.wood, r.stone, 0, 0, 0⟩))
  | _, _ => s.send conn (.error rid "Gather")

def handlePlaceBuilding (rid : ℕ) (conn : Connection) (req : Option (PlaceBuildingReq F)) :
    GameService F D :=
  match s.fdToPlayer conn.fd, req with
  | some player, some req =>
    let r := (s.world.tryPlaceBuilding player req.buildingType req.x req.y req.z req.yaw).result
    let s := s.act conn (.tryPlaceBuilding player req.buildingType req.x req.y req.z req.yaw)
    let s := if r.success then (s.savePlayerAsync player).saveSceneAsync else s
    s.send conn (.response rid (.placeBuilding r.success r.errorMsg
      ⟨r.buildingId, r.ownerId, r.buildingType, r.x, r.y, r.z, r.yaw⟩
      ⟨r.wood, r.stone, 0, 0, 0⟩))
  | _, _ => s.send conn (.error rid "PlaceBuilding")

def ticket (rid : ℕ) (conn : Connection) : Ticket :=
  ⟨rid, conn, s.log.effects.length, s.log.posted.length⟩

def handleRegister (rid : ℕ) (conn : Connection) (req : Option (String × String)) :
    GameService F D :=
  match req with
  | none => s.onError.send conn (.error rid "Register")
  | some (username, password) =>
    let s := { s with activeConns := Function.update s.activeConns conn.fd (some conn) }
    s.post (.createAccount (s.ticket rid conn) username password)

def handleLogin (rid : ℕ) (conn : Connection) (req : Option (String × String)) :
    GameService F D :=
  match req with
  | none => s.onError.send conn (.error rid "Login")
  | some (username, password) =>
    let s := { s with activeConns := Function.update s.activeConns conn.fd (some conn) }
    s.post (.verifyLogin (s.ticket rid conn) username password)

/-- The methods that `OnServerFrame` leaves to `dispatch_`. -/
def dispatch (rid : ℕ) (conn : Connection) (now : ℤ) (method : String) (body : List UInt8) :
    GameService F D :=
  let (lobby, rsp, events) := Lobby.call s.lobby s.metrics now method body
  let s := sendToPlayers { s with lobby } .roomEvent events
  (match rsp with
    | some body => s.send conn (.response rid (.other method body))
    | none => s.onError.send conn (.error rid method)).onRequest

def onServerFrame (rid : ℕ) (conn : Connection) (now : ℤ) (request : Request F) :
    GameService F D :=
  let s := { s with activeConns := Function.update s.activeConns conn.fd (some conn) }
  match request with
  | .register req => s.handleRegister rid conn req
  | .login req => s.handleLogin rid conn req
  | .selectMap req => s.handleSelectMap rid conn now req
  | .move req => s.handleMove rid conn now req
  | .voxelEdit req => s.handleVoxelEdit rid conn req
  | .craft recipeId => s.handleCraft rid conn recipeId
  | .gather resourceId => s.handleGather rid conn resourceId
  | .placeBuilding req => s.handlePlaceBuilding rid conn req
  | .other method body => s.dispatch rid conn now method body

/-! ## Disconnects -/

def onPlayerDisconnected (fd now : ℤ) : GameService F D :=
  let s := { s with activeConns := Function.update s.activeConns fd none }
  match s.fdToPlayer fd with
  | none => s
  | some playerId =>
    let s := s.savePlayerAsync playerId
    let (lobby, events) := Lobby.drop s.lobby now playerId
    let s := sendToPlayers { s with lobby } .roomEvent events
    ((s.run (.leave playerId)).unregisterPlayerConn playerId).onDisconnect

/-! ## The worker's tasks and the loop's callbacks -/

/-- The player's state as the login task reads it. -/
def loadPlayer (readOk : Bool) (playerId : String) : PlayerState F :=
  let saved := PlayerStore.load s.players readOk s.db.players playerId
  if saved.found then saved
  else
    { saved with
      playerId, x := Platform.ofRat 0, y := Platform.ofRat 0, z := Platform.ofRat 0
      yaw := Platform.ofRat 0, inv := { saved.inv with wood := 6, stone := 3 } }

def runTask (o : DbOutcome) : Task F → GameService F D
  | .createAccount t username password =>
    let (accounts, result) := AccountStore.createAccount s.accounts s.db.indexed o.writeOk
      s.db.accounts username password o.hash o.ms
    { s with db := { s.db with accounts }, callbacks := s.callbacks ++ [.registered t result] }
  | .verifyLogin t username password =>
    let result := AccountStore.verifyCredentials s.accounts o.readOk s.db.accounts username password
    let saved := if result.ok then s.loadPlayer o.loadOk result.playerId else PlayerStore.absent ""
    { s with
      callbacks := s.callbacks ++ [.loggedIn t result saved]
      log := { s.log with
        verified := s.log.verified ++ if result.ok then [(t.conn, result.playerId)] else [] } }
  | .savePlayer st =>
    let (players, ok) := PlayerStore.upsert s.players o.writeOk s.db.players st o.ms
    let key := Bson.cstr st.playerId
    { s with
      db := { s.db with players }
      log := { s.log with
        saves := if ok then Function.update s.log.saves key (s.log.saves key ++ [st.inv])
          else s.log.saves } }
  | .saveScene snap =>
    let (scenes, ok) := SceneStore.upsert s.scenes o.writeOk s.db.scenes snap o.ms
    { s with
      db := { s.db with scenes }
      log := { s.log with
        scenes := s.log.scenes ++ if ok then [snap.content] else [] } }

/-- The completion of a register request. -/
def registered (t : Ticket) (result : AccountResult) : GameService F D :=
  match s.activeConns t.fd with
  | none => s
  | some conn => s.send conn (.response t.requestId (.register result.ok result.errorMsg
      (if result.ok then result.playerId else "")))

/-- The account switch: the player this fd had so far leaves. His id is a value here; in the source
it is the string in the entry of `fd_to_player_` (`AliasedService`). -/
def switchAccount (fd : ℤ) (playerId : String) : GameService F D :=
  match s.fdToPlayer fd with
  | none => s
  | some old =>
    if old = playerId then s
    else ((s.savePlayerAsync old).run (.leave old)).unregisterPlayerConn old

/-- The completion of a login request. -/
def loggedIn (t : Ticket) (result : AccountResult) (saved : PlayerState F) (now : ℤ) :
    GameService F D :=
  match s.activeConns t.fd with
  | none => s
  | some conn =>
    if result.ok then
      let s := s.switchAccount t.fd result.playerId
      let s := (s.registerPlayerConn result.playerId conn).onConnect
      let s := s.run (.enterWithState result.playerId result.playerId now saved.x saved.y saved.z
        saved.yaw saved.inv)
      s.send conn (.response t.requestId
        (.login true "" (some (result.playerId, result.playerId))))
    else
      (s.send conn (.response t.requestId (.login false
        (if result.errorMsg = "" then "invalid credentials" else result.errorMsg) none))).onError

def runCallback (now : ℤ) : Callback F → GameService F D
  | .registered t result => s.registered t result
  | .loggedIn t result saved => s.loggedIn t result saved now

/-! ## Start -/

def loadOrSeedScene (o : DbOutcome) : GameService F D :=
  let snap := SceneStore.load s.scenes o.readOk s.db.scenes "default"
  if snap.found ∧ (snap.resources ≠ [] ∨ snap.buildings ≠ []) then
    { s with world := s.world.loadScene snap }
  else
    let world := s.world.seedDefaultScene
    let seeded := world.exportScene "default"
    let (scenes, ok) := SceneStore.upsert s.scenes o.writeOk s.db.scenes seeded o.ms
    { s with
      world
      db := { s.db with scenes }
      log := { s.log with scenes := s.log.scenes ++ if ok then [seeded.content] else [] } }

/-- The service as constructed: on a database, with the stores that have a client. -/
def start (lobby : D) (db : Database F) (accounts players scenes : Bool) (o : DbOutcome) :
    GameService F D :=
  loadOrSeedScene
    { world := WorldService.fresh, lobby, db, accounts, players, scenes
      log := {
        scenes := ((db.scenes "default").map fun doc =>
          (WorldService.fresh.loadScene (SceneStore.parse "default" doc)).content).toList
        saves := fun id => ((db.players id).map fun doc =>
          (PlayerStore.parse id doc).inv).toList } } o

end GameService

/-! ## Steps -/

inductive Event (F : Type)
  | accept (fd : ℤ)
  | frame (fd : ℤ) (requestId : ℕ) (request : Request F) (now : ℤ)
  | close (fd now : ℤ)
  | work (outcome : DbOutcome)
  | loop (now : ℤ)

/-- One event, where it can happen. -/
def step {F D : Type} [Platform F] [Lobby D] (s : GameService F D) :
    Event F → Option (GameService F D)
  | .accept fd => match s.handlers fd with
    | some _ => none
    | none => some { s with
        handlers := Function.update s.handlers fd (some ⟨s.accepted, fd⟩)
        accepted := s.accepted + 1 }
  | .frame fd rid request now => (s.handlers fd).map fun conn =>
      s.onServerFrame rid conn now request
  | .close fd now => (s.handlers fd).map fun conn =>
      let s := s.onPlayerDisconnected conn.fd now
      { s with handlers := Function.update s.handlers conn.fd none }
  | .work o => match s.queue with
    | [] => none
    | task :: queue => some (GameService.runTask { s with queue } o task)
  | .loop now => match s.callbacks with
    | [] => none
    | callback :: callbacks => some (GameService.runCallback { s with callbacks } now callback)

end TinRpc
