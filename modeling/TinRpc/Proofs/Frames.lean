import TinRpc.Service
import TinRpc.Proofs.Calls

/-!
# What a frame does

A frame makes at most one call of the world, for the player its fd has (`frameCall`), and posts the
saves that follow from the call's effect (`frameTasks`). It changes no session, nothing in the
database and no callback (`onServerFrame_spec`).
-/

namespace TinRpc

namespace GameService

variable {F D : Type} [Platform F] (s : GameService F D)

/-- The call of the world a frame makes. -/
def frameCall (conn : Connection) (now : ℤ) : Request F → Option (Call F)
  | .selectMap (some (roomId, mapId)) =>
    (s.fdToPlayer conn.fd).map fun p => .selectRoom p roomId mapId now
  | .move (some req) =>
    (s.fdToPlayer conn.fd).map fun p => .tryMove p req.x req.y req.z req.yaw now req.appearance
  | .voxelEdit (some req) =>
    (s.fdToPlayer conn.fd).map fun p =>
      .applyVoxelEdit p req.x req.y req.z req.action req.blockType
  | .craft (some recipeId) => (s.fdToPlayer conn.fd).map fun p => .tryCraft p recipeId
  | .gather (some resourceId) => (s.fdToPlayer conn.fd).map fun p => .tryGather p resourceId
  | .placeBuilding (some req) =>
    (s.fdToPlayer conn.fd).map fun p =>
      .tryPlaceBuilding p req.buildingType req.x req.y req.z req.yaw
  | _ => none

/-- The save of a player, where he is in the world. -/
def playerSave (w : WorldService F) (playerId : String) : List (Task F) :=
  ((w.getSnapshot playerId).map Task.savePlayer).toList

def sceneSave (w : WorldService F) : List (Task F) := [.saveScene (w.exportScene "default")]

/-- The saves that follow from an effect, in the order of the handlers. -/
def effectTasks (w : WorldService F) : Effect F → List (Task F)
  | .edited p .. => sceneSave w ++ playerSave w p
  | .crafted p _ => playerSave w p
  | .gathered p .. | .built p .. => playerSave w p ++ sceneSave w

def callTasks (w : WorldService F) (k : Call F) : List (Task F) :=
  (k.effect w).elim [] (effectTasks (k.run w).world)

/-- The tasks a frame posts. -/
def frameTasks (rid : ℕ) (conn : Connection) (now : ℤ) : Request F → List (Task F)
  | .register (some (username, password)) =>
    [.createAccount (s.ticket rid conn) username password]
  | .login (some (username, password)) => [.verifyLogin (s.ticket rid conn) username password]
  | request => (s.frameCall conn now request).elim [] (callTasks s.world)

/-- The handler's answer to a call. -/
def callReply (w : WorldService F) : Call F → Response F
  | .selectRoom p roomId mapId now =>
    let ok := (w.selectRoom p roomId mapId now).result
    .selectMap ok mapId (if ok then "" else "invalid room or map")
  | .tryMove p x y z yaw now appearance =>
    let r := (w.tryMove p x y z yaw now appearance).result
    .move r.success r.errorMsg (some (r.correctedX, r.correctedY, r.correctedZ))
  | .tryGather p node =>
    let r := (w.tryGather p node).result
    .gather r.success r.errorMsg
      ⟨r.resourceId, r.resourceType, r.x, r.y, r.z, r.remaining⟩ ⟨r.wood, r.stone, 0, 0, 0⟩
  | .tryPlaceBuilding p type x y z yaw =>
    let r := (w.tryPlaceBuilding p type x y z yaw).result
    .placeBuilding r.success r.errorMsg
      ⟨r.buildingId, r.ownerId, r.buildingType, r.x, r.y, r.z, r.yaw⟩ ⟨r.wood, r.stone, 0, 0, 0⟩
  | .tryCraft p recipe =>
    let r := (w.tryCraft p recipe).result
    .craft r.success r.errorMsg (if r.success then some r.inv else none)
  | .applyVoxelEdit p x y z action type =>
    let r := (w.applyVoxelEdit p x y z action type).result
    .voxelEdit r.success r.errorMsg (some ⟨x, y, z, action, type⟩)
      (if r.success then some ⟨r.wood, r.stone, r.dirt, r.copper, 0⟩ else none)
  | _ => .other "" []

/-- A message that is no push and no answer to a call of the world. -/
def Inert : Message F → Prop
  | .push _ => False
  | .response _ (.move _ _ (some _)) => False
  | .response _ (.gather ..) => False
  | .response _ (.placeBuilding ..) => False
  | .response _ (.selectMap success ..) => success = false
  | .response _ (.craft success _ inventory) => success = false ∧ inventory = none
  | .response _ (.voxelEdit success _ _ inventory) => success = false ∧ inventory = none
  | _ => True

/-- What `sendToPlayers` puts on the wire. -/
def delivered {M : Type} (msg : M → Message F) (sent : List (String × M)) :
    List (Connection × Message F) :=
  sent.filterMap fun e => (s.playerConns e.1).map fun conn => (conn, msg e.2)

/-- The part of the state that only accepts, logins and disconnects change. -/
structure SameSessions (s s' : GameService F D) : Prop where
  playerConns : s'.playerConns = s.playerConns
  fdToPlayer : s'.fdToPlayer = s.fdToPlayer
  handlers : s'.handlers = s.handlers
  accepted : s'.accepted = s.accepted

/-- The part of the state that only the worker changes, and the stores. -/
structure SameStores (s s' : GameService F D) : Prop where
  db : s'.db = s.db
  accounts : s'.accounts = s.accounts
  players : s'.players = s.players
  scenes : s'.scenes = s.scenes
  verified : s'.log.verified = s.log.verified
  storedScenes : s'.log.scenes = s.log.scenes
  storedSaves : s'.log.saves = s.log.saves

/-- The state after tasks are posted. -/
def posted (tasks : List (Task F)) : GameService F D :=
  { s with queue := s.queue ++ tasks, log := { s.log with posted := s.log.posted ++ tasks } }

omit [Platform F] in
theorem savePlayerAsync_eq (p : String) :
    s.savePlayerAsync p = s.posted (playerSave s.world p) := by
  unfold savePlayerAsync playerSave
  rcases s.world.getSnapshot p with _ | st
  · simp [posted]
  · rfl

/-- What a frame does. -/
structure Framed (s : GameService F D) (rid : ℕ) (conn : Connection) (now : ℤ)
    (request : Request F) (s' : GameService F D) : Prop where
  sessions : SameSessions s s'
  stores : SameStores s s'
  callbacks : s'.callbacks = s.callbacks
  activeConns : s'.activeConns = Function.update s.activeConns conn.fd (some conn)
  world : s'.world = (s.frameCall conn now request).elim s.world fun k => (k.run s.world).world
  queue : s'.queue = s.queue ++ s.frameTasks rid conn now request
  posted : s'.log.posted = s.log.posted ++ s.frameTasks rid conn now request
  acts : s'.log.acts = s.log.acts ++
    (s.frameCall conn now request).elim [] fun k => [(conn, k.player)]
  effects : s'.log.effects = s.log.effects ++
    (s.frameCall conn now request).elim [] fun k => (k.effect s.world).toList
  since : s'.log.since = (s.frameCall conn now request).elim s.log.since fun k =>
    (k.effect s.world).elim s.log.since fun e =>
      Function.update s.log.since e.player (s.log.since e.player ++ [e])
  called : ∀ k, s.frameCall conn now request = some k →
    s'.wire = s.wire ++ s.delivered .push (k.run s.world).sent ++
      [(conn, .response rid (callReply s.world k))]
  quiet : s.frameCall conn now request = none →
    ∃ rest, s'.wire = s.wire ++ rest ∧ ∀ m ∈ rest, Inert m.2

variable {s} {rid : ℕ} {conn : Connection} {now : ℤ} {request : Request F}

/-- A frame that calls and posts nothing. -/
theorem framed_quiet (hk : s.frameCall conn now request = none)
    (ht : s.frameTasks rid conn now request = []) (metrics : Metrics) (lobby : D)
    (rest : List (Connection × Message F)) (hrest : ∀ m ∈ rest, Inert m.2) :
    Framed s rid conn now request
      { s with
        activeConns := Function.update s.activeConns conn.fd (some conn), metrics, lobby
        wire := s.wire ++ rest } where
  sessions := ⟨rfl, rfl, rfl, rfl⟩
  stores := ⟨rfl, rfl, rfl, rfl, rfl, rfl, rfl⟩
  callbacks := rfl
  activeConns := rfl
  world := by rw [hk]; rfl
  queue := by simp [ht]
  posted := by simp [ht]
  acts := by simp [hk]
  effects := by simp [hk]
  since := by rw [hk]; rfl
  called k h := by simp [hk] at h
  quiet _ := ⟨rest, rfl, hrest⟩

/-- A frame that posts a request of its own. -/
theorem framed_request (hk : s.frameCall conn now request = none) (task : Task F)
    (ht : s.frameTasks rid conn now request = [task]) :
    Framed s rid conn now request
      (post { s with activeConns := Function.update s.activeConns conn.fd (some conn) } task) where
  sessions := ⟨rfl, rfl, rfl, rfl⟩
  stores := ⟨rfl, rfl, rfl, rfl, rfl, rfl, rfl⟩
  callbacks := rfl
  activeConns := rfl
  world := by rw [hk]; rfl
  queue := by rw [ht]; rfl
  posted := by rw [ht]; rfl
  acts := by simp [hk, post]
  effects := by simp [hk, post]
  since := by rw [hk]; rfl
  called k h := by simp [hk] at h
  quiet _ := ⟨[], by simp [post], by simp⟩

/-- A frame that makes a call. -/
theorem framed_call {k : Call F} (hk : s.frameCall conn now request = some k)
    (hsince : ∀ e, (s.log.record k e).since = e.elim s.log.since fun e =>
      Function.update s.log.since e.player (s.log.since e.player ++ [e]))
    (ht : s.frameTasks rid conn now request = callTasks s.world k) :
    Framed s rid conn now request (((act
      { s with activeConns := Function.update s.activeConns conn.fd (some conn) } conn k).posted
        (callTasks s.world k)).send conn (.response rid (callReply s.world k))) where
  sessions := ⟨rfl, rfl, rfl, rfl⟩
  stores := ⟨rfl, rfl, rfl, rfl, rfl, rfl, rfl⟩
  callbacks := rfl
  activeConns := rfl
  world := by rw [hk]; rfl
  queue := by rw [ht]; rfl
  posted := by rw [ht]; rfl
  acts := by rw [hk]; rfl
  effects := by rw [hk]; rfl
  since := by rw [hk]; exact hsince _
  called k' hk' := by
    rw [hk, Option.some.injEq] at hk'
    subst hk'
    rfl
  quiet h := by simp [hk] at h

omit [Platform F] in
@[simp] theorem posted_nil : s.posted [] = s := by simp [posted]

omit [Platform F] in
theorem posted_posted (l l' : List (Task F)) : (s.posted l).posted l' = s.posted (l ++ l') := by
  simp [posted]

/-- A handler that saves after success posts the saves of the call. -/
theorem saved_effect (conn : Connection) {k : Call F} {success : Bool}
    (hs : success = (k.effect s.world).isSome)
    (save : GameService F D → GameService F D) (tasks : WorldService F → List (Task F))
    (hsave : ∀ s, save s = s.posted (tasks s.world))
    (he : ∀ e w, k.effect s.world = some e → effectTasks w e = tasks w) :
    (if success then save (s.act conn k) else s.act conn k) =
      (s.act conn k).posted (callTasks s.world k) := by
  subst hs
  unfold callTasks
  rcases hk : k.effect s.world with _ | e
  · simp
  · simp only [Option.isSome_some, ↓reduceIte, Option.elim_some, hsave, he e _ hk]
    rfl

omit [Platform F] in
theorem frameCall_of_none (hp : s.fdToPlayer conn.fd = none) (request : Request F) :
    s.frameCall conn now request = none := by
  unfold frameCall
  split <;> simp [hp]

/-- The call of a frame is made for the player of its fd, who neither enters nor leaves by it. -/
theorem frameCall_some {k : Call F} (hk : s.frameCall conn now request = some k) :
    s.fdToPlayer conn.fd = some k.player ∧ ∀ (w : WorldService F) (q : String),
      k.inventoryAfter w q = match k.effect w with
        | some e => if q = e.player then (w.inventory q).map e.onInventory else w.inventory q
        | none => w.inventory q := by
  unfold frameCall at hk
  split at hk
  case h_7 => simp at hk
  all_goals
    obtain ⟨p, hp, rfl⟩ := Option.map_eq_some_iff.1 hk
    exact ⟨hp, fun _ _ => rfl⟩

theorem inventory_isSome {k : Call F} (hk : s.frameCall conn now request = some k)
    (w : WorldService F) (q : String) :
    ((k.run w).world.inventory q).isSome = (w.inventory q).isSome := by
  rw [Call.run_inventory, (frameCall_some hk).2]
  split
  · split_ifs <;> simp
  · rfl

omit [Platform F] in
theorem mem_playerSave {w : WorldService F} {p : String} {task : Task F} :
    task ∈ playerSave w p ↔ ∃ st, w.getSnapshot p = some st ∧ task = .savePlayer st := by
  simp [playerSave, eq_comm]

theorem mem_callTasks {w : WorldService F} {k : Call F} {task : Task F}
    (h : task ∈ callTasks w k) :
    (∃ st, task = .savePlayer st) ∨ ∃ snap, task = .saveScene snap := by
  unfold callTasks at h
  rcases he : k.effect w with _ | e
  · simp [he] at h
  · rw [he] at h
    cases e <;> simp only [Option.elim_some, effectTasks, List.mem_append, mem_playerSave,
      sceneSave, List.mem_singleton] at h <;> tauto

theorem frameTasks_of_some {k : Call F} (hk : s.frameCall conn now request = some k) :
    s.frameTasks rid conn now request = callTasks s.world k := by
  unfold frameTasks
  split
  · simp [frameCall] at hk
  · simp [frameCall] at hk
  · rw [hk]; rfl

theorem frameTasks_unbound (hp : s.fdToPlayer conn.fd = none)
    (h : s.frameTasks rid conn now request =
      (s.frameCall conn now request).elim [] (callTasks s.world)) :
    s.frameTasks rid conn now request = [] := by
  rw [h, frameCall_of_none hp]
  rfl

/-- A frame without a call posts nothing, or its own request. -/
theorem frameTasks_of_none (rid : ℕ) (hk : s.frameCall conn now request = none) :
    s.frameTasks rid conn now request = [] ∨
      (∃ u w, s.frameTasks rid conn now request = [.createAccount (s.ticket rid conn) u w]) ∨
      ∃ u w, s.frameTasks rid conn now request = [.verifyLogin (s.ticket rid conn) u w] := by
  unfold frameTasks
  split
  · exact .inr (.inl ⟨_, _, rfl⟩)
  · exact .inr (.inr ⟨_, _, rfl⟩)
  · exact .inl (by rw [hk]; rfl)

/-- A task a frame posts is a save, or a request that holds the frame's ticket. -/
theorem mem_frameTasks {task : Task F} (h : task ∈ s.frameTasks rid conn now request) :
    (∃ username password, task = .createAccount (s.ticket rid conn) username password) ∨
      (∃ username password, task = .verifyLogin (s.ticket rid conn) username password) ∨
      ∃ k, s.frameCall conn now request = some k ∧ task ∈ callTasks s.world k := by
  unfold frameTasks at h
  split at h
  · exact .inl ⟨_, _, List.mem_singleton.1 h⟩
  · exact .inr (.inl ⟨_, _, List.mem_singleton.1 h⟩)
  · rcases hk : s.frameCall conn now request with _ | k
    · simp [hk] at h
    · exact .inr (.inr ⟨k, rfl, by simpa [hk] using h⟩)

omit [Platform F] in
theorem inert_singleton {m : Connection × Message F} (h : Inert m.2) : ∀ m' ∈ [m], Inert m'.2 :=
  List.forall_mem_singleton.2 h

omit [Platform F] in
theorem inert_delivered_roomEvent (events : List (String × List UInt8)) :
    ∀ m ∈ s.delivered Message.roomEvent events, Inert m.2 := by
  intro m hm
  simp only [delivered, List.mem_filterMap, Option.map_eq_some_iff] at hm
  obtain ⟨e, -, conn, -, rfl⟩ := hm
  exact trivial

/-! ## Every frame -/

variable [Lobby D]

theorem move_framed (req : Option (MoveReq F)) :
    Framed s rid conn now (.move req) (s.onServerFrame rid conn now (.move req)) := by
  rcases hp : s.fdToPlayer conn.fd with _ | p
  · change Framed s rid conn now _ (handleMove _ rid conn now _)
    simp only [handleMove, hp]
    exact framed_quiet (frameCall_of_none hp _) (frameTasks_unbound hp rfl)
      s.metrics s.lobby _ (inert_singleton trivial)
  rcases req with _ | req
  · change Framed s rid conn now _ (handleMove _ rid conn now _)
    simp only [handleMove, hp]
    exact framed_quiet rfl rfl _ s.lobby _ (inert_singleton trivial)
  · have hk : s.frameCall conn now (.move (some req)) =
        some (.tryMove p req.x req.y req.z req.yaw now req.appearance) := by simp [frameCall, hp]
    have h : Framed s rid conn now _ _ :=
      framed_call hk (fun _ => rfl) (frameTasks_of_some hk)
    rw [show callTasks s.world (.tryMove p req.x req.y req.z req.yaw now req.appearance) = [] from
      rfl, posted_nil] at h
    change Framed s rid conn now _ (handleMove _ rid conn now _)
    simp only [handleMove, hp]
    exact h

theorem selectMap_framed (req : Option (String × ℤ)) :
    Framed s rid conn now (.selectMap req) (s.onServerFrame rid conn now (.selectMap req)) := by
  rcases hp : s.fdToPlayer conn.fd with _ | p
  · change Framed s rid conn now _ (handleSelectMap _ rid conn now _)
    simp only [handleSelectMap, hp]
    exact framed_quiet (frameCall_of_none hp _) (frameTasks_unbound hp rfl)
      s.metrics s.lobby _ (inert_singleton rfl)
  rcases req with _ | ⟨roomId, mapId⟩
  · change Framed s rid conn now _ (handleSelectMap _ rid conn now _)
    simp only [handleSelectMap, hp]
    exact framed_quiet rfl rfl s.metrics s.lobby _ (inert_singleton rfl)
  · have hk : s.frameCall conn now (.selectMap (some (roomId, mapId))) =
        some (.selectRoom p roomId mapId now) := by simp [frameCall, hp]
    have h : Framed s rid conn now _ _ :=
      framed_call hk (fun _ => rfl) (frameTasks_of_some hk)
    rw [show callTasks s.world (.selectRoom p roomId mapId now) = [] from rfl, posted_nil] at h
    change Framed s rid conn now _ (handleSelectMap _ rid conn now _)
    simp only [handleSelectMap, hp]
    exact h

theorem voxelEdit_framed (req : Option VoxelEditReq) :
    Framed s rid conn now (.voxelEdit req) (s.onServerFrame rid conn now (.voxelEdit req)) := by
  rcases hp : s.fdToPlayer conn.fd with _ | p
  · change Framed s rid conn now _ (handleVoxelEdit _ rid conn _)
    simp only [handleVoxelEdit, hp]
    exact framed_quiet (frameCall_of_none hp _) (frameTasks_unbound hp rfl)
      s.metrics s.lobby _ (inert_singleton ⟨rfl, rfl⟩)
  rcases req with _ | req
  · change Framed s rid conn now _ (handleVoxelEdit _ rid conn _)
    simp only [handleVoxelEdit, hp]
    exact framed_quiet rfl rfl s.metrics s.lobby _ (inert_singleton ⟨rfl, rfl⟩)
  have hk : s.frameCall conn now (.voxelEdit (some req)) =
      some (.applyVoxelEdit p req.x req.y req.z req.action req.blockType) := by
    simp [frameCall, hp]
  have h : Framed s rid conn now _ _ :=
    framed_call hk (fun _ => rfl) (frameTasks_of_some hk)
  have hsave := saved_effect conn
    (s := { s with activeConns := Function.update s.activeConns conn.fd (some conn) })
    (Call.edit_success s.world p req.x req.y req.z req.action req.blockType)
    (fun s => s.saveSceneAsync.savePlayerAsync p) (fun w => sceneSave w ++ playerSave w p)
    (fun s => by rw [savePlayerAsync_eq]; exact posted_posted ..)
    (fun e w he => by obtain ⟨room, edit, rfl⟩ := Call.effect_edit _ he; rfl)
  change Framed s rid conn now _ (handleVoxelEdit _ rid conn _)
  simp only [handleVoxelEdit, hp]
  rw [← hsave] at h
  exact h

theorem craft_framed (recipeId : Option ℤ) :
    Framed s rid conn now (.craft recipeId) (s.onServerFrame rid conn now (.craft recipeId)) := by
  rcases hp : s.fdToPlayer conn.fd with _ | p
  · change Framed s rid conn now _ (handleCraft _ rid conn _)
    simp only [handleCraft, hp]
    exact framed_quiet (frameCall_of_none hp _) (frameTasks_unbound hp rfl)
      s.metrics s.lobby _ (inert_singleton ⟨rfl, rfl⟩)
  rcases recipeId with _ | recipeId
  · change Framed s rid conn now _ (handleCraft _ rid conn _)
    simp only [handleCraft, hp]
    exact framed_quiet rfl rfl s.metrics s.lobby _ (inert_singleton ⟨rfl, rfl⟩)
  have hk : s.frameCall conn now (.craft (some recipeId)) = some (.tryCraft p recipeId) := by
    simp [frameCall, hp]
  have h : Framed s rid conn now _ _ :=
    framed_call hk (fun _ => rfl) (frameTasks_of_some hk)
  have hsave := saved_effect conn
    (s := { s with activeConns := Function.update s.activeConns conn.fd (some conn) })
    (Call.craft_success s.world p recipeId) (fun s => s.savePlayerAsync p)
    (fun w => playerSave w p) (fun s => savePlayerAsync_eq s p)
    (fun e w he => by rw [Call.effect_craft _ he]; rfl)
  change Framed s rid conn now _ (handleCraft _ rid conn _)
  simp only [handleCraft, hp]
  rw [← hsave] at h
  exact h

theorem gather_framed (resourceId : Option String) :
    Framed s rid conn now (.gather resourceId)
      (s.onServerFrame rid conn now (.gather resourceId)) := by
  rcases hp : s.fdToPlayer conn.fd with _ | p
  · change Framed s rid conn now _ (handleGather _ rid conn _)
    simp only [handleGather, hp]
    exact framed_quiet (frameCall_of_none hp _) (frameTasks_unbound hp rfl)
      s.metrics s.lobby _ (inert_singleton trivial)
  rcases resourceId with _ | node
  · change Framed s rid conn now _ (handleGather _ rid conn _)
    simp only [handleGather, hp]
    exact framed_quiet rfl rfl s.metrics s.lobby _ (inert_singleton trivial)
  have hk : s.frameCall conn now (.gather (some node)) = some (.tryGather p node) := by
    simp [frameCall, hp]
  have h : Framed s rid conn now _ _ :=
    framed_call hk (fun _ => rfl) (frameTasks_of_some hk)
  have hsave := saved_effect conn
    (s := { s with activeConns := Function.update s.activeConns conn.fd (some conn) })
    (Call.gather_success s.world p node) (fun s => (s.savePlayerAsync p).saveSceneAsync)
    (fun w => playerSave w p ++ sceneSave w)
    (fun s => by rw [savePlayerAsync_eq]; exact posted_posted ..)
    (fun e w he => by obtain ⟨type, rfl⟩ := Call.effect_gather _ he; rfl)
  change Framed s rid conn now _ (handleGather _ rid conn _)
  simp only [handleGather, hp]
  rw [← hsave] at h
  exact h

theorem placeBuilding_framed (req : Option (PlaceBuildingReq F)) :
    Framed s rid conn now (.placeBuilding req)
      (s.onServerFrame rid conn now (.placeBuilding req)) := by
  rcases hp : s.fdToPlayer conn.fd with _ | p
  · change Framed s rid conn now _ (handlePlaceBuilding _ rid conn _)
    simp only [handlePlaceBuilding, hp]
    exact framed_quiet (frameCall_of_none hp _) (frameTasks_unbound hp rfl)
      s.metrics s.lobby _ (inert_singleton trivial)
  rcases req with _ | req
  · change Framed s rid conn now _ (handlePlaceBuilding _ rid conn _)
    simp only [handlePlaceBuilding, hp]
    exact framed_quiet rfl rfl s.metrics s.lobby _ (inert_singleton trivial)
  have hk : s.frameCall conn now (.placeBuilding (some req)) =
      some (.tryPlaceBuilding p req.buildingType req.x req.y req.z req.yaw) := by
    simp [frameCall, hp]
  have h : Framed s rid conn now _ _ :=
    framed_call hk (fun _ => rfl) (frameTasks_of_some hk)
  have hsave := saved_effect conn
    (s := { s with activeConns := Function.update s.activeConns conn.fd (some conn) })
    (Call.build_success s.world p req.buildingType req.x req.y req.z req.yaw)
    (fun s => (s.savePlayerAsync p).saveSceneAsync) (fun w => playerSave w p ++ sceneSave w)
    (fun s => by rw [savePlayerAsync_eq]; exact posted_posted ..)
    (fun e w he => by obtain ⟨b, rfl⟩ := Call.effect_build _ he; rfl)
  change Framed s rid conn now _ (handlePlaceBuilding _ rid conn _)
  simp only [handlePlaceBuilding, hp]
  rw [← hsave] at h
  exact h

theorem register_framed (req : Option (String × String)) :
    Framed s rid conn now (.register req) (s.onServerFrame rid conn now (.register req)) := by
  rcases req with _ | ⟨username, password⟩
  · exact framed_quiet rfl rfl _ s.lobby _ (inert_singleton trivial)
  · have h : Framed s rid conn now (.register (some (username, password))) _ :=
      framed_request rfl _ rfl
    change Framed s rid conn now _
      (handleRegister { s with activeConns := _ } rid conn (some (username, password)))
    simp only [handleRegister, Function.update_idem]
    exact h

theorem login_framed (req : Option (String × String)) :
    Framed s rid conn now (.login req) (s.onServerFrame rid conn now (.login req)) := by
  rcases req with _ | ⟨username, password⟩
  · exact framed_quiet rfl rfl _ s.lobby _ (inert_singleton trivial)
  · have h : Framed s rid conn now (.login (some (username, password))) _ :=
      framed_request rfl _ rfl
    change Framed s rid conn now _
      (handleLogin { s with activeConns := _ } rid conn (some (username, password)))
    simp only [handleLogin, Function.update_idem]
    exact h

theorem other_framed (method : String) (body : List UInt8) :
    Framed s rid conn now (.other method body)
      (s.onServerFrame rid conn now (.other method body)) := by
  rcases hcall : Lobby.call s.lobby s.metrics now method body with ⟨lobby, rsp, events⟩
  change Framed s rid conn now _ (dispatch _ rid conn now method body)
  simp only [dispatch, hcall]
  rcases rsp with _ | rsp
  · have h : Framed s rid conn now (.other method body) _ := framed_quiet rfl rfl
      (s.onError.onRequest).metrics lobby
      (s.delivered .roomEvent events ++ [(conn, .error rid method)]) (fun m hm => by
        rcases List.mem_append.1 hm with hm | hm
        · exact inert_delivered_roomEvent events m hm
        · rw [List.mem_singleton.1 hm]; exact trivial)
    rw [← List.append_assoc] at h
    exact h
  · have h : Framed s rid conn now (.other method body) _ := framed_quiet rfl rfl
      s.onRequest.metrics lobby
      (s.delivered .roomEvent events ++ [(conn, .response rid (.other method rsp))])
      (fun m hm => by
        rcases List.mem_append.1 hm with hm | hm
        · exact inert_delivered_roomEvent events m hm
        · rw [List.mem_singleton.1 hm]; exact trivial)
    rw [← List.append_assoc] at h
    exact h

theorem onServerFrame_framed (request : Request F) :
    Framed s rid conn now request (s.onServerFrame rid conn now request) := by
  cases request with
  | register req => exact register_framed req
  | login req => exact login_framed req
  | selectMap req => exact selectMap_framed req
  | move req => exact move_framed req
  | voxelEdit req => exact voxelEdit_framed req
  | craft recipeId => exact craft_framed recipeId
  | gather resourceId => exact gather_framed resourceId
  | placeBuilding req => exact placeBuilding_framed req
  | other method body => exact other_framed method body

end GameService

end TinRpc
