import TinRpc.Store
import TinRpc.Lib.Table

/-!
# The world service

`WorldService` of `src/game/world_service.cpp`: the players in the world, the resources and
buildings they share, and the voxel edits of each room, with every operation in the order in which
the source checks and updates. An operation returns its result, the world after it and the
messages handed to `send_`, in order.
-/

namespace TinRpc

/-! ## Data -/

structure Player (F : Type) where
  playerId : String
  name : String
  roomId : String := "lobby"
  mapId : ℤ := 0
  x : F
  y : F
  z : F
  yaw : F
  appearance : ℤ := 0
  inv : Inventory := {}
  lastMoveMs : ℤ := 0
  moveAllowance : F
  lastBroadcastMs : ℤ := 0

structure VoxelEditState where
  x : ℤ
  y : ℤ
  z : ℤ
  action : ℤ
  blockType : ℤ
  deriving DecidableEq, Repr

/-- The part of the world that outlives the players. `nextBuildingId` is a `uint64_t`. -/
structure Scene (F : Type) where
  resources : Table String (Resource F)
  buildings : List (BuildingState F)
  nextBuildingId : ℕ
  voxelEdits : Table String (Table String VoxelEditState)

structure WorldService (F : Type) extends Scene F where
  players : Table String (Player F)

/-! ## Messages to clients -/

structure PlayerTransform (F : Type) where
  playerId : String
  playerName : String
  x : F
  y : F
  z : F
  yaw : F
  appearance : ℤ

structure WorldStateNtf (F : Type) where
  players : List (PlayerTransform F) := []
  resources : List (Resource F) := []
  buildings : List (BuildingState F) := []
  voxelEdits : List VoxelEditState := []
  inventory : Option Inventory := none

inductive Push (F : Type)
  | worldState (state : WorldStateNtf F)
  | playerEnter (transform : PlayerTransform F)
  | playerLeave (playerId : String)
  | resourceChanged (resource : Resource F)
  | buildingPlaced (building : BuildingState F)
  | voxelEdit (edit : VoxelEditState)

/-- The calls of `send_`, in order: the player addressed and the message. -/
abbrev Sends (F : Type) := List (String × Push F)

/-- What an operation returns, the world it leaves and what it sends. -/
structure Served (R F : Type) where
  result : R
  world : WorldService F
  sent : Sends F

structure MoveApplyResult (F : Type) where
  success : Bool
  errorMsg : String
  correctedX : F
  correctedY : F
  correctedZ : F

structure GatherApplyResult (F : Type) where
  success : Bool := false
  errorMsg : String := ""
  resourceId : String := ""
  resourceType : ℤ := 0
  x : F
  y : F
  z : F
  remaining : ℤ := 0
  wood : ℤ := 0
  stone : ℤ := 0

structure BuildingApplyResult (F : Type) where
  success : Bool := false
  errorMsg : String := ""
  buildingId : String := ""
  ownerId : String := ""
  buildingType : ℤ := 0
  x : F
  y : F
  z : F
  yaw : F
  wood : ℤ := 0
  stone : ℤ := 0

structure CraftApplyResult where
  success : Bool := false
  errorMsg : String := ""
  inv : Inventory := ⟨0, 0, 0, 0, 0⟩

/-- The return value of `ApplyVoxelEdit` with what it writes through its pointers. -/
structure VoxelApplyResult where
  success : Bool := false
  errorMsg : String := ""
  wood : ℤ := 0
  stone : ℤ := 0
  dirt : ℤ := 0
  copper : ℤ := 0

def kMinBroadcastIntervalMs : ℤ := 50
def resourceWood : ℤ := 1
def resourceStone : ℤ := 2
def buildingFloor : ℤ := 1
def buildingWall : ℤ := 2
def buildingCampfire : ℤ := 3

/-- The key of a cell in `voxel_edits_`, `"x:y:z"` in decimal. -/
def voxelKey (x y z : ℤ) : String := toString x ++ ":" ++ toString y ++ ":" ++ toString z

namespace Scene

variable {F : Type}

def fresh : Scene F := ⟨∅, [], 1, ∅⟩

/-- The edits of a room. -/
def roomEdits (s : Scene F) (room : String) : Table String VoxelEditState :=
  (s.voxelEdits.lookup room).getD ∅

/-- `voxel_edits_[room]`: `operator[]` makes an empty map where the room has none. -/
def touchRoom (s : Scene F) (room : String) : Scene F :=
  match s.voxelEdits.lookup room with
  | some _ => s
  | none => { s with voxelEdits := s.voxelEdits.insert room ∅ }

def setEdit (s : Scene F) (room key : String) (edit : VoxelEditState) : Scene F :=
  { s with voxelEdits := s.voxelEdits.insert room ((s.roomEdits room).insert key edit) }

end Scene

namespace WorldService

open Platform

variable {F : Type} [Platform F] (w : WorldService F)

def fresh : WorldService F := { Scene.fresh with players := ∅ }

def setPlayer (p : Player F) (id : String) : WorldService F :=
  { w with players := w.players.insert id p }

def seeded : List (Resource F) :=
  let r (id : String) (type : ℤ) (x y z : ℚ) (remaining : ℤ) : Resource F :=
    ⟨id, type, ofRat x, ofRat y, ofRat z, remaining⟩
  [r "tree_1" resourceWood (-6) 0 (-5) 6, r "tree_2" resourceWood 7 0 (-4) 6,
    r "tree_3" resourceWood (-9) 0 7 6, r "tree_4" resourceWood 10 0 8 6,
    r "rock_1" resourceStone (-4) 0 8 5, r "rock_2" resourceStone 5 0 6 5,
    r "rock_3" resourceStone 9 0 (-9) 5]

/-- `emplace`: an id already present keeps its resource. -/
def emplaceResource (t : Table String (Resource F)) (r : Resource F) : Table String (Resource F) :=
  match t.lookup r.id with
  | some _ => t
  | none => t.insert r.id r

def seedDefaultScene : WorldService F :=
  { w with resources := seeded.foldl emplaceResource ∅, buildings := [], nextBuildingId := 1 }

/-! ## Messages -/

def transform (p : Player F) : PlayerTransform F :=
  ⟨p.playerId, p.name, p.x, p.y, p.z, p.yaw, p.appearance⟩

def broadcastEnter (p : Player F) : Sends F :=
  (w.players.entries.filter fun e => e.1 ≠ p.playerId ∧ e.2.roomId = p.roomId).map
    fun e => (e.1, .playerEnter (transform p))

def broadcastLeave (playerId roomId : String) : Sends F :=
  (w.players.entries.filter fun e => e.2.roomId = roomId).map
    fun e => (e.1, .playerLeave playerId)

def broadcastResource (resource : Resource F) : Sends F :=
  w.players.entries.map fun e => (e.1, .resourceChanged resource)

def broadcastBuilding (building : BuildingState F) : Sends F :=
  w.players.entries.map fun e => (e.1, .buildingPlaced building)

def broadcastVoxelEdit (roomId : String) (edit : VoxelEditState) : Sends F :=
  (w.players.entries.filter fun e => e.2.roomId = roomId).map fun e => (e.1, .voxelEdit edit)

def broadcastPose (player : Player F) (nowMs : ℤ) (force : Bool) : WorldService F × Sends F :=
  match w.players.lookup player.playerId with
  | none => (w, [])
  | some it =>
    if force = false ∧ nowMs - it.lastBroadcastMs < kMinBroadcastIntervalMs then (w, [])
    else
      (w.setPlayer { it with lastBroadcastMs := nowMs } player.playerId,
        (w.players.entries.filter fun e =>
          e.1 ≠ player.playerId ∧ e.2.roomId = player.roomId).map
            fun e => (e.1, .worldState { players := [transform player] }))

/-- The snapshot `SendWorldStateTo` fills. -/
def worldStateFor (recipient : String) : WorldStateNtf F :=
  let target := w.players.lookup recipient
  { players := (w.players.entries.filter fun e =>
      target.any fun t => e.2.roomId = t.roomId).map fun e => transform e.2
    resources := w.resources.entries.map fun e => e.2
    buildings := w.buildings
    voxelEdits := match target with
      | none => []
      | some t => (w.roomEdits t.roomId).entries.map fun e => e.2
    inventory := target.map fun t => t.inv }

def sendWorldStateTo (recipient : String) : WorldService F × Sends F :=
  let w' := match w.players.lookup recipient with
    | none => w
    | some t => { w with toScene := w.toScene.touchRoom t.roomId }
  (w', [(recipient, .worldState (w.worldStateFor recipient))])

/-! ## Entering, leaving and changing rooms -/

def enterWithState (playerId name : String) (nowMs : ℤ) (x y z yaw : F) (inv : Inventory) :
    WorldService F × Sends F :=
  let emplaced := (w.players.lookup playerId).getD
    { playerId := "", name := "", x := ofRat 0, y := ofRat 0, z := ofRat 0, yaw := ofRat 0,
      moveAllowance := ofRat 1 }
  let player : Player F := { emplaced with
    playerId, name, x, y, z, yaw, inv
    lastMoveMs := nowMs
    moveAllowance := ofRat 1
    lastBroadcastMs := nowMs - kMinBroadcastIntervalMs }
  let w := w.setPlayer player playerId
  let (w, sent) := w.sendWorldStateTo playerId
  (w, sent ++ w.broadcastEnter player)

def enter (playerId name : String) (nowMs : ℤ) : WorldService F × Sends F :=
  match w.players.lookup playerId with
  | some p => w.enterWithState playerId name nowMs p.x p.y p.z p.yaw p.inv
  | none =>
    let n := w.players.entries.length
    w.enterWithState playerId name nowMs (mul (ofRat (n % 4 : ℕ)) (ofRat 2)) (ofRat 0)
      (mul (ofRat (n / 4 : ℕ)) (ofRat 2)) (ofRat 0) ⟨6, 3, 12, 0, 0⟩

def leave (playerId : String) : WorldService F × Sends F :=
  match w.players.lookup playerId with
  | none => (w, [])
  | some p =>
    let w := { w with players := w.players.erase playerId }
    (w, w.broadcastLeave playerId p.roomId)

def selectRoom (playerId roomId : String) (mapId nowMs : ℤ) : Served Bool F :=
  match w.players.lookup playerId with
  | none => ⟨false, w, []⟩
  | some p =>
    if roomId = "" ∨ mapId < 0 ∨ 2 < mapId then ⟨false, w, []⟩
    else
      let left := w.broadcastLeave playerId p.roomId
      let player : Player F := { p with
        roomId, mapId
        x := sub (ofRat (hash F playerId % 5 : ℕ)) (ofRat 2)
        y := ofRat 0
        z := ofRat 0
        lastMoveMs := nowMs
        moveAllowance := ofRat 1 }
      let w := w.setPlayer player playerId
      let (w, sent) := w.sendWorldStateTo playerId
      ⟨true, w, left ++ sent ++ w.broadcastEnter player⟩

/-! ## Moving, gathering, building, crafting -/

def tryMove (playerId : String) (x y z yaw : F) (nowMs appearance : ℤ) :
    Served (MoveApplyResult F) F :=
  match w.players.lookup playerId with
  | none => ⟨⟨false, "player is not in world", ofRat 0, ofRat 0, ofRat 0⟩, w, []⟩
  | some p =>
    let bound : F := ofRat 500
    let cx := clamp x (ofRat (-500)) bound
    let cy := clamp y (ofRat (-500)) bound
    let cz := clamp z (ofRat (-500)) bound
    let clamped := !eq cx x || !eq cy y || !eq cz z
    let dist := distance cx cy cz p.x p.y p.z
    let dtMs := max (nowMs - p.lastMoveMs) 0
    let allowance := fmin (ofRat 15)
      (add p.moveAllowance (div (mul (ofRat 15) (ofRat dtMs)) (ofRat 1000)))
    let p := { p with moveAllowance := allowance, lastMoveMs := nowMs }
    if clamped || lt allowance dist then
      ⟨⟨false, if clamped then "position outside world" else "movement too fast", p.x, p.y, p.z⟩,
        w.setPlayer p playerId, []⟩
    else
      let p := { p with
        moveAllowance := fmax (ofRat 0) (sub allowance dist)
        x := cx, y := cy, z := cz, yaw
        appearance := max 0 (min appearance 3) }
      let (w, sent) := (w.setPlayer p playerId).broadcastPose p nowMs false
      ⟨⟨true, "", cx, cy, cz⟩, w, sent⟩

def tryGather (playerId resourceId : String) : Served (GatherApplyResult F) F :=
  match w.players.lookup playerId, w.resources.lookup resourceId with
  | none, _ =>
    ⟨{ errorMsg := "player is not in world", x := ofRat 0, y := ofRat 0, z := ofRat 0 }, w, []⟩
  | some _, none =>
    ⟨{ errorMsg := "resource not found", x := ofRat 0, y := ofRat 0, z := ofRat 0 }, w, []⟩
  | some p, some r =>
    let result : GatherApplyResult F :=
      { resourceId := r.id, resourceType := r.type, x := r.x, y := r.y, z := r.z
        remaining := r.remaining, wood := p.inv.wood, stone := p.inv.stone }
    if r.remaining ≤ 0 then ⟨{ result with errorMsg := "resource depleted" }, w, []⟩
    else if lt (ofRat 4) (distance p.x p.y p.z r.x r.y r.z) then
      ⟨{ result with errorMsg := "resource is too far away" }, w, []⟩
    else
      let r := { r with remaining := r.remaining - 1 }
      let inv := if r.type = resourceWood then p.inv.add 1 .wood else p.inv
      let inv := if r.type = resourceStone then inv.add 1 .stone else inv
      let w := { w.setPlayer { p with inv } playerId with
        resources := w.resources.insert resourceId r }
      ⟨{ result with
          success := true, remaining := r.remaining, wood := inv.wood, stone := inv.stone },
        w, w.broadcastResource r⟩

/-- Wood and stone charged for a building, for the types the server knows. -/
def buildingCost (buildingType : ℤ) : Option (ℤ × ℤ) :=
  if buildingType = buildingFloor then some (2, 0)
  else if buildingType = buildingWall then some (3, 0)
  else if buildingType = buildingCampfire then some (0, 3)
  else none

def tryPlaceBuilding (playerId : String) (buildingType : ℤ) (x y z yaw : F) :
    Served (BuildingApplyResult F) F :=
  match w.players.lookup playerId with
  | none =>
    ⟨{ errorMsg := "player is not in world",
       x := ofRat 0, y := ofRat 0, z := ofRat 0, yaw := ofRat 0 }, w, []⟩
  | some p =>
    let result : BuildingApplyResult F :=
      { ownerId := playerId, buildingType, x := round x, y := round y, z := round z
        yaw := mul (round (div yaw (ofRat 90))) (ofRat 90)
        wood := p.inv.wood, stone := p.inv.stone }
    match buildingCost buildingType with
    | none => ⟨{ result with errorMsg := "unknown building type" }, w, []⟩
    | some (woodCost, stoneCost) =>
      if lt (ofRat 8) (distance p.x p.y p.z result.x result.y result.z) then
        ⟨{ result with errorMsg := "build location is too far away" }, w, []⟩
      else if p.inv.wood < woodCost ∨ p.inv.stone < stoneCost then
        ⟨{ result with errorMsg := "not enough resources" }, w, []⟩
      else if w.buildings.any fun b =>
          lt (distance b.x b.y b.z result.x result.y result.z) (ofRat (8 / 10)) then
        ⟨{ result with errorMsg := "build location is occupied" }, w, []⟩
      else
        let inv := { p.inv with
          wood := p.inv.wood - woodCost, stone := p.inv.stone - stoneCost }
        let building : BuildingState F :=
          ⟨"building_" ++ toString w.nextBuildingId, playerId, buildingType, result.x, result.y,
            result.z, result.yaw⟩
        let w := { w.setPlayer { p with inv } playerId with
          buildings := w.buildings ++ [building]
          nextBuildingId := (w.nextBuildingId + 1) % 2 ^ 64 }
        ⟨{ result with
            success := true, buildingId := building.id, wood := inv.wood, stone := inv.stone },
          w, w.broadcastBuilding building⟩

/-- Wood, stone and copper charged for a recipe and the tool level it asks for. -/
def recipeCost (recipeId : ℤ) : Option (ℤ × ℤ × ℤ × ℤ) :=
  if recipeId = 1 then some (2, 0, 0, 0)
  else if recipeId = 2 then some (2, 5, 0, 1)
  else if recipeId = 3 then some (2, 0, 5, 2)
  else none

def tryCraft (playerId : String) (recipeId : ℤ) : Served CraftApplyResult F :=
  match w.players.lookup playerId with
  | none => ⟨{ errorMsg := "player is not in world" }, w, []⟩
  | some p =>
    match recipeCost recipeId with
    | none => ⟨{ errorMsg := "invalid recipe" }, w, []⟩
    | some (woodCost, stoneCost, copperCost, requiredLevel) =>
      if recipeId ≤ p.inv.toolLevel then ⟨{ errorMsg := "tool already crafted" }, w, []⟩
      else if p.inv.toolLevel < requiredLevel then
        ⟨{ errorMsg := "previous tool required" }, w, []⟩
      else if p.inv.wood < woodCost ∨ p.inv.stone < stoneCost ∨ p.inv.copper < copperCost then
        ⟨{ errorMsg := "not enough material" }, w, []⟩
      else
        let inv : Inventory := { p.inv with
          wood := p.inv.wood - woodCost, stone := p.inv.stone - stoneCost
          copper := p.inv.copper - copperCost, toolLevel := recipeId }
        ⟨{ success := true, inv }, w.setPlayer { p with inv } playerId, []⟩

/-! ## Voxel edits -/

/-- The counter a removed block is credited to. -/
def minedMaterial (blockType : ℤ) : Option Material :=
  if blockType = 1 ∨ blockType = 2 then some .dirt
  else if blockType = 3 then some .stone
  else if blockType = 4 then some .wood
  else if blockType = 5 then some .copper
  else none

/-- The counter a placed block is charged to, for the types that can be placed. -/
def placedMaterial (blockType : ℤ) : Option Material :=
  if blockType = 2 then some .dirt
  else if blockType = 3 then some .stone
  else if blockType = 4 then some .wood
  else none

/-- An accepted edit: the editor's counters, the cell and the broadcast. -/
def commitVoxelEdit (playerId : String) (p : Player F) (inv : Inventory) (edit : VoxelEditState) :
    Served VoxelApplyResult F :=
  let w := w.setPlayer { p with inv } playerId
  let w := { w with toScene := w.toScene.setEdit p.roomId (voxelKey edit.x edit.y edit.z) edit }
  ⟨{ success := true, wood := inv.wood, stone := inv.stone, dirt := inv.dirt
     copper := inv.copper }, w, w.broadcastVoxelEdit p.roomId edit⟩

def applyVoxelEdit (playerId : String) (x y z action blockType : ℤ) : Served VoxelApplyResult F :=
  match w.players.lookup playerId with
  | none => ⟨{ errorMsg := "player is not in world" }, w, []⟩
  | some p =>
    if lt (ofRat 5) (hypot (sub (ofRat x) p.x) (sub (ofRat z) p.z)) then
      ⟨{ errorMsg := "block is too far away" }, w, []⟩
    else if (action ≠ 1 ∧ action ≠ 2) ∨ blockType < 0 ∨ 5 < blockType ∨ y < -1 ∨ 4 < y then
      ⟨{ errorMsg := "invalid voxel edit" }, w, []⟩
    else
      let w := { w with toScene := w.toScene.touchRoom p.roomId }
      let previous := (w.roomEdits p.roomId).lookup (voxelKey x y z)
      if action = 1 ∧ previous.any (·.action = 1) then
        ⟨{ errorMsg := "block already removed" }, w, []⟩
      else if action = 2 ∧ previous.any (·.action = 2) then
        ⟨{ errorMsg := "block occupied" }, w, []⟩
      else if action = 1 then
        let effectiveType := match previous with
          | some e => if e.action = 2 then e.blockType else blockType
          | none => blockType
        let inv := (minedMaterial effectiveType).elim p.inv (p.inv.add 1)
        w.commitVoxelEdit playerId p inv ⟨x, y, z, action, effectiveType⟩
      else match placedMaterial blockType with
        | none => ⟨{ errorMsg := "unsupported place material" }, w, []⟩
        | some m =>
          if p.inv.count m ≤ 0 then ⟨{ errorMsg := "not enough material" }, w, []⟩
          else w.commitVoxelEdit playerId p (p.inv.add (-1) m) ⟨x, y, z, action, blockType⟩

/-! ## Snapshots -/

/-- `LoadScene`. -/
def loadScene (snap : SceneSnapshot F) : WorldService F :=
  { w with
    resources := snap.resources.foldl emplaceResource ∅
    buildings := snap.buildings
    nextBuildingId := if 0 < snap.nextBuildingId then snap.nextBuildingId else 1
    voxelEdits := (snap.voxelEdits.foldl (fun s v =>
      s.setEdit v.roomId (voxelKey v.x v.y v.z) ⟨v.x, v.y, v.z, v.action, v.blockType⟩)
      ({ w.toScene with voxelEdits := ∅ } : Scene F)).voxelEdits }

/-- `ExportScene`. -/
def exportScene (sceneId : String) : SceneSnapshot F :=
  { sceneId
    found := true
    nextBuildingId := w.nextBuildingId
    resources := w.resources.entries.map fun e => e.2
    buildings := w.buildings
    voxelEdits := w.voxelEdits.entries.flatMap fun room => room.2.entries.map fun e =>
      ⟨room.1, e.2.x, e.2.y, e.2.z, e.2.action, e.2.blockType⟩ }

/-- `GetSnapshot`, as `SavePlayerAsync` fills its `PlayerState` from it. -/
def getSnapshot (playerId : String) : Option (PlayerState F) :=
  (w.players.lookup playerId).map fun p =>
    { playerId, x := p.x, y := p.y, z := p.z, yaw := p.yaw, inv := p.inv }

/-! ## Calls -/

end WorldService

/-- A call of one of the world's operations. -/
inductive Call (F : Type)
  | enter (playerId name : String) (nowMs : ℤ)
  | enterWithState (playerId name : String) (nowMs : ℤ) (x y z yaw : F) (inv : Inventory)
  | leave (playerId : String)
  | selectRoom (playerId roomId : String) (mapId nowMs : ℤ)
  | tryMove (playerId : String) (x y z yaw : F) (nowMs appearance : ℤ)
  | tryGather (playerId resourceId : String)
  | tryPlaceBuilding (playerId : String) (buildingType : ℤ) (x y z yaw : F)
  | tryCraft (playerId : String) (recipeId : ℤ)
  | applyVoxelEdit (playerId : String) (x y z action blockType : ℤ)

namespace Call

variable {F : Type} [Platform F]

/-- The player the call is made for. -/
def player : Call F → String
  | .enter p .. | .enterWithState p .. | .leave p | .selectRoom p .. | .tryMove p ..
  | .tryGather p .. | .tryPlaceBuilding p .. | .tryCraft p .. | .applyVoxelEdit p .. => p

/-- The call's success, if it reports one, the world after it and what it sent. -/
def run (w : WorldService F) : Call F → Served (Option Bool) F
  | .enter p name now => let (w, sent) := w.enter p name now; ⟨none, w, sent⟩
  | .enterWithState p name now x y z yaw inv =>
    let (w, sent) := w.enterWithState p name now x y z yaw inv; ⟨none, w, sent⟩
  | .leave p => let (w, sent) := w.leave p; ⟨none, w, sent⟩
  | .selectRoom p room map now =>
    let r := w.selectRoom p room map now; ⟨some r.result, r.world, r.sent⟩
  | .tryMove p x y z yaw now appearance =>
    let r := w.tryMove p x y z yaw now appearance; ⟨some r.result.success, r.world, r.sent⟩
  | .tryGather p resource =>
    let r := w.tryGather p resource; ⟨some r.result.success, r.world, r.sent⟩
  | .tryPlaceBuilding p type x y z yaw =>
    let r := w.tryPlaceBuilding p type x y z yaw; ⟨some r.result.success, r.world, r.sent⟩
  | .tryCraft p recipe =>
    let r := w.tryCraft p recipe; ⟨some r.result.success, r.world, r.sent⟩
  | .applyVoxelEdit p x y z action type =>
    let r := w.applyVoxelEdit p x y z action type; ⟨some r.result.success, r.world, r.sent⟩

end Call

end TinRpc
