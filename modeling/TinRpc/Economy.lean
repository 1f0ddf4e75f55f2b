import TinRpc.World

/-!
# The economy

What the operations are for, said without the maps they work on. A successful operation is an
`Effect`: it credits its player or charges him, and it changes the shared scene. The scene is its
`Content`: which resource has which id, the buildings in order, the next building id, and the
last edit of each cell of each room.
-/

namespace TinRpc

/-- A successful operation. An edit carries the block type it put or took. -/
inductive Effect (F : Type)
  | gathered (player node : String) (type : ℤ)
  | built (player : String) (building : BuildingState F)
  | crafted (player : String) (recipe : ℤ)
  | edited (player room : String) (edit : VoxelEditState)

namespace Material

/-- What a node of the type gives. -/
def gathered (type : ℤ) : Option Material :=
  if type = resourceWood then some .wood
  else if type = resourceStone then some .stone
  else none

/-- What a building costs. -/
def buildingCharge (type : ℤ) (m : Material) : ℤ :=
  match WorldService.buildingCost type, m with
  | some (n, _), .wood => n
  | some (_, n), .stone => n
  | _, _ => 0

/-- What a recipe costs. -/
def recipeCharge (recipe : ℤ) (m : Material) : ℤ :=
  match WorldService.recipeCost recipe, m with
  | some (n, _, _, _), .wood => n
  | some (_, n, _, _), .stone => n
  | some (_, _, n, _), .copper => n
  | _, _ => 0

end Material

/-- The content of a scene. -/
@[ext] structure Content (F : Type) where
  resources : String → Option (Resource F)
  buildings : List (BuildingState F)
  nextBuildingId : ℕ
  edits : String → String → Option VoxelEditState

namespace Effect

variable {F : Type}

def player : Effect F → String
  | .gathered p .. | .built p .. | .crafted p .. | .edited p .. => p

/-- Units of a material the effect gives its player: one for a gather or a removed block. -/
def credit : Effect F → Material → ℤ
  | .gathered _ _ type, m => if Material.gathered type = some m then 1 else 0
  | .edited _ _ e, m => if e.action = 1 ∧ WorldService.minedMaterial e.blockType = some m then 1 else 0
  | _, _ => 0

/-- Units of a material the effect takes from its player. -/
def cost : Effect F → Material → ℤ
  | .built _ b, m => Material.buildingCharge b.type m
  | .crafted _ recipe, m => Material.recipeCharge recipe m
  | .edited _ _ e, m => if e.action ≠ 1 ∧ WorldService.placedMaterial e.blockType = some m then 1 else 0
  | _, _ => 0

/-- The tool level after the effect. -/
def tool : Effect F → ℤ → ℤ
  | .crafted _ recipe, _ => recipe
  | _, level => level

def onInventory (e : Effect F) (v : Inventory) : Inventory :=
  ⟨v.wood + e.credit .wood - e.cost .wood, v.stone + e.credit .stone - e.cost .stone,
    v.dirt + e.credit .dirt - e.cost .dirt, v.copper + e.credit .copper - e.cost .copper,
    e.tool v.toolLevel⟩

def onContent : Effect F → Content F → Content F
  | .gathered _ node _, c =>
    { c with
      resources := Function.update c.resources node
        ((c.resources node).map fun r => { r with remaining := r.remaining - 1 }) }
  | .built _ b, c =>
    { c with buildings := c.buildings ++ [b], nextBuildingId := (c.nextBuildingId + 1) % 2 ^ 64 }
  | .crafted .., c => c
  | .edited _ room e, c =>
    { c with
      edits := Function.update c.edits room
        (Function.update (c.edits room) (voxelKey e.x e.y e.z) (some e)) }

/-- The effect changes the scene. -/
def OnScene : Effect F → Prop
  | .crafted .. => False
  | _ => True

instance : DecidablePred (OnScene (F := F)) := fun e =>
  match e with
  | .crafted .. => .isFalse not_false
  | .gathered .. | .built .. | .edited .. => .isTrue trivial

/-- What the content of the scene and the counters of the player have to be for the effect to
happen. -/
def Enabled (c : Content F) (v : Inventory) : Effect F → Prop
  | .gathered _ node type => ∃ r, c.resources node = some r ∧ r.type = type ∧ 0 < r.remaining
  | .built p b => (WorldService.buildingCost b.type).isSome ∧ b.ownerId = p ∧
      b.id = "building_" ++ toString c.nextBuildingId ∧
      ∀ m, Material.buildingCharge b.type m ≠ 0 → Material.buildingCharge b.type m ≤ v.count m
  | .crafted _ recipe => (WorldService.recipeCost recipe).isSome ∧ v.toolLevel < recipe ∧
      ∀ m, Material.recipeCharge recipe m ≠ 0 → Material.recipeCharge recipe m ≤ v.count m
  | .edited _ room e =>
      e.action = 1 ∧ (∀ last, c.edits room (voxelKey e.x e.y e.z) = some last →
        last.action ≠ 1 ∧ (last.action = 2 → e.blockType = last.blockType)) ∨
      e.action = 2 ∧ (∀ last, c.edits room (voxelKey e.x e.y e.z) = some last →
        last.action ≠ 2) ∧ ∃ m, WorldService.placedMaterial e.blockType = some m ∧ 0 < v.count m

end Effect

/-- The inventory after the effects. -/
def Inventory.replay {F : Type} (v : Inventory) (l : List (Effect F)) : Inventory :=
  l.foldl (fun v e => e.onInventory v) v

/-- The content after the effects. -/
def Content.replay {F : Type} (c : Content F) (l : List (Effect F)) : Content F :=
  l.foldl (fun c e => e.onContent c) c

namespace Scene

variable {F : Type}

def content (s : Scene F) : Content F :=
  ⟨fun id => s.resources.lookup id, s.buildings, s.nextBuildingId,
    fun room key => (s.roomEdits room).lookup key⟩

end Scene

/-- The content a snapshot describes: of two resources with one id the first counts, of two edits
of one cell the last. -/
def SceneSnapshot.content {F : Type} (snap : SceneSnapshot F) : Content F :=
  ⟨fun id => snap.resources.find? fun r => r.id = id, snap.buildings, snap.nextBuildingId,
    snap.voxelEdits.foldl (fun edits v => Function.update edits v.roomId
      (Function.update (edits v.roomId) (voxelKey v.x v.y v.z)
        (some ⟨v.x, v.y, v.z, v.action, v.blockType⟩))) fun _ _ => none⟩

namespace WorldService

variable {F : Type} (w : WorldService F)

/-- A player's counters, while he is in the world. -/
def inventory (playerId : String) : Option Inventory :=
  (w.players.lookup playerId).map Player.inv

/-- The room a player is in. -/
def room (playerId : String) : Option String :=
  (w.players.lookup playerId).map Player.roomId

/-- The type of the block a removal takes: that of the block placed in the cell, and the one the
client claims where none is. -/
def blockTaken (room key : String) (claimed : ℤ) : ℤ :=
  match (w.roomEdits room).lookup key with
  | some e => if e.action = 2 then e.blockType else claimed
  | none => claimed

end WorldService

/-- The effect of a call, where it is a successful operation. -/
def Call.effect {F : Type} [Platform F] (w : WorldService F) : Call F → Option (Effect F)
  | .tryGather p resource =>
    let r := (w.tryGather p resource).result
    if r.success then some (.gathered p resource r.resourceType) else none
  | .tryPlaceBuilding p type x y z yaw =>
    let r := (w.tryPlaceBuilding p type x y z yaw).result
    if r.success then
      some (.built p ⟨r.buildingId, r.ownerId, r.buildingType, r.x, r.y, r.z, r.yaw⟩)
    else none
  | .tryCraft p recipe =>
    if (w.tryCraft p recipe).result.success then some (.crafted p recipe) else none
  | .applyVoxelEdit p x y z action type =>
    if (w.applyVoxelEdit p x y z action type).result.success then
      (w.players.lookup p).map fun player => .edited p player.roomId
        ⟨x, y, z, action,
          if action = 1 then w.blockTaken player.roomId (voxelKey x y z) type else type⟩
    else none
  | _ => none

/-- A player's counters after a call. -/
def Call.inventoryAfter {F : Type} [Platform F] (w : WorldService F) (k : Call F)
    (playerId : String) : Option Inventory :=
  match k with
  | .enter p .. => if playerId = p then some ((w.inventory p).getD {}) else w.inventory playerId
  | .enterWithState p _ _ _ _ _ _ inv =>
    if playerId = p then some inv else w.inventory playerId
  | .leave p => if playerId = p then none else w.inventory playerId
  | _ => match k.effect w with
    | some e => if playerId = e.player then (w.inventory playerId).map e.onInventory
      else w.inventory playerId
    | none => w.inventory playerId

end TinRpc
