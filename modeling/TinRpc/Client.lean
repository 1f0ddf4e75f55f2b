import TinRpc.Service

/-!
# The game client

What the Godot client of `godot_client/` keeps of what the server sends it: the blocks of
`VoxelWorld`, the buildings of `SurvivalWorld` and the counters `main.gd` last passed to
`_update_inventory`. A message arrives decoded by `ProtoBridge`, where a field that was not sent is
zero. A response answers a request the client made, whose id is not zero; a frame with id zero is a
notification.
-/

namespace TinRpc

/-- A cell of the voxel world. -/
abbrev Cell := ℤ × ℤ × ℤ

namespace VoxelWorld

def grass : ℤ := 1
def dirt : ℤ := 2
def stone : ℤ := 3
def wood : ℤ := 4
def copper : ℤ := 5

/-- `clampi`. -/
def clampi (v lo hi : ℤ) : ℤ := max lo (min v hi)

/-- `_generate_base`: the block of each cell of the terrain a client starts with. -/
def generateBase : Cell → Option ℤ := fun cell =>
  let (x, y, z) := cell
  if cell = (-5, 1, -3) ∨ cell = (4, 1, 5) ∨ cell = (6, 1, -4) then some copper
  else if -9 ≤ x ∧ x < 10 ∧ -9 ≤ z ∧ z < 10 then
    if y = -1 then some dirt
    else if y = 0 then some (if (x + z).tmod 7 ≠ 0 then grass else stone)
    else none
  else none

/-- `apply_network_edit`. -/
def applyNetworkEdit (blocks : Cell → Option ℤ) (edit : VoxelEditState) : Cell → Option ℤ :=
  let cell := (edit.x, edit.y, edit.z)
  if edit.action = 1 then Function.update blocks cell none
  else if edit.action = 2 ∧ blocks cell = none then
    Function.update blocks cell (some (clampi edit.blockType grass copper))
  else blocks

end VoxelWorld

namespace SurvivalWorld

/-- `apply_building`: a building whose id the client knows is not shown. -/
def applyBuilding {F : Type} (buildings : Table String (BuildingState F)) (b : BuildingState F) :
    Table String (BuildingState F) :=
  if b.id = "" ∨ b.id ∈ buildings then buildings else buildings.insert b.id b

/-- The buildings of `apply_world_state`, or a list of notifications of new ones. -/
def applyBuildings {F : Type} (buildings : Table String (BuildingState F))
    (l : List (BuildingState F)) : Table String (BuildingState F) :=
  l.foldl applyBuilding buildings

end SurvivalWorld

structure Client where
  blocks : Cell → Option ℤ
  /-- The counters last passed to `_update_inventory`. -/
  inventory : Option Inventory

namespace Client

open VoxelWorld

variable {F : Type} (c : Client)

/-- A client after `_ready`. -/
def ready : Client := ⟨generateBase, none⟩

/-- The counters of a decoded message. -/
def decodeInventory (inventory : Option Inventory) : Inventory :=
  inventory.getD ⟨0, 0, 0, 0, 0⟩

def updateInventory (value : Option Inventory) : Client :=
  { c with inventory := some (decodeInventory value) }

def onWorldState (state : WorldStateNtf F) : Client :=
  let c := c.updateInventory state.inventory
  { c with blocks := state.voxelEdits.foldl applyNetworkEdit c.blocks }

def onVoxelEditReceived (edit : VoxelEditState) : Client :=
  { c with blocks := applyNetworkEdit c.blocks edit }

/-- What the completions of the four operations do with the counters in a result. -/
def onCompleted (success : Bool) (inventory : Option Inventory) : Client :=
  if success then c.updateInventory inventory else c

def onVoxelEditCompleted (success : Bool) (inventory : Option Inventory) : Client :=
  c.onCompleted success inventory

def onCraftCompleted (success : Bool) (inventory : Option Inventory) : Client :=
  c.onCompleted success inventory

def onGatherCompleted (success : Bool) (inventory : Inventory) : Client :=
  c.onCompleted success (some inventory)

def onBuildingCompleted (success : Bool) (inventory : Inventory) : Client :=
  c.onCompleted success (some inventory)

/-- `_on_notify`, for what the client keeps here. -/
def onNotify : Push F → Client
  | .worldState state => c.onWorldState state
  | .voxelEdit edit => c.onVoxelEditReceived edit
  | _ => c

/-- `_on_response`. -/
def onResponse : Response F → Client
  | .voxelEdit success _ _ inventory => c.onVoxelEditCompleted success inventory
  | .craft success _ inventory => c.onCraftCompleted success inventory
  | .gather success _ _ inventory => c.onGatherCompleted success inventory
  | .placeBuilding success _ _ inventory => c.onBuildingCompleted success inventory
  | _ => c

/-- `_dispatch_frame`. -/
def dispatchFrame : Message F → Client
  | .response 0 _ => c
  | .response (_ + 1) r => c.onResponse r
  | .push p => c.onNotify p
  | .error .. | .roomEvent _ => c

/-- The client on a connection after what was sent on all of them. -/
def handle (conn : Connection) (sent : List (Connection × Message F)) : Client :=
  sent.foldl (fun c m => if m.1 = conn then c.dispatchFrame m.2 else c) c

end Client

/-- The client on a connection, once it has handled everything sent to it. -/
def GameService.client {F D : Type} (s : GameService F D) (conn : Connection) : Client :=
  Client.ready.handle conn s.wire

end TinRpc
