import TinRpc.Spawner

/-!
# What a client can do with what it shows

`SurvivalWorld` of `godot_client/scripts/game/survival_world.gd`, the trees, rocks and buildings
that a client shows, with the intents that `main.gd` makes of them and of the blocks of
`VoxelWorld`: which resource to gather, which block to mine and where to place one. A `Vector3` has
three `float`s, and a `Dictionary` is walked over in the order in which its keys came in.
-/

namespace TinRpc

/-- The node of a resource: whether it has the mesh of a tree, and its position. -/
structure ResourceNode (F : Type) where
  tree : Bool
  position : F × F × F
  deriving DecidableEq

/-- The node of a building is what the building says of it. -/
structure SurvivalWorld (F : Type) where
  resources : Table String (ResourceNode F) := ∅
  buildings : Table String (BuildingState F) := ∅

namespace SurvivalWorld

variable {F : Type} (c : SurvivalWorld F)

/-- `apply_resource`: a node that is there keeps its mesh. -/
def applyResource (resource : Resource F) : SurvivalWorld F :=
  if resource.id = "" then c
  else if resource.remaining ≤ 0 then { c with resources := c.resources.erase resource.id }
  else
    let position := (resource.x, resource.y, resource.z)
    match c.resources.lookup resource.id with
    | none => { c with
        resources := c.resources.insert resource.id ⟨decide (resource.type = 1), position⟩ }
    | some _ => { c with
        resources := c.resources.modify resource.id fun node => { node with position } }

def applyWorldState (state : WorldStateNtf F) : SurvivalWorld F :=
  let c := state.resources.foldl applyResource c
  { c with buildings := applyBuildings c.buildings state.buildings }

/-- What `main.gd` does with a notification here. -/
def onNotify : Push F → SurvivalWorld F
  | .worldState state => c.applyWorldState state
  | .resourceChanged resource => c.applyResource resource
  | .buildingPlaced building => { c with buildings := applyBuilding c.buildings building }
  | _ => c

/-- `_dispatch_frame`. -/
def dispatchFrame : Message F → SurvivalWorld F
  | .push p => c.onNotify p
  | _ => c

/-- A client that has handled messages. -/
def heed (messages : List (Message F)) : SurvivalWorld F := messages.foldl dispatchFrame c

variable [Platform F]

/-- One step of the loop of `nearest_resource`. -/
def nearer (from_ : F × F × F) (best : String × F) (resourceId : String) (node : ResourceNode F) :
    String × F :=
  let (x, y, z) := node.position
  let distance := Platform.distance x y z from_.1 from_.2.1 from_.2.2
  if Platform.lt distance best.2 then (resourceId, distance) else best

/-- `nearest_resource`. -/
def nearestResource (from_ : F × F × F) (maxDistance : F) : String :=
  (c.resources.entries.reverse.foldl (fun best e => nearer from_ best e.1 e.2)
    ("", maxDistance)).1

/-- The resource that `_handle_actions` gathers, of a player at a position. -/
def gatherIntent (position : F × F × F) : Option String :=
  let resourceId := c.nearestResource position (Platform.ofRat 4)
  if resourceId = "" then none else some resourceId

end SurvivalWorld

namespace VoxelWorld

variable (blocks : Cell → Option ℤ)

/-- `_top_block`: the height and the type of the highest block of a column. -/
def topBlock (x z : ℤ) : Option (ℤ × ℤ) :=
  [3, 2, 1, 0, -1].findSome? fun y => (blocks (x, y, z)).map fun kind => (y, kind)

/-- `mine_intent`, at a target. -/
def mineIntent (x z : ℤ) : Option VoxelEditState :=
  (topBlock blocks x z).map fun (y, kind) => ⟨x, y, z, 1, kind⟩

/-- `place_intent`, at a target: the loop goes on above a column that is full, to no effect. -/
def placeIntent (x z selectedType : ℤ) : Option VoxelEditState :=
  ([0, 1, 2, 3].find? fun y => (blocks (x, y, z)).isNone).map fun y =>
    ⟨x, y, z, 2, selectedType⟩

end VoxelWorld

/-- The scene on a connection, once the client has handled everything sent to it. -/
def GameService.survivalWorld {F D : Type} (s : GameService F D) (conn : Connection) :
    SurvivalWorld F :=
  SurvivalWorld.heed {} (Network.arriving conn s.wire)

end TinRpc
