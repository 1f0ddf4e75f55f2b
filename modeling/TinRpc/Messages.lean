import TinRpc.Lib.Protobuf
import TinRpc.Proto
import TinRpc.ProtoBridge
import TinRpc.Service

/-!
# The world's messages on the wire

The messages of `proto/game.proto` that the game service and the world service fill for a game
client, the dictionaries that its `ProtoBridge` makes of them, and its requests. What protoc makes
of the file is a parameter (`WorldProto`), of which `Serializes` and `Parses` say what protobuf
documents. A counter is an `int` on the way into its field; of a `float` the bits go over. The
answers of the lobby are no business of a game client.
-/

namespace TinRpc

/-- The bits of a `float`. -/
class FloatBits (F : Type) where
  bits : F → UInt32
  ofBits : UInt32 → F

open FloatBits

/-- A `float` as its bits. -/
instance : FloatBits UInt32 := ⟨id, id⟩

/-- The bytes of a `std::string`. -/
def utf8 (s : String) : List UInt8 := s.toUTF8.data.toList

namespace Game

open Protobuf

variable {F : Type} [FloatBits F]

def int (k : ℕ) (n : ℤ) : Item := .int32 k (Int32.ofInt n)

def sint (k : ℕ) (n : ℤ) : Item := .sint32 k (Int32.ofInt n)

def text (k : ℕ) (s : String) : Item := .string k (utf8 s)

/-- `FillVec3`. -/
def vec3 (x y z : F) : List Item := [.float 1 (bits x), .float 2 (bits y), .float 3 (bits z)]

def playerTransform (p : PlayerTransform F) : List Item :=
  [text 1 p.playerId, text 2 p.playerName, .message 3 (vec3 p.x p.y p.z), .float 4 (bits p.yaw),
    int 5 p.appearance]

def resourceNode (r : Resource F) : List Item :=
  [text 1 r.id, int 2 r.type, .message 3 (vec3 r.x r.y r.z), int 4 r.remaining]

def building (b : BuildingState F) : List Item :=
  [text 1 b.id, text 2 b.ownerId, int 3 b.type, .message 4 (vec3 b.x b.y b.z),
    .float 5 (bits b.yaw)]

def voxelEdit (x y z action blockType : ℤ) : List Item :=
  [sint 1 x, sint 2 y, sint 3 z, int 4 action, int 5 blockType]

def voxelEditState (e : VoxelEditState) : List Item := voxelEdit e.x e.y e.z e.action e.blockType

def inventory (v : Inventory) : List Item :=
  [int 1 v.wood, int 2 v.stone, int 3 v.dirt, int 4 v.copper, int 5 v.toolLevel]

def playerInfo (info : String × String) : List Item := [text 1 info.1, text 2 info.2]

def worldStateNtf (s : WorldStateNtf F) : List Item :=
  (s.players.map fun p => .message 1 (playerTransform p)) ++
    (s.resources.map fun r => .message 2 (resourceNode r)) ++
    (s.buildings.map fun b => .message 3 (building b)) ++
    (s.voxelEdits.map fun e => .message 4 (voxelEditState e)) ++
    Item.optional 5 (s.inventory.map inventory)

/-- What `send_` is called with beside the player. -/
def push : Push F → String × List Item
  | .worldState s => ("WorldStateNtf", worldStateNtf s)
  | .playerEnter p => ("PlayerEnterNtf", playerTransform p)
  | .playerLeave playerId => ("PlayerLeaveNtf", [text 1 playerId])
  | .resourceChanged r => ("ResourceChangedNtf", [.message 1 (resourceNode r)])
  | .buildingPlaced b => ("BuildingPlacedNtf", [.message 1 (building b)])
  | .voxelEdit e => ("VoxelEditNtf", [.message 1 (voxelEditState e)])

/-- The method and the message of an answer; the lobby's are serialized by the lobby. -/
def response : Response F → String × List Item
  | .register success errorMsg playerId =>
    ("Register", [.boolean 1 success, text 2 errorMsg, text 3 playerId])
  | .login success errorMsg info =>
    ("Login", .boolean 1 success :: Item.optional 2 (info.map playerInfo) ++ [text 3 errorMsg])
  | .selectMap success mapId errorMsg =>
    ("SelectMap", [.boolean 1 success, int 2 mapId, text 3 errorMsg])
  | .move success errorMsg corrected =>
    ("Move", .boolean 1 success :: text 2 errorMsg ::
      Item.optional 3 (corrected.map fun p => vec3 p.1 p.2.1 p.2.2))
  | .voxelEdit success errorMsg edit inv =>
    ("VoxelEdit", .boolean 1 success :: text 2 errorMsg ::
      Item.optional 3 (edit.map fun e => voxelEdit e.x e.y e.z e.action e.blockType) ++
      Item.optional 4 (inv.map inventory))
  | .craft success errorMsg inv =>
    ("Craft", .boolean 1 success :: text 2 errorMsg :: Item.optional 4 (inv.map inventory))
  | .gather success errorMsg resource inv =>
    ("Gather", [.boolean 1 success, text 2 errorMsg, .message 3 (resourceNode resource),
      .message 4 (inventory inv)])
  | .placeBuilding success errorMsg b inv =>
    ("PlaceBuilding", [.boolean 1 success, text 2 errorMsg, .message 3 (building b),
      .message 4 (inventory inv)])
  | .other method _ => (method, [])

end Game

/-! ## What protoc makes of the file -/

/-- protoc's code for these messages, which the build generates: what `SerializeToString` writes of
a message, and what the handlers read of a request that `ParseFromArray` accepts. -/
class WorldProto (F : Type) where
  serializeToString : List Protobuf.Item → List UInt8
  registerReq : List UInt8 → Option (String × String)
  loginReq : List UInt8 → Option (String × String)
  selectMapReq : List UInt8 → Option (String × ℤ)
  moveReq : List UInt8 → Option (MoveReq F)
  voxelEditReq : List UInt8 → Option VoxelEditReq
  craftReq : List UInt8 → Option ℤ
  gatherReq : List UInt8 → Option String
  placeBuildingReq : List UInt8 → Option (PlaceBuildingReq F)

/-- The fields of a message go out one after another in the wire format, without the scalars that
have their default value; -0.0 is not that of a `float`. -/
def Serializes (F : Type) [WorldProto F] : Prop :=
  ∀ items, Protobuf.Fits items →
    WorldProto.serializeToString F items = Protobuf.write (Protobuf.fields items)

namespace Game

open Protobuf

variable {F : Type}

/-- The body of an answer. -/
def responseBody [FloatBits F] [WorldProto F] : Response F → List UInt8
  | .other _ body => body
  | r => WorldProto.serializeToString F (response r).2

/-- The methods of `OnServerFrame`, with the request each of its handlers parses. -/
def request [WorldProto F] (method : String) (body : List UInt8) : Request F :=
  if method = "Register" then .register (WorldProto.registerReq F body)
  else if method = "Login" then .login (WorldProto.loginReq F body)
  else if method = "SelectMap" then .selectMap (WorldProto.selectMapReq F body)
  else if method = "Move" then .move (WorldProto.moveReq body)
  else if method = "VoxelEdit" then .voxelEdit (WorldProto.voxelEditReq F body)
  else if method = "Craft" then .craft (WorldProto.craftReq F body)
  else if method = "Gather" then .gather (WorldProto.gatherReq F body)
  else if method = "PlaceBuilding" then .placeBuilding (WorldProto.placeBuildingReq body)
  else .other method body

/-! ## What protobuf says of parsing -/

/-- The value of a field. -/
def value (fields : List Field) (k : ℕ) : Option Value :=
  (fields.find? fun f => f.number = k).map (·.value)

/-- The bytes of a string or a message. -/
def readBytes (fields : List Field) (k : ℕ) : List UInt8 :=
  match value fields k with
  | some (.bytes b) => b
  | _ => []

/-- A string field, which has to be text. -/
def readText (fields : List Field) (k : ℕ) : Option String :=
  String.fromUTF8? ⟨(readBytes fields k).toArray⟩

def readVarint (fields : List Field) (k : ℕ) : ℕ :=
  match value fields k with
  | some (.varint n) => n
  | _ => 0

/-- An `int32` or an enumeration: of a longer number the lowest bits. -/
def readInt (fields : List Field) (k : ℕ) : ℤ := (Int32.ofNat (readVarint fields k)).toInt

def readSint (fields : List Field) (k : ℕ) : ℤ :=
  let n := UInt32.ofNat (readVarint fields k)
  ((n >>> 1) ^^^ -(n &&& 1)).toInt32.toInt

def readFloat [FloatBits F] (fields : List Field) (k : ℕ) : F :=
  ofBits (match value fields k with
    | some (.fixed32 n) => UInt32.ofNat n
    | _ => 0)

def credentials (fields : List Field) : Option (String × String) := do
  return (← readText fields 1, ← readText fields 2)

def selectMapReq (fields : List Field) : Option (String × ℤ) := do
  return (← readText fields 1, readInt fields 2)

def moveReq [FloatBits F] (fields position : List Field) : MoveReq F :=
  ⟨readFloat position 1, readFloat position 2, readFloat position 3, readFloat fields 2,
    readInt fields 4⟩

def voxelEditReq (fields : List Field) : VoxelEditReq :=
  ⟨readSint fields 1, readSint fields 2, readSint fields 3, readInt fields 4, readInt fields 5⟩

def placeBuildingReq [FloatBits F] (fields position : List Field) : PlaceBuildingReq F :=
  ⟨readInt fields 1, readFloat position 1, readFloat position 2, readFloat position 3,
    readFloat fields 3⟩

end Game

open Protobuf in
/-- Of such a message a handler reads what its fields have, or the default where there is none. -/
structure Parses (F : Type) [FloatBits F] [WorldProto F] : Prop where
  registerReq : ∀ {fields}, Single fields →
    WorldProto.registerReq F (write fields) = Game.credentials fields
  loginReq : ∀ {fields}, Single fields →
    WorldProto.loginReq F (write fields) = Game.credentials fields
  selectMapReq : ∀ {fields}, Single fields →
    WorldProto.selectMapReq F (write fields) = Game.selectMapReq fields
  moveReq : ∀ {fields position}, Single fields → Single position →
    Game.value fields 1 = some (.bytes (write position)) →
    WorldProto.moveReq (F := F) (write fields) = some (Game.moveReq fields position)
  voxelEditReq : ∀ {fields}, Single fields →
    WorldProto.voxelEditReq F (write fields) = some (Game.voxelEditReq fields)
  craftReq : ∀ {fields}, Single fields →
    WorldProto.craftReq F (write fields) = some (Game.readInt fields 1)
  gatherReq : ∀ {fields}, Single fields →
    WorldProto.gatherReq F (write fields) = Game.readText fields 1
  placeBuildingReq : ∀ {fields position}, Single fields → Single position →
    Game.value fields 2 = some (.bytes (write position)) →
    WorldProto.placeBuildingReq (F := F) (write fields) =
      some (Game.placeBuildingReq fields position)

namespace Game

open Protobuf

/-- The fields of a message. -/
def parse (body : List UInt8) : Option (List Field) :=
  (Proto.parse body).map fun fields => fields.map fun f => ⟨f.1, match f.2 with
    | .varint n => .varint n
    | .fixed64 n => .fixed64 n
    | .bytes b => .bytes b
    | .fixed32 n => .fixed32 n⟩

/-- The fields of the message in a field; none where it is not there. -/
def parseNested (fields : List Field) (k : ℕ) : Option (List Field) :=
  match value fields k with
  | some (.bytes b) => parse b
  | _ => some []

/-- The wire format of the library and its parser. -/
instance : WorldProto UInt32 where
  serializeToString items := write (Protobuf.fields items)
  registerReq body := (parse body).bind credentials
  loginReq body := (parse body).bind credentials
  selectMapReq body := (parse body).bind selectMapReq
  moveReq body := do
    let fields ← parse body
    return moveReq fields (← parseNested fields 1)
  voxelEditReq body := (parse body).map voxelEditReq
  craftReq body := (parse body).map fun fields => readInt fields 1
  gatherReq body := (parse body).bind fun fields => readText fields 1
  placeBuildingReq body := do
    let fields ← parse body
    return placeBuildingReq fields (← parseNested fields 2)

end Game

/-! ## What a client makes of them -/

namespace ProtoBridge

variable {F : Type} [FloatBits F]

/-- An `int` that came over. -/
def int (n : ℤ) : Int64 := (Int32.ofInt n).toInt64

/-- The bytes of a `float`. -/
def float (x : F) : List UInt8 := Protobuf.littleEndian 4 (bits x).toNat

def Vector3.of (x y z : F) : Vector3 := ⟨float x, float y, float z⟩

def PlayerTransform.of (p : TinRpc.PlayerTransform F) : PlayerTransform :=
  ⟨utf8 p.playerId, utf8 p.playerName, .of p.x p.y p.z, float p.yaw, clampi (int p.appearance) 0 3⟩

def Resource.of (r : TinRpc.Resource F) : Resource :=
  ⟨utf8 r.id, int r.type, .of r.x r.y r.z, int r.remaining⟩

def Building.of (b : BuildingState F) : Building :=
  ⟨utf8 b.id, utf8 b.ownerId, int b.type, .of b.x b.y b.z, float b.yaw⟩

def VoxelEdit.of (e : VoxelEditState) : VoxelEdit :=
  ⟨int e.x, int e.y, int e.z, int e.action, int e.blockType⟩

def Inventory.of (v : TinRpc.Inventory) : Inventory :=
  ⟨int v.wood, int v.stone, int v.dirt, int v.copper, some (int v.toolLevel)⟩

/-- The inventory of a message, which has no tool where there was none. -/
def Inventory.ofOption (v : Option TinRpc.Inventory) : Inventory := (v.map Inventory.of).getD {}

def WorldState.of (s : WorldStateNtf F) : WorldState :=
  ⟨s.players.map .of, s.resources.map .of, s.buildings.map .of, s.voxelEdits.map .of,
    .ofOption s.inventory⟩

/-- The decoder that `_on_notify` has for a push, and the dictionary that it is to return. -/
def ofPush : Push F → (d : Decoder) × d.Result
  | .worldState s => ⟨.message .worldState, WorldState.of s⟩
  | .playerEnter p => ⟨.message .playerTransform, PlayerTransform.of p⟩
  | .playerLeave playerId => ⟨.message .worldPlayerLeave, utf8 playerId⟩
  | .resourceChanged r => ⟨.resourceChanged, some (Resource.of r)⟩
  | .buildingPlaced b => ⟨.buildingPlaced, some (Building.of b)⟩
  | .voxelEdit e => ⟨.voxelEditNtf, VoxelEdit.of e⟩

end ProtoBridge

end TinRpc
