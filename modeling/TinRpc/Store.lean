import TinRpc.Basic
import TinRpc.Lib.Bson

/-!
# The stores

`SceneStore`, `PlayerStore` and `AccountStore`: what they write into the `scenes`, `players` and
`accounts` collections and how they read it back, field by field with the source's type checks. A
store whose `Init` failed has no client; a read or a write that fails is an input of the model. A
read that fails gives no document, as the driver's cursor does.
-/

namespace TinRpc

open Bson (cstr find getDouble getUtf8 getInt32 getArray getDocument)

/-- `WorldService::Resource` and `SceneResource`. -/
structure Resource (F : Type) where
  id : String
  type : ℤ
  x : F
  y : F
  z : F
  remaining : ℤ
  deriving DecidableEq

/-- `WorldService::BuildingState` and `SceneBuilding`. -/
structure BuildingState (F : Type) where
  id : String
  ownerId : String
  type : ℤ
  x : F
  y : F
  z : F
  yaw : F
  deriving DecidableEq

structure SceneVoxelEdit where
  roomId : String := ""
  x : ℤ := 0
  y : ℤ := 0
  z : ℤ := 0
  action : ℤ := 0
  blockType : ℤ := 0
  deriving DecidableEq, Repr

structure SceneSnapshot (F : Type) where
  sceneId : String := "default"
  resources : List (Resource F) := []
  buildings : List (BuildingState F) := []
  voxelEdits : List SceneVoxelEdit := []
  nextBuildingId : ℕ := 1
  found : Bool := false

structure PlayerState (F : Type) where
  playerId : String
  x : F
  y : F
  z : F
  yaw : F
  inv : Inventory := {}
  found : Bool := false

/-- `AccountStore::Result`. -/
structure AccountResult where
  ok : Bool := false
  errorMsg : String := ""
  playerId : String := ""

/-- The three collections, by their key, each with the document a find gives. -/
structure Database (F : Type) where
  accounts : String → Option (Bson.Doc F)
  players : String → Option (Bson.Doc F)
  scenes : String → Option (Bson.Doc F)
  /-- The accounts have the unique index on the username. `Init` asks for it and goes on without. -/
  indexed : Bool := true

/-- `static_cast<int64_t>` of a `uint64_t`. -/
def toInt64 (n : ℕ) : ℤ := Int.bmod n (2 ^ 64)

/-- `static_cast<uint64_t>`. -/
def toUInt64 (n : ℤ) : ℕ := (n % 2 ^ 64).toNat

variable {F : Type} [Platform F]

/-! ## Scenes -/

namespace SceneStore

def readResource (fields : Bson.Doc F) : Resource F :=
  fields.foldl (fun r f => match f with
    | ("id", .utf8 s) => { r with id := cstr s }
    | ("type", .int32 n) => { r with type := n }
    | ("x", .double v) => { r with x := v }
    | ("y", .double v) => { r with y := v }
    | ("z", .double v) => { r with z := v }
    | ("remaining", .int32 n) => { r with remaining := n }
    | _ => r)
    ⟨"", 0, Platform.ofRat 0, Platform.ofRat 0, Platform.ofRat 0, 0⟩

def readBuilding (fields : Bson.Doc F) : BuildingState F :=
  fields.foldl (fun b f => match f with
    | ("id", .utf8 s) => { b with id := cstr s }
    | ("owner_id", .utf8 s) => { b with ownerId := cstr s }
    | ("type", .int32 n) => { b with type := n }
    | ("x", .double v) => { b with x := v }
    | ("y", .double v) => { b with y := v }
    | ("z", .double v) => { b with z := v }
    | ("yaw", .double v) => { b with yaw := v }
    | _ => b)
    ⟨"", "", 0, Platform.ofRat 0, Platform.ofRat 0, Platform.ofRat 0, Platform.ofRat 0⟩

omit [Platform F] in
def readVoxelEdit (fields : Bson.Doc F) : SceneVoxelEdit :=
  fields.foldl (fun e f => match f with
    | ("room_id", .utf8 s) => { e with roomId := cstr s }
    | ("x", .int32 n) => { e with x := n }
    | ("y", .int32 n) => { e with y := n }
    | ("z", .int32 n) => { e with z := n }
    | ("action", .int32 n) => { e with action := n }
    | ("block_type", .int32 n) => { e with blockType := n }
    | _ => e) {}

/-- The items of an array that are documents, read, without those whose name is empty. -/
def readItems {β : Type} (read : Bson.Doc F → β) (name : β → String) (v : Option (Bson F)) :
    List β :=
  ((v.elim [] getArray).filterMap fun item => (getDocument item).map read).filter
    fun b => name b ≠ ""

/-- The snapshot `Load` makes of a document it found. -/
def parse (sceneId : String) (doc : Bson.Doc F) : SceneSnapshot F :=
  { sceneId
    found := true
    nextBuildingId := match find doc "next_building_id" with
      | some (.int64 n) => toUInt64 n
      | some (.int32 n) => toUInt64 n
      | _ => 1
    resources := readItems readResource Resource.id (find doc "resources")
    buildings := readItems readBuilding BuildingState.id (find doc "buildings")
    voxelEdits := readItems readVoxelEdit SceneVoxelEdit.roomId (find doc "voxel_edits") }

/-- `Load`. `readOk` is false when the cursor fails. -/
def load (client readOk : Bool) (scenes : String → Option (Bson.Doc F)) (sceneId : String) :
    SceneSnapshot F :=
  if client && readOk then
    match scenes (cstr sceneId) with
    | none => { sceneId }
    | some doc => parse sceneId doc
  else { sceneId }

def writeResource (r : Resource F) : Bson F :=
  .document [("id", .utf8 (cstr r.id)), ("type", .int32 r.type), ("x", .double r.x),
    ("y", .double r.y), ("z", .double r.z), ("remaining", .int32 r.remaining)]

def writeBuilding (b : BuildingState F) : Bson F :=
  .document [("id", .utf8 (cstr b.id)), ("owner_id", .utf8 (cstr b.ownerId)),
    ("type", .int32 b.type), ("x", .double b.x), ("y", .double b.y), ("z", .double b.z),
    ("yaw", .double b.yaw)]

def writeVoxelEdit (v : SceneVoxelEdit) : Bson F :=
  .document [("room_id", .utf8 (cstr v.roomId)), ("x", .int32 v.x), ("y", .int32 v.y),
    ("z", .int32 v.z), ("action", .int32 v.action), ("block_type", .int32 v.blockType)]

/-- The document `Upsert` writes at time `ms`. -/
def document (snap : SceneSnapshot F) (ms : ℤ) : Bson.Doc F :=
  [("scene_id", .utf8 (cstr snap.sceneId)),
    ("next_building_id", .int64 (toInt64 snap.nextBuildingId)),
    ("updated_at", .dateTime ms),
    ("resources", .array (snap.resources.map writeResource)),
    ("buildings", .array (snap.buildings.map writeBuilding)),
    ("voxel_edits", .array (snap.voxelEdits.map writeVoxelEdit))]

/-- `Upsert`: the collection afterwards and whether the write succeeded. -/
def upsert (client writeOk : Bool) (scenes : String → Option (Bson.Doc F))
    (snap : SceneSnapshot F) (ms : ℤ) : (String → Option (Bson.Doc F)) × Bool :=
  if client && writeOk then
    (Function.update scenes (cstr snap.sceneId) (some (document snap ms)), true)
  else (scenes, false)

end SceneStore

/-! ## Players -/

namespace PlayerStore

def parse (playerId : String) (doc : Bson.Doc F) : PlayerState F :=
  let double (key : String) : F := ((find doc key).bind getDouble).getD (Platform.ofRat 0)
  let int32 (key : String) (default : ℤ) : ℤ := ((find doc key).bind getInt32).getD default
  { playerId
    found := true
    x := double "x"
    y := double "y"
    z := double "z"
    yaw := double "yaw"
    inv := ⟨int32 "wood" 6, int32 "stone" 3, int32 "dirt" 12, int32 "copper" 0,
      int32 "tool_level" 0⟩ }

/-- The state `Load` returns where it finds no document. -/
def absent (playerId : String) : PlayerState F :=
  { playerId, x := Platform.ofRat 0, y := Platform.ofRat 0, z := Platform.ofRat 0
    yaw := Platform.ofRat 0 }

/-- `Load`. `readOk` is false when the cursor fails. -/
def load (client readOk : Bool) (players : String → Option (Bson.Doc F)) (playerId : String) :
    PlayerState F :=
  if client && readOk then
    match players (cstr playerId) with
    | none => absent playerId
    | some doc => parse playerId doc
  else absent playerId

def document (st : PlayerState F) (ms : ℤ) : Bson.Doc F :=
  [("player_id", .utf8 (cstr st.playerId)), ("x", .double st.x), ("y", .double st.y),
    ("z", .double st.z), ("yaw", .double st.yaw), ("wood", .int32 st.inv.wood),
    ("stone", .int32 st.inv.stone), ("dirt", .int32 st.inv.dirt),
    ("copper", .int32 st.inv.copper), ("tool_level", .int32 st.inv.toolLevel),
    ("updated_at", .dateTime ms)]

/-- `Upsert`. -/
def upsert (client writeOk : Bool) (players : String → Option (Bson.Doc F)) (st : PlayerState F)
    (ms : ℤ) : (String → Option (Bson.Doc F)) × Bool :=
  if client && writeOk then
    (Function.update players (cstr st.playerId) (some (document st ms)), true)
  else (players, false)

end PlayerStore

/-! ## Accounts -/

namespace AccountStore

def validUsername (username : String) : Bool :=
  !(username.utf8ByteSize < 3 || 32 < username.utf8ByteSize) &&
    username.toList.all fun c => c.isAlphanum || c = '_'

def validPassword (password : String) : Bool :=
  6 ≤ password.utf8ByteSize && password.utf8ByteSize ≤ 64

/-- `CreateAccount`. `hash` is what `HashPassword` made of the password and a fresh salt, empty
where libcrypt failed; `writeOk` is false when the insert fails for another reason than a username
already present. Without the index a second document of a username is inserted behind the first. -/
def createAccount (client indexed writeOk : Bool) (accounts : String → Option (Bson.Doc F))
    (username password hash : String) (ms : ℤ) :
    (String → Option (Bson.Doc F)) × AccountResult :=
  if !client then (accounts, { errorMsg := "db unavailable" })
  else if !validUsername username || !validPassword password then
    (accounts, { errorMsg := "invalid username/password" })
  else if hash = "" || !writeOk then (accounts, { errorMsg := "db unavailable" })
  else match accounts (cstr username), indexed with
    | some _, true => (accounts, { errorMsg := "username taken" })
    | some _, false => (accounts, { ok := true, playerId := username })
    | none, _ =>
      (Function.update accounts (cstr username) (some
        [("username", .utf8 (cstr username)), ("password_hash", .utf8 (cstr hash)),
          ("player_id", .utf8 (cstr username)), ("created_at", .dateTime ms),
          ("updated_at", .dateTime ms)]),
        { ok := true, playerId := username })

/-- `VerifyCredentials`. `readOk` is false when the cursor fails. -/
def verifyCredentials (client readOk : Bool) (accounts : String → Option (Bson.Doc F))
    (username password : String) : AccountResult :=
  if !client then { errorMsg := "db unavailable" }
  else if !validUsername username || !validPassword password then
    { errorMsg := "invalid credentials" }
  else match (if readOk then accounts (cstr username) else none) with
    | none => { errorMsg := "invalid credentials" }
    | some doc =>
      let storedHash := ((find doc "password_hash").bind getUtf8).getD ""
      let playerId := ((find doc "player_id").bind getUtf8).getD username
      if storedHash = "" ||
          Platform.crypt F (cstr password) (cstr storedHash) ≠ some storedHash then
        { errorMsg := "invalid credentials" }
      else { ok := true, playerId }

end AccountStore

end TinRpc
