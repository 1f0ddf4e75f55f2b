import Mathlib.Algebra.Order.Ring.Int

/-!
# The Godot client's messages

`ProtoBridge` of `godot_client/scripts/net/proto_bridge.gd`: the decoders and the encoders. A
`PackedByteArray` is a list, and an offset into one an integer. A negative index counts from the
end; one that is still out of range is a script error, with which a call is abandoned. Strings and
floats are kept as the bytes they are read from or written as.
-/

namespace TinRpc.ProtoBridge

def wireVarint : Int64 := 0
def wireFixed32 : Int64 := 5
def wireLengthDelimited : Int64 := 2

/-- A `PackedByteArray`; its size is an integer of GDScript. -/
structure PackedByteArray where
  bytes : List UInt8
  size_lt : bytes.length < 2 ^ 63

/-! ## Reading -/

/-- `body[offset]`. -/
def byteAt (body : List UInt8) (offset : ℤ) : Option UInt8 :=
  let index := if offset < 0 then offset + body.length else offset
  if index < 0 then none else body[index.toNat]?

/-- A bound of `body.slice`. -/
def clampBound (body : List UInt8) (bound : ℤ) : ℕ :=
  let bound := max (-(body.length : ℤ)) (min bound body.length)
  (if bound < 0 then bound + body.length else bound).toNat

/-- `body.slice(start, stop)`. -/
def slice (body : List UInt8) (start stop : ℤ) : List UInt8 :=
  (body.take (clampBound body stop)).drop (clampBound body start)

/-- The dictionary `_read_varint` returns. -/
structure Varint where
  ok : Bool
  value : Int64
  offset : ℤ
  deriving DecidableEq

/-- The loop of `_read_varint`, which ten bytes end. -/
def varintLoop (body : List UInt8) : ℕ → ℕ → Int64 → ℤ → Option Varint
  | 0, _, _, offset => some ⟨false, 0, offset⟩
  | n + 1, shift, value, offset =>
    if offset < body.length ∧ shift < 64 then
      (byteAt body offset).bind fun byte =>
        let value := value ||| Int64.ofNat ((byte &&& 0x7F).toNat <<< shift)
        if byte &&& 0x80 = 0 then some ⟨true, value, offset + 1⟩
        else varintLoop body n (shift + 7) value (offset + 1)
    else some ⟨false, 0, offset⟩

/-- `_read_varint`. -/
def readVarint (body : List UInt8) (offset : ℤ) : Option Varint := varintLoop body 10 0 0 offset

/-- The dictionary `_read_field_header` returns. -/
structure FieldHeader where
  ok : Bool
  number : Int64
  wireType : Int64
  offset : ℤ
  deriving DecidableEq

/-- `_read_field_header`. -/
def readFieldHeader (body : List UInt8) (offset : ℤ) : Option FieldHeader :=
  (readVarint body offset).map fun tag =>
    if tag.ok = false ∨ tag.value = (0 : Int64) then ⟨false, 0, 0, offset⟩
    else ⟨true, tag.value >>> (3 : Int64), tag.value &&& 0x07, tag.offset⟩

/-- The dictionary `_read_length_delimited` returns. -/
structure LengthDelimited where
  ok : Bool
  value : List UInt8
  offset : ℤ
  deriving DecidableEq

/-- `_read_length_delimited`; the sum wraps around. -/
def readLengthDelimited (body : List UInt8) (offset : ℤ) : Option LengthDelimited :=
  (readVarint body offset).map fun length =>
    if length.ok = false ∨ length.value < 0 then ⟨false, [], offset⟩
    else
      let stop := (Int64.ofInt (length.offset + length.value.toInt)).toInt
      if body.length < stop then ⟨false, [], offset⟩
      else ⟨true, slice body length.offset stop, stop⟩

/-- `_skip_value`. -/
def skipValue (body : List UInt8) (offset : ℤ) (wireType : Int64) : Option ℤ :=
  if wireType = wireVarint then
    (readVarint body offset).map fun value => if value.ok then value.offset else -1
  else if wireType = wireFixed32 then
    some (if offset + 4 ≤ body.length then offset + 4 else -1)
  else if wireType = wireLengthDelimited then
    (readLengthDelimited body offset).map fun message => if message.ok then message.offset else -1
  else some (-1)

/-- The bytes `_read_float32_le` reads a float from. -/
def readFloat32 (body : List UInt8) (offset : ℤ) : List UInt8 := slice body offset (offset + 4)

/-! ## The dictionaries -/

structure Vector3 where
  x : List UInt8 := [0, 0, 0, 0]
  y : List UInt8 := [0, 0, 0, 0]
  z : List UInt8 := [0, 0, 0, 0]
  deriving DecidableEq

structure RegisterRes where
  success : Bool := false
  errorMsg : List UInt8 := []
  playerId : List UInt8 := []
  deriving DecidableEq

structure LoginRes where
  success : Bool := false
  playerId : List UInt8 := []
  errorMsg : List UInt8 := []
  deriving DecidableEq

structure PlayerInfo where
  playerId : List UInt8 := []
  deriving DecidableEq

structure VoxelEdit where
  x : Int64 := 0
  y : Int64 := 0
  z : Int64 := 0
  action : Int64 := 0
  blockType : Int64 := 0
  deriving DecidableEq

/-- An inventory; only a decoded one has a `tool_level`. -/
structure Inventory where
  wood : Int64 := 0
  stone : Int64 := 0
  dirt : Int64 := 0
  copper : Int64 := 0
  toolLevel : Option Int64 := none
  deriving DecidableEq

structure VoxelEditRes where
  success : Bool := false
  errorMsg : List UInt8 := []
  inventory : Inventory := {}
  deriving DecidableEq

structure SelectMapRes where
  success : Bool := false
  mapId : Int64 := 0
  errorMsg : List UInt8 := []
  deriving DecidableEq

structure MoveRes where
  success : Bool := false
  errorMsg : List UInt8 := []
  corrected : Vector3 := {}
  deriving DecidableEq

structure PlayerTransform where
  playerId : List UInt8 := []
  playerName : List UInt8 := []
  position : Vector3 := {}
  yaw : List UInt8 := [0, 0, 0, 0]
  appearance : Int64 := 0
  deriving DecidableEq

structure Resource where
  resourceId : List UInt8 := []
  resourceType : Int64 := 0
  position : Vector3 := {}
  remaining : Int64 := 0
  deriving DecidableEq

structure Building where
  buildingId : List UInt8 := []
  ownerId : List UInt8 := []
  buildingType : Int64 := 0
  position : Vector3 := {}
  yaw : List UInt8 := [0, 0, 0, 0]
  deriving DecidableEq

structure WorldState where
  players : List PlayerTransform := []
  resources : List Resource := []
  buildings : List Building := []
  voxelEdits : List VoxelEdit := []
  inventory : Inventory := {}
  deriving DecidableEq

/-- An answer with the resource gathered or the building placed, if one was read. -/
structure ActionRes (A : Type) where
  success : Bool := false
  errorMsg : List UInt8 := []
  inventory : Inventory := {}
  item : Option A := none
  deriving DecidableEq

/-! ## The fields -/

/-- The messages that a loop decodes. -/
inductive Message
  | registerRes
  | loginRes
  | voxelEdit
  | voxelEditRes
  | selectMapRes
  | moveRes
  | playerTransform
  | worldState
  | resource
  | building
  | actionRes (isGather : Bool)
  | inventory
  | worldPlayerLeave
  | vec3
  | playerInfo
  deriving DecidableEq

/-- What the decoder of a message returns. -/
abbrev Result : Message → Type
  | .registerRes => RegisterRes
  | .loginRes => LoginRes
  | .voxelEdit => VoxelEdit
  | .voxelEditRes => VoxelEditRes
  | .selectMapRes => SelectMapRes
  | .moveRes => MoveRes
  | .playerTransform => PlayerTransform
  | .worldState => WorldState
  | .resource => Resource
  | .building => Building
  | .actionRes true => ActionRes Resource
  | .actionRes false => ActionRes Building
  | .inventory => Inventory
  | .worldPlayerLeave => List UInt8
  | .vec3 => Vector3
  | .playerInfo => PlayerInfo

/-- The dictionary a decoder starts with. -/
def initial : (m : Message) → Result m
  | .registerRes => {}
  | .loginRes => {}
  | .voxelEdit => {}
  | .voxelEditRes => {}
  | .selectMapRes => {}
  | .moveRes => {}
  | .playerTransform => {}
  | .worldState => {}
  | .resource => {}
  | .building => {}
  | .actionRes true => {}
  | .actionRes false => {}
  | .inventory => { toolLevel := some 0 }
  | .worldPlayerLeave => []
  | .vec3 => {}
  | .playerInfo => {}

/-- How a branch of a decoder's loop reads a value, and what it does with it: a `fixed32` may be
read without a look at how much is left, and `last` is a string with which the decoder returns. -/
inductive Branch (R : Type)
  | varint (set : Int64 → R → R)
  | bytes (set : List UInt8 → R → R)
  | nested (m : Message) (set : Result m → R → R)
  | fixed32 (guarded : Bool) (set : List UInt8 → R → R)
  | last (set : List UInt8 → R)
  | skip

def registerRes (number wireType : Int64) : Branch RegisterRes :=
  if number = 1 ∧ wireType = wireVarint then .varint fun value r => { r with success := value != 0 }
  else if number ∈ [2, 3] ∧ wireType = wireLengthDelimited then
    .bytes fun text r => if number = 2 then { r with errorMsg := text } else { r with playerId := text }
  else .skip

def loginRes (number wireType : Int64) : Branch LoginRes :=
  if number = 1 ∧ wireType = wireVarint then .varint fun value r => { r with success := value != 0 }
  else if number = 2 ∧ wireType = wireLengthDelimited then
    .nested .playerInfo fun nested r => { r with playerId := nested.playerId }
  else if number = 3 ∧ wireType = wireLengthDelimited then
    .bytes fun text r => { r with errorMsg := text }
  else .skip

/-- What `decode_voxel_edit` makes of a coordinate. -/
def unzigzag (decoded : Int64) : Int64 := (decoded >>> (1 : Int64)) ^^^ -(decoded &&& 1)

def voxelEdit (number wireType : Int64) : Branch VoxelEdit :=
  if 1 ≤ number ∧ number ≤ 5 ∧ wireType = wireVarint then
    .varint fun value r =>
      let decoded := if number ≤ 3 then unzigzag value else value
      if number = 1 then { r with x := decoded }
      else if number = 2 then { r with y := decoded }
      else if number = 3 then { r with z := decoded }
      else if number = 4 then { r with action := decoded }
      else { r with blockType := decoded }
  else .skip

def voxelEditRes (number wireType : Int64) : Branch VoxelEditRes :=
  if number = 1 ∧ wireType = wireVarint then .varint fun value r => { r with success := value != 0 }
  else if number = 2 ∧ wireType = wireLengthDelimited then
    .bytes fun value r => { r with errorMsg := value }
  else if number = 4 ∧ wireType = wireLengthDelimited then
    .nested .inventory fun value r => { r with inventory := value }
  else .skip

def selectMapRes (number wireType : Int64) : Branch SelectMapRes :=
  if number ∈ [1, 2] ∧ wireType = wireVarint then
    .varint fun value r =>
      if number = 1 then { r with success := value != 0 } else { r with mapId := value }
  else if number = 3 ∧ wireType = wireLengthDelimited then
    .bytes fun value r => { r with errorMsg := value }
  else .skip

def moveRes (number wireType : Int64) : Branch MoveRes :=
  if number = 1 ∧ wireType = wireVarint then .varint fun value r => { r with success := value != 0 }
  else if number = 2 ∧ wireType = wireLengthDelimited then
    .bytes fun message r => { r with errorMsg := message }
  else if number = 3 ∧ wireType = wireLengthDelimited then
    .nested .vec3 fun vec3 r => { r with corrected := vec3 }
  else .skip

/-- `clampi`. -/
def clampi (value low high : Int64) : Int64 :=
  if value < low then low else if high < value then high else value

def playerTransform (number wireType : Int64) : Branch PlayerTransform :=
  if (number = 1 ∨ number = 2) ∧ wireType = wireLengthDelimited then
    .bytes fun text r =>
      if number = 1 then { r with playerId := text } else { r with playerName := text }
  else if number = 3 ∧ wireType = wireLengthDelimited then
    .nested .vec3 fun position r => { r with position := position }
  else if number = 4 ∧ wireType = wireFixed32 then .fixed32 true fun value r => { r with yaw := value }
  else if number = 5 ∧ wireType = wireVarint then
    .varint fun value r => { r with appearance := clampi value 0 3 }
  else .skip

def worldState (number wireType : Int64) : Branch WorldState :=
  if number = 1 ∧ wireType = wireLengthDelimited then
    .nested .playerTransform fun transform r => { r with players := r.players ++ [transform] }
  else if number = 2 ∧ wireType = wireLengthDelimited then
    .nested .resource fun resource r => { r with resources := r.resources ++ [resource] }
  else if number = 3 ∧ wireType = wireLengthDelimited then
    .nested .building fun building r => { r with buildings := r.buildings ++ [building] }
  else if number = 4 ∧ wireType = wireLengthDelimited then
    .nested .voxelEdit fun edit r => { r with voxelEdits := r.voxelEdits ++ [edit] }
  else if number = 5 ∧ wireType = wireLengthDelimited then
    .nested .inventory fun value r => { r with inventory := value }
  else .skip

def resource (number wireType : Int64) : Branch Resource :=
  if number = 1 ∧ wireType = wireLengthDelimited then
    .bytes fun value r => { r with resourceId := value }
  else if (number = 2 ∨ number = 4) ∧ wireType = wireVarint then
    .varint fun value r =>
      if number = 2 then { r with resourceType := value } else { r with remaining := value }
  else if number = 3 ∧ wireType = wireLengthDelimited then
    .nested .vec3 fun value r => { r with position := value }
  else .skip

def building (number wireType : Int64) : Branch Building :=
  if (number = 1 ∨ number = 2) ∧ wireType = wireLengthDelimited then
    .bytes fun value r =>
      if number = 1 then { r with buildingId := value } else { r with ownerId := value }
  else if number = 3 ∧ wireType = wireVarint then
    .varint fun value r => { r with buildingType := value }
  else if number = 4 ∧ wireType = wireLengthDelimited then
    .nested .vec3 fun value r => { r with position := value }
  else if number = 5 ∧ wireType = wireFixed32 then .fixed32 false fun value r => { r with yaw := value }
  else .skip

/-- The branches of `_decode_action_res`, the third field being a message of this kind. -/
def actionRes (item : Message) (number wireType : Int64) : Branch (ActionRes (Result item)) :=
  if number = 1 ∧ wireType = wireVarint then .varint fun value r => { r with success := value != 0 }
  else if number = 2 ∧ wireType = wireLengthDelimited then
    .bytes fun value r => { r with errorMsg := value }
  else if number = 3 ∧ wireType = wireLengthDelimited then
    .nested item fun value r => { r with item := some value }
  else if number = 4 ∧ wireType = wireLengthDelimited then
    .nested .inventory fun value r => { r with inventory := value }
  else .skip

def inventory (number wireType : Int64) : Branch Inventory :=
  if 1 ≤ number ∧ number ≤ 5 ∧ wireType = wireVarint then
    .varint fun value r =>
      if number = 1 then { r with wood := value }
      else if number = 2 then { r with stone := value }
      else if number = 3 then { r with dirt := value }
      else if number = 4 then { r with copper := value }
      else { r with toolLevel := some value }
  else .skip

def worldPlayerLeave (number wireType : Int64) : Branch (List UInt8) :=
  if number = 1 ∧ wireType = wireLengthDelimited then .last id else .skip

def vec3 (number wireType : Int64) : Branch Vector3 :=
  if wireType = wireFixed32 ∧ 1 ≤ number ∧ number ≤ 3 then
    .fixed32 true fun value r =>
      if number = 1 then { r with x := value }
      else if number = 2 then { r with y := value }
      else { r with z := value }
  else .skip

def playerInfo (number wireType : Int64) : Branch PlayerInfo :=
  if number = 1 ∧ wireType = wireLengthDelimited then
    .bytes fun value r => { r with playerId := value }
  else .skip

def branch : (m : Message) → Int64 → Int64 → Branch (Result m)
  | .registerRes => registerRes
  | .loginRes => loginRes
  | .voxelEdit => voxelEdit
  | .voxelEditRes => voxelEditRes
  | .selectMapRes => selectMapRes
  | .moveRes => moveRes
  | .playerTransform => playerTransform
  | .worldState => worldState
  | .resource => resource
  | .building => building
  | .actionRes true => actionRes .resource
  | .actionRes false => actionRes .building
  | .inventory => inventory
  | .worldPlayerLeave => worldPlayerLeave
  | .vec3 => vec3
  | .playerInfo => playerInfo

/-- Whether the loop ends where a value cannot be skipped. Two do not look at the offset that
`_skip_value` returns. -/
def breaksOnSkip : Message → Bool
  | .voxelEdit => false
  | .selectMapRes => false
  | _ => true

/-! ## The loops -/

/-- What an iteration of a loop comes to: it leaves the loop, or goes on at an offset, the value of
a field or a nested message being set. -/
inductive Step (R : Type)
  | leave (set : R → R)
  | value (offset : ℤ) (set : R → R)
  | nested (offset : ℤ) (m : Message) (body : List UInt8) (set : Result m → R → R)

def readValue (m : Message) (body : List UInt8) (field : FieldHeader) : Option (Step (Result m)) :=
  match branch m field.number field.wireType with
  | .varint set => (readVarint body field.offset).map fun value =>
    if value.ok then .value value.offset (set value.value) else .leave id
  | .bytes set => (readLengthDelimited body field.offset).map fun text =>
    if text.ok then .value text.offset (set text.value) else .leave id
  | .nested m' set => (readLengthDelimited body field.offset).map fun message =>
    if message.ok then .nested message.offset m' message.value set else .leave id
  | .fixed32 guarded set => some <|
    if guarded && decide (body.length < field.offset + 4) then .leave id
    else .value (field.offset + 4) (set (readFloat32 body field.offset))
  | .last set => (readLengthDelimited body field.offset).map fun text =>
    .leave fun _ => set (if text.ok then text.value else [])
  | .skip => (skipValue body field.offset field.wireType).map fun offset =>
    if decide (offset < 0) && breaksOnSkip m then .leave id else .value offset id

/-- An iteration of the loop, a script error being `none`. -/
def readField (m : Message) (body : List UInt8) (offset : ℤ) : Option (Step (Result m)) :=
  (readFieldHeader body offset).bind fun field =>
    if field.ok then readValue m body field else some (.leave id)

/-- What a call has come to after so many iterations. -/
inductive Outcome (R : Type)
  | returned (result : R)
  | aborted
  | running
  deriving DecidableEq

namespace Outcome

def bind {R S : Type} (o : Outcome R) (f : R → Outcome S) : Outcome S :=
  match o with
  | returned result => f result
  | aborted => aborted
  | running => running

end Outcome

/-- A decoder's loop from an offset on. -/
def loop : ℕ → (m : Message) → List UInt8 → ℤ → Result m → Outcome (Result m)
  | 0, _, _, _, _ => .running
  | n + 1, m, body, offset, result =>
    if offset < body.length then
      match readField m body offset with
      | none => .aborted
      | some (.leave set) => .returned (set result)
      | some (.value offset set) => loop n m body offset (set result)
      | some (.nested offset m' body' set) =>
        (loop n m' body' 0 (initial m')).bind fun value => loop n m body offset (set value result)
    else .returned result

def decode (n : ℕ) (m : Message) (body : List UInt8) : Outcome (Result m) :=
  loop n m body 0 (initial m)

/-- `_first_nested`. -/
def firstNested (body : List UInt8) : Option (List UInt8) :=
  (readFieldHeader body 0).bind fun field =>
    if field.ok = false ∨ field.number ≠ 1 ∨ field.wireType ≠ wireLengthDelimited then some []
    else (readLengthDelimited body field.offset).map fun value =>
      if value.ok then value.value else []

/-- The public decoders: of a message, or of the message in the first field. -/
inductive Decoder
  | message (m : Message)
  | voxelEditNtf
  | resourceChanged
  | buildingPlaced

namespace Decoder

abbrev Result : Decoder → Type
  | message m => ProtoBridge.Result m
  | voxelEditNtf => VoxelEdit
  | resourceChanged => Option Resource
  | buildingPlaced => Option Building

/-- A message in the first field, or nothing if that is empty. -/
def unlessEmpty {R : Type} (nested : List UInt8) (decoded : Outcome R) : Outcome (Option R) :=
  if nested.isEmpty then .returned none else decoded.bind fun result => .returned (some result)

/-- `decode_voxel_edit_ntf`, `decode_resource_changed`, `decode_building_placed`, and the others. -/
def call (n : ℕ) : (d : Decoder) → List UInt8 → Outcome d.Result
  | message m, body => decode n m body
  | voxelEditNtf, body =>
    match firstNested body with
    | none => .aborted
    | some nested => decode n .voxelEdit nested
  | resourceChanged, body =>
    match firstNested body with
    | none => .aborted
    | some nested => unlessEmpty nested (decode n .resource nested)
  | buildingPlaced, body =>
    match firstNested body with
    | none => .aborted
    | some nested => unlessEmpty nested (decode n .building nested)

end Decoder

/-! ## Writing -/

/-- The loop of `_write_varint`, which nine shifts end. -/
def writeVarintLoop : ℕ → Int64 → List UInt8
  | 0, value => [value.toUInt64.toUInt8]
  | n + 1, value =>
    if 0x7F < value then
      ((value &&& 0x7F) ||| 0x80).toUInt64.toUInt8 :: writeVarintLoop n (value >>> (7 : Int64))
    else [value.toUInt64.toUInt8]

/-- `_write_varint`. -/
def writeVarint (value : Int64) : List UInt8 := writeVarintLoop 9 value

/-- `_encode_varint_field`. -/
def encodeVarintField (fieldNumber value : Int64) : List UInt8 :=
  writeVarint (fieldNumber <<< (3 : Int64) ||| wireVarint) ++ writeVarint value

/-- What `encode_voxel_edit` makes of a coordinate. -/
def zigzag (raw : Int64) : Int64 := (raw <<< (1 : Int64)) ^^^ (raw >>> (31 : Int64))

/-- `encode_voxel_edit`. -/
def encodeVoxelEdit (edit : VoxelEdit) : List UInt8 :=
  encodeVarintField 1 (zigzag edit.x) ++ encodeVarintField 2 (zigzag edit.y) ++
    encodeVarintField 3 (zigzag edit.z) ++ encodeVarintField 4 edit.action ++
    encodeVarintField 5 edit.blockType

/-- `_encode_length_delimited_field`. -/
def encodeLengthDelimitedField (fieldNumber : Int64) (value : List UInt8) : List UInt8 :=
  writeVarint (fieldNumber <<< (3 : Int64) ||| wireLengthDelimited) ++
    writeVarint (Int64.ofNat value.length) ++ value

/-- `_encode_fixed32_field`, with the bytes that `_write_float32_le` makes of a float. -/
def encodeFixed32Field (fieldNumber : Int64) (value : List UInt8) : List UInt8 :=
  writeVarint (fieldNumber <<< (3 : Int64) ||| wireFixed32) ++ value

/-- `_encode_vec3`. -/
def encodeVec3 (value : Vector3) : List UInt8 :=
  encodeFixed32Field 1 value.x ++ encodeFixed32Field 2 value.y ++ encodeFixed32Field 3 value.z

/-- `_encode_credentials`, with the bytes of the strings; so `encode_register_req` and
`encode_login_req`. -/
def encodeCredentials (username password : List UInt8) : List UInt8 :=
  encodeLengthDelimitedField 1 username ++
    if password.isEmpty then [] else encodeLengthDelimitedField 2 password

def encodeSelectMapReq (roomId : List UInt8) (mapId : Int64) : List UInt8 :=
  encodeLengthDelimitedField 1 roomId ++ encodeVarintField 2 mapId

def encodeMoveReq (position : Vector3) (yaw : List UInt8) (appearance : Int64) : List UInt8 :=
  encodeLengthDelimitedField 1 (encodeVec3 position) ++ encodeFixed32Field 2 yaw ++
    if appearance ≠ 0 then encodeVarintField 4 (clampi appearance 0 3) else []

def encodeGatherReq (resourceId : List UInt8) : List UInt8 :=
  encodeLengthDelimitedField 1 resourceId

def encodeCraftReq (recipeId : Int64) : List UInt8 := encodeVarintField 1 recipeId

def encodePlaceBuildingReq (buildingType : Int64) (position : Vector3) (yaw : List UInt8) :
    List UInt8 :=
  encodeVarintField 1 buildingType ++ encodeLengthDelimitedField 2 (encodeVec3 position) ++
    encodeFixed32Field 3 yaw

end TinRpc.ProtoBridge
