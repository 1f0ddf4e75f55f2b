import TinRpc.NetSession
import TinRpc.Proofs.Fields

/-!
# The server reads what a client asks

The client's encoders write messages of the wire format, each field once. So a handler gets the
request that the client made, where parsing does what protobuf documents (`request_encode`), as the
parser of this project does (`parses_words`).
-/

namespace TinRpc

open Protobuf (Field Single Value varint write write_cons write_append)

namespace Proto

theorem ofNat_low {n : ℕ} (h : n < 128) : UInt8.ofNat n < 128 ∧ (UInt8.ofNat n).toNat = n := by
  have hn : (UInt8.ofNat n).toNat = n := by
    rw [UInt8.toNat_ofNat']
    omega
  exact ⟨UInt8.lt_iff_toNat_lt.2 (by rw [hn]; exact h), hn⟩

theorem ofNat_high (n : ℕ) : ¬UInt8.ofNat (n % 128 + 128) < 128 ∧
    (UInt8.ofNat (n % 128 + 128)).toNat - 128 = n % 128 := by
  have hn : (UInt8.ofNat (n % 128 + 128)).toNat = n % 128 + 128 := by
    rw [UInt8.toNat_ofNat']
    omega
  refine ⟨fun h => ?_, by omega⟩
  have := UInt8.lt_iff_toNat_lt.1 h
  rw [hn] at this
  exact absurd this (Nat.not_lt.2 (Nat.le_add_left _ _))

theorem readVarint_varint (rest : List UInt8) : ∀ {k n : ℕ}, n < 128 ^ (k + 1) →
    readVarint (k + 1) (varint (k + 1) n ++ rest) = some (n, rest) := by
  intro k
  induction k with
  | zero =>
    intro n hn
    obtain ⟨hlow, hvalue⟩ := ofNat_low (show n < 128 by omega)
    rw [varint, if_pos (by omega), List.singleton_append, readVarint, if_pos hlow, hvalue]
  | succ k ih =>
    intro n hn
    rw [varint]
    split_ifs with hlast
    · obtain ⟨hlow, hvalue⟩ := ofNat_low hlast
      rw [List.singleton_append, readVarint, if_pos hlow, hvalue]
    · obtain ⟨hhigh, hvalue⟩ := ofNat_high n
      have hrest : n / 128 < 128 ^ (k + 1) := by
        rw [Nat.div_lt_iff_lt_mul (by decide), ← pow_succ]
        exact hn
      rw [List.cons_append, readVarint, if_neg hhigh, ih hrest, Option.map_some, hvalue,
        Nat.mod_add_div]

theorem littleEndian_bytes : ∀ {k n : ℕ}, n < 256 ^ k →
    Proto.littleEndian (Protobuf.littleEndian k n) = n
  | 0, n, h => by
    rw [Protobuf.littleEndian, Proto.littleEndian]
    omega
  | k + 1, n, h => by
    have hrest : n / 256 < 256 ^ k := by
      rw [Nat.div_lt_iff_lt_mul (by decide), ← pow_succ]
      exact h
    rw [Protobuf.littleEndian, Proto.littleEndian, littleEndian_bytes hrest, UInt8.toNat_ofNat']
    exact Nat.mod_add_div n 256

theorem splitAt_append (b rest : List UInt8) :
    Proto.splitAt b.length (b ++ rest) = some (b, rest) := by
  unfold Proto.splitAt
  rw [if_pos (by rw [List.length_append]; omega), List.take_left, List.drop_left]

/-- What the parser makes of a value. -/
def wire : Value → Wire
  | .varint n => .varint n
  | .fixed64 n => .fixed64 n
  | .bytes b => .bytes b
  | .fixed32 n => .fixed32 n

theorem readWire_payload {v : Value} (hv : v.Fits) (hsize : v.payload.length < 2 ^ 31)
    (rest : List UInt8) : readWire v.wireType (v.payload ++ rest) = some (wire v, rest) := by
  cases v with
  | varint n =>
    show (readVarint 10 (varint 10 n ++ rest)).map _ = _
    rw [readVarint_varint rest (Nat.lt_trans hv (by decide))]
    rfl
  | fixed64 n =>
    have hsplit := splitAt_append (Protobuf.littleEndian 8 n) rest
    rw [Protobuf.length_littleEndian] at hsplit
    unfold Value.wireType Value.payload readWire
    simp only []
    rw [hsplit, Option.map_some, littleEndian_bytes (Nat.lt_of_lt_of_le hv (by decide))]
    rfl
  | bytes b =>
    have hb : b.length < 128 ^ 5 := by
      unfold Value.payload at hsize
      rw [List.length_append] at hsize
      omega
    show (readVarint 5 (varint 5 b.length ++ b ++ rest)).bind _ = _
    rw [List.append_assoc, readVarint_varint _ hb, Option.bind_some, splitAt_append]
    rfl
  | fixed32 n =>
    have hsplit := splitAt_append (Protobuf.littleEndian 4 n) rest
    rw [Protobuf.length_littleEndian] at hsplit
    unfold Value.wireType Value.payload readWire
    simp only []
    rw [hsplit, Option.map_some, littleEndian_bytes (Nat.lt_of_lt_of_le hv (by decide))]
    rfl

theorem readFields_write : ∀ {n : ℕ} {fields : List Field}, (∀ f ∈ fields, f.Legal) →
    (write fields).length < 2 ^ 31 → (write fields).length ≤ n →
    readFields n (write fields) = some (fields.map fun f => (f.number, wire f.value)) := by
  intro n fields
  induction fields generalizing n with
  | nil =>
    intro _ _ _
    unfold readFields
    rfl
  | cons f fields ih =>
    intro hlegal hsize hn
    obtain ⟨hf, hfields⟩ := List.forall_mem_cons.1 hlegal
    have hpos := f.length_pos
    rw [write_cons, List.length_append] at hsize hn
    obtain ⟨n, rfl⟩ := Nat.exists_eq_add_of_lt (show 0 < n by omega)
    rw [write_cons, Nat.zero_add]
    have hne : f.write ++ write fields ≠ [] :=
      List.append_ne_nil_of_left_ne_nil (List.length_pos_iff.1 hpos) _
    have hpayload : f.value.payload.length < 2 ^ 31 := by
      have : f.write.length = (varint 5 f.tag).length + f.value.payload.length :=
        List.length_append
      omega
    have htag : f.tag < 128 ^ (4 + 1) := Nat.lt_trans hf.tag_lt (by decide)
    have hnumber := hf.pos
    rw [readFields]
    · rw [Field.write, List.append_assoc, readVarint_varint _ htag, Option.bind_some,
        Field.tag_div, Field.tag_mod, if_neg (by omega), readWire_payload hf.fits hpayload,
        Option.bind_some, ih hfields (by omega) (by omega)]
      rfl
    · exact hne

/-- The parser reads any message of a size that protobuf allows. -/
theorem parse_write {fields : List Field} (hlegal : ∀ f ∈ fields, f.Legal)
    (hsize : (write fields).length < 2 ^ 31) :
    parse (write fields) = some (fields.map fun f => (f.number, wire f.value)) :=
  readFields_write hlegal hsize (Nat.le_refl _)

end Proto

namespace ProtoBridge

theorem varint_widen : ∀ {j k n : ℕ}, n < 128 ^ (j + 1) → j ≤ k →
    varint (k + 1) n = varint (j + 1) n
  | 0, k, n, hn, _ => by
    rw [varint, varint, if_pos (by omega), if_pos (by omega)]
  | j + 1, 0, n, _, hjk => by omega
  | j + 1, k + 1, n, hn, hjk => by
    have hrest : n / 128 < 128 ^ (j + 1) := by
      rw [Nat.div_lt_iff_lt_mul (by decide), ← pow_succ]
      exact hn
    conv_rhs => rw [varint]
    rw [varint, varint_widen hrest (Nat.le_of_succ_le_succ hjk)]

theorem writeVarintLoop_eq : ∀ (k : ℕ) {v : ℕ}, v < 2 ^ 63 → v < 128 ^ (k + 1) →
    writeVarintLoop k (Int64.ofNat v) = varint (k + 1) v
  | 0, v, _, hv => by
    rw [writeVarintLoop, varint, if_pos (by omega), toUInt8_ofNat]
  | k + 1, v, hword, hv => by
    have hrest : v / 128 < 128 ^ (k + 1) := by
      rw [Nat.div_lt_iff_lt_mul (by decide), ← pow_succ]
      exact hv
    rw [writeVarintLoop, varint]
    by_cases hmore : 127 < v
    · rw [if_pos ((lt_ofNat hword).2 hmore), if_neg (by omega), toUInt8_continued,
        ofNat_shiftRight hword, writeVarintLoop_eq k (by omega) hrest]
    · rw [if_neg (fun h => hmore ((lt_ofNat hword).1 h)), if_pos (by omega), toUInt8_ofNat]

theorem writeVarint_eq {v : ℕ} (hv : v < 2 ^ 63) : writeVarint (Int64.ofNat v) = varint 10 v :=
  writeVarintLoop_eq 9 hv (by omega)

variable {number : Int64} {k v : ℕ}

theorem encodeVarintField_eq (htag : number <<< (3 : Int64) ||| wireVarint = Int64.ofNat (8 * k))
    (hk : k < 2 ^ 29) (hv : v < 2 ^ 63) :
    encodeVarintField number (Int64.ofNat v) = Field.write ⟨k, .varint v⟩ := by
  unfold encodeVarintField Field.write
  rw [htag, writeVarint_eq (by omega), writeVarint_eq hv]
  exact congrArg (· ++ varint 10 v) (varint_widen (j := 4) (by omega) (by decide))

theorem encodeLengthDelimitedField_eq {b : List UInt8}
    (htag : number <<< (3 : Int64) ||| wireLengthDelimited = Int64.ofNat (8 * k + 2))
    (hk : k < 2 ^ 29) (hb : b.length < 2 ^ 31) :
    encodeLengthDelimitedField number b = Field.write ⟨k, .bytes b⟩ := by
  unfold encodeLengthDelimitedField Field.write Field.tag Value.payload
  rw [htag, writeVarint_eq (by omega), writeVarint_eq (by omega),
    varint_widen (j := 4) (k := 9) (n := b.length) (by omega) (by decide),
    varint_widen (j := 4) (k := 9) (n := 8 * k + 2) (by omega) (by decide), List.append_assoc]
  rfl

/-- Four bytes are a number. -/
theorem littleEndian_littleEndian : ∀ (b : List UInt8),
    Protobuf.littleEndian b.length (Proto.littleEndian b) = b ∧
      Proto.littleEndian b < 256 ^ b.length
  | [] => ⟨rfl, by decide⟩
  | c :: b => by
    obtain ⟨hback, hlt⟩ := littleEndian_littleEndian b
    have hc := c.toNat_lt
    have hword : UInt8.ofNat (c.toNat + 256 * Proto.littleEndian b) = c := by
      rw [← UInt8.toNat_inj, UInt8.toNat_ofNat']
      omega
    have hdiv : (c.toNat + 256 * Proto.littleEndian b) / 256 = Proto.littleEndian b := by omega
    refine ⟨?_, ?_⟩
    · rw [List.length_cons, Proto.littleEndian, Protobuf.littleEndian, hword, hdiv, hback]
    · rw [List.length_cons, Proto.littleEndian, pow_succ]
      omega

theorem encodeFixed32Field_eq {b : List UInt8}
    (htag : number <<< (3 : Int64) ||| wireFixed32 = Int64.ofNat (8 * k + 5))
    (hk : k < 2 ^ 29) (hb : b.length = 4) :
    encodeFixed32Field number b = Field.write ⟨k, .fixed32 (Proto.littleEndian b)⟩ := by
  have hback := (littleEndian_littleEndian b).1
  rw [hb] at hback
  unfold encodeFixed32Field
  rw [htag, writeVarint_eq (by omega),
    varint_widen (j := 4) (k := 9) (n := 8 * k + 5) (by omega) (by decide)]
  exact congrArg (varint 5 (8 * k + 5) ++ ·) hback.symm

end ProtoBridge

namespace Game

theorem parse_eq {fields : List Field} (h : Single fields) :
    parse (write fields) = some fields := by
  unfold parse
  rw [Proto.parse_write h.legal h.size, Option.map_some, List.map_map, Option.some.injEq]
  refine (List.map_congr_left fun f _ => ?_).trans (List.map_id _)
  obtain ⟨number, value⟩ := f
  cases value <;> rfl

theorem parseNested_eq {fields position : List Field} {k : ℕ}
    (h : value fields k = some (.bytes (write position))) (hposition : Single position) :
    parseNested fields k = some position := by
  unfold parseNested
  rw [h]
  exact parse_eq hposition

/-- The library's parser does what protobuf documents. -/
theorem parses_words : Parses UInt32 where
  registerReq h := congrArg (·.bind credentials) (parse_eq h)
  loginReq h := congrArg (·.bind credentials) (parse_eq h)
  selectMapReq h := congrArg (·.bind selectMapReq) (parse_eq h)
  moveReq h hposition hvalue := by
    change (parse _).bind (fun fields => (parseNested fields 1).bind fun position =>
      some (moveReq fields position)) = _
    rw [parse_eq h, Option.bind_some, parseNested_eq hvalue hposition, Option.bind_some]
  voxelEditReq h := congrArg (·.map voxelEditReq) (parse_eq h)
  craftReq h := congrArg (·.map fun fields => readInt fields 1) (parse_eq h)
  gatherReq h := congrArg (·.bind fun fields => readText fields 1) (parse_eq h)
  placeBuildingReq h hposition hvalue := by
    change (parse _).bind (fun fields => (parseNested fields 2).bind fun position =>
      some (placeBuildingReq fields position)) = _
    rw [parse_eq h, Option.bind_some, parseNested_eq hvalue hposition, Option.bind_some]

theorem fromUTF8_utf8 (s : String) : String.fromUTF8? ⟨(utf8 s).toArray⟩ = some s := by
  unfold utf8 String.fromUTF8?
  rw [Array.toArray_toList, String.toUTF8_eq_toByteArray]
  exact dif_pos s.isValidUTF8

theorem toInt_ofNat32 {v : ℕ} (hv : v < 2 ^ 31) : (Int32.ofNat v).toInt = v :=
  Int32.toInt_ofNat_of_lt hv

/-- The zigzag form, by the sign. -/
theorem zigzag_toInt {x : Int64} (hlow : -2 ^ 31 ≤ x.toInt) (hhigh : x.toInt < 2 ^ 31) :
    (ProtoBridge.zigzag x).toInt = if 0 ≤ x.toInt then 2 * x.toInt else -2 * x.toInt - 1 := by
  have hdouble := ProtoBridge.toInt_shiftLeft_one (x := x) (by omega) (by omega)
  unfold ProtoBridge.zigzag
  rcases ProtoBridge.sign_eq hlow hhigh with ⟨hx, hsign⟩ | ⟨hx, hsign⟩
  · rw [hsign, Int64.xor_zero, hdouble, if_pos hx]
  · rw [hsign, Int64.xor_neg_one, Int64.toInt_not, hdouble, Int.bmod_def]
    split_ifs <;> omega

/-- The parser undoes the zigzag form. -/
theorem unzigzag32 {x : ℤ} {n : ℕ} (hlow : -2 ^ 31 ≤ x) (hhigh : x < 2 ^ 31)
    (hn : (n : ℤ) = if 0 ≤ x then 2 * x else -2 * x - 1) :
    ((UInt32.ofNat n >>> 1) ^^^ -(UInt32.ofNat n &&& 1)).toInt32.toInt = x := by
  have hlt : n < 2 ^ 32 := by split_ifs at hn <;> omega
  have hword : (UInt32.ofNat n).toNat = n := UInt32.toNat_ofNat_of_lt' hlt
  have hhalf : (UInt32.ofNat n >>> 1).toNat = n / 2 := by
    rw [UInt32.toNat_shiftRight, hword]
    rfl
  have hlast : (UInt32.ofNat n &&& 1).toNat = n % 2 := by
    rw [UInt32.toNat_and, hword]
    exact Nat.and_one_is_mod n
  have hint : ∀ u : UInt32, u.toInt32.toInt =
      if u.toNat < 2 ^ 31 then (u.toNat : ℤ) else u.toNat - 2 ^ 32 := by
    intro u
    have h : u.toInt32.toInt = if 2 * u.toNat < 2 ^ 32 then (u.toNat : ℤ)
        else u.toNat - (2 ^ 32 : ℕ) := BitVec.toInt_eq_toNat_cond _
    rw [h]
    split_ifs <;> omega
  split_ifs at hn with hsign
  · have hzero : UInt32.ofNat n &&& 1 = 0 := by
      rw [← UInt32.toNat_inj, hlast]
      show n % 2 = 0
      omega
    rw [hzero, UInt32.neg_zero, UInt32.xor_zero, hint, hhalf]
    split_ifs <;> omega
  · have hone : UInt32.ofNat n &&& 1 = 1 := by
      rw [← UInt32.toNat_inj, hlast]
      show n % 2 = 1
      omega
    rw [hone, UInt32.xor_neg_one, hint, UInt32.toNat_not, hhalf,
      show UInt32.size = 2 ^ 32 from rfl]
    split_ifs <;> omega

end Game

/-! ## Requests -/

namespace ClientRequest

open FloatBits ProtoBridge

variable {F : Type} [FloatBits F]

/-- The `float` with these four bytes. -/
def floatOf (b : List UInt8) : F := ofBits (UInt32.ofNat (Proto.littleEndian b))

/-- The four bytes of the parts of a vector. -/
def Whole (v : Vector3) : Prop := v.x.length = 4 ∧ v.y.length = 4 ∧ v.z.length = 4

/-- A number that `_write_varint` writes whole and an `int32` holds. -/
def Fits (n : Int64) : Prop := 0 ≤ n.toInt ∧ n.toInt < 2 ^ 31

/-- A coordinate. -/
def Coordinate (n : Int64) : Prop := -2 ^ 31 ≤ n.toInt ∧ n.toInt < 2 ^ 31

/-- The numbers fit their fields, and a float has four bytes. -/
def Sendable : ClientRequest → Prop
  | selectMap _ mapId => Fits mapId
  | sendMove position yaw _ => Whole position ∧ yaw.length = 4
  | placeBuilding buildingType position yaw => Fits buildingType ∧ Whole position ∧ yaw.length = 4
  | editVoxel e => Coordinate e.x ∧ Coordinate e.y ∧ Coordinate e.z ∧ Fits e.action ∧
      Fits e.blockType
  | craft recipeId => Fits recipeId
  | _ => True

/-- The request, as the server's handlers have it. -/
def received : ClientRequest → Request F
  | register username password => .register (some (username, password))
  | login username password => .login (some (username, password))
  | selectMap roomId mapId => .selectMap (some (roomId, mapId.toInt))
  | sendMove p yaw appearance => .move (some
      ⟨floatOf p.x, floatOf p.y, floatOf p.z, floatOf yaw, (clampi appearance 0 3).toInt⟩)
  | gather resourceId => .gather (some resourceId)
  | placeBuilding buildingType p yaw => .placeBuilding (some
      ⟨buildingType.toInt, floatOf p.x, floatOf p.y, floatOf p.z, floatOf yaw⟩)
  | editVoxel e => .voxelEdit (some
      ⟨e.x.toInt, e.y.toInt, e.z.toInt, e.action.toInt, e.blockType.toInt⟩)
  | craft recipeId => .craft (some recipeId.toInt)

/-- The fields of a vector. -/
def vec3Fields (v : Vector3) : List Field :=
  [⟨1, .fixed32 (Proto.littleEndian v.x)⟩, ⟨2, .fixed32 (Proto.littleEndian v.y)⟩,
    ⟨3, .fixed32 (Proto.littleEndian v.z)⟩]

theorem legal_fixed32 {k : ℕ} {b : List UInt8} (hk : Numbered k) (hb : b.length = 4) :
    Field.Legal ⟨k, .fixed32 (Proto.littleEndian b)⟩ := by
  have hlt := (littleEndian_littleEndian b).2
  rw [hb] at hlt
  exact ⟨hk.1, hk.2, hlt⟩

theorem encodeVec3_eq {v : Vector3} (h : Whole v) : encodeVec3 v = write (vec3Fields v) := by
  obtain ⟨hx, hy, hz⟩ := h
  unfold encodeVec3
  rw [encodeFixed32Field_eq (k := 1) (by decide) (by decide) hx,
    encodeFixed32Field_eq (k := 2) (by decide) (by decide) hy,
    encodeFixed32Field_eq (k := 3) (by decide) (by decide) hz, List.append_assoc]
  simp only [vec3Fields, write_cons, Protobuf.write_nil, List.append_nil]

theorem legal_vec3 {v : Vector3} (h : Whole v) : ∀ f ∈ vec3Fields v, f.Legal := by
  obtain ⟨hx, hy, hz⟩ := h
  simp only [vec3Fields, List.forall_mem_cons]
  exact ⟨legal_fixed32 (by decide) hx, legal_fixed32 (by decide) hy, legal_fixed32 (by decide) hz,
    nofun⟩

theorem legal_bytes {k : ℕ} (hk : Numbered k) (b : List UInt8) : Field.Legal ⟨k, .bytes b⟩ :=
  ⟨hk.1, hk.2, trivial⟩

theorem legal_varint {k v : ℕ} (hk : Numbered k) (hv : v < 2 ^ 63) : Field.Legal ⟨k, .varint v⟩ :=
  ⟨hk.1, hk.2, Nat.lt_trans hv (by decide)⟩

theorem Fits.exists_ofNat {n : Int64} (h : Fits n) :
    ∃ v < 2 ^ 31, n = Int64.ofNat v ∧ n.toInt = v := by
  obtain ⟨v, hv, rfl⟩ := ProtoBridge.exists_ofNat h.1
  have hn := Int64.toInt_ofNat_of_lt hv
  exact ⟨v, by have := h.2; omega, rfl, hn⟩

theorem Coordinate.exists_ofNat {x : Int64} (h : Coordinate x) : ∃ n < 2 ^ 32,
    ProtoBridge.zigzag x = Int64.ofNat n ∧
      ((UInt32.ofNat n >>> 1) ^^^ -(UInt32.ofNat n &&& 1)).toInt32.toInt = x.toInt := by
  have hz := Game.zigzag_toInt h.1 h.2
  obtain ⟨n, hn, heq⟩ := ProtoBridge.exists_ofNat (ProtoBridge.zigzag_nonneg h.1 h.2)
  rw [heq, Int64.toInt_ofNat_of_lt hn] at hz
  obtain ⟨hlow, hhigh⟩ := h
  exact ⟨n, by split_ifs at hz <;> omega, heq, Game.unzigzag32 hlow hhigh hz⟩

theorem length_le_encode (number : Int64) (b : List UInt8) :
    b.length ≤ (encodeLengthDelimitedField number b).length := by
  unfold encodeLengthDelimitedField
  simp only [List.length_append]
  omega

/-- A body is a message of the wire format, with a value read of its fields. -/
def Holds {A : Type} (body : List UInt8) (read : List Field → A) (a : A) : Prop :=
  ∃ fields, body = write fields ∧ Single fields ∧ read fields = a

theorem Holds.parse {A : Type} {body : List UInt8} {read : List Field → A} {a : A}
    {parse : List UInt8 → A} (h : Holds body read a)
    (hparse : ∀ {fields}, Single fields → parse (write fields) = read fields) : parse body = a := by
  obtain ⟨fields, rfl, hsingle, rfl⟩ := h
  exact hparse hsingle

theorem credentials_encode {username password : String}
    (hsize : (encodeCredentials (utf8 username) (utf8 password)).length < 2 ^ 31) :
    Holds (encodeCredentials (utf8 username) (utf8 password)) Game.credentials
      (some (username, password)) := by
  have huser := legal_bytes (k := 1) (by decide) (utf8 username)
  have hname := Game.fromUTF8_utf8 username
  have hleft := length_le_encode 1 (utf8 username)
  unfold encodeCredentials at hsize ⊢
  rw [List.length_append] at hsize
  have hu : (utf8 username).length < 2 ^ 31 := by omega
  rw [encodeLengthDelimitedField_eq (k := 1) (by decide) (by decide) hu] at hsize ⊢
  cases hempty : (utf8 password).isEmpty with
  | true =>
    rw [hempty] at hsize
    have hpassword : String.fromUTF8? ⟨([] : List UInt8).toArray⟩ = some password := by
      rw [← List.isEmpty_iff.1 hempty]
      exact Game.fromUTF8_utf8 password
    refine ⟨[⟨1, .bytes (utf8 username)⟩], ?_, ⟨List.forall_mem_singleton.2 huser, by simp, ?_⟩, ?_⟩
    · rw [if_pos rfl, List.append_nil, Protobuf.write_singleton]
    · rw [Protobuf.write_singleton]
      exact Nat.lt_of_le_of_lt (Nat.le_add_right _ _) hsize
    · show (String.fromUTF8? ⟨(utf8 username).toArray⟩).bind (fun u =>
        (String.fromUTF8? ⟨([] : List UInt8).toArray⟩).bind fun p => some (u, p)) = _
      rw [hname, hpassword]
      rfl
  | false =>
    rw [hempty, if_neg Bool.false_ne_true] at hsize
    have hright := length_le_encode 2 (utf8 password)
    have hp : (utf8 password).length < 2 ^ 31 := by omega
    rw [encodeLengthDelimitedField_eq (k := 2) (by decide) (by decide) hp] at hsize
    refine ⟨[⟨1, .bytes (utf8 username)⟩, ⟨2, .bytes (utf8 password)⟩], ?_,
      ⟨List.forall_mem_cons.2 ⟨huser, List.forall_mem_singleton.2 (legal_bytes (by decide) _)⟩,
        by simp, ?_⟩, ?_⟩
    · rw [if_neg Bool.false_ne_true,
        encodeLengthDelimitedField_eq (k := 2) (by decide) (by decide) hp, write_cons,
        Protobuf.write_singleton]
    · rw [write_cons, Protobuf.write_singleton, List.length_append]
      exact hsize
    · show (String.fromUTF8? ⟨(utf8 username).toArray⟩).bind (fun u =>
        (String.fromUTF8? ⟨(utf8 password).toArray⟩).bind fun p => some (u, p)) = _
      rw [hname, Game.fromUTF8_utf8 password]
      rfl

theorem selectMapReq_encode {roomId : String} {mapId : Int64} (hmap : Fits mapId)
    (hsize : (encodeSelectMapReq (utf8 roomId) mapId).length < 2 ^ 31) :
    Holds (encodeSelectMapReq (utf8 roomId) mapId) Game.selectMapReq
      (some (roomId, mapId.toInt)) := by
  obtain ⟨v, hv, rfl, hint⟩ := hmap.exists_ofNat
  have hroom := length_le_encode 1 (utf8 roomId)
  unfold encodeSelectMapReq at hsize ⊢
  rw [List.length_append] at hsize
  have hfields : encodeLengthDelimitedField 1 (utf8 roomId) ++ encodeVarintField 2 (Int64.ofNat v) =
      write [⟨1, .bytes (utf8 roomId)⟩, ⟨2, .varint v⟩] := by
    rw [encodeLengthDelimitedField_eq (k := 1) (by decide) (by decide) (by omega),
      encodeVarintField_eq (k := 2) (by decide) (by decide) (by omega)]
    simp only [write_cons, Protobuf.write_nil, List.append_nil]
  rw [← List.length_append, hfields] at hsize
  refine ⟨_, hfields, ⟨List.forall_mem_cons.2 ⟨legal_bytes (by decide) _,
    List.forall_mem_singleton.2 (legal_varint (by decide) (by omega))⟩, by simp, hsize⟩, ?_⟩
  show (String.fromUTF8? ⟨(utf8 roomId).toArray⟩).bind (fun r =>
    some (r, (Int32.ofNat v).toInt)) = _
  rw [Game.fromUTF8_utf8, Game.toInt_ofNat32 hv, hint]
  rfl

theorem gatherReq_encode {resourceId : String}
    (hsize : (encodeGatherReq (utf8 resourceId)).length < 2 ^ 31) :
    Holds (encodeGatherReq (utf8 resourceId)) (Game.readText · 1) (some resourceId) := by
  have hid := length_le_encode 1 (utf8 resourceId)
  unfold encodeGatherReq at hsize ⊢
  have hfields : encodeLengthDelimitedField 1 (utf8 resourceId) =
      write [⟨1, .bytes (utf8 resourceId)⟩] := by
    rw [encodeLengthDelimitedField_eq (k := 1) (by decide) (by decide) (by omega),
      Protobuf.write_singleton]
  rw [hfields] at hsize
  exact ⟨_, hfields, ⟨List.forall_mem_singleton.2 (legal_bytes (by decide) _), by simp, hsize⟩,
    Game.fromUTF8_utf8 resourceId⟩

theorem craftReq_encode {recipeId : Int64} (hrecipe : Fits recipeId)
    (hsize : (encodeCraftReq recipeId).length < 2 ^ 31) :
    Holds (encodeCraftReq recipeId) (fun fields => some (Game.readInt fields 1))
      (some recipeId.toInt) := by
  obtain ⟨v, hv, rfl, hint⟩ := hrecipe.exists_ofNat
  unfold encodeCraftReq at hsize ⊢
  have hfields : encodeVarintField 1 (Int64.ofNat v) = write [⟨1, .varint v⟩] := by
    rw [encodeVarintField_eq (k := 1) (by decide) (by decide) (by omega), Protobuf.write_singleton]
  rw [hfields] at hsize
  refine ⟨_, hfields, ⟨List.forall_mem_singleton.2 (legal_varint (by decide) (by omega)), by simp,
    hsize⟩, ?_⟩
  show some (Int32.ofNat v).toInt = _
  rw [Game.toInt_ofNat32 hv, hint]

theorem voxelEditReq_encode {e : VoxelEdit} (hx : Coordinate e.x) (hy : Coordinate e.y)
    (hz : Coordinate e.z) (haction : Fits e.action) (hblock : Fits e.blockType)
    (hsize : (encodeVoxelEdit e).length < 2 ^ 31) :
    Holds (encodeVoxelEdit e) (fun fields => some (Game.voxelEditReq fields))
      (some ⟨e.x.toInt, e.y.toInt, e.z.toInt, e.action.toInt, e.blockType.toInt⟩) := by
  obtain ⟨x, hxlt, hxword, hxback⟩ := hx.exists_ofNat
  obtain ⟨y, hylt, hyword, hyback⟩ := hy.exists_ofNat
  obtain ⟨z, hzlt, hzword, hzback⟩ := hz.exists_ofNat
  obtain ⟨a, ha, haword, haint⟩ := haction.exists_ofNat
  obtain ⟨t, ht, htword, htint⟩ := hblock.exists_ofNat
  have hfields : encodeVoxelEdit e = write [⟨1, .varint x⟩, ⟨2, .varint y⟩, ⟨3, .varint z⟩,
      ⟨4, .varint a⟩, ⟨5, .varint t⟩] := by
    unfold encodeVoxelEdit
    rw [hxword, hyword, hzword, haword, htword,
      encodeVarintField_eq (k := 1) (by decide) (by decide) (by omega),
      encodeVarintField_eq (k := 2) (by decide) (by decide) (by omega),
      encodeVarintField_eq (k := 3) (by decide) (by decide) (by omega),
      encodeVarintField_eq (k := 4) (by decide) (by decide) (by omega),
      encodeVarintField_eq (k := 5) (by decide) (by decide) (by omega)]
    simp only [write_cons, Protobuf.write_nil, List.append_nil, List.append_assoc]
  rw [hfields] at hsize
  have hlegal : ∀ f ∈ ([⟨1, .varint x⟩, ⟨2, .varint y⟩, ⟨3, .varint z⟩, ⟨4, .varint a⟩,
      ⟨5, .varint t⟩] : List Field), f.Legal := by
    simp only [List.forall_mem_cons]
    exact ⟨legal_varint (by decide) (by omega), legal_varint (by decide) (by omega),
      legal_varint (by decide) (by omega), legal_varint (by decide) (by omega),
      legal_varint (by decide) (by omega), nofun⟩
  refine ⟨_, hfields, ⟨hlegal, by simp, hsize⟩, ?_⟩
  show some (⟨((UInt32.ofNat x >>> 1) ^^^ -(UInt32.ofNat x &&& 1)).toInt32.toInt,
    ((UInt32.ofNat y >>> 1) ^^^ -(UInt32.ofNat y &&& 1)).toInt32.toInt,
    ((UInt32.ofNat z >>> 1) ^^^ -(UInt32.ofNat z &&& 1)).toInt32.toInt,
    (Int32.ofNat a).toInt, (Int32.ofNat t).toInt⟩ : VoxelEditReq) = _
  rw [hxback, hyback, hzback, Game.toInt_ofNat32 ha, Game.toInt_ofNat32 ht, haint, htint]

theorem single_vec3 {v : Vector3} (h : Whole v) : Single (vec3Fields v) := by
  refine ⟨legal_vec3 h, by simp [vec3Fields], ?_⟩
  simp only [vec3Fields, write_cons, Protobuf.write_nil, List.append_nil, List.length_append,
    Field.write, Value.payload, Protobuf.length_littleEndian, Field.tag, Value.wireType]
  decide

theorem clampi_three (n : Int64) : ∃ a < 4, clampi n 0 3 = Int64.ofNat a := by
  unfold clampi
  split_ifs with hlow hhigh
  · exact ⟨0, by decide, rfl⟩
  · exact ⟨3, by decide, rfl⟩
  · rw [Int64.lt_iff_toInt_lt] at hlow hhigh
    have h0 : (0 : Int64).toInt = 0 := rfl
    have h3 : (3 : Int64).toInt = 3 := rfl
    obtain ⟨a, ha, rfl⟩ := ProtoBridge.exists_ofNat (x := n) (by omega)
    rw [Int64.toInt_ofNat_of_lt ha] at hhigh
    exact ⟨a, by omega, rfl⟩

/-- The fields of a move; an appearance of zero is left out. -/
def moveFields (p : Vector3) (yaw : List UInt8) (appearance : List Field) : List Field :=
  [⟨1, .bytes (write (vec3Fields p))⟩, ⟨2, .fixed32 (Proto.littleEndian yaw)⟩] ++ appearance

theorem moveReq_encode {p : Vector3} {yaw : List UInt8} {appearance : Int64} (hp : Whole p)
    (hyaw : yaw.length = 4) (hsize : (encodeMoveReq p yaw appearance).length < 2 ^ 31) :
    ∃ fields, encodeMoveReq p yaw appearance = write fields ∧ Single fields ∧
      Game.value fields 1 = some (.bytes (write (vec3Fields p))) ∧
      Game.moveReq (F := F) fields (vec3Fields p) =
        ⟨floatOf p.x, floatOf p.y, floatOf p.z, floatOf yaw, (clampi appearance 0 3).toInt⟩ := by
  have hposition := length_le_encode 1 (encodeVec3 p)
  have hbound : (encodeVec3 p).length < 2 ^ 31 := by
    unfold encodeMoveReq at hsize
    simp only [List.length_append] at hsize
    omega
  obtain ⟨a, ha, haword⟩ := clampi_three appearance
  have hint : (Int64.ofNat a).toInt = a := Int64.toInt_ofNat_of_lt (by omega)
  have hfields : encodeMoveReq p yaw appearance =
      write (moveFields p yaw (if appearance ≠ 0 then [⟨4, .varint a⟩] else [])) := by
    unfold encodeMoveReq moveFields
    rw [encodeLengthDelimitedField_eq (k := 1) (by decide) (by decide) hbound,
      encodeFixed32Field_eq (k := 2) (by decide) (by decide) hyaw, haword,
      encodeVarintField_eq (k := 4) (by decide) (by decide) (by omega), encodeVec3_eq hp,
      write_append, write_cons, Protobuf.write_singleton]
    split_ifs
    · rw [Protobuf.write_singleton]
    · rfl
  have hposition := legal_bytes (k := 1) (by decide) (write (vec3Fields p))
  have hyaw := legal_fixed32 (k := 2) (by decide) hyaw
  rw [haword, hint]
  rw [hfields] at hsize ⊢
  by_cases hzero : appearance = 0
  · have ha0 : (a : ℤ) = 0 := hint.symm.trans (congrArg Int64.toInt (hzero ▸ haword).symm)
    rw [if_neg (not_not.2 hzero)] at hsize ⊢
    refine ⟨_, rfl, ⟨List.forall_mem_cons.2 ⟨hposition, List.forall_mem_singleton.2 hyaw⟩,
      by simp [moveFields], hsize⟩, rfl, ?_⟩
    rw [ha0]
    rfl
  · rw [if_pos hzero] at hsize ⊢
    refine ⟨_, rfl, ⟨List.forall_mem_cons.2 ⟨hposition, List.forall_mem_cons.2 ⟨hyaw,
      List.forall_mem_singleton.2 (legal_varint (by decide) (by omega))⟩⟩,
      by simp [moveFields], hsize⟩, rfl, ?_⟩
    show (⟨_, _, _, _, (Int32.ofNat a).toInt⟩ : MoveReq F) = _
    rw [Game.toInt_ofNat32 (by omega)]
    rfl

theorem placeBuildingReq_encode {buildingType : Int64} {p : Vector3} {yaw : List UInt8}
    (htype : Fits buildingType) (hp : Whole p) (hyaw : yaw.length = 4)
    (hsize : (encodePlaceBuildingReq buildingType p yaw).length < 2 ^ 31) :
    ∃ fields, encodePlaceBuildingReq buildingType p yaw = write fields ∧ Single fields ∧
      Game.value fields 2 = some (.bytes (write (vec3Fields p))) ∧
      Game.placeBuildingReq (F := F) fields (vec3Fields p) =
        ⟨buildingType.toInt, floatOf p.x, floatOf p.y, floatOf p.z, floatOf yaw⟩ := by
  obtain ⟨t, ht, rfl, hint⟩ := htype.exists_ofNat
  have hposition := length_le_encode 2 (encodeVec3 p)
  have hbound : (encodeVec3 p).length < 2 ^ 31 := by
    unfold encodePlaceBuildingReq at hsize
    simp only [List.length_append] at hsize
    omega
  have hfields : encodePlaceBuildingReq (Int64.ofNat t) p yaw =
      write [⟨1, .varint t⟩, ⟨2, .bytes (write (vec3Fields p))⟩,
        ⟨3, .fixed32 (Proto.littleEndian yaw)⟩] := by
    unfold encodePlaceBuildingReq
    rw [encodeLengthDelimitedField_eq (k := 2) (by decide) (by decide) hbound,
      encodeFixed32Field_eq (k := 3) (by decide) (by decide) hyaw,
      encodeVarintField_eq (k := 1) (by decide) (by decide) (by omega), encodeVec3_eq hp]
    simp only [write_cons, Protobuf.write_nil, List.append_nil, List.append_assoc]
  have hlegal : ∀ f ∈ ([⟨1, .varint t⟩, ⟨2, .bytes (write (vec3Fields p))⟩,
      ⟨3, .fixed32 (Proto.littleEndian yaw)⟩] : List Field), f.Legal :=
    List.forall_mem_cons.2 ⟨legal_varint (by decide) (by omega), List.forall_mem_cons.2
      ⟨legal_bytes (by decide) _, List.forall_mem_singleton.2 (legal_fixed32 (by decide) hyaw)⟩⟩
  rw [hfields] at hsize
  refine ⟨_, hfields, ⟨hlegal, by simp, hsize⟩, rfl, ?_⟩
  show (⟨(Int32.ofNat t).toInt, _, _, _, _⟩ : PlaceBuildingReq F) = _
  rw [Game.toInt_ofNat32 ht, hint]
  rfl

/-- A handler of the server has the request that the client made. -/
theorem request_encode [WorldProto F] (hread : Parses F) {r : ClientRequest} (h : r.Sendable)
    (hsize : r.body.length < 2 ^ 31) : Game.request (F := F) r.method r.body = r.received := by
  cases r with
  | register username password =>
    exact congrArg Request.register ((credentials_encode hsize).parse hread.registerReq)
  | login username password =>
    exact congrArg Request.login ((credentials_encode hsize).parse hread.loginReq)
  | selectMap roomId mapId =>
    exact congrArg Request.selectMap ((selectMapReq_encode h hsize).parse hread.selectMapReq)
  | sendMove p yaw appearance =>
    obtain ⟨fields, hbody, hsingle, hposition, hreq⟩ := moveReq_encode (F := F) h.1 h.2 hsize
    refine congrArg Request.move ?_
    rw [show body (sendMove p yaw appearance) = write fields from hbody,
      hread.moveReq hsingle (single_vec3 h.1) hposition, hreq]
  | gather resourceId =>
    exact congrArg Request.gather ((gatherReq_encode hsize).parse hread.gatherReq)
  | placeBuilding buildingType p yaw =>
    obtain ⟨fields, hbody, hsingle, hposition, hreq⟩ :=
      placeBuildingReq_encode (F := F) h.1 h.2.1 h.2.2 hsize
    refine congrArg Request.placeBuilding ?_
    rw [show body (placeBuilding buildingType p yaw) = write fields from hbody,
      hread.placeBuildingReq hsingle (single_vec3 h.2.1) hposition, hreq]
  | editVoxel e =>
    have hedit := voxelEditReq_encode h.1 h.2.1 h.2.2.1 h.2.2.2.1 h.2.2.2.2 hsize
    exact congrArg Request.voxelEdit (hedit.parse hread.voxelEditReq)
  | craft recipeId =>
    exact congrArg Request.craft ((craftReq_encode h hsize).parse hread.craftReq)

/-- A building of type 2, west of the origin. -/
theorem request_encode_place :
    let r : ClientRequest := .placeBuilding 2
      ⟨[0, 0, 0xC0, 0xBF], [0, 0, 0, 0], [0, 0, 0x80, 0x3F]⟩ [0, 0, 0, 0x40]
    r.body.length < 2 ^ 31 ∧ Game.request (F := UInt32) r.method r.body =
      .placeBuilding (some ⟨2, 0xBFC00000, 0, 0x3F800000, 0x40000000⟩) :=
  ⟨by decide +kernel,
    request_encode Game.parses_words ⟨⟨by decide, by decide⟩, ⟨rfl, rfl, rfl⟩, rfl⟩
      (by decide +kernel)⟩

end ClientRequest

end TinRpc
