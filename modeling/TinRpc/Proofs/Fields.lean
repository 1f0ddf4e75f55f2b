import TinRpc.Lib.Protobuf
import TinRpc.Proofs.Decoders
import TinRpc.Proofs.VoxelEdits

/-!
# Legal fields in a decoder's loop

A decoder's loop goes over a message in the wire format field by field, each as its branch has it
(`Takes`), to the end of the message or to a string with which it returns (`Folds`). Numbers,
strings and nested messages come out as they went in.
-/

namespace TinRpc.ProtoBridge

open Protobuf (Field Item Value varint littleEndian write write_cons write_append)

/-- The loop that reads goes through a varint, the bits below a shift being read. -/
theorem varintLoop_varint (post : List UInt8) : ∀ (n k : ℕ) {shift v acc : ℕ} (pre : List UInt8),
    v < 128 ^ (n + 1) → n < k → shift + 7 * n < 64 → acc < 2 ^ shift →
    varintLoop (pre ++ (varint (n + 1) v ++ post)) k shift (Int64.ofNat acc) pre.length =
      some ⟨true, Int64.ofNat (acc + 2 ^ shift * v), pre.length + (varint (n + 1) v).length⟩ := by
  intro n
  induction n with
  | zero =>
    intro k shift v acc pre hv hk hshift hacc
    rw [varint, if_pos (by omega)]
    exact varintLoop_last (by omega) hk hshift hacc pre post
  | succ n ih =>
    intro k shift v acc pre hv hk hshift hacc
    rw [varint]
    split_ifs with hlast
    · exact varintLoop_last hlast (by omega) (by omega) hacc pre post
    · obtain ⟨k, rfl⟩ := Nat.exists_eq_add_of_lt (Nat.zero_lt_of_lt hk)
      obtain ⟨hpayload, hnot⟩ := continued_byte v
      obtain ⟨hbound, hsum⟩ := acc_step hacc v
      have hrest : v / 128 < 128 ^ (n + 1) := by
        rw [Nat.div_lt_iff_lt_mul (by decide), ← pow_succ]
        exact hv
      have hnext := @ih k (shift + 7) _ _ (pre ++ [UInt8.ofNat (v % 128 + 128)]) hrest (by omega)
        (by omega) hbound
      rw [Nat.zero_add, List.cons_append, varintLoop_cons (by omega), if_neg hnot, hpayload,
        or_shifted hacc]
      rw [hsum, List.append_assoc, List.length_append, List.length_singleton, Nat.cast_add,
        Nat.cast_one] at hnext
      have hoffset : ∀ l : List UInt8, (pre.length : ℤ) + (l.length + 1 : ℕ) =
          pre.length + 1 + l.length := fun l => by omega
      rw [List.length_cons, hoffset]
      exact hnext

theorem readVarint_varint {n v : ℕ} (hn : n < 10) (hv : v < 128 ^ (n + 1))
    (pre post : List UInt8) :
    readVarint (pre ++ (varint (n + 1) v ++ post)) pre.length =
      some ⟨true, Int64.ofNat v, pre.length + (varint (n + 1) v).length⟩ := by
  have hread := @varintLoop_varint post n 10 0 v 0 pre hv hn (by omega) (by decide)
  rwa [pow_zero, one_mul, Nat.zero_add] at hread

theorem slice_append (pre b post : List UInt8) :
    slice (pre ++ (b ++ post)) pre.length (pre.length + b.length) = b := by
  have hclamp : ∀ k : ℕ, k ≤ (pre ++ (b ++ post)).length →
      clampBound (pre ++ (b ++ post)) k = k := by
    intro k hk
    unfold clampBound
    rw [min_eq_left (by omega), max_eq_right (by omega)]
    simp only []
    rw [if_neg (by omega), Int.toNat_natCast]
  unfold slice
  rw [← Nat.cast_add, hclamp _ (by simp only [List.length_append]; omega),
    hclamp _ (by simp only [List.length_append]; omega), ← List.append_assoc, ← List.length_append,
    List.take_left, List.drop_left]

theorem readLengthDelimited_bytes {pre b post : List UInt8} (hb : b.length < 2 ^ 31)
    (hsize : (pre ++ (varint 5 b.length ++ b ++ post)).length < 2 ^ 63) :
    readLengthDelimited (pre ++ (varint 5 b.length ++ b ++ post)) pre.length =
      some ⟨true, b, pre.length + (varint 5 b.length ++ b).length⟩ := by
  have hread := @readVarint_varint 4 b.length (by decide) (by omega) pre (b ++ post)
  have hlength : (Int64.ofNat b.length).toInt = b.length := Int64.toInt_ofNat_of_lt (by omega)
  have hnonneg : ¬Int64.ofNat b.length < 0 := by
    rw [Int64.lt_iff_toInt_lt, hlength]
    exact not_lt.2 (Int.natCast_nonneg _)
  have hslice := slice_append (pre ++ varint 5 b.length) b post
  rw [List.append_assoc, List.length_append, Nat.cast_add] at hslice
  simp only [List.length_append] at hsize
  have hstop : (Int64.ofInt (pre.length + (varint 5 b.length).length + b.length)).toInt =
      pre.length + (varint 5 b.length).length + b.length := by
    have hstart := @stop_eq (pre.length + (varint 5 b.length).length) (Int64.ofNat b.length)
      (by omega) (by omega)
      (Int64.le_iff_toInt_le.2 (by rw [hlength]; exact Int.natCast_nonneg _))
    rw [hlength] at hstart
    exact hstart.trans (if_pos (by omega))
  unfold readLengthDelimited
  rw [List.append_assoc (varint 5 b.length), hread, Option.map_some, if_neg (by simpa using hnonneg)]
  simp only [hlength, hstop]
  rw [if_neg (by simp only [List.length_append]; omega), hslice]
  simp only [List.length_append, Nat.cast_add]
  rw [add_assoc]

/-- A word in the zigzag form, by its sign. -/
theorem zigzag_toNat (n : Int32) : ((Protobuf.zigzag n).toNat : ℤ) =
    if 0 ≤ n.toInt then 2 * n.toInt else -2 * n.toInt - 1 := by
  have hword : n.toInt = if 2 * n.toBitVec.toNat < 2 ^ 32 then (n.toBitVec.toNat : ℤ)
      else n.toBitVec.toNat - (2 ^ 32 : ℕ) := BitVec.toInt_eq_toNat_cond _
  have hlt : n.toBitVec.toNat < 2 ^ 32 := n.toBitVec.isLt
  have hdouble : (n <<< 1).toBitVec.toNat = 2 * n.toBitVec.toNat % 2 ^ 32 := by
    rw [Int32.toBitVec_shiftLeft, show (1 : Int32).toBitVec.smod 32 = 1#32 from by decide,
      BitVec.shiftLeft_eq', BitVec.toNat_shiftLeft, Nat.shiftLeft_eq, mul_comm]
    rfl
  have hshift : (n >>> 31).toInt = n.toInt / 2 ^ 31 := by
    rw [Int32.toInt, Int32.toBitVec_shiftRight,
      show (31 : Int32).toBitVec.smod 32 = 31#32 from by decide, BitVec.toInt_sshiftRight',
      Int.shiftRight_eq_div_pow]
    rfl
  unfold Protobuf.zigzag
  split_ifs with hsign
  · have hzero : n >>> 31 = 0 := Int32.toInt_inj.1 (hshift.trans (by
      show n.toInt / 2 ^ 31 = 0
      split_ifs at hword <;> omega))
    rw [hzero, Int32.xor_zero]
    show ((n <<< 1).toBitVec.toNat : ℤ) = _
    rw [hdouble]
    split_ifs at hword <;> omega
  · have hones : n >>> 31 = -1 := Int32.toInt_inj.1 (hshift.trans (by
      show n.toInt / 2 ^ 31 = -1
      split_ifs at hword <;> omega))
    rw [hones, Int32.xor_neg_one]
    show ((~~~(n <<< 1)).toBitVec.toNat : ℤ) = _
    rw [Int32.toBitVec_not, BitVec.toNat_not, hdouble]
    split_ifs at hword <;> omega

/-- `decode_voxel_edit` undoes the zigzag form of a word of 32 bits. -/
theorem unzigzag_word (n : Int32) :
    unzigzag (Int64.ofNat (Protobuf.zigzag n).toNat) = n.toInt64 := by
  have hz := zigzag_toNat n
  have hlt := (Protobuf.zigzag n).toNat_lt
  have hword : (Int64.ofNat (Protobuf.zigzag n).toNat).toInt = (Protobuf.zigzag n).toNat :=
    Int64.toInt_ofNat_of_lt (by omega)
  have hhalf := toInt_shiftRight (Int64.ofNat (Protobuf.zigzag n).toNat) (k := 1) (n := 1)
    (by decide) (by decide)
  unfold unzigzag
  split_ifs at hz with hsign
  · rw [@and_one _ 0 (by decide) (by omega), ← Int64.toInt_inj, Int32.toInt_toInt64]
    refine (congrArg Int64.toInt Int64.xor_zero).trans ?_
    omega
  · rw [@and_one _ 1 (by decide) (by omega), ← Int64.toInt_inj, Int32.toInt_toInt64]
    refine (congrArg Int64.toInt Int64.xor_neg_one).trans ?_
    rw [Int64.toInt_not, Int.bmod_def]
    split_ifs <;> omega

theorem ofNat_div_eight {t : ℕ} (ht : t < 2 ^ 32) :
    Int64.ofNat t >>> (3 : Int64) = Int64.ofNat (t / 8) := by
  rw [← Int64.toInt_inj, toInt_shiftRight (n := 3) _ (by decide) (by decide),
    Int64.toInt_ofNat_of_lt (by omega), Int64.toInt_ofNat_of_lt (by omega)]
  rfl

theorem ofNat_mod_eight (t : ℕ) : Int64.ofNat t &&& 0x07 = Int64.ofNat (t % 8) := by
  rw [← Int64.toBitVec_inj, Int64.toBitVec_and]
  refine BitVec.eq_of_toNat_eq ?_
  show t % 2 ^ 64 &&& 2 ^ 3 - 1 = t % 8 % 2 ^ 64
  rw [Nat.and_two_pow_sub_one_eq_mod]
  omega

variable {m m' : Message} {f : Field} {fields fields' : List Field} {pre post : List UInt8}

theorem readFieldHeader_field (hf : f.Legal) (pre post : List UInt8) :
    readFieldHeader (pre ++ (f.write ++ post)) pre.length =
      some ⟨true, Int64.ofNat f.number, Int64.ofNat f.value.wireType,
        (pre ++ varint 5 f.tag).length⟩ := by
  have htag := hf.tag_lt
  have hpos := hf.tag_pos
  have hne : Int64.ofNat f.tag ≠ 0 := by
    rw [← Int64.toInt_inj.ne, Int64.toInt_ofNat_of_lt (by omega)]
    exact Int.natCast_ne_zero.2 hpos.ne'
  unfold readFieldHeader Field.write
  rw [List.append_assoc, readVarint_varint (n := 4) (by decide) (by omega), Option.map_some,
    if_neg (by simpa using hne)]
  simp only [ofNat_div_eight htag, ofNat_mod_eight, Field.tag_div, Field.tag_mod,
    List.length_append, Nat.cast_add]

/-- The tag of a field and what is before it. -/
def header (pre : List UInt8) (f : Field) : List UInt8 := pre ++ varint 5 f.tag

theorem header_payload (pre post : List UInt8) (f : Field) :
    pre ++ (f.write ++ post) = header pre f ++ (f.value.payload ++ post) := by
  simp only [Field.write, header, List.append_assoc]

theorem length_header (pre : List UInt8) (f : Field) :
    ((pre ++ f.write).length : ℤ) = (header pre f).length + f.value.payload.length := by
  simp only [Field.write, header, List.length_append]
  omega

theorem readVarint_field {k v : ℕ} (hv : v < 2 ^ 64) (pre post : List UInt8) :
    readVarint (pre ++ (Field.write ⟨k, .varint v⟩ ++ post)) (header pre ⟨k, .varint v⟩).length =
      some ⟨true, Int64.ofNat v, (pre ++ Field.write ⟨k, .varint v⟩).length⟩ := by
  rw [header_payload, length_header]
  exact readVarint_varint (n := 9) (by decide) (Nat.lt_trans hv (by decide)) _ post

theorem readLengthDelimited_field {k : ℕ} {b : List UInt8} (pre post : List UInt8)
    (hsize : (Field.write ⟨k, .bytes b⟩).length < 2 ^ 31)
    (hbody : (pre ++ (Field.write ⟨k, .bytes b⟩ ++ post)).length < 2 ^ 63) :
    readLengthDelimited (pre ++ (Field.write ⟨k, .bytes b⟩ ++ post))
      (header pre ⟨k, .bytes b⟩).length =
      some ⟨true, b, (pre ++ Field.write ⟨k, .bytes b⟩).length⟩ := by
  have hb := Nat.lt_of_le_of_lt (Field.length_bytes_le k b) hsize
  rw [header_payload] at hbody ⊢
  rw [length_header]
  exact readLengthDelimited_bytes hb hbody

theorem readFloat32_field (k v : ℕ) (pre post : List UInt8) :
    readFloat32 (pre ++ (Field.write ⟨k, .fixed32 v⟩ ++ post)) (header pre ⟨k, .fixed32 v⟩).length =
      littleEndian 4 v := by
  have hslice := slice_append (header pre ⟨k, .fixed32 v⟩) (littleEndian 4 v) post
  rw [Protobuf.length_littleEndian] at hslice
  rw [header_payload]
  exact hslice

/-- A decoder returns a value, of a message of a size that protobuf allows. -/
def Decodes (m : Message) (body : List UInt8) (value : Result m) : Prop :=
  body.length < 2 ^ 31 → ∃ n, decode n m body = .returned value

/-- What a field does to a decoder's result. -/
inductive Takes (m : Message) : Field → (Result m → Result m) → Prop
  | number {k v set} : branch m (Int64.ofNat k) wireVarint = .varint set →
    Takes m ⟨k, .varint v⟩ (set (Int64.ofNat v))
  | text {k b set} : branch m (Int64.ofNat k) wireLengthDelimited = .bytes set →
    Takes m ⟨k, .bytes b⟩ (set b)
  | nested {k b m' set value} : branch m (Int64.ofNat k) wireLengthDelimited = .nested m' set →
    Decodes m' b value → Takes m ⟨k, .bytes b⟩ (set value)
  | float {k v guarded set} : branch m (Int64.ofNat k) wireFixed32 = .fixed32 guarded set →
    Takes m ⟨k, .fixed32 v⟩ (set (littleEndian 4 v))
  | skip {k b} : branch m (Int64.ofNat k) wireLengthDelimited = .skip → Takes m ⟨k, .bytes b⟩ id

/-- A step that goes on at an offset with the result changed. -/
inductive Step.Passes (offset : ℤ) : Step (Result m) → (Result m → Result m) → Prop
  | value {set} : Passes offset (.value offset set) set
  | nested {m' b set value n} : decode n m' b = .returned value →
    Passes offset (.nested offset m' b set) (set value)

/-- A legal field is read, and the loop goes on behind it. -/
theorem Takes.passes {set : Result m → Result m} (h : Takes m f set) (hf : f.Legal)
    (hsize : f.write.length < 2 ^ 31) (hbody : (pre ++ (f.write ++ post)).length < 2 ^ 63) :
    ∃ step, readField m (pre ++ (f.write ++ post)) pre.length = some step ∧
      step.Passes (pre ++ f.write).length set := by
  unfold readField
  rw [readFieldHeader_field hf, Option.bind_some, if_pos rfl, ← header]
  unfold readValue
  cases h with
  | @number k v set hbranch =>
    refine ⟨_, ?_, .value⟩
    simp only [show Int64.ofNat (Value.varint v).wireType = wireVarint from rfl, hbranch,
      readVarint_field hf.fits, Option.map_some, if_true]
  | @text k b set hbranch =>
    refine ⟨_, ?_, .value⟩
    simp only [show Int64.ofNat (Value.bytes b).wireType = wireLengthDelimited from rfl, hbranch,
      readLengthDelimited_field pre post hsize hbody, Option.map_some, if_true]
  | @nested k b m' set value hbranch hvalue =>
    obtain ⟨n, hn⟩ := hvalue (Nat.lt_of_le_of_lt (Field.length_bytes_le k b) hsize)
    refine ⟨_, ?_, .nested hn⟩
    simp only [show Int64.ofNat (Value.bytes b).wireType = wireLengthDelimited from rfl, hbranch,
      readLengthDelimited_field pre post hsize hbody, Option.map_some, if_true]
  | @float k v guarded set hbranch =>
    have hstop := length_header pre ⟨k, .fixed32 v⟩
    have hfour := Protobuf.length_littleEndian 4 v
    simp only [Value.payload, hfour] at hstop
    have hin : ¬((pre ++ (Field.write ⟨k, .fixed32 v⟩ ++ post)).length : ℤ) <
        (header pre ⟨k, .fixed32 v⟩).length + 4 := by
      simp only [List.length_append] at hstop ⊢
      omega
    refine ⟨_, ?_, .value⟩
    simp only [show Int64.ofNat (Value.fixed32 v).wireType = wireFixed32 from rfl, hbranch,
      decide_eq_false hin, Bool.and_false, readFloat32_field]
    rw [if_neg Bool.false_ne_true, hstop]
    rfl
  | @skip k b hbranch =>
    refine ⟨_, ?_, .value⟩
    have hskip : skipValue (pre ++ (Field.write ⟨k, .bytes b⟩ ++ post))
        (header pre ⟨k, .bytes b⟩).length wireLengthDelimited =
          some ((pre ++ Field.write ⟨k, .bytes b⟩).length : ℤ) := by
      unfold skipValue
      rw [if_neg (by decide), if_neg (by decide), if_pos rfl,
        readLengthDelimited_field pre post hsize hbody]
      rfl
    have hnonneg : ¬((pre ++ Field.write ⟨k, .bytes b⟩).length : ℤ) < 0 := by omega
    simp only [show Int64.ofNat (Value.bytes b).wireType = wireLengthDelimited from rfl, hbranch,
      hskip, Option.map_some, decide_eq_false hnonneg, Bool.false_and]
    rw [if_neg Bool.false_ne_true]

/-- What the fields of a message, one after another, make of a decoder's result. -/
inductive Folds (m : Message) : List Field → Result m → Result m → Prop
  | nil {r} : Folds m [] r r
  | cons {f fields set r r'} : Takes m f set → Folds m fields (set r) r' →
    Folds m (f :: fields) r r'

theorem Folds.loop {r r' : Result m} (h : Folds m fields r r') (hlegal : ∀ f ∈ fields, f.Legal)
    (hsize : (write fields).length < 2 ^ 31) : ∀ pre : List UInt8,
    (pre ++ write fields).length < 2 ^ 63 →
    ∃ n, ProtoBridge.loop n m (pre ++ write fields) pre.length r = .returned r' := by
  induction h with
  | nil =>
    intro pre _
    refine ⟨1, ?_⟩
    rw [Protobuf.write_nil, List.append_nil, ProtoBridge.loop, if_neg (lt_irrefl _)]
  | @cons f fields set r r' htakes _ ih =>
    intro pre hbody
    obtain ⟨hf, hfields⟩ := List.forall_mem_cons.1 hlegal
    rw [write_cons, List.length_append] at hsize
    rw [write_cons] at hbody ⊢
    obtain ⟨step, hstep, hpasses⟩ := htakes.passes hf (by omega) hbody
    rw [← List.append_assoc] at hbody
    obtain ⟨n, hn⟩ := ih hfields (by omega) _ hbody
    rw [List.append_assoc] at hn
    have hin : (pre.length : ℤ) < (pre ++ (f.write ++ write fields)).length := by
      have := f.length_pos
      simp only [List.length_append]
      omega
    cases hpasses with
    | value => exact ⟨n + 1, by rw [ProtoBridge.loop, if_pos hin, hstep]; exact hn⟩
    | @nested m' b set value k hk =>
      refine ⟨max k n + 1, ?_⟩
      rw [ProtoBridge.loop, if_pos hin, hstep]
      simp only []
      rw [loop_mono (Nat.le_max_left k n) hk]
      exact loop_mono (Nat.le_max_right k n) hn

theorem Folds.append {r r₁ r₂ : Result m} (h : Folds m fields r r₁) (h' : Folds m fields' r₁ r₂) :
    Folds m (fields ++ fields') r r₂ := by
  induction h with
  | nil => exact h'
  | cons htakes _ ih => exact .cons htakes (ih h')

/-- Legal fields that make one result of another. -/
structure Adds (m : Message) (fields : List Field) (r r' : Result m) : Prop where
  folds : Folds m fields r r'
  legal : ∀ f ∈ fields, f.Legal

theorem ofNat_toUInt64 (x : Int64) : Int64.ofNat x.toUInt64.toNat = x :=
  Int64.toBitVec_inj.1 (BitVec.ofNat_toNat 64 x.toBitVec)

/-- The number of a field. -/
abbrev Numbered (k : ℕ) : Prop := 0 < k ∧ k < 2 ^ 29

namespace Adds

variable {r r₁ r₂ : Result m} {k : ℕ}

theorem nil : Adds m [] r r := ⟨.nil, nofun⟩

theorem append (h : Adds m fields r r₁) (h' : Adds m fields' r₁ r₂) :
    Adds m (fields ++ fields') r r₂ :=
  ⟨h.folds.append h'.folds, fun f hf => (List.mem_append.1 hf).elim (h.legal f) (h'.legal f)⟩

theorem one {v : Value} {set : Result m → Result m} (htakes : Takes m ⟨k, v⟩ set)
    (hk : Numbered k) (hv : v.Fits) : Adds m [⟨k, v⟩] r (set r) :=
  ⟨.cons htakes .nil, fun _ hf => List.mem_singleton.1 hf ▸ ⟨hk.1, hk.2, hv⟩⟩

/-- A scalar that is left out has not changed the result. -/
theorem scalar (absent : Prop) [Decidable absent] {v : Value} {set : Result m → Result m}
    (htakes : Takes m ⟨k, v⟩ set) (hk : Numbered k) (hv : v.Fits) (h0 : absent → set r = r) :
    Adds m (Protobuf.scalar absent k v) r (set r) := by
  unfold Protobuf.scalar
  split_ifs with habsent
  · rw [h0 habsent]
    exact nil
  · exact one htakes hk hv

theorem int32 {set : Int64 → Result m → Result m} (n : Int32)
    (hb : branch m (Int64.ofNat k) wireVarint = .varint set) (h0 : set 0 r = r) (hk : Numbered k) :
    Adds m (Protobuf.int32 k n) r (set n.toInt64 r) := by
  have h := scalar (n = 0) (r := r) (.number hb) hk n.toInt64.toUInt64.toNat_lt
    fun h => by rw [h]; exact h0
  rwa [ofNat_toUInt64] at h

theorem sint32 (set : Int64 → Result m → Result m) (n : Int32)
    (hb : branch m (Int64.ofNat k) wireVarint = .varint fun v => set (unzigzag v))
    (h0 : set 0 r = r) (hk : Numbered k) :
    Adds m (Protobuf.sint32 k n) r (set n.toInt64 r) := by
  have h := scalar (n = 0) (r := r) (.number hb) hk
    (Nat.lt_trans (Protobuf.zigzag n).toNat_lt (by decide)) fun h => by rw [h]; exact h0
  rwa [unzigzag_word] at h

theorem boolean (set : Bool → Result m → Result m) (b : Bool)
    (hb : branch m (Int64.ofNat k) wireVarint = .varint fun v => set (v != 0))
    (h0 : set false r = r) (hk : Numbered k) : Adds m (Protobuf.boolean k b) r (set b r) := by
  cases b with
  | false =>
    rw [h0]
    exact nil
  | true => exact one (.number hb) hk (show 1 < 2 ^ 64 by decide)

theorem float {guarded : Bool} {set : List UInt8 → Result m → Result m} (bits : UInt32)
    (hb : branch m (Int64.ofNat k) wireFixed32 = .fixed32 guarded set)
    (h0 : set [0, 0, 0, 0] r = r) (hk : Numbered k) :
    Adds m (Protobuf.float k bits) r (set (littleEndian 4 bits.toNat) r) :=
  scalar (bits = 0) (.float hb) hk bits.toNat_lt fun h => by rw [h]; exact h0

theorem string {set : List UInt8 → Result m → Result m} (text : List UInt8)
    (hb : branch m (Int64.ofNat k) wireLengthDelimited = .bytes set) (h0 : set [] r = r)
    (hk : Numbered k) : Adds m (Protobuf.string k text) r (set text r) :=
  scalar (text = []) (.text hb) hk trivial fun h => by rw [h]; exact h0

theorem message {set : Result m' → Result m → Result m} {value : Result m'}
    (hvalue : Decodes m' (write fields) value)
    (hb : branch m (Int64.ofNat k) wireLengthDelimited = .nested m' set) (hk : Numbered k) :
    Adds m (Protobuf.message k fields) r (set value r) :=
  one (.nested hb hvalue) hk trivial

/-- A string in a field that the decoder does not know. -/
theorem unread (text : List UInt8)
    (hb : branch m (Int64.ofNat k) wireLengthDelimited = .skip) (hk : Numbered k) :
    Adds m (Protobuf.string k text) r r := scalar (text = []) (.skip hb) hk trivial fun _ => rfl

theorem cons {item : Item} {items : List Item} (h : Adds m item.fields r r₁)
    (h' : Adds m (Protobuf.fields items) r₁ r₂) :
    Adds m (Protobuf.fields (item :: items)) r r₂ := by
  rw [Protobuf.fields]
  exact h.append h'

theorem last {item : Item} (h : Adds m item.fields r r₁) :
    Adds m (Protobuf.fields [item]) r r₁ := h.cons nil

theorem join {items items' : List Item} (h : Adds m (Protobuf.fields items) r r₁)
    (h' : Adds m (Protobuf.fields items') r₁ r₂) :
    Adds m (Protobuf.fields (items ++ items')) r r₂ := by
  rw [Protobuf.fields_append]
  exact h.append h'

/-- A message that is left out leaves the dictionary's own. -/
theorem optional {A : Type} {filled : A → List Item} {shown : A → Result m'}
    {set : Result m' → Result m → Result m} {default : Result m'} (value : Option A)
    (hvalue : ∀ a, Decodes m' (write (Protobuf.fields (filled a))) (shown a))
    (hb : branch m (Int64.ofNat k) wireLengthDelimited = .nested m' set) (h0 : set default r = r)
    (hk : Numbered k) :
    Adds m (Protobuf.fields (Item.optional k (value.map filled))) r
      (set ((value.map shown).getD default) r) := by
  cases value with
  | none =>
    show Adds m [] r (set default r)
    rw [h0]
    exact nil
  | some a => exact last (message (hvalue a) hb hk)

/-- A message in a field that the decoder does not know. -/
theorem unknown (value : Option (List Item))
    (hb : branch m (Int64.ofNat k) wireLengthDelimited = .skip) (hk : Numbered k) :
    Adds m (Protobuf.fields (Item.optional k value)) r r := by
  cases value with
  | none => exact nil
  | some items => exact last (one (.skip hb) hk trivial)

theorem repeated {A : Type} {filled : A → List Item} {shown : A → Result m'}
    {set : Result m' → Result m → Result m} (all : List (Result m') → Result m)
    (hvalue : ∀ a, Decodes m' (write (Protobuf.fields (filled a))) (shown a))
    (hb : branch m (Int64.ofNat k) wireLengthDelimited = .nested m' set) (hk : Numbered k)
    (hset : ∀ l v, set v (all l) = all (l ++ [v])) : ∀ (values : List A) (l : List (Result m')),
    Adds m (Protobuf.fields (values.map fun a => .message k (filled a))) (all l)
      (all (l ++ values.map shown))
  | [], l => by
    rw [List.map_nil, List.map_nil, List.append_nil]
    exact nil
  | a :: values, l => by
    have hfirst := message (r := all l) (hvalue a) hb hk
    rw [hset] at hfirst
    have hrest := repeated all hvalue hb hk hset values (l ++ [shown a])
    rw [List.append_assoc] at hrest
    exact cons hfirst hrest

end Adds

theorem Adds.decodes {items : List Item} {r : Result m}
    (h : Adds m (Protobuf.fields items) (initial m) r) :
    Decodes m (write (Protobuf.fields items)) r := by
  intro hsize
  have hloop := h.folds.loop h.legal hsize [] (by rw [List.nil_append]; omega)
  rwa [List.nil_append] at hloop

end TinRpc.ProtoBridge
