import Mathlib.Data.List.GetD
import TinRpc.Proofs.Protocol
import TinRpc.Serializer

/-!
# Reading back what was written

Each `Write` appends the type, the length and the bytes of its value (`write_eq`), and the `Read` of
that type takes just these off again, wherever in the buffer they stand (`read_encoded`). Since a
`Read` of another type fails on them, a buffer is the encoding of at most one list of values.
-/

namespace TinRpc.Rpc

open Memory

theorem getD_append_add (a b : List UInt8) (k : ℕ) :
    (a ++ b).getD (a.length + k) 0 = b.getD k 0 := by
  rw [List.getD_append_right _ _ _ _ (by omega), Nat.add_sub_cancel_left]

theorem memcpy32_store (a b : List UInt8) (v : UInt32) :
    memcpy32 (a ++ (store32 v ++ b)) a.length = v := by
  unfold memcpy32
  rw [getD_append_add, getD_append_add, getD_append_add, ← Nat.add_zero a.length, getD_append_add]
  exact load32_store32 v

theorem memcpy64_store (a b : List UInt8) (v : UInt64) :
    memcpy64 (a ++ (store64 v ++ b)) a.length = v := by
  unfold memcpy64
  rw [getD_append_add, getD_append_add, getD_append_add, getD_append_add, getD_append_add,
    getD_append_add, getD_append_add, ← Nat.add_zero a.length, getD_append_add]
  exact load64_store64 v

namespace Value

/-- The bytes of a value behind its length. -/
def payload : Value → List UInt8
  | .int32 value => store32 (hostToNetwork32 value.toUInt32)
  | .int64 value => store64 (hostToNetwork64 value.toUInt64)
  | .float bits => store32 (hostToNetwork32 bits)
  | .double bits => store64 (hostToNetwork64 bits)
  | .string value => value
  | .bool value => [if value then 1 else 0]

/-- The length fits its field. -/
def Fits (v : Value) : Prop := v.payload.length < 2 ^ 32

instance (v : Value) : Decidable v.Fits := inferInstanceAs (Decidable (_ < _))

/-- The bytes of a value. -/
def encoded (v : Value) : List UInt8 :=
  v.type.byte :: (store32 (hostToNetwork32 (UInt32.ofNat v.payload.length)) ++ v.payload)

theorem length_encoded (v : Value) : v.encoded.length = 5 + v.payload.length := by
  unfold encoded
  rw [List.length_cons, List.length_append, store32_length]
  omega

end Value

theorem ValueType.byte_inj {t t' : ValueType} : t.byte = t'.byte ↔ t = t' := by
  constructor
  · cases t <;> cases t' <;> decide
  · rintro rfl
    rfl

namespace Serializer

variable {a b : List UInt8} {v w : Value} {t : ValueType}

/-- A `Write` appends the bytes of its value. -/
theorem write_eq (s : Serializer) (v : Value) :
    s.write v = { s with buffer := s.buffer ++ v.encoded } := by
  cases v <;> simp [write, writeInt32, writeInt64, writeFloat, writeDouble, writeString, writeBool,
    writeType, writeLength, writeRawBytes, Value.encoded, Value.payload, Value.type]

/-- The reader at a value, with other bytes around it. -/
def atValue (a : List UInt8) (v : Value) (b : List UInt8) : Serializer :=
  ⟨a ++ (v.encoded ++ b), a.length⟩

/-- Behind the type and the length. -/
def atPayload (a : List UInt8) (v : Value) (b : List UInt8) : Serializer :=
  ⟨a ++ (v.encoded ++ b), a.length + 5⟩

/-- Behind the value. -/
def behind (a : List UInt8) (v : Value) (b : List UInt8) : Serializer :=
  ⟨a ++ (v.encoded ++ b), a.length + v.encoded.length⟩

theorem canRead_atPayload (hv : v.Fits) :
    (atPayload a v b).canRead (UInt32.ofNat v.payload.length).toNat := by
  rw [UInt32.toNat_ofNat_of_lt' hv]
  simp [canRead, atPayload, Value.length_encoded]
  omega

theorem advance_atPayload (hv : v.Fits) :
    (atPayload a v b).advance (UInt32.ofNat v.payload.length).toNat = behind a v b := by
  rw [UInt32.toNat_ofNat_of_lt' hv]
  simp [advance, atPayload, behind, Value.length_encoded, Nat.add_assoc]

theorem atPayload_eq : atPayload a v b
    = ⟨(a ++ v.type.byte :: store32 (hostToNetwork32 (UInt32.ofNat v.payload.length)))
        ++ (v.payload ++ b),
      (a ++ v.type.byte :: store32 (hostToNetwork32 (UInt32.ofNat v.payload.length))).length⟩ := by
  simp [atPayload, Value.encoded]

/-- The type is compared first, then comes the length. -/
theorem readHeader_atValue : (atValue a v b).readHeader t
    = if t = v.type then (some (UInt32.ofNat v.payload.length), atPayload a v b)
      else (none, atValue a v b) := by
  have hone : (atValue a v b).canRead 1 := by
    simp [canRead, atValue, Value.length_encoded]
    omega
  have hfour : ((atValue a v b).advance 1).canRead 4 := by
    simp [canRead, atValue, advance, Value.length_encoded]
    omega
  have hbyte : (atValue a v b).buffer.getD (atValue a v b).readPos 0 = v.type.byte :=
    (getD_append_add a (v.encoded ++ b) 0).trans rfl
  have hlength : networkToHost32 (memcpy32 (atValue a v b).buffer ((atValue a v b).readPos + 1))
      = UInt32.ofNat v.payload.length := by
    have hmem := memcpy32_store (a ++ [v.type.byte]) (v.payload ++ b)
      (hostToNetwork32 (UInt32.ofNat v.payload.length))
    rw [List.length_append, List.length_singleton] at hmem
    simp only [atValue, Value.encoded, List.cons_append, List.append_assoc]
    simp only [List.append_assoc, List.singleton_append] at hmem
    rw [hmem]
    exact hostToNetwork32_hostToNetwork32 _
  unfold readHeader
  rw [if_neg (not_not.2 hone), hbyte, hlength, if_neg (not_not.2 hfour)]
  by_cases ht : t = v.type
  · rw [if_pos ht, ht, if_neg (not_not.2 rfl)]
    rfl
  · rw [if_neg ht, if_pos (fun h => ht (ValueType.byte_inj.1 h).symm)]

/-- A value of a fixed width is what its bytes say. -/
theorem readFixed_atValue {α : Type} {value : List UInt8 → ℕ → α} {width : UInt32}
    (ht : t = v.type) (hwidth : UInt32.ofNat v.payload.length = width) (hv : v.Fits) :
    (atValue a v b).readFixed t width value
      = (some (value (atPayload a v b).buffer (atPayload a v b).readPos), behind a v b) := by
  unfold readFixed
  rw [readHeader_atValue, if_pos ht]
  simp only []
  rw [if_neg (not_not.2 hwidth), ← hwidth, if_neg (not_not.2 (canRead_atPayload hv)),
    advance_atPayload hv]

theorem readFixed_of_ne {α : Type} {value : List UInt8 → ℕ → α} {width : UInt32}
    (ht : t ≠ v.type) : (atValue a v b).readFixed t width value = (none, atValue a v b) := by
  unfold readFixed
  rw [readHeader_atValue, if_neg ht]

theorem readString_of_ne (ht : .string ≠ v.type) :
    (atValue a v b).readString = (none, atValue a v b) := by
  unfold readString
  rw [readHeader_atValue, if_neg ht]

theorem word32_atPayload {n : UInt32} (hn : v.payload = store32 (hostToNetwork32 n)) :
    networkToHost32 (memcpy32 (atPayload a v b).buffer (atPayload a v b).readPos) = n := by
  rw [atPayload_eq]
  simp only [hn]
  rw [memcpy32_store]
  exact hostToNetwork32_hostToNetwork32 n

theorem word64_atPayload {n : UInt64} (hn : v.payload = store64 (hostToNetwork64 n)) :
    networkToHost64 (memcpy64 (atPayload a v b).buffer (atPayload a v b).readPos) = n := by
  rw [atPayload_eq]
  simp only [hn]
  rw [memcpy64_store]
  exact hostToNetwork64_hostToNetwork64 n

/-- The `Read` of a value's type gives the value and stops behind it. -/
theorem read_atValue (hv : v.Fits) : (atValue a v b).read v.type = (some v, behind a v b) := by
  cases v with
  | int32 value =>
    have h : (atValue a (.int32 value) b).readInt32 = (some value, behind a (.int32 value) b) := by
      refine (readFixed_atValue rfl rfl hv).trans ?_
      rw [word32_atPayload rfl, Int32.toInt32_toUInt32]
    simp only [read, Value.type, h]
    rfl
  | int64 value =>
    have h : (atValue a (.int64 value) b).readInt64 = (some value, behind a (.int64 value) b) := by
      refine (readFixed_atValue rfl rfl hv).trans ?_
      rw [word64_atPayload rfl, Int64.toInt64_toUInt64]
    simp only [read, Value.type, h]
    rfl
  | float bits =>
    have h : (atValue a (.float bits) b).readFloat = (some bits, behind a (.float bits) b) := by
      refine (readFixed_atValue rfl rfl hv).trans ?_
      rw [word32_atPayload rfl]
    simp only [read, Value.type, h]
    rfl
  | double bits =>
    have h : (atValue a (.double bits) b).readDouble = (some bits, behind a (.double bits) b) := by
      refine (readFixed_atValue rfl rfl hv).trans ?_
      rw [word64_atPayload rfl]
    simp only [read, Value.type, h]
    rfl
  | string value =>
    have hbytes : ((atPayload a (.string value) b).buffer.drop
        (atPayload a (.string value) b).readPos).take (UInt32.ofNat value.length).toNat
          = value := by
      have hlt : value.length < UInt32.size := hv
      rw [atPayload_eq, UInt32.toNat_ofNat_of_lt' hlt]
      simp only [Value.payload]
      rw [List.drop_left, List.take_left]
    have h : (atValue a (.string value) b).readString
        = (some value, behind a (.string value) b) := by
      have hheader : (atValue a (.string value) b).readHeader .string
          = (some (UInt32.ofNat value.length), atPayload a (.string value) b) :=
        readHeader_atValue.trans (if_pos rfl)
      have hread := canRead_atPayload (a := a) (b := b) hv
      have hbehind := advance_atPayload (a := a) (b := b) hv
      simp only [Value.payload] at hread hbehind
      simp only [readString, hheader, hread, hbytes, hbehind, not_true_eq_false, ↓reduceIte]
    simp only [read, Value.type, h]
    rfl
  | bool value =>
    have hbyte : (atPayload a (.bool value) b).buffer.getD (atPayload a (.bool value) b).readPos 0
        = if value then 1 else 0 := by
      rw [atPayload_eq]
      exact getD_append_add _ _ 0
    have h : (atValue a (.bool value) b).readBool = (some value, behind a (.bool value) b) := by
      refine (readFixed_atValue rfl rfl hv).trans ?_
      rw [hbyte]
      cases value <;> rfl
    simp only [read, Value.type, h]
    rfl

/-- The `Read` of another type gives nothing and stays where it is. -/
theorem read_of_ne (ht : t ≠ v.type) : (atValue a v b).read t = (none, atValue a v b) := by
  cases t with
  | int32 => simp only [read, readInt32, readFixed_of_ne ht]; rfl
  | int64 => simp only [read, readInt64, readFixed_of_ne ht]; rfl
  | float => simp only [read, readFloat, readFixed_of_ne ht]; rfl
  | double => simp only [read, readDouble, readFixed_of_ne ht]; rfl
  | string => simp only [read, readString_of_ne ht]; rfl
  | bool => simp only [read, readBool, readFixed_of_ne ht]; rfl

theorem encode_eq (values : List Value) : encode values = (values.map Value.encoded).flatten := by
  have hfold : ∀ (values : List Value) (s : Serializer), (values.foldl write s).buffer
      = s.buffer ++ (values.map Value.encoded).flatten := by
    intro values
    induction values with
    | nil => simp
    | cons v values ih =>
      intro s
      rw [List.foldl_cons, ih, write_eq, List.map_cons, List.flatten_cons, List.append_assoc]
  exact (hfold values {}).trans (List.nil_append _)

theorem encode_cons (v : Value) (values : List Value) :
    encode (v :: values) = v.encoded ++ encode values := by
  rw [encode_eq, encode_eq, List.map_cons, List.flatten_cons]

/-- The values are read back from wherever in a buffer their bytes stand. -/
theorem readAll_encode : ∀ (values : List Value) (a : List UInt8), (∀ v ∈ values, v.Fits) →
    readAll ⟨a ++ encode values, a.length⟩ (values.map Value.type)
      = (values.map some, ⟨a ++ encode values, (a ++ encode values).length⟩)
  | [], a, _ => by simp [readAll, encode]
  | v :: values, a, hfits => by
    obtain ⟨hv, hvalues⟩ := List.forall_mem_cons.1 hfits
    have hread : read ⟨a ++ encode (v :: values), a.length⟩ v.type
        = (some v, ⟨(a ++ v.encoded) ++ encode values, (a ++ v.encoded).length⟩) := by
      rw [encode_cons]
      refine (read_atValue hv).trans ?_
      rw [behind, List.append_assoc, List.length_append]
    rw [List.map_cons, readAll, hread]
    simp only []
    rw [readAll_encode values (a ++ v.encoded) hvalues, encode_cons, List.append_assoc]
    rfl

/-- The first type that can be read is the type of the first value. -/
theorem read_encode (values : List Value) {t : ValueType}
    (ht : values.head?.map Value.type ≠ some t) : ((reader (encode values)).read t).1 = none := by
  rcases values with _ | ⟨v, values⟩
  · cases t <;> rfl
  · have hne : t ≠ v.type := fun h => ht (h ▸ rfl)
    rw [encode_cons]
    exact congrArg Prod.fst (read_of_ne (a := []) hne)

/-- A list of values is determined by its encoding. -/
theorem encode_inj : ∀ {vs ws : List Value}, (∀ v ∈ vs, v.Fits) → (∀ w ∈ ws, w.Fits) →
    encode vs = encode ws → vs = ws
  | [], [], _, _, _ => rfl
  | [], w :: ws, _, _, h => by
    rw [encode_cons] at h
    exact absurd h (by simp [encode, Value.encoded])
  | v :: vs, [], _, _, h => by
    rw [encode_cons] at h
    exact absurd h (by simp [encode, Value.encoded])
  | v :: vs, w :: ws, hvs, hws, h => by
    obtain ⟨hv, hvs'⟩ := List.forall_mem_cons.1 hvs
    obtain ⟨hw, hws'⟩ := List.forall_mem_cons.1 hws
    have hreadw : (reader (encode (w :: ws))).read w.type
        = (some w, behind [] w (encode ws)) := by
      rw [encode_cons]
      exact read_atValue (a := []) hw
    have htype : v.type = w.type := by
      by_contra hne
      have hnone := read_encode (v :: vs) (t := w.type) fun h => hne (Option.some_inj.1 h)
      rw [h, hreadw] at hnone
      cases hnone
    have hreadv : (reader (encode (v :: vs))).read v.type
        = (some v, behind [] v (encode vs)) := by
      rw [encode_cons]
      exact read_atValue (a := []) hv
    rw [h, htype, hreadw] at hreadv
    obtain rfl : w = v := Option.some_inj.1 (Prod.ext_iff.1 hreadv).1
    rw [encode_cons, encode_cons] at h
    have hrest : encode vs = encode ws := List.append_cancel_left h
    rw [encode_inj hvs' hws' hrest]

/-- Reading with the types of the values that were written gives these values and leaves nothing;
reading another type first gives nothing; and no other list of values has the same bytes. -/
theorem tlv_round_trip (values : List Value) (hfits : ∀ v ∈ values, v.Fits) :
    (reader (encode values)).readAll (values.map Value.type)
        = (values.map some, ⟨encode values, (encode values).length⟩) ∧
    (∀ t, values.head?.map Value.type ≠ some t →
      ((reader (encode values)).read t).1 = none) ∧
    ∀ others : List Value, (∀ v ∈ others, v.Fits) → encode others = encode values →
      others = values :=
  ⟨readAll_encode values [] hfits, fun _ => read_encode values, fun _ hothers =>
    encode_inj hothers hfits⟩

theorem tlv_round_trip_two :
    (reader (encode [.int32 (-2), .string [104, 105]])).readAll [.int32, .string]
      = ([some (.int32 (-2)), some (.string [104, 105])],
        ⟨[1, 0, 0, 0, 4, 255, 255, 255, 254, 5, 0, 0, 0, 2, 104, 105], 16⟩) :=
  (tlv_round_trip [.int32 (-2), .string [104, 105]] (by
    rintro v hv
    rcases List.mem_cons.1 hv with rfl | hv
    · decide
    · rw [List.mem_singleton.1 hv]
      decide)).1

variable {s : Serializer}

/-- Where a `Read` that fails leaves the reader: behind what it took before it gave up. -/
def stopped (s : Serializer) (t : ValueType) : Serializer :=
  if s.buffer[s.readPos]? = some t.byte then
    if s.readPos + 5 ≤ s.buffer.length then s.advance 5 else s.advance 1
  else s

theorem readHeader_stopped (s : Serializer) (t : ValueType) :
    (s.readHeader t).2 = s.stopped t := by
  unfold readHeader stopped canRead
  by_cases hlt : s.readPos < s.buffer.length
  · have hbyte : s.buffer.getD s.readPos 0 = s.buffer[s.readPos] := by
      rw [List.getD_eq_getElem?_getD, List.getElem?_eq_getElem hlt, Option.getD_some]
    rw [hbyte, List.getElem?_eq_getElem hlt]
    simp only [advance, decide_eq_true_eq, Nat.succ_le_iff.2 hlt, not_true_eq_false, ↓reduceIte,
      Option.some.injEq, ne_eq, ite_not, Nat.add_assoc]
    split_ifs <;> rfl
  · rw [List.getElem?_eq_none (by omega), if_pos (by simp; omega)]
    rfl

theorem readFixed_stopped {α : Type} {value : List UInt8 → ℕ → α} {width : UInt32}
    (h : (s.readFixed t width value).1 = none) :
    (s.readFixed t width value).2 = s.stopped t := by
  have hheader := readHeader_stopped s t
  revert h
  unfold readFixed
  generalize s.readHeader t = header at hheader
  obtain ⟨_ | length, s'⟩ := header
  · exact fun _ => hheader
  · intro h
    simp only [] at h ⊢
    split_ifs at h ⊢ <;> exact hheader

theorem readString_stopped (h : s.readString.1 = none) : s.readString.2 = s.stopped .string := by
  have hheader := readHeader_stopped s .string
  revert h
  unfold readString
  generalize s.readHeader .string = header at hheader
  obtain ⟨_ | length, s'⟩ := header
  · exact fun _ => hheader
  · intro h
    simp only [] at h ⊢
    split_ifs at h ⊢
    exact hheader

theorem read_stopped (h : (s.read t).1 = none) : (s.read t).2 = s.stopped t := by
  cases t with
  | int32 => exact readFixed_stopped (show s.readInt32.1 = none from Option.map_eq_none_iff.1 h)
  | int64 => exact readFixed_stopped (show s.readInt64.1 = none from Option.map_eq_none_iff.1 h)
  | float => exact readFixed_stopped (show s.readFloat.1 = none from Option.map_eq_none_iff.1 h)
  | double => exact readFixed_stopped (show s.readDouble.1 = none from Option.map_eq_none_iff.1 h)
  | string => exact readString_stopped (Option.map_eq_none_iff.1 h)
  | bool => exact readFixed_stopped (show s.readBool.1 = none from Option.map_eq_none_iff.1 h)

/-- Whatever the buffer and the position, a `Read` that fails leaves the reader where it was exactly
when it does not find its type there. Otherwise it has taken the type, and the length too if all of
it is there. -/
theorem failed_read (s : Serializer) (t : ValueType) (h : (s.read t).1 = none) :
    ((s.read t).2.readPos = s.readPos ↔ s.buffer[s.readPos]? ≠ some t.byte)
      ∧ (s.buffer[s.readPos]? = some t.byte → (s.read t).2.readPos
        = s.readPos + if s.readPos + 5 ≤ s.buffer.length then 5 else 1) := by
  rw [read_stopped h]
  unfold stopped
  by_cases hbyte : s.buffer[s.readPos]? = some t.byte
  · have hpos : (if s.readPos + 5 ≤ s.buffer.length then s.advance 5 else s.advance 1).readPos
        = s.readPos + if s.readPos + 5 ≤ s.buffer.length then 5 else 1 := by
      split_ifs <;> rfl
    rw [if_pos hbyte, hpos]
    refine ⟨iff_of_false ?_ (not_not.2 hbyte), fun _ => rfl⟩
    split_ifs <;> omega
  · rw [if_neg hbyte]
    exact ⟨iff_of_true rfl hbyte, fun h => absurd h hbyte⟩

/-- A string read as a number stays, and is then cut off in its length. -/
theorem failed_read_string :
    ((⟨[5, 0, 0], 0⟩ : Serializer).read .int32).2.readPos = 0
      ∧ ((⟨[5, 0, 0], 0⟩ : Serializer).read .string).2.readPos = 1 :=
  ⟨(failed_read ⟨[5, 0, 0], 0⟩ .int32 rfl).1.2 (by decide),
    (failed_read ⟨[5, 0, 0], 0⟩ .string rfl).2 (by decide)⟩

/-- The three bytes of a broken number lose the first of them. -/
theorem failed_read_takes : ¬ ∀ (data : List UInt8) (types : List ValueType) (t : ValueType),
    (((reader data).readAll types).2.read t).1 = none →
      (((reader data).readAll types).2.read t).2.readPos
        = ((reader data).readAll types).2.readPos := by
  intro h
  exact absurd (h [0x01, 0x00, 0x00] [] .int32 rfl) (by decide)

end Serializer

end TinRpc.Rpc
