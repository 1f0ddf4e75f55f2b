import Mathlib.Algebra.Order.Ring.Nat

/-!
# The protobuf wire format

A message on the wire is its fields one after another, each with a tag of its number and its wire
type. In proto3 a scalar field that is zero is left out, and so is a string that is empty. The old
groups are not here.
-/

namespace Protobuf

/-- What a field holds, by its wire type. -/
inductive Value
  | varint (n : ℕ)
  | fixed64 (n : ℕ)
  | bytes (b : List UInt8)
  | fixed32 (n : ℕ)
  deriving DecidableEq, Repr

structure Field where
  number : ℕ
  value : Value
  deriving DecidableEq, Repr

/-! ## Writing -/

/-- A number in at most so many groups of seven bits, the lowest first. -/
def varint : ℕ → ℕ → List UInt8
  | 0, _ => []
  | k + 1, n =>
    if n < 128 then [UInt8.ofNat n] else UInt8.ofNat (n % 128 + 128) :: varint k (n / 128)

/-- A number in so many bytes, the lowest first. -/
def littleEndian : ℕ → ℕ → List UInt8
  | 0, _ => []
  | k + 1, n => UInt8.ofNat n :: littleEndian k (n / 256)

namespace Value

def wireType : Value → ℕ
  | varint _ => 0
  | fixed64 _ => 1
  | bytes _ => 2
  | fixed32 _ => 5

def payload : Value → List UInt8
  | varint n => Protobuf.varint 10 n
  | fixed64 n => littleEndian 8 n
  | bytes b => Protobuf.varint 5 b.length ++ b
  | fixed32 n => littleEndian 4 n

/-- Numbers as wide as the wire type. -/
def Fits : Value → Prop
  | varint n => n < 2 ^ 64
  | fixed64 n => n < 2 ^ 64
  | bytes _ => True
  | fixed32 n => n < 2 ^ 32

end Value

namespace Field

def tag (f : Field) : ℕ := 8 * f.number + f.value.wireType

def write (f : Field) : List UInt8 := varint 5 f.tag ++ f.value.payload

structure Legal (f : Field) : Prop where
  pos : 0 < f.number
  lt : f.number < 2 ^ 29
  fits : f.value.Fits

end Field

def write (fields : List Field) : List UInt8 := fields.flatMap Field.write

/-- A message with no field twice, of a size that protobuf allows. -/
structure Single (fields : List Field) : Prop where
  legal : ∀ f ∈ fields, f.Legal
  nodup : (fields.map Field.number).Nodup
  size : (write fields).length < 2 ^ 31

/-! ## Fields of proto3 -/

/-- A number in the zigzag form, in which small negative ones are short too. -/
def zigzag (n : Int32) : UInt32 := ((n <<< 1) ^^^ (n >>> 31)).toUInt32

/-- A field that is left out where it says nothing. -/
def scalar (absent : Prop) [Decidable absent] (k : ℕ) (v : Value) : List Field :=
  if absent then [] else [⟨k, v⟩]

def int32 (k : ℕ) (n : Int32) : List Field := scalar (n = 0) k (.varint n.toInt64.toUInt64.toNat)

def sint32 (k : ℕ) (n : Int32) : List Field := scalar (n = 0) k (.varint (zigzag n).toNat)

def boolean (k : ℕ) (b : Bool) : List Field := scalar (b = false) k (.varint 1)

/-- A `float` with these bits. -/
def float (k : ℕ) (bits : UInt32) : List Field := scalar (bits = 0) k (.fixed32 bits.toNat)

def string (k : ℕ) (text : List UInt8) : List Field := scalar (text = []) k (.bytes text)

def message (k : ℕ) (fields : List Field) : List Field := [⟨k, .bytes (write fields)⟩]

/-! ## Messages -/

/-- A field of a message in memory: a scalar, or a message that is set. A repeated field is there
once for each of its values. -/
inductive Item
  | int32 (k : ℕ) (n : Int32)
  | sint32 (k : ℕ) (n : Int32)
  | boolean (k : ℕ) (b : Bool)
  | float (k : ℕ) (bits : UInt32)
  | string (k : ℕ) (text : List UInt8)
  | message (k : ℕ) (items : List Item)

mutual

/-- The wire form of a field. -/
def Item.fields : Item → List Field
  | .int32 k n => Protobuf.int32 k n
  | .sint32 k n => Protobuf.sint32 k n
  | .boolean k b => Protobuf.boolean k b
  | .float k bits => Protobuf.float k bits
  | .string k text => Protobuf.string k text
  | .message k items => Protobuf.message k (fields items)

/-- The wire form of a message. -/
def fields : List Item → List Field
  | [] => []
  | e :: items => e.fields ++ fields items

end

/-- A message that need not be set. -/
def Item.optional (k : ℕ) (items : Option (List Item)) : List Item :=
  items.elim [] fun items => [.message k items]

/-- A message of a size that protobuf allows. -/
def Fits (items : List Item) : Prop := (write (fields items)).length < 2 ^ 31

instance (items : List Item) : Decidable (Fits items) := inferInstanceAs (Decidable (_ < _))

/-! ## What is written -/

variable {f : Field} {fs fs' : List Field} {b : List UInt8} {k n : ℕ}

@[simp] theorem write_nil : write [] = [] := rfl

theorem write_cons (f : Field) (fs : List Field) : write (f :: fs) = f.write ++ write fs := rfl

theorem write_append (fs fs' : List Field) : write (fs ++ fs') = write fs ++ write fs' :=
  List.flatMap_append

@[simp] theorem write_singleton (f : Field) : write [f] = f.write := List.append_nil _

theorem fields_append : ∀ items items' : List Item,
    fields (items ++ items') = fields items ++ fields items'
  | [], _ => rfl
  | item :: items, items' => by
    rw [List.cons_append, fields, fields, fields_append items items', List.append_assoc]

theorem varint_ne_nil (k n : ℕ) : varint (k + 1) n ≠ [] := by
  rw [varint]
  split_ifs <;> exact List.cons_ne_nil _ _

theorem Field.length_pos (f : Field) : 0 < f.write.length :=
  List.length_pos_iff.2 (List.append_ne_nil_of_left_ne_nil (varint_ne_nil 4 _) _)

theorem write_eq_nil : write fs = [] ↔ fs = [] := by
  refine ⟨fun h => ?_, fun h => h ▸ rfl⟩
  cases fs with
  | nil => rfl
  | cons f fs =>
    have hpos := f.length_pos
    rw [(List.append_eq_nil_iff.1 h).1] at hpos
    cases hpos

theorem Field.length_bytes_le (k : ℕ) (b : List UInt8) :
    b.length ≤ (Field.write ⟨k, .bytes b⟩).length := by
  unfold Field.write Value.payload
  simp only [List.length_append]
  omega

theorem length_littleEndian : ∀ k n : ℕ, (littleEndian k n).length = k
  | 0, _ => rfl
  | k + 1, n => congrArg (· + 1) (length_littleEndian k (n / 256))

/-! ## Legal fields -/

theorem Field.Legal.tag_pos (h : f.Legal) : 0 < f.tag := by
  have := h.pos
  unfold Field.tag
  omega

theorem Value.wireType_lt (v : Value) : v.wireType < 8 := by
  cases v <;> simp [Value.wireType]

theorem Field.Legal.tag_lt (h : f.Legal) : f.tag < 2 ^ 32 := by
  have := h.lt
  have := f.value.wireType_lt
  unfold Field.tag
  omega

theorem Field.tag_div (f : Field) : f.tag / 8 = f.number := by
  have := f.value.wireType_lt
  unfold Field.tag
  omega

theorem Field.tag_mod (f : Field) : f.tag % 8 = f.value.wireType := by
  have := f.value.wireType_lt
  unfold Field.tag
  omega

end Protobuf
