import TinRpc.Protocol

/-!
# The serializer

`Serializer` of `src/serializer.cpp`. A `float` and a `double` are their bits, a string is its
bytes. A `Read` gives what it returns and the serializer after it.
-/

namespace TinRpc.Rpc

open Memory

/-- `ValueType`. -/
inductive ValueType
  | int32
  | int64
  | float
  | double
  | string
  | bool
  deriving DecidableEq, Repr

/-- The number of a type. -/
def ValueType.byte : ValueType → UInt8
  | .int32 => 0x01
  | .int64 => 0x02
  | .float => 0x03
  | .double => 0x04
  | .string => 0x05
  | .bool => 0x06

structure Serializer where
  buffer : List UInt8 := []
  readPos : ℕ := 0
  deriving DecidableEq, Repr

namespace Serializer

/-! ## Writing -/

/-- `Serializer::WriteType`. -/
def writeType (s : Serializer) (type : ValueType) : Serializer :=
  { s with buffer := s.buffer ++ [type.byte] }

/-- `Serializer::WriteRawBytes`. -/
def writeRawBytes (s : Serializer) (data : List UInt8) : Serializer :=
  { s with buffer := s.buffer ++ data }

/-- `Serializer::WriteLength`. -/
def writeLength (s : Serializer) (length : UInt32) : Serializer :=
  { s with buffer := s.buffer ++ store32 (hostToNetwork32 length) }

/-- `Serializer::WriteInt32`. -/
def writeInt32 (s : Serializer) (value : Int32) : Serializer :=
  ((s.writeType .int32).writeLength 4).writeRawBytes (store32 (hostToNetwork32 value.toUInt32))

/-- `Serializer::WriteInt64`. -/
def writeInt64 (s : Serializer) (value : Int64) : Serializer :=
  ((s.writeType .int64).writeLength 8).writeRawBytes (store64 (hostToNetwork64 value.toUInt64))

/-- `Serializer::WriteFloat`. -/
def writeFloat (s : Serializer) (bits : UInt32) : Serializer :=
  ((s.writeType .float).writeLength 4).writeRawBytes (store32 (hostToNetwork32 bits))

/-- `Serializer::WriteDouble`. -/
def writeDouble (s : Serializer) (bits : UInt64) : Serializer :=
  ((s.writeType .double).writeLength 8).writeRawBytes (store64 (hostToNetwork64 bits))

/-- `Serializer::WriteString`. The length is cut to the width of its field. -/
def writeString (s : Serializer) (value : List UInt8) : Serializer :=
  ((s.writeType .string).writeLength (UInt32.ofNat value.length)).writeRawBytes value

/-- `Serializer::WriteBool`. -/
def writeBool (s : Serializer) (value : Bool) : Serializer :=
  let byte : UInt8 := if value then 1 else 0
  ((s.writeType .bool).writeLength 1).writeRawBytes [byte]

/-! ## Reading -/

/-- `Serializer::Serializer`. -/
def reader (data : List UInt8) : Serializer := { buffer := data, readPos := 0 }

/-- `Serializer::CanRead`. -/
def canRead (s : Serializer) (need : ℕ) : Bool := s.readPos + need ≤ s.buffer.length

/-- `read_pos_ += n`. -/
def advance (s : Serializer) (n : ℕ) : Serializer := { s with readPos := s.readPos + n }

/-- How every `Read` begins: the type, then the length. -/
def readHeader (s : Serializer) (type : ValueType) : Option UInt32 × Serializer :=
  if ¬s.canRead 1 then (none, s)
  else if s.buffer.getD s.readPos 0 ≠ type.byte then (none, s)
  else if ¬(s.advance 1).canRead 4 then (none, s.advance 1)
  else (some (networkToHost32 (memcpy32 s.buffer (s.readPos + 1))), (s.advance 1).advance 4)

/-- A `Read` of a type whose values all have `width` bytes; `value` is what the bytes at a place
of the buffer say. -/
def readFixed {α : Type} (s : Serializer) (type : ValueType) (width : UInt32)
    (value : List UInt8 → ℕ → α) : Option α × Serializer :=
  match s.readHeader type with
  | (none, s) => (none, s)
  | (some length, s) =>
    if length ≠ width then (none, s)
    else if ¬s.canRead width.toNat then (none, s)
    else (some (value s.buffer s.readPos), s.advance width.toNat)

/-- `Serializer::ReadInt32`. -/
def readInt32 (s : Serializer) : Option Int32 × Serializer :=
  s.readFixed .int32 4 fun bytes pos => (networkToHost32 (memcpy32 bytes pos)).toInt32

/-- `Serializer::ReadInt64`. -/
def readInt64 (s : Serializer) : Option Int64 × Serializer :=
  s.readFixed .int64 8 fun bytes pos => (networkToHost64 (memcpy64 bytes pos)).toInt64

/-- `Serializer::ReadFloat`. -/
def readFloat (s : Serializer) : Option UInt32 × Serializer :=
  s.readFixed .float 4 fun bytes pos => networkToHost32 (memcpy32 bytes pos)

/-- `Serializer::ReadDouble`. -/
def readDouble (s : Serializer) : Option UInt64 × Serializer :=
  s.readFixed .double 8 fun bytes pos => networkToHost64 (memcpy64 bytes pos)

/-- `Serializer::ReadString`. -/
def readString (s : Serializer) : Option (List UInt8) × Serializer :=
  match s.readHeader .string with
  | (none, s) => (none, s)
  | (some length, s) =>
    if ¬s.canRead length.toNat then (none, s)
    else (some ((s.buffer.drop s.readPos).take length.toNat), s.advance length.toNat)

/-- `Serializer::ReadBool`. -/
def readBool (s : Serializer) : Option Bool × Serializer :=
  s.readFixed .bool 1 fun bytes pos => decide (bytes.getD pos 0 ≠ 0)

end Serializer

/-! ## Lists of values -/

/-- A value the serializer writes. -/
inductive Value
  | int32 (value : Int32)
  | int64 (value : Int64)
  | float (bits : UInt32)
  | double (bits : UInt64)
  | string (value : List UInt8)
  | bool (value : Bool)
  deriving DecidableEq, Repr

/-- The type of a value. -/
def Value.type : Value → ValueType
  | .int32 _ => .int32
  | .int64 _ => .int64
  | .float _ => .float
  | .double _ => .double
  | .string _ => .string
  | .bool _ => .bool

namespace Serializer

/-- The `Write` of a value's type. -/
def write (s : Serializer) : Value → Serializer
  | .int32 value => s.writeInt32 value
  | .int64 value => s.writeInt64 value
  | .float bits => s.writeFloat bits
  | .double bits => s.writeDouble bits
  | .string value => s.writeString value
  | .bool value => s.writeBool value

/-- The `Read` of a type. -/
def read (s : Serializer) : ValueType → Option Value × Serializer
  | .int32 => s.readInt32.map (Option.map .int32) id
  | .int64 => s.readInt64.map (Option.map .int64) id
  | .float => s.readFloat.map (Option.map .float) id
  | .double => s.readDouble.map (Option.map .double) id
  | .string => s.readString.map (Option.map .string) id
  | .bool => s.readBool.map (Option.map .bool) id

/-- What writing the values one after the other leaves in the buffer. -/
def encode (values : List Value) : List UInt8 := (values.foldl write {}).buffer

/-- One `Read` after the other, of the given types. -/
def readAll (s : Serializer) : List ValueType → List (Option Value) × Serializer
  | [] => ([], s)
  | type :: types =>
    let (value, s) := s.read type
    let (values, s) := s.readAll types
    (value :: values, s)

end Serializer

end TinRpc.Rpc
