import Mathlib.Data.List.Basic
import Mathlib.Algebra.Group.Nat.Defs

/-!
# The Godot client's frame codec

`FrameCodec` of `godot_client/scripts/net/frame_codec.gd`. GDScript's integers are wide enough for
every number here, so they are natural numbers, and a `PackedByteArray` is a list. A method name is
kept as the bytes that `get_string_from_utf8` is called on.
-/

namespace TinRpc.FrameCodec

def magic : ℕ := 0xBABE
def headerSize : ℕ := 13
def maxFrameSize : ℕ := 10 * 1024 * 1024

def typeRequest : ℕ := 0x01
def typeResponse : ℕ := 0x02
def typeError : ℕ := 0x03

/-- One of the dictionaries in `frames`. -/
structure Frame where
  requestId : ℕ
  msgType : ℕ
  method : List UInt8
  body : List UInt8
  deriving DecidableEq, Repr

/-- The dictionary `decode_frames` returns. -/
structure Decoded where
  frames : List Frame
  leftover : List UInt8
  deriving DecidableEq, Repr

/-- `bytes[offset]`. -/
def byteAt (bytes : List UInt8) (offset : ℕ) : ℕ := (bytes.getD offset 0).toNat

/-- `_read_u16_be`. -/
def readU16Be (bytes : List UInt8) (offset : ℕ) : ℕ :=
  byteAt bytes offset <<< 8 ||| byteAt bytes (offset + 1)

/-- `_read_u32_be`. -/
def readU32Be (bytes : List UInt8) (offset : ℕ) : ℕ :=
  byteAt bytes offset <<< 24 ||| byteAt bytes (offset + 1) <<< 16
    ||| byteAt bytes (offset + 2) <<< 8 ||| byteAt bytes (offset + 3)

/-- `_is_message_type`. -/
def isMessageType (msgType : ℕ) : Bool :=
  msgType = typeRequest || msgType = typeResponse || msgType = typeError

/-- `buffer.slice(start, stop)`. -/
def slice (buffer : List UInt8) (start stop : ℕ) : List UInt8 := (buffer.take stop).drop start

/-- The loop of `decode_frames`: the frames from an offset on and the offset it ends at. Each round
but the last moves the offset forward. -/
def decodeLoop (buffer : List UInt8) : ℕ → ℕ → List Frame × ℕ
  | 0, offset => ([], offset)
  | n + 1, offset =>
    if buffer.length < offset + headerSize then ([], offset)
    else if readU16Be buffer offset ≠ magic then decodeLoop buffer n (offset + 1)
    else
      let totalLength := readU32Be buffer (offset + 2)
      if totalLength < headerSize ∨ maxFrameSize < totalLength then
        decodeLoop buffer n (offset + 1)
      else if buffer.length < offset + totalLength then ([], offset)
      else
        let msgType := byteAt buffer (offset + 10)
        let methodLength := readU16Be buffer (offset + 11)
        let payloadLength := totalLength - headerSize
        let rest := decodeLoop buffer n (offset + totalLength)
        if isMessageType msgType = false ∨ payloadLength < methodLength then rest
        else
          let methodStart := offset + headerSize
          let bodyStart := methodStart + methodLength
          ({ requestId := readU32Be buffer (offset + 6)
             msgType := msgType
             method := slice buffer methodStart bodyStart
             body := slice buffer bodyStart (offset + totalLength) } :: rest.1, rest.2)

/-- `decode_frames`. -/
def decodeFrames (buffer : List UInt8) : Decoded :=
  let r := decodeLoop buffer buffer.length 0
  ⟨r.1, buffer.drop r.2⟩

/-- `_read_available_bytes` of `rpc_client.gd`, with the bytes it gets: the frames dispatched so far
and what is kept in `_receive_buffer`. -/
def readAvailableBytes (received : Decoded) (bytes : List UInt8) : Decoded :=
  let decoded := decodeFrames (received.leftover ++ bytes)
  ⟨received.frames ++ decoded.frames, decoded.leftover⟩

/-! ## Writing -/

/-- `_write_u16_be`. -/
def writeU16Be (value : ℕ) : List UInt8 :=
  [UInt8.ofNat (value >>> 8 &&& 0xFF), UInt8.ofNat (value &&& 0xFF)]

/-- `_write_u32_be`. -/
def writeU32Be (value : ℕ) : List UInt8 :=
  [UInt8.ofNat (value >>> 24 &&& 0xFF), UInt8.ofNat (value >>> 16 &&& 0xFF),
    UInt8.ofNat (value >>> 8 &&& 0xFF), UInt8.ofNat (value &&& 0xFF)]

/-- `encode`, with the bytes of the method; where a limit is exceeded there is no frame. -/
def encode (requestId msgType : ℕ) (methodBytes body : List UInt8) : List UInt8 :=
  if 0xFFFF < methodBytes.length then []
  else
    let totalLength := headerSize + methodBytes.length + body.length
    if maxFrameSize < totalLength then []
    else
      writeU16Be magic ++ writeU32Be totalLength ++ writeU32Be requestId ++
        [UInt8.ofNat (msgType &&& 0xFF)] ++ writeU16Be methodBytes.length ++ methodBytes ++ body

end TinRpc.FrameCodec
