import TinRpc.Lib.Memory

/-!
# The frame layer

The constants and byte-order helpers of `include/rpc/common.h`, `ProtocolFrame` of
`src/protocol.cpp` and `Buffer` of `src/buffer.cpp`. Byte strings are lists; the host is
little-endian, so a `memcpy` from the wire followed by `NetworkToHost` reads a big-endian number.
-/

namespace TinRpc.Rpc

open Memory

/-- `HostToNetwork32`. -/
def hostToNetwork32 (host32 : UInt32) : UInt32 :=
  ((host32 &&& 0x000000FF) <<< 24) ||| ((host32 &&& 0x0000FF00) <<< 8) |||
    ((host32 &&& 0x00FF0000) >>> 8) ||| ((host32 &&& 0xFF000000) >>> 24)

/-- `NetworkToHost32`. -/
def networkToHost32 (net32 : UInt32) : UInt32 := hostToNetwork32 net32

/-- `HostToNetwork64`. -/
def hostToNetwork64 (host64 : UInt64) : UInt64 :=
  ((host64 &&& 0x00000000000000FF) <<< 56) ||| ((host64 &&& 0x000000000000FF00) <<< 40) |||
    ((host64 &&& 0x0000000000FF0000) <<< 24) ||| ((host64 &&& 0x00000000FF000000) <<< 8) |||
    ((host64 &&& 0x000000FF00000000) >>> 8) ||| ((host64 &&& 0x0000FF0000000000) >>> 24) |||
    ((host64 &&& 0x00FF000000000000) >>> 40) ||| ((host64 &&& 0xFF00000000000000) >>> 56)

/-- `NetworkToHost64`. -/
def networkToHost64 (net64 : UInt64) : UInt64 := hostToNetwork64 net64

/-- `HostToNetwork16`. -/
def hostToNetwork16 (host16 : UInt16) : UInt16 :=
  ((host16 &&& 0x00FF) <<< 8) ||| ((host16 &&& 0xFF00) >>> 8)

/-- `NetworkToHost16`. -/
def networkToHost16 (net16 : UInt16) : UInt16 := hostToNetwork16 net16

/-- `MessageType`, an enumeration over `uint8_t`: any byte can be cast to it, three have names. -/
structure MessageType where
  byte : UInt8
  deriving DecidableEq, Repr

namespace MessageType

def request : MessageType := ⟨0x01⟩
def response : MessageType := ⟨0x02⟩
def error : MessageType := ⟨0x03⟩

end MessageType

def kProtocolMagic : UInt16 := 0xBABE
def kFrameHeaderSize : ℕ := 13
def kMaxFrameSize : ℕ := 10 * 1024 * 1024

/-- `Frame`. -/
structure Frame where
  requestId : UInt32
  msgType : MessageType
  methodName : List UInt8
  body : List UInt8
  deriving DecidableEq, Repr

/-- `std::memcpy(&v, bytes + pos, 2)`. -/
def memcpy16 (bytes : List UInt8) (pos : ℕ) : UInt16 :=
  load16 (bytes.getD pos 0) (bytes.getD (pos + 1) 0)

/-- `std::memcpy(&v, bytes + pos, 4)`. -/
def memcpy32 (bytes : List UInt8) (pos : ℕ) : UInt32 :=
  load32 (bytes.getD pos 0) (bytes.getD (pos + 1) 0) (bytes.getD (pos + 2) 0)
    (bytes.getD (pos + 3) 0)

/-- `std::memcpy(&v, bytes + pos, 8)`. -/
def memcpy64 (bytes : List UInt8) (pos : ℕ) : UInt64 :=
  load64 (bytes.getD pos 0) (bytes.getD (pos + 1) 0) (bytes.getD (pos + 2) 0)
    (bytes.getD (pos + 3) 0) (bytes.getD (pos + 4) 0) (bytes.getD (pos + 5) 0)
    (bytes.getD (pos + 6) 0) (bytes.getD (pos + 7) 0)

namespace ProtocolFrame

/-- `ProtocolFrame::Encode`. The two lengths are cut to the width of their fields. -/
def encode (requestId : UInt32) (msgType : MessageType) (methodName body : List UInt8) :
    List UInt8 :=
  let totalLen := UInt32.ofNat (kFrameHeaderSize + methodName.length + body.length)
  let mnameLen := UInt16.ofNat methodName.length
  store16 (hostToNetwork16 kProtocolMagic) ++ store32 (hostToNetwork32 totalLen)
    ++ store32 (hostToNetwork32 requestId) ++ [msgType.byte]
    ++ store16 (hostToNetwork16 mnameLen) ++ methodName ++ body

/-- `ProtocolFrame::Decode`. -/
def decode (rawFrame : List UInt8) : Option Frame :=
  let size := rawFrame.length
  if size < kFrameHeaderSize then none
  else if networkToHost16 (memcpy16 rawFrame 0) ≠ kProtocolMagic then none
  else
    let totalLen := networkToHost32 (memcpy32 rawFrame 2)
    if totalLen.toNat < kFrameHeaderSize ∨ kMaxFrameSize < totalLen.toNat then none
    else if totalLen.toNat ≠ size then none
    else
      let requestId := networkToHost32 (memcpy32 rawFrame 6)
      let msgByte := rawFrame.getD 10 0
      if msgByte ≠ MessageType.request.byte ∧ msgByte ≠ MessageType.response.byte
          ∧ msgByte ≠ MessageType.error.byte then none
      else
        let mnameLen := networkToHost16 (memcpy16 rawFrame 11)
        let remaining := size - 13
        if remaining < mnameLen.toNat then none
        else some
          { requestId := requestId
            msgType := ⟨msgByte⟩
            methodName := (rawFrame.drop 13).take mnameLen.toNat
            body := rawFrame.drop (13 + mnameLen.toNat) }

end ProtocolFrame

/-- A frame's bytes on the wire. -/
def Frame.encode (f : Frame) : List UInt8 :=
  ProtocolFrame.encode f.requestId f.msgType f.methodName f.body

/-- The frames the wire format can carry: a named type, a method whose length fits its field, and
no more bytes than the limit. -/
structure Frame.Legal (f : Frame) : Prop where
  type : f.msgType = .request ∨ f.msgType = .response ∨ f.msgType = .error
  method : f.methodName.length ≤ 65535
  size : 13 + f.methodName.length + f.body.length ≤ kMaxFrameSize

instance (f : Frame) : Decidable f.Legal :=
  decidable_of_iff ((f.msgType = .request ∨ f.msgType = .response ∨ f.msgType = .error)
    ∧ f.methodName.length ≤ 65535 ∧ 13 + f.methodName.length + f.body.length ≤ kMaxFrameSize)
    ⟨fun h => ⟨h.1, h.2.1, h.2.2⟩, fun h => ⟨h.type, h.method, h.size⟩⟩

/-- `Buffer`: the bytes that have arrived and are not yet cut into frames. -/
structure Buffer where
  buf : List UInt8 := []
  deriving DecidableEq, Repr

namespace Buffer

/-- `Buffer::Append`. -/
def append (b : Buffer) (data : List UInt8) : Buffer := ⟨b.buf ++ data⟩

/-- `Buffer::TryPopFrame`. -/
def tryPopFrame (b : Buffer) : Option (List UInt8 × Buffer) :=
  if b.buf.length < 6 then none
  else if networkToHost16 (memcpy16 b.buf 0) ≠ kProtocolMagic then none
  else
    let totalLen := networkToHost32 (memcpy32 b.buf 2)
    if totalLen.toNat < kFrameHeaderSize ∨ kMaxFrameSize < totalLen.toNat then none
    else if b.buf.length < totalLen.toNat then none
    else some (b.buf.take totalLen.toNat, ⟨b.buf.drop totalLen.toNat⟩)

/-- `TryPopFrame` until it gives nothing; each round takes bytes off. -/
def popLoop : ℕ → Buffer → List (List UInt8) × Buffer
  | 0, b => ([], b)
  | n + 1, b =>
    match b.tryPopFrame with
    | none => ([], b)
    | some (frameBytes, rest) => (frameBytes :: (popLoop n rest).1, (popLoop n rest).2)

def popAll (b : Buffer) : List (List UInt8) × Buffer := popLoop b.buf.length b

/-- A call on the buffer. -/
inductive Op
  | append (data : List UInt8)
  | tryPopFrame
  deriving DecidableEq, Repr

/-- What a call appends. -/
def Op.data : Op → List UInt8
  | .append data => data
  | .tryPopFrame => []

/-- One call, beside the frames popped so far. -/
def apply (s : Buffer × List (List UInt8)) : Op → Buffer × List (List UInt8)
  | .append data => (s.1.append data, s.2)
  | .tryPopFrame =>
    match s.1.tryPopFrame with
    | none => s
    | some (frameBytes, rest) => (rest, s.2 ++ [frameBytes])

/-- Calls on a new buffer. -/
def run (ops : List Op) : Buffer × List (List UInt8) := ops.foldl apply ({}, [])

end Buffer

end TinRpc.Rpc
