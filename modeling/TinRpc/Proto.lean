import TinRpc.Lobby
import TinRpc.Score

/-!
# The messages of the lobby on the wire

The requests of `proto/game.proto` read from, and the lobby's messages written to, the protobuf wire
format. Of strings only those in ASCII are read; the old group fields are refused.
-/

namespace TinRpc

namespace Proto

/-- The value of a field. -/
inductive Wire
  | varint (n : ℕ)
  | fixed64 (n : ℕ)
  | bytes (b : List UInt8)
  | fixed32 (n : ℕ)

/-! ## Reading -/

/-- A varint of at most so many bytes, and what follows it. -/
def readVarint : ℕ → List UInt8 → Option (ℕ × List UInt8)
  | 0, _ => none
  | _, [] => none
  | k + 1, b :: rest =>
    if b < 128 then some (b.toNat, rest)
    else (readVarint k rest).map fun r => (b.toNat - 128 + 128 * r.1, r.2)

/-- A number with its least byte first. -/
def littleEndian : List UInt8 → ℕ
  | [] => 0
  | b :: rest => b.toNat + 256 * littleEndian rest

/-- A first part of a list, if it is long enough, and the rest. -/
def splitAt (k : ℕ) (body : List UInt8) : Option (List UInt8 × List UInt8) :=
  if k ≤ body.length then some (body.take k, body.drop k) else none

/-- A field of a wire type, and what follows it. -/
def readWire (wireType : ℕ) (body : List UInt8) : Option (Wire × List UInt8) :=
  match wireType with
  | 0 => (readVarint 10 body).map fun r => (.varint r.1, r.2)
  | 1 => (splitAt 8 body).map fun r => (.fixed64 (littleEndian r.1), r.2)
  | 2 => (readVarint 5 body).bind fun r => (splitAt r.1 r.2).map fun s => (.bytes s.1, s.2)
  | 5 => (splitAt 4 body).map fun r => (.fixed32 (littleEndian r.1), r.2)
  | _ => none

/-- The fields of a message with their numbers; a field takes at least a byte. -/
def readFields : ℕ → List UInt8 → Option (List (ℕ × Wire))
  | _, [] => some []
  | 0, _ :: _ => none
  | n + 1, body => (readVarint 5 body).bind fun tag =>
      if tag.1 / 8 = 0 then none
      else (readWire (tag.1 % 8) tag.2).bind fun r =>
        (readFields n r.2).map fun rest => (tag.1 / 8, r.1) :: rest

def parse (body : List UInt8) : Option (List (ℕ × Wire)) := readFields body.length body

/-- The last value of a field that has the right type, else the default. -/
def field {α : Type} (read : Wire → Option α) (default : α) (fields : List (ℕ × Wire)) (k : ℕ) :
    α :=
  ((fields.filter fun f => f.1 = k).filterMap fun f => read f.2).getLast?.getD default

def int (fields : List (ℕ × Wire)) (k : ℕ) : ℕ :=
  field (fun | .varint n => some n | _ => none) 0 fields k

def bytes (fields : List (ℕ × Wire)) (k : ℕ) : List UInt8 :=
  field (fun | .bytes b => some b | _ => none) [] fields k

/-- A string field, which has to be text. -/
def text (fields : List (ℕ × Wire)) (k : ℕ) : Option String :=
  let b := bytes fields k
  if b.all (· < 128) then some (String.ofList (b.map fun c => Char.ofNat c.toNat)) else none

/-- The `double` with these bits. -/
def double (bits : ℕ) : Score :=
  let negative : Bool := decide (2 ^ 63 ≤ bits)
  let exponent : ℕ := bits / 2 ^ 52 % 2 ^ 11
  let fraction : ℕ := bits % 2 ^ 52
  if exponent = 2 ^ 11 - 1 then if fraction = 0 then .inf negative else .nan
  else
    let m : ℕ := if exponent = 0 then fraction else 2 ^ 52 + fraction
    let m : ℤ := if negative then -m else m
    let e := max exponent 1
    if 1075 ≤ e then .fin (m * 2 ^ (e - 1075)) else .fin (mkRat m (2 ^ (1075 - e)))

def score (fields : List (ℕ × Wire)) (k : ℕ) : Score :=
  double (field (fun | .fixed64 n => some n | _ => none) 0 fields k)

/-! ## Writing -/

def writeVarint : ℕ → ℕ → List UInt8
  | 0, _ => []
  | k + 1, n =>
    if n < 128 then [UInt8.ofNat n] else UInt8.ofNat (n % 128 + 128) :: writeVarint k (n / 128)

/-- A number; zero is not written, and a negative one is written in 64 bits. -/
def putInt (k : ℕ) (n : ℤ) : List UInt8 :=
  if n = 0 then [] else writeVarint 5 (8 * k) ++ writeVarint 10 (n % 2 ^ 64).toNat

def putBytes (k : ℕ) (b : List UInt8) : List UInt8 :=
  writeVarint 5 (8 * k + 2) ++ writeVarint 5 b.length ++ b

def putText (k : ℕ) (s : String) : List UInt8 :=
  if s = "" then [] else putBytes k s.toUTF8.data.toList

def putBool (k : ℕ) (b : Bool) : List UInt8 := if b then putInt k 1 else []

def status : RoomStatus → ℤ
  | .unspecified => 0
  | .idle => 1
  | .waiting => 2
  | .playing => 3
  | .finished => 4
  | .destroyed => 5

def code : ErrorCode → ℤ
  | .none => 0
  | .roomNotFound => 1
  | .roomFull => 2
  | .roomNotJoinable => 3
  | .playerAlreadyInRoom => 4
  | .playerNotInRoom => 5
  | .notOwner => 6
  | .wrongRoomState => 7

def roomInfo (r : RoomInfo) : List UInt8 :=
  putText 1 r.roomId ++ putInt 3 r.playerCount.toInt ++ putInt 4 r.maxPlayers.toInt ++
    putInt 5 (status r.roomState)

/-- The fields of a response that has no others. -/
def response (success : Bool) (errorMsg : String) (errorCode : ErrorCode) : List UInt8 :=
  putBool 1 success ++ putText 2 errorMsg ++ putInt 3 (code errorCode)

/-- The fields of a response with a room. -/
def roomResponse (success : Bool) (info : Option RoomInfo) (errorMsg : String)
    (errorCode : ErrorCode) : List UInt8 :=
  putBool 1 success ++ (match info with
    | none => []
    | some r => putBytes 2 (roomInfo r)) ++ putText 3 errorMsg ++ putInt 4 (code errorCode)

def serialize : LobbyMessage → List UInt8
  | .createRoomRes success info errorMsg errorCode => roomResponse success info errorMsg errorCode
  | .joinRoomRes success info errorMsg errorCode => roomResponse success info errorMsg errorCode
  | .leaveRoomRes success errorMsg errorCode => response success errorMsg errorCode
  | .sendMessageRes success errorMsg errorCode => response success errorMsg errorCode
  | .getRoomListRes rooms => rooms.flatMap fun r => putBytes 1 (roomInfo r)
  | .startGameRes success errorMsg errorCode => response success errorMsg errorCode
  | .sendInputRes success errorMsg errorCode => response success errorMsg errorCode
  | .stopGameRes success errorMsg errorCode => response success errorMsg errorCode
  | .matchPlayerRes success => putBool 1 success
  | .cancelMatchRes success => putBool 1 success
  | .getMetricsRes success activeConnections totalRooms totalRequests matchQueueSize errorCount =>
    putBool 1 success ++ putInt 3 activeConnections ++ putInt 4 totalRooms ++
      putInt 5 totalRequests ++ putInt 10 matchQueueSize ++ putInt 11 errorCount
  | .playerJoinNtf roomId playerId playerCount =>
    putText 1 roomId ++ putText 2 playerId ++ putInt 3 playerCount.toInt
  | .playerLeaveNtf roomId playerId playerCount =>
    putText 1 roomId ++ putText 2 playerId ++ putInt 3 playerCount.toInt
  | .gameStartNtf roomId timestamp => putText 1 roomId ++ putInt 2 timestamp
  | .roomBroadcastMsg roomId senderId content timestamp =>
    putText 1 roomId ++ putText 2 senderId ++ putText 3 content ++ putInt 4 timestamp
  | .matchFoundNtf roomId playerId opponentId timeoutSec =>
    putText 1 roomId ++ putText 2 playerId ++ putText 3 opponentId ++ putInt 5 timeoutSec

end Proto

open Proto in
/-- The messages of the lobby as protobuf has them, but that a body with an old group field is
refused, and that of a string a body has more than once only the last one has to be text. -/
instance : GameProto Score where
  createRoomReq body := do
    let f ← parse body
    return ⟨← text f 1, ← text f 2, Int32.ofNat (int f 3)⟩
  joinRoomReq body := do
    let f ← parse body
    return ⟨← text f 1, ← text f 2⟩
  leaveRoomReq body := do
    let f ← parse body
    return ⟨← text f 1, ← text f 2⟩
  sendMessageReq body := do
    let f ← parse body
    return ⟨← text f 1, ← text f 2, ← text f 3⟩
  getRoomListReq body := (parse body).isSome
  startGameReq body := do
    let f ← parse body
    return ⟨← text f 1, ← text f 2⟩
  playerInputReq body := do
    let f ← parse body
    return ⟨UInt32.ofNat (int f 1), ← text f 2, bytes f 3⟩
  stopGameReq body := do
    let f ← parse body
    return ⟨← text f 1, ← text f 2⟩
  matchPlayerReq body := do
    let f ← parse body
    return ⟨← text f 1, score f 2⟩
  cancelMatchReq body := do
    let f ← parse body
    text f 1
  serialize := serialize

end TinRpc
