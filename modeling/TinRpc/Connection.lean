import TinRpc.Lib.Reach
import TinRpc.Protocol

/-!
# A connection

`Connection` of `src/connection.cpp`. What each system call answers is given to the functions that
make it; a list of answers that runs out goes on with `EAGAIN`. Beside its own fields a connection
carries what the kernel holds for its descriptor and a record of what went through it.
-/

namespace TinRpc.Rpc

def EPOLLIN : UInt32 := 0x001
def EPOLLOUT : UInt32 := 0x004
def EPOLLERR : UInt32 := 0x008
def EPOLLHUP : UInt32 := 0x010
def EPOLLRDHUP : UInt32 := 0x2000
def EPOLLET : UInt32 := 0x80000000

/-- `errno` after a call that returned `-1`; `EAGAIN` and `EWOULDBLOCK` are one number. -/
inductive Errno
  | again | intr | other
  deriving DecidableEq, Repr

/-- What `recv` returns: the bytes it wrote to `tmp`, none of them at the peer's close. -/
inductive Recv
  | bytes (data : List UInt8)
  | error (errno : Errno)
  deriving DecidableEq, Repr

/-- What `send` returns: how many bytes the kernel took, at most those it was given. -/
inductive Sent
  | bytes (n : ℕ)
  | error (errno : Errno)
  deriving DecidableEq, Repr

/-- The bytes a `recv` loop gets. -/
def received : List Recv → List UInt8
  | .bytes (x :: data) :: rs => x :: data ++ received rs
  | .error .intr :: rs => received rs
  | _ => []

/-- A `recv` loop meets the peer's close, or an error that is not one of `EAGAIN` and `EINTR`. -/
def ends : List Recv → Bool
  | .bytes (_ :: _) :: rs => ends rs
  | .bytes [] :: _ => true
  | .error .intr :: rs => ends rs
  | .error .other :: _ => true
  | _ => false

structure Connection where
  readBuffer : Buffer := {}
  writeBuffer : List UInt8 := []
  writeOffset : ℕ := 0
  /-- The mask `epoll` watches the descriptor with, nothing once it is unregistered. -/
  events : UInt32 := EPOLLIN ||| EPOLLRDHUP ||| EPOLLET
  /-- `OnClose` has run: the handler is destroyed. -/
  closed : Bool := false
  /-- What the kernel has taken from `send`. -/
  accepted : List UInt8 := []
  /-- What `OnWrite` gave to `send`: offset and length, with the size of the buffer. -/
  ranges : List (ℕ × ℕ × ℕ) := []
  /-- What `Decode` made of each frame cut off the read buffer. -/
  handled : List (Option Frame) := []
  deriving DecidableEq, Repr

namespace Connection

/-- `EventLoop::UpdateEvents` on the connection's descriptor. -/
def updateEvents (c : Connection) (events : UInt32) : Connection := { c with events := events }

/-- `Connection::OnClose`: the loop unregisters the descriptor and destroys the handler. -/
def onClose (c : Connection) : Connection := { c with closed := true, events := 0 }

/-- The `recv` loop of `OnRead`, and whether it was left by `break` rather than by closing. -/
def recvLoop (c : Connection) : List Recv → Connection × Bool
  | [] => (c, true)
  | .bytes [] :: _ => (c.onClose, false)
  | .bytes (x :: data) :: rs =>
    recvLoop { c with readBuffer := c.readBuffer.append (x :: data) } rs
  | .error .again :: _ => (c, true)
  | .error .intr :: rs => recvLoop c rs
  | .error .other :: _ => (c.onClose, false)

/-- The loop of `OnRead` over complete frames; each round takes bytes off the buffer. A frame that
does not decode is dropped. -/
def frameLoop : ℕ → Connection → Connection
  | 0, c => c
  | n + 1, c =>
    match c.readBuffer.tryPopFrame with
    | none => c
    | some (frameBytes, rest) =>
      frameLoop n { c with
        readBuffer := rest
        handled := c.handled ++ [ProtocolFrame.decode frameBytes] }

/-- `Connection::OnRead`. -/
def onRead (c : Connection) (rs : List Recv) : Connection :=
  let r := c.recvLoop rs
  if r.2 then frameLoop r.1.readBuffer.buf.length r.1 else r.1

/-- `Connection::Send`, with what its direct `send` returns. -/
def send (c : Connection) (data : List UInt8) (r : Sent) : Connection :=
  let arm (c : Connection) := c.updateEvents (EPOLLIN ||| EPOLLRDHUP ||| EPOLLOUT ||| EPOLLET)
  if c.writeBuffer = [] then
    match r with
    | .bytes k =>
      let n := min k data.length
      let c := { c with accepted := c.accepted ++ data.take n }
      if n = data.length then c
      else if 0 < n then arm { c with writeBuffer := c.writeBuffer ++ data.drop n }
      else arm { c with writeBuffer := c.writeBuffer ++ data }
    | .error _ => arm { c with writeBuffer := c.writeBuffer ++ data }
  else arm { c with writeBuffer := c.writeBuffer ++ data }

/-- `Connection::OnWrite`. -/
def onWrite (c : Connection) : List Sent → Connection
  | [] => c
  | r :: rs =>
    if c.writeBuffer = [] then c
    else
      let remaining := c.writeBuffer.length - c.writeOffset
      let c := { c with
        ranges := c.ranges ++ [(c.writeOffset, remaining, c.writeBuffer.length)] }
      match r with
      | .bytes k =>
        let n := min k remaining
        if 0 < n then
          let c := { c with
            accepted := c.accepted ++ (c.writeBuffer.drop c.writeOffset).take n
            writeOffset := c.writeOffset + n }
          if c.writeBuffer.length ≤ c.writeOffset then
            { c with writeBuffer := [], writeOffset := 0 }.updateEvents
              (EPOLLIN ||| EPOLLRDHUP ||| EPOLLET)
          else c.onWrite rs
        else c.onClose
      | .error .again => c
      | .error _ => c.onClose

/-- The bytes of the write buffer that are not sent. -/
def unsent (c : Connection) : List UInt8 := c.writeBuffer.drop c.writeOffset

/-! ## Calls on a connection -/

/-- A call of one of the connection's functions, with the answers of the kernel. -/
inductive Call
  | send (data : List UInt8) (r : Sent)
  | onWrite (rs : List Sent)
  | onRead (rs : List Recv)
  | onClose
  deriving DecidableEq, Repr

/-- What a call passes to `Send`. -/
def Call.data : Call → List UInt8
  | .send data _ => data
  | _ => []

/-- A call of `Send`, or of `OnWrite` where each `send` takes some bytes or answers `EAGAIN`. -/
def Call.Sends : Call → Prop
  | .send _ _ => True
  | .onWrite rs => ∀ r ∈ rs, r = .error .again ∨ ∃ k, r = .bytes (k + 1)
  | _ => False

/-- The functions are called while the handler exists. -/
def step (c : Connection) (call : Call) : Option Connection :=
  if c.closed then none
  else
    match call with
    | .send data r => some (c.send data r)
    | .onWrite rs => some (c.onWrite rs)
    | .onRead rs => some (c.onRead rs)
    | .onClose => some c.onClose

/-- A run of calls on a new connection. -/
def run (calls : List Call) : Option Connection := calls.foldlM step {}

/-- `OnRead` once for each delivery, until the connection is closed. -/
def readAll : Connection → List (List Recv) → Connection
  | c, [] => c
  | c, d :: ds => if c.closed then c else (c.onRead d).readAll ds

end Connection

end TinRpc.Rpc
