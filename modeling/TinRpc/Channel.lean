import TinRpc.EventLoop

/-!
# A connection and its peer

What `EventLoop::Run` does to one connection, together with the two ends of the socket: the peer
sends bytes and at some time closes its side, the kernel keeps what `recv` has not returned. The
peer may do both between any two calls of `recv`. `epoll` reports a hang-up just when the peer has
closed, and there are no errors.
-/

namespace TinRpc.Rpc

/-- The body of `Run` for an event of a connection that exists, with what the system calls made on
its account return. Once it is closed nothing more is done to it. -/
def Connection.onEvent (c : Connection) (events : UInt32) (recvs : List Recv) (sends : List Sent) :
    Connection :=
  if events &&& (EPOLLERR ||| EPOLLHUP ||| EPOLLRDHUP) ≠ 0 then c.onClose
  else
    let c := if events &&& EPOLLIN ≠ 0 then c.onRead recvs else c
    if c.closed then c
    else if events &&& EPOLLOUT ≠ 0 then c.onWrite sends
    else c

/-- A `send` takes some bytes, or it would block. -/
def Sent.works : Sent → Bool
  | .bytes n => decide (0 < n)
  | .error errno => decide (errno = .again)

structure Channel where
  conn : Connection := {}
  /-- Sent by the peer and not returned by `recv`. -/
  unread : List UInt8 := []
  /-- The peer has closed its side. -/
  fin : Bool := false
  /-- The event whose `OnRead` is in its loop, and what `recv` has returned there. -/
  reading : Option (UInt32 × List Recv) := none
  /-- All that the peer has sent. -/
  sent : List UInt8 := []
  deriving DecidableEq

namespace Channel

inductive Event
  /-- The peer sends, or closes its side. -/
  | peerSend (data : List UInt8)
  | peerClose
  /-- `epoll_wait` returns an event, with what `send` returns if it is written to on its account. -/
  | ready (events : UInt32) (sends : List Sent)
  /-- `recv` returns so many bytes, is interrupted, or finds nothing: it would block, or returns
  zero when the peer has closed. -/
  | recv (n : ℕ)
  | interrupted
  | drained (sends : List Sent)
  /-- `Connection::Send` is called. -/
  | send (data : List UInt8) (r : Sent)
  deriving DecidableEq

/-- What `recv` has returned in the loop of `OnRead` that is running. -/
def got (s : Channel) : List UInt8 :=
  match s.reading with
  | none => []
  | some r => received r.2

/-- The read buffer, had it all that the peer has sent. -/
def pending (s : Channel) : Buffer := s.conn.readBuffer.append (s.got ++ s.unread)

def step (s : Channel) : Event → Option Channel
  | .peerSend data =>
    if s.fin then none else some { s with unread := s.unread ++ data, sent := s.sent ++ data }
  | .peerClose => if s.fin then none else some { s with fin := true }
  | .ready events sends =>
    if s.conn.closed || s.reading.isSome || !sends.all Sent.works ||
        decide (events &&& (EPOLLERR ||| EPOLLHUP ||| EPOLLRDHUP) ≠ 0) != s.fin then none
    else if !s.fin && decide (events &&& EPOLLIN ≠ 0) then some { s with reading := some (events, []) }
    else some { s with conn := s.conn.onEvent events [] sends }
  | .recv n =>
    match s.reading with
    | none => none
    | some (events, recvs) =>
      if n = 0 ∨ 4096 < n ∨ s.unread.length < n then none
      else some { s with
        reading := some (events, recvs ++ [.bytes (s.unread.take n)])
        unread := s.unread.drop n }
  | .interrupted =>
    match s.reading with
    | none => none
    | some (events, recvs) =>
      some { s with reading := some (events, recvs ++ [.error .intr]) }
  | .drained sends =>
    match s.reading with
    | none => none
    | some (events, recvs) =>
      if s.unread ≠ [] ∨ sends.all Sent.works = false then none
      else
        let last := if s.fin then .bytes [] else .error .again
        some { s with
          conn := s.conn.onEvent events (recvs ++ [last]) sends
          reading := none }
  | .send data r =>
    if s.conn.closed || s.reading.isSome then none else some { s with conn := s.conn.send data r }

end Channel

end TinRpc.Rpc
