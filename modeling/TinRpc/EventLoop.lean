import TinRpc.Connection
import TinRpc.Lib.Table

/-!
# The event loop

`EventLoop` of `src/event_loop.cpp` with the two handlers registered with it: `Acceptor` of
`src/acceptor.cpp` and `Connection`. A handler is an object, known by how many were registered
before it: a descriptor that is closed and opened again gets another one. An event brings with it
what the system calls made on its account answer and what the callbacks run on its account do.
-/

namespace TinRpc.Rpc

/-- What `accept` returns. -/
inductive Accept
  | fd (fd : ℤ)
  | error (errno : Errno)
  deriving DecidableEq, Repr

/-- A class derived from `EventHandler`. -/
inductive Handler
  | acceptor
  | connection (c : Connection)
  deriving DecidableEq, Repr

/-- What code other than the handlers' own does to the loop and its handlers: it may pass data to
a connection's `Send`, register a new acceptor or connection, and unregister any descriptor. -/
inductive Callback
  | send (fd : ℤ) (data : List UInt8) (r : Sent)
  | registerAcceptor (fd : ℤ)
  | registerConnection (fd : ℤ)
  | unregister (fd : ℤ)
  deriving DecidableEq, Repr

/-- An `epoll_event`, with the answers of the kernel while it is handled. -/
structure Event where
  fd : ℤ
  events : UInt32
  accepts : List Accept := []
  recvs : List Recv := []
  sends : List Sent := []
  /-- What the frame callback passes to `Send`, to which connection, during `OnRead`. -/
  replies : List (ℤ × List UInt8 × Sent) := []
  /-- The pending callbacks, when the event is the wakeup. -/
  callbacks : List Callback := []

structure EventLoop where
  wakeupFd : ℤ
  /-- `handlers_`, each handler with its number. -/
  handlers : Table ℤ (ℕ × Handler) := ∅
  nextId : ℕ := 0
  /-- An exception has left `Run`. -/
  threw : Bool := false

/-- The functions `Run` calls on a handler. -/
inductive Method
  | onRead | onWrite | onClose
  deriving DecidableEq, Repr

/-- A call `Run` makes, and whether the handler is in `handlers_` at that moment. -/
structure Invocation where
  fd : ℤ
  handler : ℕ
  method : Method
  live : Bool
  deriving DecidableEq, Repr

namespace EventLoop

/-- `EventLoop::Register`. `epoll_ctl` refuses a descriptor that it watches already. -/
def register (l : EventLoop) (fd : ℤ) (h : Handler) : EventLoop :=
  if fd = l.wakeupFd ∨ fd ∈ l.handlers then { l with threw := true }
  else { l with handlers := l.handlers.insert fd (l.nextId, h), nextId := l.nextId + 1 }

/-- `EventLoop::Unregister`: the handler is destroyed. -/
def unregister (l : EventLoop) (fd : ℤ) : EventLoop :=
  { l with handlers := l.handlers.erase fd }

/-- A connection after one of its functions: gone if it closed. -/
def settle (l : EventLoop) (fd : ℤ) (i : ℕ) (c : Connection) : EventLoop :=
  if c.closed then l.unregister fd
  else { l with handlers := l.handlers.insert fd (i, .connection c) }

/-- `Connection::Send` on the connection with this descriptor. -/
def sendOn (l : EventLoop) (fd : ℤ) (data : List UInt8) (r : Sent) : EventLoop :=
  match l.handlers.lookup fd with
  | some (i, .connection c) => l.settle fd i (c.send data r)
  | _ => l

/-- `Acceptor::OnRead`. -/
def acceptLoop (l : EventLoop) : List Accept → EventLoop
  | [] => l
  | .fd fd :: as =>
    let l := l.register fd (.connection {})
    if l.threw then l else l.acceptLoop as
  | .error .intr :: as => l.acceptLoop as
  | .error _ :: _ => l

def runCallback (l : EventLoop) : Callback → EventLoop
  | .send fd data r => l.sendOn fd data r
  | .registerAcceptor fd => l.register fd .acceptor
  | .registerConnection fd => l.register fd (.connection {})
  | .unregister fd => l.unregister fd

/-- Callbacks one after the other, until an exception. -/
def runCallbacks : EventLoop → List Callback → EventLoop
  | l, [] => l
  | l, cb :: cbs => if l.threw then l else (l.runCallback cb).runCallbacks cbs

/-- A virtual call on a handler that exists. -/
def call (l : EventLoop) (fd : ℤ) (i : ℕ) (h : Handler) (m : Method) (e : Event) : EventLoop :=
  match h, m with
  | .acceptor, .onRead => l.acceptLoop e.accepts
  | .acceptor, .onWrite => l
  | .acceptor, .onClose => l
  | .connection c, .onRead =>
    let c := c.onRead e.recvs
    if c.closed then l.settle fd i c
    else e.replies.foldl (fun l r => l.sendOn r.1 r.2.1 r.2.2) (l.settle fd i c)
  | .connection c, .onWrite => l.settle fd i (c.onWrite e.sends)
  | .connection c, .onClose => l.settle fd i c.onClose

/-- `handler->m()` where `handler` points to what was registered as number `i`. What the call does
to an object that is gone is not defined; here it does nothing. -/
def invoke (l : EventLoop) (fd : ℤ) (i : ℕ) (m : Method) (e : Event) :
    EventLoop × List Invocation :=
  match l.handlers.lookup fd with
  | some (j, h) =>
    if j = i then (l.call fd i h m e, [⟨fd, i, m, true⟩]) else (l, [⟨fd, i, m, false⟩])
  | none => (l, [⟨fd, i, m, false⟩])

/-- The body of `Run` for one event. -/
def dispatch (l : EventLoop) (e : Event) : EventLoop × List Invocation :=
  if e.fd = l.wakeupFd then (l.runCallbacks e.callbacks, [])
  else
    match l.handlers.lookup e.fd with
    | none => (l, [])
    | some (i, _) =>
      if e.events &&& (EPOLLERR ||| EPOLLHUP ||| EPOLLRDHUP) ≠ 0 then l.invoke e.fd i .onClose e
      else
        let r := if e.events &&& EPOLLIN ≠ 0 then l.invoke e.fd i .onRead e else (l, [])
        if r.1.threw then r
        else
          let w := if e.events &&& EPOLLOUT ≠ 0 then r.1.invoke e.fd i .onWrite e else (r.1, [])
          (w.1, r.2 ++ w.2)

/-- Events one after the other, until an exception. -/
def runEvents : EventLoop → List Event → EventLoop × List Invocation
  | l, [] => (l, [])
  | l, e :: es =>
    if l.threw then (l, [])
    else
      let r := l.dispatch e
      let t := r.1.runEvents es
      (t.1, r.2 ++ t.2)

/-- `EventLoop::Run` on the batches `epoll_wait` returns. -/
def run (l : EventLoop) (batches : List (List Event)) : EventLoop × List Invocation :=
  l.runEvents batches.flatten

/-- A loop before `Run`: constructed, and what is registered with it by then. -/
def start (wakeupFd : ℤ) (setup : List Callback) : EventLoop :=
  ({ wakeupFd := wakeupFd } : EventLoop).runCallbacks setup

/-! ## The event that goes wrong -/

/-- The event says that a connection can be read and written, with no error or hang-up, and reading
meets the end of the stream. -/
def Races (l : EventLoop) (e : Event) : Prop :=
  e.fd ≠ l.wakeupFd ∧ (∃ i c, l.handlers.lookup e.fd = some (i, .connection c))
    ∧ e.events &&& (EPOLLERR ||| EPOLLHUP ||| EPOLLRDHUP) = 0
    ∧ e.events &&& EPOLLIN ≠ 0 ∧ e.events &&& EPOLLOUT ≠ 0 ∧ ends e.recvs = true

/-- No event races in the state it is handled in. -/
def Quiet : EventLoop → List Event → Prop
  | _, [] => True
  | l, e :: es => l.threw = true ∨ (¬ l.Races e ∧ Quiet (l.dispatch e).1 es)

end EventLoop

end TinRpc.Rpc
