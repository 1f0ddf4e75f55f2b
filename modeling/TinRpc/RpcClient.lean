import Mathlib.Logic.Function.Basic
import TinRpc.Protocol

/-!
# The RPC client

`RpcClient` of `src/rpc_client.cpp` once it is connected, as a machine. Its threads take the steps
of `Call` one by one: they take an id, store the promise, send, and where `send` fails complete the
promise themselves; `send_mutex_` is held from the send to the end. The loop's thread completes
promises with the frames it receives until the connection closes. The server answers a request once.
A call is known by how many calls there were before it.
-/

namespace TinRpc.Rpc

/-- How far a `Call` has come; the last two have returned the future. -/
inductive Stage
  | allocated
  | stored
  | failing
  | sent
  | failed
  deriving DecidableEq

structure ClientCall where
  requestId : UInt32
  frame : List UInt8
  stage : Stage

/-- Why a future is ready: the server's response to a call, a push, the failed send of a call, or a
promise destroyed before it had a value. -/
inductive Cause
  | response (k : ℕ)
  | push
  | sendFailed (k : ℕ)
  | broken
  deriving DecidableEq

/-- A future that became ready, with its value or an exception. -/
structure Completion where
  call : ℕ
  cause : Cause
  value : Option (List UInt8)
  deriving DecidableEq

structure RpcClient where
  nextRequestId : UInt32 := 1
  pendingRequests : UInt32 → Option ℕ := fun _ => none
  /-- Who holds `send_mutex_` from one step to the next. -/
  sendMutex : Option ℕ := none
  /-- Whether `server_fd_` is not -1. -/
  serverFd : Bool := true
  /-- Whether the loop still has the `Connection`, and whether its socket is open. -/
  connection : Bool := true
  socket : Bool := true
  /-- The bytes the socket has accepted. -/
  stream : List UInt8 := []
  /-- The calls so far, the ones the server has answered and the futures that are ready. -/
  calls : ℕ := 0
  call : ℕ → Option ClientCall := fun _ => none
  answered : List ℕ := []
  completions : List Completion := []

namespace RpcClient

variable (s : RpcClient)

/-- `set_value` on the promise stored under an id, which then goes. -/
def complete (requestId : UInt32) (cause : Cause) (value : List UInt8) : RpcClient :=
  match s.pendingRequests requestId with
  | none => s
  | some k => { s with
      pendingRequests := Function.update s.pendingRequests requestId none
      completions := s.completions ++ [⟨k, cause, some value⟩] }

/-- `pending_requests_[id] = std::move(promise)`: a promise that was there is destroyed. -/
def store (k : ℕ) (requestId : UInt32) : RpcClient :=
  { s with
    pendingRequests := Function.update s.pendingRequests requestId (some k)
    completions := match s.pendingRequests requestId with
      | none => s.completions
      | some old => s.completions ++ [⟨old, .broken, none⟩] }

/-- The response callback of `Connect`: an error response completes with no bytes. -/
def responseCallback (frame : Frame) (cause : Cause) : RpcClient :=
  s.complete frame.requestId cause (if frame.msgType = .error then [] else frame.body)

def setStage (k : ℕ) (c : ClientCall) (stage : Stage) : RpcClient :=
  { s with call := Function.update s.call k (some { c with stage }) }

/-- `Call` up to the id it takes. -/
def allocate (methodName body : List UInt8) : RpcClient :=
  let id := s.nextRequestId
  { s with
    nextRequestId := id + 1
    calls := s.calls + 1
    call := Function.update s.call s.calls
      (some ⟨id, ProtocolFrame.encode id .request methodName body, .allocated⟩) }

/-- `send` took some bytes: where `server_fd_` is the number of a socket that was closed, another
file took them. -/
def accept (frame : List UInt8) (n : ℕ) : RpcClient :=
  { s with stream := if s.socket then s.stream ++ frame.take n else s.stream }

def disconnect : RpcClient :=
  if s.serverFd then { s with serverFd := false, connection := false, socket := false } else s

def closeFd : RpcClient :=
  if s.serverFd then { s with serverFd := false, socket := false } else s

end RpcClient

/-! ## Steps -/

/-- `send` takes a number of bytes or fails; a frame received answers a call or is a push. -/
inductive ClientEvent
  | call (methodName body : List UInt8)
  | store (k : ℕ)
  | send (k : ℕ) (outcome : Option ℕ)
  | fail (k : ℕ)
  | receive (answers : Option ℕ) (msgType : MessageType) (methodName body : List UInt8)
  | peerClose
  | disconnect
  | closeFd

open RpcClient in
def clientStep (s : RpcClient) : ClientEvent → Option RpcClient
  | .call methodName body => some (s.allocate methodName body)
  | .store k => (s.call k).bind fun c =>
      if c.stage = .allocated then some ((s.store k c.requestId).setStage k c .stored) else none
  | .send k (some n) => (s.call k).bind fun c =>
      if c.stage = .stored ∧ s.sendMutex = none ∧ s.serverFd ∧ 0 < n ∧ n ≤ c.frame.length then
        some ((s.accept c.frame n).setStage k c .sent)
      else none
  | .send k none => (s.call k).bind fun c =>
      if c.stage = .stored ∧ s.sendMutex = none then
        some { s.setStage k c .failing with sendMutex := some k }
      else none
  | .fail k => (s.call k).bind fun c =>
      if c.stage = .failing then
        some { (s.complete c.requestId (.sendFailed k) []).setStage k c .failed with
          sendMutex := none }
      else none
  | .receive none msgType methodName body =>
      if s.connection ∧ s.socket then
        some (s.responseCallback ⟨0, msgType, methodName, body⟩ .push)
      else none
  | .receive (some k) msgType methodName body => (s.call k).bind fun c =>
      if s.connection ∧ s.socket ∧ c.stage = .sent ∧ k ∉ s.answered then
        some { s.responseCallback ⟨c.requestId, msgType, methodName, body⟩ (.response k) with
          answered := k :: s.answered }
      else none
  | .peerClose =>
      if s.connection ∧ s.socket then some { s with connection := false, socket := false } else none
  | .disconnect => some s.disconnect
  | .closeFd => some s.closeFd

end TinRpc.Rpc
