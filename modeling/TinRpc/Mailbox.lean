import TinRpc.Link

/-!
# What a link is for

The same two ends without bytes: messages and requests are handed over whole and in order, each of
them once. A message finds the request that it answers, and completes it with the dictionary that
the server's answer stands for. This is what the frames and the bodies are to come to.
-/

namespace TinRpc

/-- A request as it is served. -/
def ClientRequest.serve {F : Type} [WorldProto F] (q : ℕ × ClientRequest) : ℕ × Request F :=
  (q.1, Game.request q.2.method q.2.body)

namespace NetSession

/-- A session without bytes. -/
def blank (s : NetSession) : NetSession := { s with receiveBuffer := [], frames := [], stream := [] }

/-- A request is pending no longer. -/
def settle (s : NetSession) (requestId : ℕ) (kind : RequestKind) : NetSession :=
  { s with
    pendingRequests := Function.update s.pendingRequests requestId none
    moveRequestInFlight := if kind = .move then false else s.moveRequestInFlight
    completions := s.completions ++ [(requestId, kind)] }

/-- A message is handed to a session: a notification, an answer that completes the request it
belongs to, or one that no request waits for. An answer of another kind than its request there is
not. -/
def hand {F : Type} [FloatBits F] (s : NetSession) : Message F → Option NetSession
  | .push p => some (s.emit [.notified (ProtoBridge.ofPush p).1 (ProtoBridge.ofPush p).2])
  | .roomEvent _ => some s
  | .error requestId method => match s.pendingRequests requestId with
    | none => some s
    | some kind => some ((s.settle requestId kind).emit
        [.transportError (utf8 method), .refused kind kind.refusal])
  | .response requestId r => match s.pendingRequests requestId with
    | none => some s
    | some kind => (kind.result r).map fun result =>
        (s.settle requestId kind).emit [.completed kind result]

end NetSession

structure Mailbox (F : Type) where
  session : NetSession := {}
  /-- The messages that wait to be handed to the session, and those on their way to it. -/
  arrived : List (Message F) := []
  toClient : List (Message F) := []
  toServer : List (ℕ × ClientRequest) := []
  asked : List (ℕ × ClientRequest) := []
  sent : List (Message F) := []
  served : List (ℕ × ClientRequest) := []

inductive MailEvent (F : Type)
  | connect
  | disconnect
  | poll (pollError : Bool) (status : PeerStatus)
  | lose
  | request (r : ClientRequest) (status : PeerStatus) (put : Bool)
  | arrive (n : ℕ)
  | hand
  | send (m : Message F)
  | serve (n : ℕ)

namespace Mailbox

variable {F : Type} [FloatBits F] [WorldProto F] (m : Mailbox F)

/-- A request that is made. -/
def request (r : ClientRequest) (status : PeerStatus) (put : Bool) : Mailbox F :=
  let session := (m.session.request r status put).blank
  let made := (session.sends.drop m.session.sends.length).map fun c => (c.1, r)
  { m with session, toServer := m.toServer ++ made, asked := m.asked ++ made }

def step : MailEvent F → Option (Mailbox F)
  | .connect => some { m with session := m.session.connectToHost, toServer := [], toClient := [] }
  | .disconnect => some { m with session := m.session.disconnectFromHost }
  | .poll pollError status => some { m with session := m.session.pollStatus pollError status }
  | .lose => some { m with session := m.session.handleDisconnected }
  | .request r status put => some (m.request r status put)
  | .arrive n => some { m with
      arrived := m.arrived ++ m.toClient.take n
      toClient := m.toClient.drop n }
  | .hand => match m.arrived with
    | [] => none
    | message :: arrived => (m.session.hand message).map fun session => { m with session, arrived }
  | .send message => some { m with
      toClient := m.toClient ++ [message]
      sent := m.sent ++ [message] }
  | .serve n => some { m with
      served := m.served ++ m.toServer.take n
      toServer := m.toServer.drop n }

/-- The server answers what it has served. -/
def ok (m : Mailbox F) : MailEvent F → Prop
  | .send message => message.Answers (m.served.map ClientRequest.serve)
  | _ => True

end Mailbox

end TinRpc
