import TinRpc.Proofs.Transport

/-!
# A link does what it is for

A link is a mailbox (`Agrees`): each of its steps hands over some of the messages or requests, or
none. So what a mailbox does in every run, a link does.
-/

namespace TinRpc

open Transition

/-- An event of the client that asks for nothing. -/
theorem client_quiet {F : Type} {l : Link F} {e : SessionEvent} {s : NetSession}
    (hstream : s.stream = l.session.stream) (hask : e.asking = []) (hread : e.arriving <+: l.toClient) :
    (if e.arriving <+: l.toClient then
      some ({ l with
        session := s
        toClient := l.toClient.drop e.arriving.length
        toServer := l.toServer ++ s.stream.drop l.session.stream.length
        asked := l.asked ++ (s.sends.drop l.session.sends.length).flatMap fun c =>
          e.asking.map fun r => (c.1, r) } : Link F)
    else none) = some { l with session := s, toClient := l.toClient.drop e.arriving.length } := by
  have hasked : ((s.sends.drop l.session.sends.length).flatMap fun c =>
      ([] : List ClientRequest).map fun r => (c.1, r)) = [] :=
    List.flatMap_eq_nil_iff.2 fun _ _ => rfl
  rw [hask, if_pos hread, hstream, List.drop_length, List.append_nil, hasked, List.append_nil]

variable {F : Type} [FloatBits F] [WorldProto F]

/-- The messages of a mailbox are in the frames and bytes of a link, and so are its requests. -/
structure Agrees (l : Link F) (m : Mailbox F) : Prop where
  session : m.session = l.session.blank
  asked : m.asked = l.asked
  sent : m.sent = l.sent
  served : l.served = m.served.map ClientRequest.serve
  legal : ∀ x ∈ m.arrived ++ m.toClient, x.Legal
  frames : l.session.frames = m.arrived.map fun x => FrameCodec.seen x.frame
  toClient : l.session.receiveBuffer ++ l.toClient ++ l.connection.unsent =
    (m.toClient.map fun x => x.frame.encode).flatten
  delivers : ∃ data, l.connection.Delivers data
  legalRequests : ∀ q ∈ m.toServer, (ClientRequest.frame q).Legal
  toServer : l.connection.closed = true ∨ l.connection.readBuffer.buf ++ l.toServer =
    (m.toServer.map fun q => (ClientRequest.frame q).encode).flatten

variable {l l' : Link F} {m : Mailbox F}

theorem agrees_new : Agrees ({} : Link F) ({} : Mailbox F) where
  session := rfl
  asked := rfl
  sent := rfl
  served := rfl
  legal _ h := absurd h List.not_mem_nil
  frames := rfl
  toClient := rfl
  delivers := ⟨[], Rpc.Connection.delivers_new⟩
  legalRequests _ h := absurd h List.not_mem_nil
  toServer := .inr rfl

/-- The session changes, and none of its bytes. -/
theorem Agrees.quiet (h : Agrees l m) {s t : NetSession} (hbytes : s.bytes = l.session.bytes)
    (hblank : t = s.blank) : Agrees { l with session := s } { m with session := t } := by
  obtain ⟨hbuffer, hrest⟩ := Prod.mk.inj hbytes
  obtain ⟨hframes, -⟩ := Prod.mk.inj hrest
  exact { h with
    session := hblank
    frames := hframes.trans h.frames
    toClient := hbuffer ▸ h.toClient }

theorem step_session {e : LinkEvent F} (h : l.step e = some l') :
    l.session.desk.Moves l'.session.desk := by
  have hcall : ∀ {l : Link F} {c : Rpc.Connection.Call}, l.call c = some l' →
      l'.session = l.session := by
    intro l c h
    obtain ⟨connection, -, rfl⟩ := Option.map_eq_some_iff.1 h
    rfl
  cases e with
  | client e =>
    obtain ⟨session, hsession, h⟩ := Option.bind_eq_some_iff.1 h
    have hm := NetSession.step_moves hsession
    cases e <;> simp only [] at h <;> (try split_ifs at h) <;> cases h <;> exact hm
  | send x r =>
    have hsame := hcall h
    rw [show l'.session = l.session from hsame]
    exact .same
  | onWrite rs =>
    rw [hcall h]
    exact .same
  | onRead rs =>
    unfold Link.step at h
    simp only [] at h
    split_ifs at h
    have hsame := hcall h
    rw [show l'.session = l.session from hsame]
    exact .same
  | onClose =>
    rw [hcall h]
    exact .same

/-! ## Events of the client -/

theorem Agrees.connect (h : Agrees l m) :
    Agrees { l with
      session := l.session.connectToHost, connection := {}, toServer := [], toClient := [] }
      { m with session := m.session.connectToHost, toServer := [], toClient := [] } where
  session := by
    rw [h.session]
    rfl
  asked := h.asked
  sent := h.sent
  served := h.served
  legal x hx := h.legal x (List.mem_append_left _ ((List.append_nil m.arrived) ▸ hx))
  frames := h.frames
  toClient := rfl
  delivers := ⟨[], Rpc.Connection.delivers_new⟩
  legalRequests _ h := absurd h List.not_mem_nil
  toServer := .inr rfl

/-- A request that is sent is on its way. -/
theorem Agrees.request (h : Agrees l m) (hsound : m.Sound) (r : ClientRequest)
    (status : PeerStatus) (put : Bool) :
    Agrees { l with
      session := l.session.request r status put
      toServer := l.toServer ++
        (l.session.request r status put).stream.drop l.session.stream.length
      asked := l.asked ++ ((l.session.request r status put).sends.drop
        l.session.sends.length).flatMap fun c => [r].map fun r => (c.1, r) }
      (m.request r status put) := by
  obtain ⟨hbuffer, hframes, hblank⟩ := l.session.request_bytes r status put
  have hpos : 0 < l.session.nextRequestId := by
    have := hsound.desk.next_pos
    rwa [show m.session.desk.next = l.session.nextRequestId by rw [h.session]; rfl] at this
  have hlt : l.session.nextRequestId < 2 ^ 32 := by
    have := hsound.desk.next_lt
    rwa [show m.session.desk.next = l.session.nextRequestId by rw [h.session]; rfl] at this
  have hsession : (m.session.request r status put).blank =
      (l.session.request r status put).blank := by
    rw [h.session, hblank]
  have hbefore : m.session.sends = l.session.sends := by
    rw [h.session]
    rfl
  have hafter : (m.session.request r status put).blank.sends =
      (l.session.request r status put).sends := by
    rw [hsession]
    rfl
  rcases l.session.request_cases r status put (Nat.pos_iff_ne_zero.1 hpos) with
    ⟨hsends, hstream⟩ | ⟨hsends, hstream, hframe⟩
  · have hnone : (l.session.request r status put).sends.drop l.session.sends.length = [] := by
      rw [hsends, List.drop_length]
    unfold Mailbox.request
    simp only [hafter, hbefore, hnone, hstream, List.drop_length, List.flatMap_nil, List.map_nil,
      List.append_nil]
    exact { h with
      session := hsession
      frames := hframes.trans h.frames
      toClient := hbuffer ▸ h.toClient }
  · have hmade : (l.session.request r status put).sends.drop l.session.sends.length =
        [(l.session.nextRequestId, r.kind)] := by
      rw [hsends, List.drop_left]
    obtain ⟨hlegal, hencode⟩ := FrameCodec.encode_eq (t := .request) hlt (.inl rfl) hframe
    have hbytes : FrameCodec.encode l.session.nextRequestId FrameCodec.typeRequest (utf8 r.method)
        r.body = (ClientRequest.frame (l.session.nextRequestId, r)).encode := hencode
    unfold Mailbox.request
    simp only [hafter, hbefore, hmade, hstream, List.drop_left, List.flatMap_singleton,
      List.map_singleton]
    refine { h with
      session := hsession
      asked := by rw [h.asked]
      frames := hframes.trans h.frames
      toClient := hbuffer ▸ h.toClient
      legalRequests := fun q hq => ?_
      toServer := h.toServer.imp id fun heq => ?_ }
    · rcases List.mem_append.1 hq with hq | hq
      · exact h.legalRequests q hq
      · rw [List.mem_singleton.1 hq]
        exact hlegal
    · simp only [List.map_append, List.flatten_append, List.map_singleton, List.flatten_singleton]
      rw [← heq, hbytes, List.append_assoc]

/-- What has been read is decoded as far as it goes. -/
theorem Agrees.arrive (h : Agrees l m) {bytes : List UInt8} (hread : bytes <+: l.toClient) :
    ∃ n, Agrees { l with
      session := { l.session with
        receiveBuffer := (FrameCodec.decodeFrames (l.session.receiveBuffer ++ bytes)).leftover
        frames := l.session.frames ++
          (FrameCodec.decodeFrames (l.session.receiveBuffer ++ bytes)).frames }
      toClient := l.toClient.drop bytes.length }
      { m with arrived := m.arrived ++ m.toClient.take n, toClient := m.toClient.drop n } := by
  obtain ⟨rest, hrest⟩ := hread
  have hstream := h.toClient
  rw [← hrest, ← List.append_assoc, List.append_assoc _ rest] at hstream
  obtain ⟨n, hframes, hleft⟩ := decodeFrames_pieces (f := Message.frame)
    (fun x hx => (h.legal x (List.mem_append_right _ hx)).frame) hstream
  refine ⟨n, { h with
    session := h.session
    legal := fun x hx => h.legal x ?_
    frames := ?_
    toClient := ?_ }⟩
  · rwa [List.append_assoc, List.take_append_drop] at hx
  · rw [List.map_append, ← h.frames, ← hframes]
  · rw [← hrest, List.drop_left, List.append_assoc]
    exact hleft

/-- What has been read stays where it is when the connection is lost. -/
theorem Agrees.lose (h : Agrees l m) {bytes : List UInt8} (hread : bytes <+: l.toClient) :
    Agrees { l with
      session := { l.session with
        receiveBuffer := l.session.receiveBuffer ++ bytes }.handleDisconnected
      toClient := l.toClient.drop bytes.length }
      { m with session := m.session.handleDisconnected } := by
  obtain ⟨rest, hrest⟩ := hread
  obtain ⟨hbytes, hblank⟩ := NetSession.handleDisconnected_bytes
    { l.session with receiveBuffer := l.session.receiveBuffer ++ bytes }
  have hread : Agrees { l with
      session := { l.session with receiveBuffer := l.session.receiveBuffer ++ bytes }
      toClient := l.toClient.drop bytes.length } m := { h with
    session := h.session
    toClient := by
      rw [← hrest, List.drop_left]
      have := h.toClient
      rwa [← hrest, ← List.append_assoc] at this }
  exact hread.quiet hbytes (by
    rw [hblank, h.session]
    rfl)

/-- The ids of answers on their way are those of requests. -/
theorem Mailbox.Sound.numbered (h : m.Sound) {x : Message F} (hx : x ∈ m.arrived ++ m.toClient) :
    x.Numbered := by
  have hids : ∀ q ∈ m.served.map (ClientRequest.serve (F := F)), 0 < q.1 ∧ q.1 < 2 ^ 32 := by
    intro q' hq'
    obtain ⟨q, hq, rfl⟩ := List.mem_map.1 hq'
    exact h.ids q (h.inOrder.subset (List.mem_append_left _ hq))
  have hanswers := h.answers x hx
  cases x with
  | response id r =>
    obtain ⟨q, hq, rfl, -⟩ := hanswers
    exact hids q hq
  | error id method =>
    obtain ⟨q, hq, rfl⟩ := hanswers
    exact hids q hq
  | push p => trivial
  | roomEvent data => trivial

/-- The next frame is that of the next message, which can be handed over. -/
theorem Agrees.next (h : Agrees l m) (hsound : m.Sound) (hlt : l.session.taken < 2 ^ 32 - 1)
    {f : FrameCodec.Frame} {frames : List FrameCodec.Frame}
    (hframes : l.session.frames = f :: frames) :
    ∃ x arrived u, m.arrived = x :: arrived ∧ x ∈ m.arrived ++ m.toClient ∧
      NetSession.hand { l.session with frames } x = some u ∧ f = FrameCodec.seen x.frame := by
  have harrived := h.frames
  rw [hframes] at harrived
  cases hm : m.arrived with
  | nil =>
    rw [hm] at harrived
    cases harrived
  | cons x arrived =>
    rw [hm, List.map_cons, List.cons.injEq] at harrived
    have hx : x ∈ m.arrived ++ m.toClient := by
      rw [hm]
      exact List.mem_append_left _ List.mem_cons_self
    obtain ⟨t, ht⟩ := hsound.hand (h.session ▸ hlt) hx
    have hblank : m.session = { l.session with frames }.blank := h.session
    rw [hblank, NetSession.hand_blank] at ht
    obtain ⟨u, hu, -⟩ := Option.map_eq_some_iff.1 ht
    exact ⟨x, arrived, u, rfl, hm ▸ hx, hu, harrived.1⟩

/-- The next frame is dispatched, and its message handed over. -/
theorem Agrees.dispatch (hwrite : Serializes F) (h : Agrees l m) (hsound : m.Sound)
    (hlt : l.session.taken < 2 ^ 32 - 1) {f : FrameCodec.Frame} {frames : List FrameCodec.Frame}
    {n : ℕ} {s' : NetSession} (hframes : l.session.frames = f :: frames)
    (hs : { l.session with frames }.dispatchFrame n f = some s') :
    ∃ m', m.step .hand = some m' ∧ s'.stream = l.session.stream ∧
      Agrees { l with session := s' } m' := by
  obtain ⟨x, arrived, u, hm, hx, hu, rfl⟩ := h.next hsound hlt hframes
  obtain rfl := NetSession.dispatch_hand hwrite (h.legal x hx).fits (hsound.numbered hx) hu hs
  obtain ⟨hbuffer, hbytes⟩ := Prod.mk.inj (NetSession.hand_bytes hu)
  obtain ⟨hleft, hstream⟩ := Prod.mk.inj hbytes
  have hrest : frames = arrived.map fun x => FrameCodec.seen x.frame := by
    have harrived := h.frames
    rw [hframes, hm, List.map_cons, List.cons.injEq] at harrived
    exact harrived.2
  have hhand : m.session.hand x = some s'.blank := by
    have hblank : m.session = { l.session with frames }.blank := h.session
    rw [hblank, NetSession.hand_blank, hu]
    rfl
  refine ⟨{ m with session := s'.blank, arrived }, ?_, hstream, { h with
    session := rfl
    legal := fun y hy => h.legal y ?_
    frames := hleft.trans hrest
    toClient := hbuffer ▸ h.toClient }⟩
  · unfold Mailbox.step
    rw [hm]
    simp only []
    rw [hhand]
    rfl
  · rw [hm]
    exact List.mem_cons_of_mem _ hy

/-- A frame that waits can be dispatched. -/
theorem Agrees.dispatchable (hwrite : Serializes F) (h : Agrees l m) (hsound : m.Sound)
    (hlt : l.session.taken < 2 ^ 32 - 1) {f : FrameCodec.Frame} {frames : List FrameCodec.Frame}
    (hframes : l.session.frames = f :: frames) :
    ∃ n₀, ∀ n ≥ n₀, l.step (.client (.dispatch n)) ≠ none := by
  obtain ⟨x, arrived, u, hm, hx, hu, rfl⟩ := h.next hsound hlt hframes
  obtain ⟨n₀, hreturns⟩ := NetSession.dispatch_returns hwrite (h.legal x hx).fits
    (hsound.numbered hx) hu
  refine ⟨n₀, fun n hn hnone => ?_⟩
  have hsession : sessionStep l.session (.dispatch n) = some u := by
    unfold sessionStep
    rw [hframes]
    exact hreturns n hn
  unfold Link.step Link.client at hnone
  simp only [] at hnone
  rw [hsession, Option.bind_some, client_quiet (e := .dispatch n)
    ((NetSession.stream_eq (NetSession.hand_bytes hu)).trans rfl) rfl List.nil_prefix] at hnone
  cases hnone

/-- A call that reads nothing: what is passed to `Send` is on its way. -/
theorem Agrees.write (h : Agrees l m) {c : Rpc.Connection.Call} {connection : Rpc.Connection}
    (hstep : l.connection.step c = some connection)
    (hread : connection.handled = l.connection.handled ∧
      connection.readBuffer = l.connection.readBuffer) {xs : List (Message F)}
    (hlegal : ∀ x ∈ xs, x.Legal)
    (hdata : c.data = (xs.map fun x => x.frame.encode).flatten) :
    ∃ l', ({ l with sent := l.sent ++ xs } : Link F).call c = some l' ∧
      Agrees l' { m with toClient := m.toClient ++ xs, sent := m.sent ++ xs } := by
  obtain ⟨data, hdelivers⟩ := h.delivers
  have htaken := hdelivers.taken hstep (Rpc.Connection.step_accepted hstep)
  refine ⟨_, congrArg (Option.map _) hstep, ?_⟩
  unfold Link.turn
  simp only []
  refine { h with
    session := h.session
    sent := by rw [h.sent]
    served := ?_
    legal := fun x hx => ?_
    toClient := ?_
    delivers := ⟨_, hdelivers.step hstep⟩
    toServer := ?_ }
  · rw [hread.1, List.drop_length, List.filterMap_nil, List.append_nil]
    exact h.served
  · rw [← List.append_assoc] at hx
    exact (List.mem_append.1 hx).elim (h.legal x) (hlegal x)
  · rw [List.map_append, List.flatten_append, ← h.toClient, ← hdata]
    simp only [List.append_assoc, htaken]
  · rw [hread.2]
    exact .inr (h.toServer.resolve_left (by
      rw [Rpc.Connection.step_open hstep]
      exact Bool.false_ne_true))

/-- `OnRead` serves the requests that are all there. -/
theorem Agrees.read (h : Agrees l m) (hsound : m.Sound) {rs : List Rpc.Recv}
    {connection : Rpc.Connection} (hstep : l.connection.step (.onRead rs) = some connection)
    (hread : Rpc.received rs <+: l.toServer) :
    ∃ n l', ({ l with toServer := l.toServer.drop (Rpc.received rs).length } : Link F).call
      (.onRead rs) = some l' ∧
      Agrees l' { m with served := m.served ++ m.toServer.take n, toServer := m.toServer.drop n } := by
  have hopen := Rpc.Connection.step_open hstep
  obtain ⟨data, hdelivers⟩ := h.delivers
  have hconnection := Rpc.Connection.step_onRead hstep
  have hwrite := l.connection.onRead_write rs
  rw [hconnection] at hwrite
  cases hends : Rpc.ends rs with
  | true =>
    have hhandled := Rpc.Connection.onRead_handled (c := l.connection) hends
    have hclosed := Rpc.Connection.onRead_ends (c := l.connection) hends
    rw [hconnection] at hhandled hclosed
    refine ⟨0, _, congrArg (Option.map _) hstep, ?_⟩
    unfold Link.turn
    simp only []
    refine { h with
      session := h.session
      served := ?_
      toClient := ?_
      delivers := ⟨_, hdelivers.step hstep⟩
      toServer := .inl hclosed }
    · rw [hhandled, List.drop_length, List.filterMap_nil, List.append_nil, List.take_zero,
        List.append_nil]
      exact h.served
    · rw [hwrite.1, hwrite.2, List.drop_length, List.append_nil]
      exact h.toClient
  | false =>
    obtain ⟨rest, hrest⟩ := hread
    have hstream := h.toServer.resolve_left (by
      rw [hopen]
      exact Bool.false_ne_true)
    rw [← hrest, ← List.append_assoc] at hstream
    obtain ⟨n, hcut, hleft⟩ := drain_pieces (f := ClientRequest.frame) h.legalRequests hstream
    obtain ⟨hhandled, hbuffer⟩ := Rpc.Connection.onRead_drain (c := l.connection) hends
    rw [hconnection] at hhandled hbuffer
    refine ⟨n, _, congrArg (Option.map _) hstep, ?_⟩
    unfold Link.turn
    simp only []
    refine { h with
      session := h.session
      served := ?_
      toClient := ?_
      delivers := ⟨_, hdelivers.step hstep⟩
      legalRequests := fun q hq => h.legalRequests q (List.mem_of_mem_drop hq)
      toServer := .inr ?_ }
    · rw [hhandled, List.drop_left, hcut, List.map_append, ← h.served, List.filterMap_map]
      have hserved : (m.toServer.take n).filterMap
          ((fun f => f.bind (·.request)) ∘ fun q => some (ClientRequest.frame q)) =
          (m.toServer.take n).map (ClientRequest.serve (F := F)) := by
        rw [← List.filterMap_eq_map]
        refine List.filterMap_congr fun q hq => ?_
        have hasked := hsound.inOrder.subset
          (List.mem_append_right _ (List.mem_of_mem_take hq))
        exact ClientRequest.frame_request (hsound.ids q hasked).2
      exact congrArg (l.served ++ ·) hserved
    · rw [hwrite.1, hwrite.2, List.drop_length, List.append_nil]
      exact h.toClient
    · rw [← hrest, List.drop_left, hbuffer]
      exact hleft

/-! ## The simulation -/

theorem agrees_client (hwrite : Serializes F) {e : SessionEvent} (h : Agrees l m)
    (hsound : m.Sound) (hlt : l.session.taken < 2 ^ 32 - 1) (hs : l.client e = some l') :
    ∃ m', Reach Mailbox.step Mailbox.ok m m' ∧ Agrees l' m' := by
  obtain ⟨session, hsession, hs⟩ := Option.bind_eq_some_iff.1 hs
  cases e with
  | connectToServer =>
    cases hsession
    cases hs
    exact ⟨_, .one .connect trivial rfl, h.connect⟩
  | disconnectFromServer =>
    cases hsession
    obtain ⟨hbytes, hblank⟩ := l.session.disconnectFromHost_bytes
    simp only [] at hs
    rw [client_quiet (e := .disconnectFromServer) (NetSession.stream_eq hbytes) rfl
      List.nil_prefix] at hs
    cases hs
    exact ⟨_, .one .disconnect trivial rfl, h.quiet hbytes (by rw [hblank, h.session])⟩
  | pollStatus pollError status =>
    cases hsession
    obtain ⟨hbytes, hblank⟩ := l.session.pollStatus_bytes pollError status
    simp only [] at hs
    rw [client_quiet (e := .pollStatus pollError status) (NetSession.stream_eq hbytes) rfl
      List.nil_prefix] at hs
    cases hs
    exact ⟨_, .one (.poll pollError status) trivial rfl,
      h.quiet hbytes (by rw [hblank, h.session])⟩
  | request r status put =>
    cases hsession
    simp only [] at hs
    rw [if_pos (show (SessionEvent.request r status put).arriving <+: l.toClient from
      List.nil_prefix)] at hs
    cases hs
    exact ⟨_, .one (.request r status put) trivial rfl, h.request hsound r status put⟩
  | read reads =>
    cases hsession
    simp only [] at hs
    by_cases hread : (SessionEvent.read reads).arriving <+: l.toClient
    · have hcases := l.session.readAvailableBytes_cases reads
      have hstream : (l.session.readAvailableBytes reads).stream = l.session.stream := by
        rcases hcases with hdecoded | hlost
        · rw [hdecoded]
        · rw [hlost]
          exact (NetSession.stream_eq (NetSession.handleDisconnected_bytes _).1).trans rfl
      rw [client_quiet (e := .read reads) hstream rfl hread] at hs
      cases hs
      rcases hcases with hdecoded | hlost
      · rw [hdecoded]
        obtain ⟨n, hn⟩ := h.arrive hread
        exact ⟨_, .one (.arrive n) trivial rfl, hn⟩
      · rw [hlost]
        exact ⟨_, .one .lose trivial rfl, h.lose hread⟩
    · rw [if_neg hread] at hs
      cases hs
  | dispatch n =>
    unfold sessionStep at hsession
    cases hframes : l.session.frames with
    | nil =>
      rw [hframes] at hsession
      cases hsession
    | cons f frames =>
      rw [hframes] at hsession
      obtain ⟨m', hm', hstream, hagrees⟩ := h.dispatch hwrite hsound hlt hframes hsession
      simp only [] at hs
      rw [client_quiet (e := .dispatch n) hstream rfl List.nil_prefix] at hs
      cases hs
      exact ⟨m', .one .hand trivial hm', hagrees⟩

/-- A call with nothing in it for the client or the service. -/
theorem Agrees.idle (h : Agrees l m) {c : Rpc.Connection.Call} (hdata : c.data = [])
    (hread : ∀ connection, l.connection.step c = some connection →
      connection.handled = l.connection.handled ∧
        connection.readBuffer = l.connection.readBuffer)
    (hs : l.call c = some l') : Agrees l' m := by
  obtain ⟨connection, hstep, -⟩ := Option.map_eq_some_iff.1 hs
  have hlegal : ∀ x ∈ ([] : List (Message F)), x.Legal := fun _ h => absurd h List.not_mem_nil
  obtain ⟨l'', hl'', hagrees⟩ := h.write hstep (hread connection hstep) hlegal hdata
  simp only [List.append_nil] at hl'' hagrees
  obtain rfl := Option.some.inj (hl''.symm.trans hs)
  exact hagrees

/-- A step of a link is a step of its mailbox, or none. -/
theorem agrees_step (hwrite : Serializes F) {e : LinkEvent F} (h : Agrees l m)
    (hsound : m.Sound) (hlt : l.session.taken < 2 ^ 32 - 1) (hok : l.ok e)
    (hs : l.step e = some l') :
    ∃ m', Reach Mailbox.step Mailbox.ok m m' ∧ Agrees l' m' := by
  cases e with
  | client e => exact agrees_client hwrite h hsound hlt hs
  | send x r =>
    obtain ⟨connection, hconnection, -⟩ := Option.map_eq_some_iff.1 hs
    have hread := l.connection.send_read x.frame.encode r
    rw [Rpc.Connection.step_send hconnection] at hread
    have hlegal : ∀ y ∈ [x], y.Legal := List.forall_mem_singleton.2 hok.1
    obtain ⟨l'', hl'', hagrees⟩ := h.write hconnection hread hlegal (List.append_nil _).symm
    obtain rfl := Option.some.inj (hl''.symm.trans hs)
    refine ⟨_, .one (.send x) ?_ rfl, hagrees⟩
    show x.Answers (m.served.map ClientRequest.serve)
    rw [← h.served]
    exact hok.2
  | onWrite rs =>
    refine ⟨m, .start, h.idle rfl (fun connection hstep => ?_) hs⟩
    rw [← Rpc.Connection.step_onWrite hstep]
    exact Rpc.Connection.onWrite_read rs l.connection
  | onRead rs =>
    unfold Link.step at hs
    simp only [] at hs
    split_ifs at hs with hread
    obtain ⟨connection, hstep, -⟩ := Option.map_eq_some_iff.1 hs
    obtain ⟨n, l'', hl'', hagrees⟩ := h.read hsound hstep hread
    obtain rfl := Option.some.inj (hl''.symm.trans hs)
    exact ⟨_, .one (.serve n) trivial rfl, hagrees⟩
  | onClose =>
    refine ⟨m, .start, h.idle rfl (fun connection hstep => ?_) hs⟩
    rw [← Rpc.Connection.step_onClose hstep]
    exact ⟨rfl, rfl⟩

theorem agrees_of_reach (hwrite : Serializes F) (h : Reach Link.step Link.ok {} l)
    (hids : l.session.taken < 2 ^ 32 - 1) :
    ∃ m : Mailbox F, Reach Mailbox.step Mailbox.ok {} m ∧ Agrees l m := by
  have hsteps : ∀ (l : Link F) e l' (m : Mailbox F), Reach Link.step Link.ok {} l →
      Reach Mailbox.step Mailbox.ok {} m → (l.session.taken < 2 ^ 32 - 1 → Agrees l m) →
      l.ok e → l.step e = some l' → ∃ m', Reach Mailbox.step Mailbox.ok m m' ∧
        (l'.session.taken < 2 ^ 32 - 1 → Agrees l' m') := by
    intro l e l' m _ hm hagrees hok hs
    by_cases hlt : l'.session.taken < 2 ^ 32 - 1
    · have hbefore : l.session.taken < 2 ^ 32 - 1 :=
        Nat.lt_of_le_of_lt (step_session hs).taken_le hlt
      obtain ⟨m', hm', hagrees'⟩ := agrees_step hwrite (hagrees hbefore)
        (Mailbox.sound_of_reach hm) hbefore hok hs
      exact ⟨m', hm', fun _ => hagrees'⟩
    · exact ⟨m, .start, fun h => absurd h hlt⟩
  obtain ⟨m, hm, hagrees⟩ := h.simulates
    (R := fun l m => l.session.taken < 2 ^ 32 - 1 → Agrees l m) (fun _ => agrees_new) hsteps
  exact ⟨m, hm, hagrees hids⟩

theorem encode_ne_nil (f : Rpc.Frame) : f.encode ≠ [] := by
  intro h
  have hlen := Rpc.encode_length f
  rw [h, List.length_nil] at hlen
  omega

theorem nil_of_flatten {X : Type*} {f : X → Rpc.Frame} {xs : List X}
    (h : (xs.map fun x => (f x).encode).flatten = []) : xs = [] := by
  cases xs with
  | nil => rfl
  | cons x xs =>
    rw [List.map_cons, List.flatten_cons, List.append_eq_nil_iff] at h
    exact absurd h.1 (encode_ne_nil _)

/-- As long as no request id has been taken twice, a link whose server answers what it has served,
with messages that can be serialized and fit a frame, is a mailbox: the same session, the same
requests served, and as many messages waiting as frames. Where no bytes are on their way, neither is
a message, or a request. -/
theorem link_refines (hwrite : Serializes F) (h : Reach Link.step Link.ok {} l)
    (hids : l.session.taken < 2 ^ 32 - 1) :
    ∃ m : Mailbox F, Reach Mailbox.step Mailbox.ok {} m ∧ m.session = l.session.blank ∧
      m.asked = l.asked ∧ m.sent = l.sent ∧ l.served = m.served.map ClientRequest.serve ∧
      l.session.frames.length = m.arrived.length ∧
      (l.session.receiveBuffer = [] → l.toClient = [] → l.connection.unsent = [] →
        m.toClient = []) ∧
      (l.connection.closed = false → l.connection.readBuffer.buf = [] → l.toServer = [] →
        m.toServer = []) := by
  obtain ⟨m, hm, hagrees⟩ := agrees_of_reach hwrite h hids
  refine ⟨m, hm, hagrees.session, hagrees.asked, hagrees.sent, hagrees.served, ?_,
    fun hbuffer hway hunsent => nil_of_flatten (f := Message.frame) ?_,
    fun hopen hbuffer hway => nil_of_flatten (f := ClientRequest.frame) ?_⟩
  · rw [hagrees.frames, List.length_map]
  · rw [← hagrees.toClient, hbuffer, hway, hunsent]
    rfl
  · rw [← hagrees.toServer.resolve_left (by rw [hopen]; exact Bool.false_ne_true), hbuffer, hway]
    rfl

/-- What a client is told is what the server sent: each notification is one that was pushed, in the
order of the pushes and not more often, and each result that of an answer the server gave to that
request. The server serves what was asked, in this order and once. And a frame that waits can be
dispatched: its decoder comes to an end. -/
theorem link_delivers (hwrite : Serializes F) (h : Reach Link.step Link.ok {} l)
    (hids : l.session.taken < 2 ^ 32 - 1) :
    (l.session.signals.filterMap Signal.notice).Sublist (l.sent.filterMap Message.notice) ∧
    (∀ kind result, .completed kind result ∈ l.session.signals → ∃ id r,
      .response id r ∈ l.sent ∧ kind.result r = some result ∧
        (id, kind) ∈ l.session.completions) ∧
    l.served.Sublist (l.asked.map ClientRequest.serve) ∧
    (l.session.frames ≠ [] → ∃ n₀, ∀ n ≥ n₀, l.step (.client (.dispatch n)) ≠ none) := by
  obtain ⟨m, hm, hagrees⟩ := agrees_of_reach hwrite h hids
  have hsound := Mailbox.sound_of_reach hm
  have htold : m.session.told = l.session.told := by
    rw [hagrees.session]
    rfl
  refine ⟨?_, fun kind result hmem => ?_, ?_, fun hwaits => ?_⟩
  · have := (List.sublist_append_left _ _).trans hsound.notices
    rwa [htold, NetSession.notices_told, hagrees.sent] at this
  · have hmem : .completed kind result ∈ m.session.told := by
      rw [htold]
      exact List.mem_filter.2 ⟨hmem, rfl⟩
    have := hsound.completed kind result hmem
    rwa [hagrees.sent, hagrees.session] at this
  · rw [hagrees.served, ← hagrees.asked]
    exact ((List.sublist_append_left _ _).trans hsound.inOrder).map _
  · obtain ⟨f, frames, hframes⟩ := List.exists_cons_of_ne_nil hwaits
    exact hagrees.dispatchable hwrite hsound hids hframes

/-- A login whose request arrives in two parts, with an answer and a push that leave in two parts.
-/
def answeredLogin : List (LinkEvent UInt32) :=
  let request := FrameCodec.encode 1 1 (utf8 "Login") (ClientRequest.login "ann" "secret").body
  let answer : Message UInt32 := .response 1 (.login true "" (some ("ann", "ann")))
  let push : Message UInt32 := .push (.playerLeave "bob")
  let stream := answer.frame.encode ++ push.frame.encode
  [.client .connectToServer, .client (.pollStatus false .connected),
    .client (.request (.login "ann" "secret") .connected true),
    .onRead [.bytes (request.take 9), .error .again],
    .onRead [.bytes (request.drop 9), .error .again],
    .send answer (.bytes 5), .send push (.error .again),
    .onWrite [.bytes 20, .error .again],
    .client (.read [some (stream.take 3), some ((stream.take 25).drop 3)]),
    .onWrite [.bytes 1000],
    .client (.read [some (stream.drop 25)]), .client (.dispatch 8), .client (.dispatch 8)]

theorem answeredLogin_reaches : ∃ l : Link UInt32, Reach Link.step Link.ok {} l ∧
    l.session.signals.filterMap Signal.settles = [.login] ∧ l.session.taken = 1 ∧
    l.session.signals.length = 3 ∧ l.served.length = 1 := by
  have hrun : (answeredLogin.foldlM (fun (l : Link UInt32) e => if l.ok e then l.step e else none)
      {}).map (fun l => (l.session.signals.filterMap Signal.settles,
        l.session.taken, l.session.signals.length, l.served.length)) =
      some ([.login], 1, 3, 1) := by decide +kernel
  obtain ⟨l, hl, hview⟩ := Option.map_eq_some_iff.1 hrun
  simp only [Prod.mk.injEq] at hview
  exact ⟨l, Reach.of_foldlM _ hl, hview⟩

theorem link_refines_login : ∃ (l : Link UInt32) (m : Mailbox UInt32),
    l.session.signals.length = 3 ∧ Reach Mailbox.step Mailbox.ok {} m ∧
      m.session = l.session.blank := by
  obtain ⟨l, hl, -, htaken, hsignals, -⟩ := answeredLogin_reaches
  obtain ⟨m, hm, hsession, -⟩ := link_refines (fun _ _ => rfl) hl (by rw [htaken]; decide)
  exact ⟨l, m, hsignals, hm, hsession⟩

theorem link_delivers_login : ∃ l : Link UInt32,
    l.session.signals.filterMap Signal.settles = [.login] ∧ l.session.signals.length = 3 ∧
      (l.session.signals.filterMap Signal.notice).Sublist (l.sent.filterMap Message.notice) := by
  obtain ⟨l, hl, hsettles, htaken, hsignals, -⟩ := answeredLogin_reaches
  exact ⟨l, hsettles, hsignals, (link_delivers (fun _ _ => rfl) hl (by rw [htaken]; decide)).1⟩

end TinRpc
