import TinRpc.Proofs.Bodies
import TinRpc.Proofs.Closing
import TinRpc.Proofs.Encoders
import TinRpc.Proofs.Mailbox
import TinRpc.Proofs.Sending
import TinRpc.Proofs.Wire

/-!
# Messages in bytes

What each end of a link does with its bytes. Whatever part of a stream of frames has arrived, what
is cut off is a number of them, and what is left begins the rest. The client's session does the same
without its bytes, and of the message in a frame it makes what the message stands for.
-/

namespace TinRpc

open Transition

variable {F : Type} [FloatBits F] [WorldProto F]

namespace FrameCodec

open Memory

/-- Both sides write a byte of a number alike. -/
theorem byte_word {v k : ℕ} (hv : v < 2 ^ 32) (hk : k < 32) :
    UInt8.ofNat (v >>> k &&& 0xFF) = (UInt32.ofNat v >>> UInt32.ofNat k).toUInt8 := by
  have hword : (UInt32.ofNat v).toNat = v := UInt32.toNat_ofNat_of_lt' hv
  have hshift : (UInt32.ofNat k).toNat = k :=
    UInt32.toNat_ofNat_of_lt' (Nat.lt_trans hk (by decide : 32 < UInt32.size))
  rw [← UInt8.toNat_inj, UInt8.toNat_ofNat', UInt32.toNat_toUInt8, UInt32.toNat_shiftRight, hword,
    hshift, Nat.mod_eq_of_lt hk, Nat.and_two_pow_sub_one_eq_mod _ 8]
  exact Nat.mod_mod _ _

theorem writeU32Be_eq {v : ℕ} (hv : v < 2 ^ 32) :
    writeU32Be v = store32 (Rpc.hostToNetwork32 (UInt32.ofNat v)) := by
  rw [Rpc.store32_hostToNetwork32]
  unfold writeU32Be store32
  have hlow := byte_word (k := 0) hv (by decide)
  rw [Nat.shiftRight_zero] at hlow
  rw [byte_word hv (by decide), byte_word hv (by decide), byte_word hv (by decide), hlow]
  simp

theorem writeU16Be_eq {v : ℕ} (hv : v < 2 ^ 16) :
    writeU16Be v = store16 (Rpc.hostToNetwork16 (UInt16.ofNat v)) := by
  have hword : (UInt16.ofNat v).toNat = v := UInt16.toNat_ofNat_of_lt' hv
  rw [Rpc.store16_hostToNetwork16]
  unfold writeU16Be store16
  simp only [List.reverse_cons, List.reverse_nil, List.nil_append, List.cons_append,
    List.cons.injEq, and_true]
  constructor
  · rw [← UInt8.toNat_inj, UInt8.toNat_ofNat', UInt16.toNat_toUInt8, UInt16.toNat_shiftRight, hword,
      Nat.and_two_pow_sub_one_eq_mod _ 8]
    exact Nat.mod_mod _ _
  · rw [← UInt8.toNat_inj, UInt8.toNat_ofNat', UInt16.toNat_toUInt8, hword,
      Nat.and_two_pow_sub_one_eq_mod _ 8]
    exact Nat.mod_mod _ _

/-- Where the client writes a frame at all, it is a legal one and the server would write it alike.
-/
theorem encode_eq {id : ℕ} {t : Rpc.MessageType} {method body : List UInt8} (hid : id < 2 ^ 32)
    (htype : t = .request ∨ t = .response ∨ t = .error)
    (h : encode id t.byte.toNat method body ≠ []) :
    Rpc.Frame.Legal ⟨UInt32.ofNat id, t, method, body⟩ ∧
      encode id t.byte.toNat method body =
        Rpc.Frame.encode ⟨UInt32.ofNat id, t, method, body⟩ := by
  unfold encode headerSize maxFrameSize at h ⊢
  split_ifs at h ⊢ with hmethod
  · exact absurd rfl h
  · simp only [] at h ⊢
    split_ifs at h ⊢ with hsize
    · exact absurd rfl h
    · refine ⟨⟨htype, by simpa using hmethod, by simpa [Rpc.kMaxFrameSize] using hsize⟩, ?_⟩
      have hbyte : UInt8.ofNat (t.byte.toNat &&& 0xFF) = t.byte := by
        have := t.byte.toNat_lt
        rw [← UInt8.toNat_inj, UInt8.toNat_ofNat', Nat.and_two_pow_sub_one_eq_mod _ 8]
        omega
      unfold Rpc.Frame.encode Rpc.ProtocolFrame.encode Rpc.kFrameHeaderSize
      rw [writeU16Be_eq (v := magic) (by decide), writeU32Be_eq (by omega), writeU32Be_eq hid,
        writeU16Be_eq (v := method.length) (by omega), hbyte]
      rfl

end FrameCodec

theorem Game.utf8_inj {a b : String} : utf8 a = utf8 b ↔ a = b := by
  refine ⟨fun h => ?_, congrArg utf8⟩
  have ha := Game.fromUTF8_utf8 a
  rw [h, Game.fromUTF8_utf8] at ha
  exact (Option.some.inj ha).symm

/-- The frame a request goes out in. -/
def ClientRequest.frame (q : ℕ × ClientRequest) : Rpc.Frame :=
  ⟨UInt32.ofNat q.1, .request, utf8 q.2.method, q.2.body⟩

omit [FloatBits F] in
theorem ClientRequest.frame_request {q : ℕ × ClientRequest} (h : q.1 < 2 ^ 32) :
    (ClientRequest.frame q).request = some (ClientRequest.serve (F := F) q) := by
  have hid : (UInt32.ofNat q.1).toNat = q.1 := UInt32.toNat_ofNat_of_lt' h
  unfold Rpc.Frame.request ClientRequest.frame ClientRequest.serve
  simp only []
  rw [Game.fromUTF8_utf8, Option.map_some, hid]

theorem look_frame {f : Rpc.Frame} (h : f.Legal) :
    FrameCodec.scanner.look f.encode = some (f.encode.length, some (FrameCodec.seen f)) := by
  have hlook := FrameCodec.look_block h.isBlock []
  rwa [List.append_nil, Rpc.decode_encode h] at hlook

theorem look_block {f : Rpc.Frame} (h : f.Legal) :
    Rpc.deframer.scanner.look f.encode = some (f.encode.length, some f.encode) := by
  have hcut := Deframer.cut_block (D := Rpc.deframer) (r := []) h.isBlock
  rw [List.append_nil] at hcut
  exact (Deframer.look_some hcut).1

/-- The frames that the client makes of what has arrived of a stream. -/
theorem decodeFrames_pieces {X : Type*} {f : X → Rpc.Frame} {xs : List X} {b rest : List UInt8}
    (hxs : ∀ x ∈ xs, (f x).Legal) (hb : b ++ rest = (xs.map fun x => (f x).encode).flatten) :
    ∃ n, (FrameCodec.decodeFrames b).frames = (xs.take n).map (fun x => FrameCodec.seen (f x)) ∧
      (FrameCodec.decodeFrames b).leftover ++ rest =
        ((xs.drop n).map fun x => (f x).encode).flatten := by
  have hlook : ∀ x ∈ xs, FrameCodec.scanner.look (f x).encode =
      some ((f x).encode.length, some (FrameCodec.seen (f x))) := fun x hx => look_frame (hxs x hx)
  obtain ⟨n, hn, hrest⟩ := Scanner.scan_pieces hlook hb
  rw [FrameCodec.decodeFrames_eq]
  exact ⟨n, by rw [hn]; exact List.filterMap_eq_map ▸ rfl, hrest⟩

/-- The blocks that the server cuts off what has arrived of a stream. -/
theorem drain_pieces {X : Type*} {f : X → Rpc.Frame} {xs : List X} {b rest : List UInt8}
    (hxs : ∀ x ∈ xs, (f x).Legal) (hb : b ++ rest = (xs.map fun x => (f x).encode).flatten) :
    ∃ n, (Rpc.deframer.drain b).1.map Rpc.ProtocolFrame.decode =
        (xs.take n).map (fun x => some (f x)) ∧
      (Rpc.deframer.drain b).2 ++ rest = ((xs.drop n).map fun x => (f x).encode).flatten := by
  have hlook : ∀ x ∈ xs, Rpc.deframer.scanner.look (f x).encode =
      some ((f x).encode.length, some (f x).encode) := fun x hx => look_block (hxs x hx)
  obtain ⟨n, hn, hrest⟩ := Scanner.scan_pieces hlook hb
  rw [Deframer.drain_eq]
  refine ⟨n, ?_, hrest⟩
  rw [hn, show (fun x => some (f x).encode) = some ∘ fun x => (f x).encode from rfl,
    List.filterMap_eq_map, List.map_map]
  exact List.map_congr_left fun x hx => Rpc.decode_encode (hxs x (List.mem_of_mem_take hx))

/-! ## The connection -/

namespace Rpc.Connection

variable {c c' : Connection}

theorem send_accepted (c : Connection) (data : List UInt8) (r : Sent) :
    c.accepted <+: (c.send data r).accepted := by
  unfold send
  split_ifs
  · rcases r with k | e
    · simp only []
      split_ifs <;> exact List.prefix_append _ _
    · exact List.prefix_rfl
  · exact List.prefix_rfl

theorem onWrite_accepted : ∀ (rs : List Sent) (c : Connection),
    c.accepted <+: (c.onWrite rs).accepted
  | [], _ => List.prefix_rfl
  | r :: rs, c => by
    unfold onWrite
    split_ifs
    · exact List.prefix_rfl
    · rcases r with k | _ | _ | _
      · simp only []
        split_ifs
        · exact List.prefix_append _ _
        · refine List.IsPrefix.trans ?_ (onWrite_accepted rs _)
          exact List.prefix_append _ _
        · exact List.prefix_rfl
      · exact List.prefix_rfl
      · exact List.prefix_rfl
      · exact List.prefix_rfl

theorem recvLoop_write : ∀ (rs : List Recv) (c : Connection),
    (c.recvLoop rs).1.accepted = c.accepted ∧ (c.recvLoop rs).1.unsent = c.unsent
  | [], _ => ⟨rfl, rfl⟩
  | .bytes [] :: _, _ => ⟨rfl, rfl⟩
  | .bytes (x :: data) :: rs, c => by
    unfold recvLoop
    exact recvLoop_write rs _
  | .error .again :: _, _ => ⟨rfl, rfl⟩
  | .error .intr :: rs, c => by
    unfold recvLoop
    exact recvLoop_write rs c
  | .error .other :: _, _ => ⟨rfl, rfl⟩

theorem onRead_write (c : Connection) (rs : List Recv) :
    (c.onRead rs).accepted = c.accepted ∧ (c.onRead rs).unsent = c.unsent := by
  unfold onRead
  simp only []
  split_ifs
  · rw [frameLoop_eq]
    exact recvLoop_write rs c
  · exact recvLoop_write rs c

/-- An `OnRead` that is not the last one. -/
theorem onRead_drain {rs : List Recv} (h : ends rs = false) :
    (c.onRead rs).handled = c.handled ++
      (deframer.drain (c.readBuffer.buf ++ received rs)).1.map ProtocolFrame.decode ∧
    (c.onRead rs).readBuffer.buf = (deframer.drain (c.readBuffer.buf ++ received rs)).2 := by
  unfold onRead
  simp only [recvLoop_open rs c h, if_true]
  rw [frameLoop_eq, Buffer.popLoop_eq]
  exact ⟨rfl, rfl⟩

theorem step_open {call : Call} (h : c.step call = some c') : c.closed = false := by
  unfold step at h
  split_ifs at h with hc
  exact Bool.eq_false_of_not_eq_true hc

theorem step_send {data : List UInt8} {r : Sent} (h : c.step (.send data r) = some c') :
    c.send data r = c' := by
  unfold step at h
  split_ifs at h
  exact Option.some.inj h

theorem step_onWrite {rs : List Sent} (h : c.step (.onWrite rs) = some c') : c.onWrite rs = c' := by
  unfold step at h
  split_ifs at h
  exact Option.some.inj h

theorem step_onRead {rs : List Recv} (h : c.step (.onRead rs) = some c') : c.onRead rs = c' := by
  unfold step at h
  split_ifs at h
  exact Option.some.inj h

theorem step_onClose (h : c.step .onClose = some c') : c.onClose = c' := by
  unfold step at h
  split_ifs at h
  exact Option.some.inj h

/-- Of what is passed to `Send` the kernel takes the front, and the rest waits. -/
theorem Delivers.taken {data : List UInt8} {call : Call} (h : c.Delivers data)
    (hs : c.step call = some c') (hp : c.accepted <+: c'.accepted) :
    c'.accepted.drop c.accepted.length ++ c'.unsent = c.unsent ++ call.data := by
  obtain ⟨new, hnew⟩ := hp
  have hbytes := (h.step hs).bytes
  rw [← hnew, ← h.bytes, List.append_assoc, List.append_assoc] at hbytes
  rw [← hnew, List.drop_left]
  exact List.append_cancel_left hbytes

theorem step_accepted {call : Call} (hs : c.step call = some c') : c.accepted <+: c'.accepted := by
  unfold step at hs
  split_ifs at hs
  cases call with
  | send data r =>
    cases hs
    exact send_accepted c data r
  | onWrite rs =>
    cases hs
    exact onWrite_accepted rs c
  | onRead rs =>
    cases hs
    exact ⟨[], by rw [List.append_nil, (onRead_write c rs).1]⟩
  | onClose =>
    cases hs
    exact List.prefix_rfl

end Rpc.Connection

namespace ProtoBridge

/-- Outside of a run that is not over, more rounds make no difference. -/
theorem loop_settled : ∀ {n n' : ℕ} {m : ProtoBridge.Message} {body : List UInt8} {offset : ℤ}
    {result : Result m}, n ≤ n' → loop n m body offset result = .aborted →
    loop n' m body offset result = .aborted
  | 0, _, _, _, _, _, _, h => by cases h
  | n + 1, 0, _, _, _, _, hle, _ => absurd hle (Nat.not_succ_le_zero n)
  | n + 1, n' + 1, m, body, offset, result, hle, h => by
    have hle : n ≤ n' := Nat.le_of_succ_le_succ hle
    unfold loop at h ⊢
    split_ifs at h ⊢ with hin
    cases hstep : readField m body offset with
    | none => rfl
    | some step =>
      rw [hstep] at h
      cases step with
      | leave set => exact h
      | value o set => exact loop_settled hle h
      | nested o m' body' set =>
        simp only [] at h ⊢
        cases hnested : loop n m' body' 0 (initial m') with
        | running =>
          rw [hnested] at h
          cases h
        | aborted =>
          rw [loop_settled hle hnested]
          rfl
        | returned value =>
          rw [hnested] at h
          rw [loop_mono hle hnested]
          exact loop_settled hle h

theorem decode_settled {n n' : ℕ} {m : ProtoBridge.Message} {body : List UInt8} (hle : n ≤ n')
    (h : decode n m body ≠ .running) : decode n' m body = decode n m body := by
  cases hn : decode n m body with
  | running => exact absurd hn h
  | aborted => exact loop_settled hle hn
  | returned value => exact loop_mono hle hn

theorem unlessEmpty_settled {n n' : ℕ} {m : ProtoBridge.Message} {body : List UInt8} (hle : n ≤ n')
    (h : Decoder.unlessEmpty body (decode n m body) ≠ .running) :
    Decoder.unlessEmpty body (decode n' m body) = Decoder.unlessEmpty body (decode n m body) := by
  unfold Decoder.unlessEmpty at h ⊢
  split_ifs at h ⊢
  · rfl
  · rw [decode_settled hle fun hrun => h (by rw [hrun]; rfl)]

theorem call_settled {n n' : ℕ} {d : Decoder} {body : List UInt8} (hle : n ≤ n')
    (h : d.call n body ≠ .running) : d.call n' body = d.call n body := by
  cases d with
  | message m => exact decode_settled hle h
  | voxelEditNtf =>
    cases hfirst : firstNested body with
    | none => simp only [Decoder.call, hfirst]
    | some nested =>
      simp only [Decoder.call, hfirst] at h ⊢
      exact decode_settled hle h
  | resourceChanged =>
    cases hfirst : firstNested body with
    | none => simp only [Decoder.call, hfirst]
    | some nested =>
      simp only [Decoder.call, hfirst] at h ⊢
      exact unlessEmpty_settled hle h
  | buildingPlaced =>
    cases hfirst : firstNested body with
    | none => simp only [Decoder.call, hfirst]
    | some nested =>
      simp only [Decoder.call, hfirst] at h ⊢
      exact unlessEmpty_settled hle h

end ProtoBridge

namespace NetSession

variable {s s' : NetSession}

/-- What a session has of bytes. -/
def bytes (s : NetSession) : List UInt8 × List FrameCodec.Frame × List UInt8 :=
  (s.receiveBuffer, s.frames, s.stream)

theorem stream_eq {s t : NetSession} (h : s.bytes = t.bytes) : s.stream = t.stream :=
  (Prod.mk.inj (Prod.mk.inj h).2).2

theorem handleDisconnected_bytes (s : NetSession) : s.handleDisconnected.bytes = s.bytes ∧
    s.handleDisconnected.blank = s.blank.handleDisconnected := by
  unfold handleDisconnected
  split_ifs with h h' h'
  · exact ⟨rfl, rfl⟩
  · exact absurd h h'
  · exact absurd h' h
  · exact ⟨rfl, rfl⟩

theorem disconnectFromHost_bytes (s : NetSession) : s.disconnectFromHost.bytes = s.bytes ∧
    s.disconnectFromHost.blank = s.blank.disconnectFromHost := by
  unfold disconnectFromHost
  split_ifs with h h' h'
  · exact handleDisconnected_bytes s
  · exact absurd h h'
  · exact absurd h' h
  · exact ⟨rfl, rfl⟩

theorem pollStatus_bytes (s : NetSession) (pollError : Bool) (status : PeerStatus) :
    (s.pollStatus pollError status).bytes = s.bytes ∧
    (s.pollStatus pollError status).blank = s.blank.pollStatus pollError status := by
  unfold pollStatus
  rw [show s.blank.peer = s.peer from rfl, show s.blank.isConnected = s.isConnected from rfl]
  split_ifs
  · exact ⟨rfl, rfl⟩
  · exact handleDisconnected_bytes s
  · exact ⟨rfl, rfl⟩
  · exact ⟨rfl, rfl⟩
  · exact handleDisconnected_bytes s
  · exact ⟨rfl, rfl⟩

theorem request_bytes (s : NetSession) (r : ClientRequest) (status : PeerStatus) (put : Bool) :
    (s.request r status put).receiveBuffer = s.receiveBuffer ∧
    (s.request r status put).frames = s.frames ∧
    (s.request r status put).blank = (s.blank.request r status put).blank := by
  unfold request send sendRequest
  rw [show s.blank.peer = s.peer from rfl,
    show s.blank.moveRequestInFlight = s.moveRequestInFlight from rfl]
  split_ifs
  · exact ⟨rfl, rfl, rfl⟩
  · exact ⟨rfl, rfl, rfl⟩
  · simp only [show s.blank.takeRequestId.1 = s.takeRequestId.1 from rfl]
    split_ifs <;> exact ⟨rfl, rfl, rfl⟩
  · exact ⟨rfl, rfl, rfl⟩
  · simp only [show s.blank.takeRequestId.1 = s.takeRequestId.1 from rfl]
    split_ifs <;> exact ⟨rfl, rfl, rfl⟩

omit [WorldProto F] in
theorem hand_bytes {x : Message F} (h : s.hand x = some s') : s'.bytes = s.bytes := by
  unfold hand at h
  cases x with
  | push p =>
    cases h
    rfl
  | roomEvent data =>
    cases h
    rfl
  | error id method =>
    cases hpending : s.pendingRequests id with
    | none =>
      simp only [hpending, Option.some.injEq] at h
      rw [h]
    | some kind =>
      simp only [hpending, Option.some.injEq] at h
      exact h ▸ rfl
  | response id r =>
    cases hpending : s.pendingRequests id with
    | none =>
      simp only [hpending, Option.some.injEq] at h
      rw [h]
    | some kind =>
      simp only [hpending, Option.map_eq_some_iff] at h
      obtain ⟨value, -, rfl⟩ := h
      rfl

omit [WorldProto F] in
theorem hand_blank (s : NetSession) (x : Message F) :
    s.blank.hand x = (s.hand x).map blank := by
  unfold hand
  cases x with
  | push p => rfl
  | roomEvent data => rfl
  | error id method =>
    simp only [show s.blank.pendingRequests = s.pendingRequests from rfl]
    cases s.pendingRequests id <;> rfl
  | response id r =>
    simp only [show s.blank.pendingRequests = s.pendingRequests from rfl]
    cases s.pendingRequests id with
    | none => rfl
    | some kind =>
      simp only [Option.map_map]
      rfl

/-- All that has been read is decoded, or the connection is lost. -/
theorem readAvailableBytes_cases : ∀ (reads : List (Option (List UInt8))) (s : NetSession),
    s.readAvailableBytes reads = { s with
      receiveBuffer :=
        (FrameCodec.decodeFrames (s.receiveBuffer ++ SessionEvent.arriving.got reads)).leftover
      frames := s.frames ++
        (FrameCodec.decodeFrames (s.receiveBuffer ++ SessionEvent.arriving.got reads)).frames } ∨
    s.readAvailableBytes reads = handleDisconnected
      { s with receiveBuffer := s.receiveBuffer ++ SessionEvent.arriving.got reads }
  | [], s => .inl (by
      unfold readAvailableBytes SessionEvent.arriving.got
      rw [List.append_nil])
  | none :: reads, s => .inr (by
      unfold readAvailableBytes SessionEvent.arriving.got
      rw [List.append_nil])
  | some bytes :: reads, s => by
    unfold readAvailableBytes SessionEvent.arriving.got
    have ih := readAvailableBytes_cases reads { s with receiveBuffer := s.receiveBuffer ++ bytes }
    simp only [List.append_assoc] at ih
    exact ih

end NetSession

namespace Message

/-- The ids of answers are those of requests. -/
def Numbered : Message F → Prop
  | response id _ => 0 < id ∧ id < 2 ^ 32
  | error id _ => 0 < id ∧ id < 2 ^ 32
  | push _ => True
  | roomEvent _ => True

omit [WorldProto F] in
theorem notifyDecoder_push (p : Push F) :
    notifyDecoder (utf8 (Game.push p).1) = some (ProtoBridge.ofPush p).1 := by
  unfold notifyDecoder
  simp only [Game.utf8_inj]
  cases p <;> rfl

end Message

namespace NetSession

variable {s s' t : NetSession}

/-- More rounds make no difference to a frame that is dispatched. -/
theorem dispatchFrame_mono {n n' : ℕ} {f : FrameCodec.Frame} (hle : n ≤ n')
    (h : s.dispatchFrame n f = some s') : s.dispatchFrame n' f = some s' := by
  unfold dispatchFrame at h ⊢
  split_ifs at h ⊢
  · unfold onNotify at h ⊢
    cases hd : notifyDecoder f.method with
    | none =>
      rw [hd] at h
      exact h
    | some d =>
      rw [hd] at h
      simp only [] at h ⊢
      rwa [ProtoBridge.call_settled hle fun hrun => by
        rw [hrun] at h
        cases h]
  · unfold onResponse at h ⊢
    cases hpending : s.pendingRequests f.requestId with
    | none =>
      rw [hpending] at h
      exact h
    | some kind =>
      rw [hpending] at h
      simp only [] at h ⊢
      by_cases herror : decide (f.msgType = FrameCodec.typeError) = true
      · rw [if_pos herror] at h ⊢
        exact h
      · rw [if_neg herror] at h ⊢
        rwa [ProtoBridge.call_settled hle fun hrun => by
          rw [hrun] at h
          cases h]

/-- The frame of an answer goes to the request with its id. -/
theorem dispatchFrame_answer {n id : ℕ} {type : Rpc.MessageType} {method body : List UInt8}
    (hid : 0 < id ∧ id < 2 ^ 32) (htype : type ≠ .request) :
    s.dispatchFrame n (FrameCodec.seen ⟨UInt32.ofNat id, type, method, body⟩) =
      s.onResponse n id method body (type.byte.toNat = FrameCodec.typeError) := by
  have hword : (UInt32.ofNat id).toNat = id := UInt32.toNat_ofNat_of_lt' hid.2
  unfold dispatchFrame FrameCodec.seen
  simp only [hword]
  rw [if_neg]
  rintro (h | h)
  · exact htype (congrArg Rpc.MessageType.mk (UInt8.toNat_inj.1 h))
  · omega

/-- Dispatching a message's frame comes to handing the message over. -/
theorem dispatch_returns (hwrite : Serializes F) {x : Message F} (hfits : Protobuf.Fits x.filled)
    (hid : x.Numbered) (h : s.hand x = some t) :
    ∃ n₀, ∀ n ≥ n₀, s.dispatchFrame n (FrameCodec.seen x.frame) = some t := by
  unfold hand at h
  cases x with
  | push p =>
    obtain ⟨n₀, hreturns⟩ := ProtoBridge.push_returns p hfits
    refine ⟨n₀, fun n hn => ?_⟩
    show s.onNotify n (utf8 (Game.push p).1) (WorldProto.serializeToString F (Game.push p).2) =
      some t
    unfold onNotify
    rw [Message.notifyDecoder_push]
    simp only []
    rw [hwrite (Game.push p).2 hfits, hreturns n hn]
    exact h
  | roomEvent data => exact ⟨0, fun n _ => h⟩
  | error id method =>
    refine ⟨0, fun n _ => ?_⟩
    refine (dispatchFrame_answer hid (by decide)).trans ?_
    unfold onResponse
    cases hpending : s.pendingRequests id with
    | none =>
      simp only [hpending] at h
      exact h
    | some kind =>
      simp only [hpending] at h
      exact h
  | response id r =>
    cases hpending : s.pendingRequests id with
    | none =>
      simp only [hpending] at h
      refine ⟨0, fun n _ => (dispatchFrame_answer hid (by decide)).trans ?_⟩
      unfold onResponse
      rw [hpending]
      exact h
    | some kind =>
      simp only [hpending, Option.map_eq_some_iff] at h
      obtain ⟨value, hvalue, rfl⟩ := h
      obtain ⟨n₀, hreturns⟩ := ProtoBridge.response_returns hvalue hfits
      refine ⟨n₀, fun n hn => (dispatchFrame_answer hid (by decide)).trans ?_⟩
      unfold onResponse
      rw [hpending]
      simp only []
      rw [ProtoBridge.responseBody_eq hwrite hvalue hfits, hreturns n hn]
      rfl

theorem dispatch_hand (hwrite : Serializes F) {x : Message F} {n : ℕ}
    (hfits : Protobuf.Fits x.filled) (hid : x.Numbered) (hhand : s.hand x = some t)
    (h : s.dispatchFrame n (FrameCodec.seen x.frame) = some s') :
    s' = t := by
  obtain ⟨n₀, hreturns⟩ := dispatch_returns hwrite hfits hid hhand
  have hmore := dispatchFrame_mono (Nat.le_max_left n n₀) h
  rw [hreturns _ (Nat.le_max_right n n₀)] at hmore
  exact (Option.some.inj hmore).symm

end NetSession

end TinRpc
