import Mathlib.Data.List.GetD
import TinRpc.Connection
import TinRpc.Proofs.Protocol

/-!
# Cutting the stream into frames

`Buffer::TryPopFrame` is a deframer whose blocks begin with the magic number and their own length,
whatever else is in them. The encodings of legal frames are blocks, so a stream of them is cut back
into them however it arrives. `Connection::OnRead` goes on after bytes that are no frame: it cuts
what looks like a block, drops it if it does not decode, and waits behind anything else.
-/

namespace TinRpc.Rpc

/-- What `TryPopFrame` takes for a frame: the magic number and the length of the whole. -/
structure IsBlock (f : List UInt8) : Prop where
  long : 6 ≤ f.length
  magic : networkToHost16 (memcpy16 f 0) = kProtocolMagic
  low : kFrameHeaderSize ≤ (networkToHost32 (memcpy32 f 2)).toNat
  high : (networkToHost32 (memcpy32 f 2)).toNat ≤ kMaxFrameSize
  total : (networkToHost32 (memcpy32 f 2)).toNat = f.length

theorem memcpy16_append {f : List UInt8} (pos : ℕ) (h : pos + 2 ≤ f.length) (r : List UInt8) :
    memcpy16 (f ++ r) pos = memcpy16 f pos := by
  unfold memcpy16
  rw [List.getD_append _ _ _ _ (by omega), List.getD_append _ _ _ _ (by omega)]

theorem memcpy32_append {f : List UInt8} (pos : ℕ) (h : pos + 4 ≤ f.length) (r : List UInt8) :
    memcpy32 (f ++ r) pos = memcpy32 f pos := by
  unfold memcpy32
  rw [List.getD_append _ _ _ _ (by omega), List.getD_append _ _ _ _ (by omega),
    List.getD_append _ _ _ _ (by omega), List.getD_append _ _ _ _ (by omega)]

theorem tryPopFrame_iff {b r : Buffer} {f : List UInt8} :
    b.tryPopFrame = some (f, r) ↔ IsBlock f ∧ b.buf = f ++ r.buf := by
  constructor
  · intro h
    unfold Buffer.tryPopFrame at h
    simp only [] at h
    split_ifs at h with h₁ h₂ h₃ h₄
    simp only [Option.some.injEq, Prod.mk.injEq] at h
    obtain ⟨rfl, rfl⟩ := h
    have hlen : (b.buf.take (networkToHost32 (memcpy32 b.buf 2)).toNat).length
        = (networkToHost32 (memcpy32 b.buf 2)).toNat := List.length_take_of_le (by omega)
    have hb := (List.take_append_drop (networkToHost32 (memcpy32 b.buf 2)).toNat b.buf).symm
    have hlow : 13 ≤ (networkToHost32 (memcpy32 b.buf 2)).toNat := by
      unfold kFrameHeaderSize at h₃
      omega
    have h16 := memcpy16_append 0 (f := b.buf.take
      (networkToHost32 (memcpy32 b.buf 2)).toNat) (by omega)
      (b.buf.drop (networkToHost32 (memcpy32 b.buf 2)).toNat)
    have h32 := memcpy32_append 2 (f := b.buf.take
      (networkToHost32 (memcpy32 b.buf 2)).toNat) (by omega)
      (b.buf.drop (networkToHost32 (memcpy32 b.buf 2)).toNat)
    rw [← hb] at h16 h32
    refine ⟨⟨by omega, ?_, ?_, ?_, ?_⟩, hb⟩
    · rw [← h16]; exact not_not.1 h₂
    all_goals rw [← h32]; omega
  · rintro ⟨hf, hb⟩
    have hlen := hf.long
    have h16 := memcpy16_append 0 (f := f) (by omega) r.buf
    have h32 := memcpy32_append 2 (f := f) (by omega) r.buf
    obtain ⟨hlong, hmagic, hlow, hhigh, htotal⟩ := hf
    unfold Buffer.tryPopFrame
    simp only [hb, h16, h32, hmagic, htotal, List.length_append]
    rw [htotal] at hlow hhigh
    rw [if_neg (by omega), if_neg (by simp), if_neg (by omega), if_neg (by omega),
      List.take_left, List.drop_left]

/-- `TryPopFrame` as a deframer. -/
def deframer : Deframer UInt8 where
  Block := IsBlock
  cut b := (Buffer.tryPopFrame ⟨b⟩).map fun p => (p.1, p.2.buf)
  cut_iff := by
    intro b f r
    simp only [Option.map_eq_some_iff, Prod.mk.injEq]
    constructor
    · rintro ⟨⟨f', b'⟩, h, rfl, rfl⟩
      exact tryPopFrame_iff.1 h
    · intro h
      exact ⟨(f, ⟨r⟩), tryPopFrame_iff.2 h, rfl, rfl⟩
  nil_not h := by simpa using h.long

/-- The encoding of a legal frame is a block. -/
theorem Frame.Legal.isBlock {f : Frame} (h : f.Legal) : IsBlock f.encode := by
  obtain ⟨m₀, m₁, t₀, t₁, t₂, t₃, r₀, r₁, r₂, r₃, k, n₀, n₁, rest, hb⟩ :=
    exists_header (b := f.encode) (by rw [encode_length]; omega)
  obtain ⟨hm, ht, -⟩ := encode_eq_iff.1 hb.symm
  have htotal : (networkToHost32 (memcpy32 f.encode 2)).toNat = f.encode.length := by
    rw [encode_length, ← h.lengths.1, ← ht, hb]
    rfl
  have hlen := encode_length f
  have hsize := h.size
  refine ⟨by omega, ?_, ?_, by omega, htotal⟩
  · rw [hb]; exact hm
  · unfold kFrameHeaderSize
    omega

/-- Bytes that begin a legal frame and are not all of it. -/
def IsPartial (b : List UInt8) : Prop := ∃ g : Frame, g.Legal ∧ b <+: g.encode ∧ b ≠ g.encode

theorem IsPartial.cut {b : List UInt8} (h : IsPartial b) : deframer.cut b = none := by
  obtain ⟨g, hg, hb, hne⟩ := h
  exact Deframer.cut_prefix (D := deframer) hg.isBlock hb hne

theorem blocks_of_legal {fs : List Frame} (h : ∀ f ∈ fs, f.Legal) :
    ∀ b ∈ fs.map Frame.encode, deframer.Block b := by
  intro b hb
  obtain ⟨f, hf, rfl⟩ := List.mem_map.1 hb
  exact (h f hf).isBlock

/-- A stream of legal frames, the last one unfinished, is cut into them. -/
theorem drain_legal {fs : List Frame} {tail : List UInt8} (h : ∀ f ∈ fs, f.Legal)
    (ht : IsPartial tail) :
    deframer.drain ((fs.map Frame.encode).flatten ++ tail) = (fs.map Frame.encode, tail) :=
  Deframer.drain_blocks ht.cut _ (blocks_of_legal h)

namespace Buffer

theorem popLoop_eq : ∀ (n : ℕ) (b : Buffer),
    popLoop n b = ((deframer.drainFuel n b.buf).1, ⟨(deframer.drainFuel n b.buf).2⟩)
  | 0, b => rfl
  | n + 1, b => by
    unfold popLoop Deframer.drainFuel
    simp only [deframer]
    rcases h : b.tryPopFrame with _ | ⟨f, r⟩
    · simp
    · simp only [Option.map_some]
      rw [popLoop_eq n r]
      rfl

theorem popAll_eq (b : Buffer) :
    b.popAll = ((deframer.drain b.buf).1, ⟨(deframer.drain b.buf).2⟩) := popLoop_eq _ b

theorem follows_apply {a : List UInt8} {s : Buffer × List (List UInt8)} (op : Op)
    (h : deframer.Follows a s.2 s.1.buf) :
    deframer.Follows (a ++ op.data) (apply s op).2 (apply s op).1.buf := by
  rcases op with data | _
  · exact h.append data
  · rw [show a ++ Op.data .tryPopFrame = a from List.append_nil a]
    unfold apply
    rcases hp : s.1.tryPopFrame with _ | ⟨f, r⟩
    · exact h
    · exact h.cut (show deframer.cut s.1.buf = some (f, r.buf) by simp [deframer, hp])

theorem follows_foldl : ∀ (ops : List Op) {a : List UInt8} {s : Buffer × List (List UInt8)},
    deframer.Follows a s.2 s.1.buf →
    deframer.Follows (a ++ ops.flatMap Op.data) (ops.foldl apply s).2 (ops.foldl apply s).1.buf
  | [], a, s, h => by simpa using h
  | op :: ops, a, s, h => by
    have := follows_foldl ops (follows_apply op h)
    rwa [List.append_assoc] at this

theorem follows_run (ops : List Op) :
    deframer.Follows (ops.flatMap Op.data) (run ops).2 (run ops).1.buf :=
  follows_foldl ops (a := []) (s := ({}, [])) Deframer.follows_nil

/-- Legal frames appended in any pieces, with frames asked for at any time, come out in order and
whole; when all has been appended, popping gives the others and leaves the unfinished frame. -/
theorem deframing {fs : List Frame} {tail : List UInt8} (hfs : ∀ f ∈ fs, f.Legal)
    (ht : IsPartial tail) (ops : List Op) :
    (ops.flatMap Op.data <+: (fs.map Frame.encode).flatten ++ tail →
        (run ops).2 <+: fs.map Frame.encode)
      ∧ (ops.flatMap Op.data = (fs.map Frame.encode).flatten ++ tail →
        (run ops).2 ++ (run ops).1.popAll.1 = fs.map Frame.encode
          ∧ (run ops).1.popAll.2.buf = tail) := by
  have h := follows_run ops
  refine ⟨fun hp => ?_, fun he => ?_⟩
  · have := h.prefix.trans (Deframer.drain_prefix (D := deframer) hp)
    rwa [drain_legal hfs ht] at this
  · unfold Deframer.Follows at h
    rw [he, drain_legal hfs ht, Prod.mk.injEq] at h
    rw [popAll_eq]
    exact ⟨h.1.symm, h.2.symm⟩

/-- A request with an empty body. -/
def ping : Frame := ⟨1, .request, [0x70, 0x69, 0x6E, 0x67], []⟩

/-- Two frames cut inside the length of the first, the second not complete. -/
theorem deframing_ping :
    let ops : List Op := [.append (ping.encode.take 5), .tryPopFrame,
      .append (ping.encode.drop 5 ++ [0xBA, 0xBE, 0x00]), .tryPopFrame]
    (run ops).2 ++ (run ops).1.popAll.1 = [ping.encode]
      ∧ (run ops).1.popAll.2.buf = [0xBA, 0xBE, 0x00] :=
  (@deframing [ping] [0xBA, 0xBE, 0x00] (by decide) ⟨ping, by decide, ⟨_, rfl⟩, by decide⟩ _).2
    (by decide)

end Buffer

/-- A stream of legal frames, the last one unfinished. -/
def WellFramed (s : List UInt8) : Prop :=
  ∃ (fs : List Frame) (tail : List UInt8), (∀ f ∈ fs, f.Legal) ∧ IsPartial tail
    ∧ s = (fs.map Frame.encode).flatten ++ tail

namespace Connection

/-- What is asked of a connection after `OnRead`: it is closed, or every frame it cut off decoded
and its read buffer is the start of a legal frame. -/
def Framed (c : Connection) : Prop :=
  c.closed = true ∨ (none ∉ c.handled ∧ IsPartial c.readBuffer.buf)

variable {c : Connection} {a : List UInt8}

theorem frameLoop_eq : ∀ (n : ℕ) (c : Connection), c.frameLoop n =
    { c with
      readBuffer := (Buffer.popLoop n c.readBuffer).2
      handled := c.handled ++ (Buffer.popLoop n c.readBuffer).1.map ProtocolFrame.decode }
  | 0, c => by simp [frameLoop, Buffer.popLoop]
  | n + 1, c => by
    unfold frameLoop Buffer.popLoop
    rcases h : c.readBuffer.tryPopFrame with _ | ⟨f, r⟩
    · simp
    · simp only []
      rw [frameLoop_eq n]
      simp

theorem recvLoop_open : ∀ (rs : List Recv) (c : Connection), ends rs = false → c.recvLoop rs
    = ({ c with readBuffer := c.readBuffer.append (received rs) }, true)
  | [], c, _ => by simp [recvLoop, received, Buffer.append]
  | .bytes [] :: _, _, h => by simp [ends] at h
  | .bytes (x :: bs) :: rs, c, h => by
    unfold recvLoop
    rw [recvLoop_open rs _ (by simpa [ends] using h)]
    simp [received, Buffer.append]
  | .error .again :: _, c, _ => by simp [recvLoop, received, Buffer.append]
  | .error .intr :: rs, c, h => by
    unfold recvLoop
    rw [recvLoop_open rs _ (by simpa [ends] using h)]
    simp [received]
  | .error .other :: _, _, h => by simp [ends] at h

theorem recvLoop_ends : ∀ (rs : List Recv) (c : Connection), ends rs = true →
    (c.recvLoop rs).2 = false ∧ (c.recvLoop rs).1.closed = true
  | [], _, h => by simp [ends] at h
  | .bytes [] :: _, c, _ => ⟨rfl, rfl⟩
  | .bytes (x :: bs) :: rs, c, h => by
    unfold recvLoop
    exact recvLoop_ends rs _ (by simpa [ends] using h)
  | .error .again :: _, _, h => by simp [ends] at h
  | .error .intr :: rs, c, h => by
    unfold recvLoop
    exact recvLoop_ends rs _ (by simpa [ends] using h)
  | .error .other :: _, c, _ => ⟨rfl, rfl⟩

theorem onRead_ends {rs : List Recv} (h : ends rs = true) : (c.onRead rs).closed = true := by
  obtain ⟨h₂, hc⟩ := recvLoop_ends rs c h
  unfold onRead
  simp only [h₂, Bool.false_eq_true, ↓reduceIte, hc]

theorem onRead_open {rs : List Recv} (h : ends rs = false) : (c.onRead rs).closed = c.closed := by
  unfold onRead
  simp only [recvLoop_open rs c h, ↓reduceIte]
  rw [frameLoop_eq]

/-- The read side of a connection that has received `a` and is not closed. -/
structure Reads (c : Connection) (a : List UInt8) : Prop where
  isOpen : c.closed = false
  handled : c.handled = (deframer.drain a).1.map ProtocolFrame.decode
  rest : c.readBuffer.buf = (deframer.drain a).2

theorem reads_new : Reads {} [] := by
  have h : deframer.drain [] = ([], []) := Deframer.drain_none Deframer.cut_nil
  exact ⟨rfl, by rw [h]; rfl, by rw [h]⟩

/-- `OnRead` cuts off what has become complete. -/
theorem Reads.onRead (h : c.Reads a) {rs : List Recv} (hrs : ends rs = false) :
    (c.onRead rs).Reads (a ++ received rs) := by
  have he : c.onRead rs = { c with
      readBuffer := ⟨(deframer.drain (c.readBuffer.buf ++ received rs)).2⟩
      handled := c.handled ++ (deframer.drain (c.readBuffer.buf ++ received rs)).1.map
        ProtocolFrame.decode } := by
    unfold Connection.onRead
    simp only [recvLoop_open rs c hrs, ↓reduceIte]
    rw [frameLoop_eq, Buffer.popLoop_eq]
    rfl
  rw [he, h.rest, h.handled]
  refine ⟨h.isOpen, ?_, ?_⟩
  · rw [Deframer.drain_append a, List.map_append]
  · rw [Deframer.drain_append a]

theorem readAll_closed (h : c.closed = true) : ∀ ds : List (List Recv), c.readAll ds = c
  | [] => rfl
  | d :: ds => by simp [readAll, h]

theorem Reads.readAll : ∀ (ds : List (List Recv)) {c : Connection} {a : List UInt8}, c.Reads a →
    (∀ d ∈ ds, ends d = false) → (c.readAll ds).Reads (a ++ ds.flatMap received)
  | [], c, a, h, _ => by simpa [Connection.readAll] using h
  | d :: ds, c, a, h, hd => by
    obtain ⟨hd, hds⟩ := List.forall_mem_cons.1 hd
    have := Reads.readAll ds (h.onRead hd) hds
    unfold Connection.readAll
    rw [List.append_assoc] at this
    simpa [h.isOpen] using this

theorem readAll_ends : ∀ (ds : List (List Recv)) {c : Connection} {a : List UInt8}, c.Reads a →
    (∃ d ∈ ds, ends d = true) → (c.readAll ds).closed = true
  | [], _, _, _, h => by simp at h
  | d :: ds, c, a, h, hd => by
    unfold readAll
    rw [h.isOpen]
    simp only [Bool.false_eq_true, ↓reduceIte]
    rcases hends : ends d with _ | _
    · exact readAll_ends ds (h.onRead hends) (by simpa [hends] using hd)
    · rw [readAll_closed (onRead_ends hends)]
      exact onRead_ends hends

/-- Blocks that decode are encodings of legal frames. -/
theorem legal_of_decoded : ∀ bs : List (List UInt8), none ∉ bs.map ProtocolFrame.decode →
    ∃ fs : List Frame, (∀ f ∈ fs, f.Legal) ∧ fs.map Frame.encode = bs
  | [], _ => ⟨[], by simp, rfl⟩
  | b :: bs, h => by
    rw [List.map_cons, List.mem_cons, not_or] at h
    obtain ⟨fs, hfs, hm⟩ := legal_of_decoded bs h.2
    rcases hb : ProtocolFrame.decode b with _ | f
    · exact absurd hb.symm h.1
    · obtain ⟨hl, he⟩ := encode_of_decode hb
      exact ⟨f :: fs, List.forall_mem_cons.2 ⟨hl, hfs⟩, by rw [List.map_cons, hm, he]⟩

/-- A stream is well framed when all that is cut off it decodes and the start of a frame is left. -/
theorem wellFramed_iff : WellFramed a ↔ none ∉ (deframer.drain a).1.map ProtocolFrame.decode
    ∧ IsPartial (deframer.drain a).2 := by
  constructor
  · rintro ⟨fs, tail, hfs, ht, rfl⟩
    rw [drain_legal hfs ht]
    refine ⟨fun h => ?_, ht⟩
    obtain ⟨b, hb, hd⟩ := List.mem_map.1 h
    obtain ⟨f, hf, rfl⟩ := List.mem_map.1 hb
    rw [decode_encode (hfs f hf)] at hd
    cases hd
  · rintro ⟨hd, ht⟩
    obtain ⟨fs, hfs, he⟩ := legal_of_decoded _ hd
    exact ⟨fs, _, hfs, ht, he ▸ (Deframer.drain_flatten (D := deframer) a).symm⟩

/-- After each `OnRead` the connection is closed or waits at the start of a legal frame, having
decoded all before it, exactly when `recv` has reported an end or what has arrived is a stream of
legal frames, the last one unfinished. -/
theorem framed_iff (ds : List (List Recv)) :
    (readAll {} ds).Framed ↔ (∃ d ∈ ds, ends d = true) ∨ WellFramed (ds.flatMap received) := by
  by_cases hends : ∃ d ∈ ds, ends d = true
  · simp only [hends, true_or, iff_true]
    exact .inl (readAll_ends ds reads_new hends)
  · have hds : ∀ d ∈ ds, ends d = false := by simpa using hends
    have h := Reads.readAll ds reads_new hds
    rw [List.nil_append] at h
    unfold Framed
    rw [h.isOpen, h.handled, h.rest, wellFramed_iff]
    simp [hends]

/-- Bytes that begin with no magic number, then `EAGAIN`: the connection stays open. -/
theorem framed_fails : ¬ (readAll {} [[.bytes [0, 0, 0, 0, 0, 0], .error .again]]).Framed := by
  have hs : readAll {} [[.bytes [0, 0, 0, 0, 0, 0], .error .again]]
      = { readBuffer := ⟨[0, 0, 0, 0, 0, 0]⟩ } := by decide
  rw [hs]
  rintro (h | ⟨-, g, -, hb, -⟩)
  · cases h
  · obtain ⟨t, ht⟩ := hb
    have hm : g.encode.head? = some 0xBA := rfl
    rw [← ht] at hm
    simp at hm

end Connection

end TinRpc.Rpc
