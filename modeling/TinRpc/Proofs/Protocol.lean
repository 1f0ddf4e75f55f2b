import Mathlib.Data.Set.Function
import TinRpc.Lib.Deframer
import TinRpc.Protocol

/-!
# The frame format

`ProtocolFrame::Encode` and `ProtocolFrame::Decode` are inverse to each other: what is decoded is
exactly what was encoded from a legal frame. `Buffer::TryPopFrame` cuts the blocks of a prefix
code, and the encodings of legal frames are among them.
-/

namespace TinRpc.Rpc

open Memory

/-- On the wire the bytes of a word are those in memory, reversed. -/
theorem store16_hostToNetwork16 (v : UInt16) :
    store16 (hostToNetwork16 v) = (store16 v).reverse := by
  unfold hostToNetwork16 store16
  simp only [List.reverse_cons, List.reverse_nil, List.nil_append, List.cons_append,
    List.cons.injEq, and_true]
  constructor <;> apply UInt8.eq_of_toBitVec_eq <;> ext i hi <;> simp <;>
    interval_cases i <;> simp

theorem store32_hostToNetwork32 (v : UInt32) :
    store32 (hostToNetwork32 v) = (store32 v).reverse := by
  unfold hostToNetwork32 store32
  simp only [List.reverse_cons, List.reverse_nil, List.nil_append, List.cons_append,
    List.cons.injEq, and_true]
  refine ⟨?_, ?_, ?_, ?_⟩ <;> apply UInt8.eq_of_toBitVec_eq <;> ext i hi <;> simp <;>
    interval_cases i <;> simp

theorem hostToNetwork16_hostToNetwork16 (v : UInt16) :
    hostToNetwork16 (hostToNetwork16 v) = v := by
  apply store16_injective
  rw [store16_hostToNetwork16, store16_hostToNetwork16, List.reverse_reverse]

theorem hostToNetwork32_hostToNetwork32 (v : UInt32) :
    hostToNetwork32 (hostToNetwork32 v) = v := by
  apply store32_injective
  rw [store32_hostToNetwork32, store32_hostToNetwork32, List.reverse_reverse]

/-- The bytes of a word the other way round. -/
theorem hostToNetwork16_load16 (a b : UInt8) : hostToNetwork16 (load16 a b) = load16 b a := by
  apply store16_injective
  rw [store16_hostToNetwork16, store16_load16, store16_load16]
  rfl

theorem hostToNetwork32_load32 (a b c d : UInt8) :
    hostToNetwork32 (load32 a b c d) = load32 d c b a := by
  apply store32_injective
  rw [store32_hostToNetwork32, store32_load32, store32_load32]
  rfl

/-- The bits of the bytes, the last byte first. -/
theorem getLsbD_hostToNetwork64 (v : UInt64) {i : ℕ} (hi : i < 64) :
    (hostToNetwork64 v).toBitVec.getLsbD i = v.toBitVec.getLsbD (8 * (7 - i / 8) + i % 8) := by
  have hbytes : (hostToNetwork64 v).toBitVec
      = onlyByte v.toBitVec 0 <<< (8 * (7 - 0)) ||| onlyByte v.toBitVec 1 <<< (8 * (6 - 1))
        ||| onlyByte v.toBitVec 2 <<< (8 * (5 - 2)) ||| onlyByte v.toBitVec 3 <<< (8 * (4 - 3))
        ||| onlyByte v.toBitVec 4 >>> (8 * (4 - 3)) ||| onlyByte v.toBitVec 5 >>> (8 * (5 - 2))
        ||| onlyByte v.toBitVec 6 >>> (8 * (6 - 1)) ||| onlyByte v.toBitVec 7 >>> (8 * (7 - 0)) :=
    rfl
  rw [hbytes]
  simp (disch := omega) only [BitVec.getLsbD_or, getLsbD_up, getLsbD_down]
  have : i / 8 < 8 := by omega
  interval_cases i / 8 <;> simp

theorem hostToNetwork64_hostToNetwork64 (v : UInt64) :
    hostToNetwork64 (hostToNetwork64 v) = v := by
  apply UInt64.eq_of_toBitVec_eq
  refine BitVec.eq_of_getLsbD_eq fun i hi => ?_
  rw [getLsbD_hostToNetwork64 _ hi, getLsbD_hostToNetwork64 _ (by omega)]
  congr 1
  omega

/-- A big-endian number is read back from its bytes, and its bytes from the number. -/
theorem load16_eq_iff {a b : UInt8} {v : UInt16} :
    networkToHost16 (load16 a b) = v ↔ [a, b] = store16 (hostToNetwork16 v) := by
  unfold networkToHost16
  constructor
  · rintro rfl
    rw [hostToNetwork16_hostToNetwork16, store16_load16]
  · intro h
    simp only [store16, List.cons.injEq, and_true] at h
    rw [h.1, h.2, load16_store16, hostToNetwork16_hostToNetwork16]

theorem load32_eq_iff {a b c d : UInt8} {v : UInt32} :
    networkToHost32 (load32 a b c d) = v ↔ [a, b, c, d] = store32 (hostToNetwork32 v) := by
  unfold networkToHost32
  constructor
  · rintro rfl
    rw [hostToNetwork32_hostToNetwork32, store32_load32]
  · intro h
    simp only [store32, List.cons.injEq, and_true] at h
    rw [h.1, h.2.1, h.2.2.1, h.2.2.2, load32_store32, hostToNetwork32_hostToNetwork32]

/-- Thirteen bytes or more begin with the fields of a header. -/
theorem exists_header {b : List UInt8} (h : 13 ≤ b.length) :
    ∃ m₀ m₁ t₀ t₁ t₂ t₃ r₀ r₁ r₂ r₃ k n₀ n₁ rest,
      b = m₀ :: m₁ :: t₀ :: t₁ :: t₂ :: t₃ :: r₀ :: r₁ :: r₂ :: r₃ :: k :: n₀ :: n₁ :: rest := by
  rcases b with _ | ⟨m₀, _ | ⟨m₁, _ | ⟨t₀, _ | ⟨t₁, _ | ⟨t₂, _ | ⟨t₃, _ | ⟨r₀, _ | ⟨r₁, _ | ⟨r₂,
    _ | ⟨r₃, _ | ⟨k, _ | ⟨n₀, _ | ⟨n₁, rest⟩⟩⟩⟩⟩⟩⟩⟩⟩⟩⟩⟩⟩
  case cons.cons.cons.cons.cons.cons.cons.cons.cons.cons.cons.cons.cons =>
    exact ⟨m₀, m₁, t₀, t₁, t₂, t₃, r₀, r₁, r₂, r₃, k, n₀, n₁, rest, rfl⟩
  all_goals simp at h

section Header

variable {m₀ m₁ t₀ t₁ t₂ t₃ r₀ r₁ r₂ r₃ k n₀ n₁ : UInt8} {rest : List UInt8} {f : Frame}

theorem encode_eq_iff :
    m₀ :: m₁ :: t₀ :: t₁ :: t₂ :: t₃ :: r₀ :: r₁ :: r₂ :: r₃ :: k :: n₀ :: n₁ :: rest = f.encode
      ↔ networkToHost16 (load16 m₀ m₁) = kProtocolMagic
        ∧ networkToHost32 (load32 t₀ t₁ t₂ t₃)
          = UInt32.ofNat (13 + f.methodName.length + f.body.length)
        ∧ networkToHost32 (load32 r₀ r₁ r₂ r₃) = f.requestId ∧ k = f.msgType.byte
        ∧ networkToHost16 (load16 n₀ n₁) = UInt16.ofNat f.methodName.length
        ∧ rest = f.methodName ++ f.body := by
  unfold Frame.encode ProtocolFrame.encode kFrameHeaderSize
  rw [load16_eq_iff, load32_eq_iff, load32_eq_iff, load16_eq_iff]
  simp only [store16, store32, List.cons_append, List.nil_append, List.cons.injEq, and_true]
  tauto

theorem decode_eq_iff :
    ProtocolFrame.decode
        (m₀ :: m₁ :: t₀ :: t₁ :: t₂ :: t₃ :: r₀ :: r₁ :: r₂ :: r₃ :: k :: n₀ :: n₁ :: rest) = some f
      ↔ networkToHost16 (load16 m₀ m₁) = kProtocolMagic
        ∧ (networkToHost32 (load32 t₀ t₁ t₂ t₃)).toNat = 13 + rest.length
        ∧ 13 + rest.length ≤ kMaxFrameSize
        ∧ (k = 0x01 ∨ k = 0x02 ∨ k = 0x03)
        ∧ (networkToHost16 (load16 n₀ n₁)).toNat ≤ rest.length
        ∧ f = { requestId := networkToHost32 (load32 r₀ r₁ r₂ r₃), msgType := ⟨k⟩
                methodName := rest.take (networkToHost16 (load16 n₀ n₁)).toNat
                body := rest.drop (networkToHost16 (load16 n₀ n₁)).toNat } := by
  have hdrop : ∀ n, (m₀ :: m₁ :: t₀ :: t₁ :: t₂ :: t₃ :: r₀ :: r₁ :: r₂ :: r₃ :: k :: n₀ :: n₁
      :: rest).drop (13 + n) = rest.drop n := fun n => by
    rw [← List.drop_drop]
    rfl
  unfold ProtocolFrame.decode kFrameHeaderSize
  simp only [memcpy16, memcpy32, List.length_cons, List.getD_cons_zero, List.getD_cons_succ,
    hdrop, MessageType.request, MessageType.response, MessageType.error]
  split_ifs with h₁ h₂ h₃ h₄ h₅ h₆ <;> grind

theorem encode_length (f : Frame) :
    f.encode.length = 13 + f.methodName.length + f.body.length := by
  unfold Frame.encode ProtocolFrame.encode
  simp only [List.length_append, store16_length, store32_length, List.length_singleton]

/-- The fields of a legal frame fit, so its two lengths are read back. -/
theorem Frame.Legal.lengths (h : f.Legal) :
    (UInt32.ofNat (13 + f.methodName.length + f.body.length)).toNat
        = 13 + f.methodName.length + f.body.length
      ∧ (UInt16.ofNat f.methodName.length).toNat = f.methodName.length := by
  have hs := h.size
  have hm := h.method
  unfold kMaxFrameSize at hs
  rw [UInt32.toNat_ofNat', UInt16.toNat_ofNat']
  omega

theorem decode_encode (h : f.Legal) : ProtocolFrame.decode f.encode = some f := by
  obtain ⟨m₀, m₁, t₀, t₁, t₂, t₃, r₀, r₁, r₂, r₃, k, n₀, n₁, rest, hb⟩ :=
    exists_header (b := f.encode) (by rw [encode_length]; omega)
  obtain ⟨hl, hn⟩ := h.lengths
  obtain ⟨hm, ht, hr, hk, hmn, hrest⟩ := encode_eq_iff.1 hb.symm
  rw [hb, decode_eq_iff, hm, ht, hr, hmn, hn, hl, hrest]
  refine ⟨rfl, ?_, ?_, ?_, ?_, ?_⟩
  · rw [List.length_append]; omega
  · have := h.size
    rw [List.length_append]; omega
  · rw [hk]
    rcases h.type with h | h | h <;> simp [h, MessageType.request, MessageType.response,
      MessageType.error]
  · rw [List.length_append]; omega
  · rw [List.take_left, List.drop_left, hk]

theorem encode_of_decode {b : List UInt8} (h : ProtocolFrame.decode b = some f) :
    f.Legal ∧ b = f.encode := by
  by_cases hs : b.length < 13
  · unfold ProtocolFrame.decode kFrameHeaderSize at h
    simp [hs] at h
  obtain ⟨m₀, m₁, t₀, t₁, t₂, t₃, r₀, r₁, r₂, r₃, k, n₀, n₁, rest, rfl⟩ :=
    exists_header (b := b) (by omega)
  obtain ⟨hm, ht, hmax, hk, hn, rfl⟩ := decode_eq_iff.1 h
  have hlen : (rest.take (networkToHost16 (load16 n₀ n₁)).toNat).length
      = (networkToHost16 (load16 n₀ n₁)).toNat := List.length_take_of_le hn
  have hlt := (networkToHost16 (load16 n₀ n₁)).toNat_lt
  have hsum : 13 + (networkToHost16 (load16 n₀ n₁)).toNat
      + (rest.drop (networkToHost16 (load16 n₀ n₁)).toNat).length = 13 + rest.length := by
    rw [List.length_drop]; omega
  refine ⟨⟨?_, ?_, ?_⟩, encode_eq_iff.2 ⟨hm, ?_, rfl, rfl, ?_, ?_⟩⟩
  · rcases hk with rfl | rfl | rfl
    exacts [.inl rfl, .inr (.inl rfl), .inr (.inr rfl)]
  · show (rest.take _).length ≤ 65535
    omega
  · show 13 + (rest.take _).length + (rest.drop _).length ≤ kMaxFrameSize
    rw [hlen, hsum]
    exact hmax
  · show _ = UInt32.ofNat (13 + (rest.take _).length + (rest.drop _).length)
    rw [hlen, hsum, ← ht, UInt32.ofNat_toNat]
  · show _ = UInt16.ofNat (rest.take _).length
    rw [hlen, UInt16.ofNat_toNat]
  · exact (List.take_append_drop _ rest).symm

end Header

/-- Decoding accepts exactly the encodings of legal frames, and gives the frame back. -/
theorem frame_format :
    (∀ (b : List UInt8) (f : Frame), ProtocolFrame.decode b = some f ↔ f.Legal ∧ b = f.encode)
      ∧ Set.InjOn Frame.encode {f | f.Legal}
      ∧ ∀ b : List UInt8, b ∉ Frame.encode '' {f | f.Legal} → ProtocolFrame.decode b = none := by
  refine ⟨fun b f => ⟨encode_of_decode, ?_⟩, fun f hf g hg he => ?_, fun b hb => ?_⟩
  · rintro ⟨h, rfl⟩
    exact decode_encode h
  · have h := decode_encode hf
    rw [show f.encode = g.encode from he, decode_encode hg] at h
    exact (Option.some.inj h).symm
  · rcases h : ProtocolFrame.decode b with _ | f
    · rfl
    · obtain ⟨hl, he⟩ := encode_of_decode h
      exact absurd ⟨f, hl, he.symm⟩ hb

/-- A method that is too long for its field is cut to what the field says, and the rest of it goes
to the body. -/
theorem decode_encode_long {f : Frame}
    (htype : f.msgType = .request ∨ f.msgType = .response ∨ f.msgType = .error)
    (hsize : 13 + f.methodName.length + f.body.length ≤ kMaxFrameSize) :
    ProtocolFrame.decode f.encode = some
      { f with
        methodName := (f.methodName ++ f.body).take (f.methodName.length % 65536)
        body := (f.methodName ++ f.body).drop (f.methodName.length % 65536) } := by
  set n := f.methodName.length % 65536 with hn
  have hle : n ≤ (f.methodName ++ f.body).length := by
    rw [List.length_append]
    omega
  have htake : ((f.methodName ++ f.body).take n).length = n := List.length_take_of_le hle
  have htotal : 13 + n + ((f.methodName ++ f.body).drop n).length
      = 13 + f.methodName.length + f.body.length := by
    rw [List.length_drop, List.length_append] at *
    omega
  have hfield : UInt16.ofNat n = UInt16.ofNat f.methodName.length := by
    rw [← UInt16.toNat_inj, UInt16.toNat_ofNat', UInt16.toNat_ofNat']
    omega
  have hsame : f.encode = Frame.encode { f with
      methodName := (f.methodName ++ f.body).take n, body := (f.methodName ++ f.body).drop n } := by
    unfold Frame.encode ProtocolFrame.encode kFrameHeaderSize
    simp only [List.append_assoc, List.take_append_drop, htake, htotal, hfield]
  rw [hsame]
  refine decode_encode ⟨htype, ?_, ?_⟩
  · show ((f.methodName ++ f.body).take n).length ≤ 65535
    omega
  · show 13 + ((f.methodName ++ f.body).take n).length + ((f.methodName ++ f.body).drop n).length
      ≤ kMaxFrameSize
    omega

/-- What is decoded from an encoding is the message that was encoded, unless a method too long for
its field was put into a frame of a legal size and type. -/
theorem decode_encode_iff (f : Frame) :
    (ProtocolFrame.decode f.encode = none ∨ ProtocolFrame.decode f.encode = some f) ↔
      f.methodName.length ≤ 65535 ∨ kMaxFrameSize < 13 + f.methodName.length + f.body.length ∨
        ¬(f.msgType = .request ∨ f.msgType = .response ∨ f.msgType = .error) := by
  constructor
  · intro h
    by_contra hbad
    rw [not_or, not_or, not_not] at hbad
    obtain ⟨hlong, hsize, htype⟩ := hbad
    rw [decode_encode_long htype (Nat.not_lt.1 hsize)] at h
    rcases h with h | h
    · cases h
    · have hlen := congrArg (fun g : Frame => g.methodName.length) (Option.some.inj h)
      simp only [List.length_take, List.length_append] at hlen
      omega
  · intro h
    rcases hd : ProtocolFrame.decode f.encode with _ | g
    · exact .inl rfl
    obtain ⟨hg, he⟩ := encode_of_decode hd
    obtain ⟨m₀, m₁, t₀, t₁, t₂, t₃, r₀, r₁, r₂, r₃, k, n₀, n₁, rest, hb⟩ :=
      exists_header (b := f.encode) (by rw [encode_length]; omega)
    obtain ⟨-, -, -, hf, -⟩ := encode_eq_iff.1 hb.symm
    obtain ⟨-, -, -, hk, -⟩ := encode_eq_iff.1 (hb.symm.trans he)
    have htype : f.msgType = g.msgType := by
      have hbyte := hf.symm.trans hk
      generalize f.msgType = s, g.msgType = t at hbyte
      obtain ⟨s⟩ := s
      exact congrArg MessageType.mk hbyte
    have hsize : f.encode.length = g.encode.length := congrArg List.length he
    rw [encode_length, encode_length] at hsize
    have hmax := hg.size
    rcases h with h | h | h
    · rw [decode_encode ⟨htype ▸ hg.type, h, by omega⟩] at hd
      exact .inr hd.symm
    · omega
    · exact absurd (htype ▸ hg.type) h

/-- A request whose method has 65536 bytes and which has no body is read as one with no method and
a body of 65536 bytes. -/
theorem not_decode_encode_long :
    let f : Frame := ⟨1, .request, List.replicate 65536 0x61, []⟩
    ¬(ProtocolFrame.decode f.encode = none ∨ ProtocolFrame.decode f.encode = some f) := by
  intro f
  have hsize : 13 + f.methodName.length + f.body.length ≤ kMaxFrameSize := by
    show 13 + (List.replicate 65536 (0x61 : UInt8)).length + 0 ≤ _
    rw [List.length_replicate]
    decide
  rw [decode_encode_long (.inl rfl) hsize]
  rintro (h | h)
  · cases h
  · have hmethod := congrArg Frame.methodName (Option.some.inj h)
    have hlen : f.methodName.length = 65536 := List.length_replicate
    simp only [hlen, Nat.mod_self, List.take_zero] at hmethod
    exact absurd (congrArg List.length hmethod) (by rw [hlen]; decide)

end TinRpc.Rpc
