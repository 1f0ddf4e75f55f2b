import TinRpc.Proofs.Chunks
import TinRpc.Proofs.Deframing

/-!
# Server and client read one stream alike

Both sides cut the same blocks off a stream and keep the same start of a block. Of a block they read
the same fields, and they drop the same blocks: those whose type has no name and those whose method
would not fit.
-/

namespace TinRpc

open Rpc Memory

theorem networkToHost16_toNat (a b : UInt8) :
    (networkToHost16 (load16 a b)).toNat = a.toNat <<< 8 ||| b.toNat := by
  have h : networkToHost16 (load16 a b) = a.toUInt16 <<< 8 ||| b.toUInt16 := by
    rw [networkToHost16, hostToNetwork16_load16, load16, UInt16.or_comm]
  have ha := a.toNat_lt
  rw [h, UInt16.toNat_or, UInt16.toNat_shiftLeft, UInt8.toNat_toUInt16, UInt8.toNat_toUInt16]
  congr 1
  show a.toNat <<< 8 % 2 ^ 16 = _
  rw [Nat.shiftLeft_eq]
  omega

theorem networkToHost32_toNat (a b c d : UInt8) :
    (networkToHost32 (load32 a b c d)).toNat
      = a.toNat <<< 24 ||| b.toNat <<< 16 ||| c.toNat <<< 8 ||| d.toNat := by
  have h : networkToHost32 (load32 a b c d)
      = a.toUInt32 <<< 24 ||| b.toUInt32 <<< 16 ||| c.toUInt32 <<< 8 ||| d.toUInt32 := by
    rw [networkToHost32, hostToNetwork32_load32, load32, UInt32.or_comm, UInt32.or_comm (_ ||| _),
      UInt32.or_comm d.toUInt32, UInt32.or_assoc, UInt32.or_assoc]
  have hs : ∀ (x : UInt8) (k : UInt32), k.toNat ≤ 24 →
      (x.toUInt32 <<< k).toNat = x.toNat <<< k.toNat := by
    intro x k hk
    have hx := x.toNat_lt
    rw [UInt32.toNat_shiftLeft, UInt8.toNat_toUInt32, Nat.mod_eq_of_lt (by omega : k.toNat < 32)]
    refine Nat.mod_eq_of_lt ?_
    rw [Nat.shiftLeft_eq]
    calc x.toNat * 2 ^ k.toNat < 2 ^ 8 * 2 ^ k.toNat :=
          Nat.mul_lt_mul_of_pos_right hx (Nat.two_pow_pos _)
      _ ≤ 2 ^ 8 * 2 ^ 24 := Nat.mul_le_mul_left _ (Nat.pow_le_pow_right (by omega) hk)
  rw [h, UInt32.toNat_or, UInt32.toNat_or, UInt32.toNat_or,
    hs a 24 (by decide), hs b 16 (by decide),
    hs c 8 (by decide), UInt8.toNat_toUInt32]
  rfl

namespace FrameCodec

theorem readU16Be_eq (b : List UInt8) (pos : ℕ) :
    readU16Be b pos = (networkToHost16 (memcpy16 b pos)).toNat :=
  (networkToHost16_toNat _ _).symm

theorem readU32Be_eq (b : List UInt8) (pos : ℕ) :
    readU32Be b pos = (networkToHost32 (memcpy32 b pos)).toNat :=
  (networkToHost32_toNat _ _ _ _).symm

variable {f r : List UInt8}

/-- What the client makes of a frame the server decodes. -/
def seen (f : Rpc.Frame) : Frame :=
  ⟨f.requestId.toNat, f.msgType.byte.toNat, f.methodName, f.body⟩

theorem isMessageType_iff (k : UInt8) : isMessageType k.toNat = false ↔
    k ≠ MessageType.request.byte ∧ k ≠ MessageType.response.byte ∧ k ≠ MessageType.error.byte := by
  have h : ∀ c : UInt8, k = c ↔ k.toNat = c.toNat := fun c => UInt8.toNat_inj.symm
  unfold isMessageType
  rw [Ne, Ne, Ne, h, h, h]
  simp only [Bool.or_eq_false_iff, decide_eq_false_iff_not, and_assoc]
  rfl

/-- Decoding a block: the header is right, so the type and the method's length decide. -/
theorem decode_block (h : IsBlock f) : (ProtocolFrame.decode f).map seen =
    if isMessageType (byteAt f 10) = false ∨ f.length - 13 < readU16Be f 11 then none
    else some ⟨readU32Be f 6, byteAt f 10, slice f 13 (13 + readU16Be f 11),
      slice f (13 + readU16Be f 11) f.length⟩ := by
  obtain ⟨hlong, hmagic, hlow, hhigh, htotal⟩ := h
  unfold kFrameHeaderSize at hlow
  have hbody : slice f (13 + readU16Be f 11) f.length = f.drop (13 + readU16Be f 11) := by
    unfold slice
    rw [List.take_length]
  have hmethod : slice f 13 (13 + readU16Be f 11) = (f.drop 13).take (readU16Be f 11) := by
    unfold slice
    rw [List.drop_take, Nat.add_sub_cancel_left]
  rw [hbody, hmethod, readU16Be_eq, readU32Be_eq]
  unfold ProtocolFrame.decode kFrameHeaderSize
  simp only []
  rw [if_neg (by omega), if_neg (by simpa using hmagic), if_neg (by omega), if_neg (by omega)]
  unfold byteAt
  simp only [isMessageType_iff]
  split_ifs <;> first | rfl | (exfalso; tauto)

/-- A block at the front of a buffer is taken off, as the frame the server decodes, if it does. -/
theorem look_block (h : IsBlock f) (r : List UInt8) :
    scanner.look (f ++ r) = some (f.length, (ProtocolFrame.decode f).map seen) := by
  refine scanner.look_append (show look f = _ from ?_)
  have hd := decode_block h
  obtain ⟨hlong, hmagic, hlow, hhigh, htotal⟩ := h
  unfold kFrameHeaderSize at hlow
  unfold kMaxFrameSize at hhigh
  have hm : readU16Be f 0 = magic := by
    rw [readU16Be_eq, hmagic]
    rfl
  have ht : readU32Be f 2 = f.length := by
    rw [readU32Be_eq, htotal]
  rw [htotal] at hlow hhigh
  unfold look
  simp only [hm, ht, ne_eq, not_true_eq_false, if_false]
  unfold headerSize maxFrameSize
  rw [if_neg (by omega), if_neg (by omega), if_neg (by omega), hd]
  rfl

/-- At the start of a block that is not all there the client waits. -/
theorem look_unfinished {tail t : List UInt8} (h : IsBlock (tail ++ t)) (ht : t ≠ []) :
    scanner.look tail = none := by
  rcases hl : scanner.look tail with _ | ⟨k, o⟩
  · rfl
  · have hmore := scanner.look_append (c := t) hl
    have hblock := look_block h []
    rw [List.append_nil, hmore] at hblock
    have hk := (Prod.mk.inj (Option.some.inj hblock)).1
    have hpos := List.length_pos_iff.2 ht
    have hle := (scanner.look_pos hl).2
    rw [hk, List.length_append] at hle
    omega

/-- A stream of blocks with the start of a block behind them. -/
theorem scan_blocks {tail t : List UInt8} (h : IsBlock (tail ++ t)) (ht : t ≠ []) :
    ∀ fs : List (List UInt8), (∀ f ∈ fs, IsBlock f) → scanner.scan (fs.flatten ++ tail) =
      ((fs.filterMap ProtocolFrame.decode).map seen, tail)
  | [], _ => Scanner.scan_none (look_unfinished h ht)
  | f :: fs, hfs => by
    obtain ⟨hf, hfs⟩ := List.forall_mem_cons.1 hfs
    have ih := scan_blocks h ht fs hfs
    rw [List.flatten_cons, List.append_assoc, Scanner.scan_some (look_block hf _), List.drop_left,
      ih, List.filterMap_cons]
    rcases ProtocolFrame.decode f with _ | fr <;> rfl

end FrameCodec

/-- Bytes that begin a block and are not all of it. -/
def StartsBlock (b : List UInt8) : Prop := ∃ g, IsBlock g ∧ b <+: g ∧ b ≠ g

/-- Of a stream of blocks, the last one unfinished, the client makes the frames that the server
decodes, drops what the server drops, and keeps the same bytes for later. -/
theorem decodeFrames_agrees {fs : List (List UInt8)} {tail : List UInt8}
    (hfs : ∀ f ∈ fs, IsBlock f) (ht : StartsBlock tail) :
    let stream := fs.flatten ++ tail
    (FrameCodec.decodeFrames stream).frames
        = ((Buffer.popAll ⟨stream⟩).1.filterMap ProtocolFrame.decode).map FrameCodec.seen
      ∧ (FrameCodec.decodeFrames stream).leftover = (Buffer.popAll ⟨stream⟩).2.buf
      ∧ (FrameCodec.decodeFrames stream).leftover = tail := by
  obtain ⟨g, hg, hp, hne⟩ := ht
  have hcut : deframer.cut tail = none := Deframer.cut_prefix (D := deframer) hg hp hne
  obtain ⟨t, rfl⟩ := hp
  have htn : t ≠ [] := by simpa using hne
  have hscan := FrameCodec.scan_blocks hg htn fs hfs
  simp only [Buffer.popAll_eq, Deframer.drain_blocks hcut fs hfs, FrameCodec.decodeFrames_eq, hscan,
    and_self]

/-- A block whose type has no name, between two frames, with the start of another behind them. -/
theorem decodeFrames_agrees_ping :
    let odd : List UInt8 := [0xBA, 0xBE, 0, 0, 0, 14, 0, 0, 0, 7, 9, 0, 0, 0x21]
    let ping := Buffer.ping.encode
    let stream := [ping, odd, ping].flatten ++ [0xBA, 0xBE]
    (FrameCodec.decodeFrames stream).frames
        = ((Buffer.popAll ⟨stream⟩).1.filterMap ProtocolFrame.decode).map FrameCodec.seen
      ∧ (FrameCodec.decodeFrames stream).leftover = (Buffer.popAll ⟨stream⟩).2.buf
      ∧ (FrameCodec.decodeFrames stream).leftover = [0xBA, 0xBE] := by
  have hodd : IsBlock [0xBA, 0xBE, 0, 0, 0, 14, 0, 0, 0, 7, 9, 0, 0, 0x21] :=
    ⟨by decide, by decide, by decide, by decide, by decide⟩
  have hping : IsBlock Buffer.ping.encode := (show Buffer.ping.Legal by decide).isBlock
  exact decodeFrames_agrees (by simp [hodd, hping]) ⟨_, hping, by decide, by decide⟩

end TinRpc
