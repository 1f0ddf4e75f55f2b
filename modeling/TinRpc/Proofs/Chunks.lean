import TinRpc.FrameCodec
import TinRpc.Lib.Scanner
import Mathlib.Data.List.GetD

/-!
# The client's stream in pieces

Each round of `decode_frames` looks at what is behind the offset only, and the bytes it decides by
are there when it decides: the header, and the whole frame where it takes one. So the loop is a scan
(`decodeLoop_eq`), whatever the bytes are, and how they arrived makes no difference.
-/

namespace TinRpc.FrameCodec

variable {pre b c : List UInt8}

theorem byteAt_add (pre b : List UInt8) (k : ℕ) : byteAt (pre ++ b) (pre.length + k) = byteAt b k := by
  unfold byteAt
  rw [List.getD_append_right _ _ _ _ (by omega), Nat.add_sub_cancel_left]

theorem byteAt_append {k : ℕ} (h : k < b.length) (c : List UInt8) :
    byteAt (b ++ c) k = byteAt b k := by
  unfold byteAt
  rw [List.getD_append _ _ _ _ h]

theorem readU16Be_add (pre b : List UInt8) (k : ℕ) :
    readU16Be (pre ++ b) (pre.length + k) = readU16Be b k := by
  unfold readU16Be
  rw [Nat.add_assoc, byteAt_add, byteAt_add]

theorem readU16Be_append {k : ℕ} (h : k + 1 < b.length) (c : List UInt8) :
    readU16Be (b ++ c) k = readU16Be b k := by
  unfold readU16Be
  rw [byteAt_append (by omega), byteAt_append h]

theorem readU32Be_add (pre b : List UInt8) (k : ℕ) :
    readU32Be (pre ++ b) (pre.length + k) = readU32Be b k := by
  unfold readU32Be
  simp only [Nat.add_assoc, byteAt_add]

theorem readU32Be_append {k : ℕ} (h : k + 3 < b.length) (c : List UInt8) :
    readU32Be (b ++ c) k = readU32Be b k := by
  unfold readU32Be
  rw [byteAt_append (by omega), byteAt_append (by omega), byteAt_append (by omega),
    byteAt_append h]

theorem slice_add (pre b : List UInt8) (i j : ℕ) :
    slice (pre ++ b) (pre.length + i) (pre.length + j) = slice b i j := by
  unfold slice
  rw [List.take_length_add_append, List.drop_length_add_append]

theorem slice_append {i j : ℕ} (hj : j ≤ b.length) (c : List UInt8) :
    slice (b ++ c) i j = slice b i j := by
  unfold slice
  rw [List.take_append_of_le_length hj]

/-- What stands at the front of a buffer, as long as a frame's header and the frame are all there.
-/
def frameAt (buffer : List UInt8) (totalLength : ℕ) : Option Frame :=
  let methodLength := readU16Be buffer 11
  if isMessageType (byteAt buffer 10) = false ∨ totalLength - headerSize < methodLength then none
  else some
    { requestId := readU32Be buffer 6
      msgType := byteAt buffer 10
      method := slice buffer headerSize (headerSize + methodLength)
      body := slice buffer (headerSize + methodLength) totalLength }

/-- A round at the front of a buffer: how many bytes it takes off and the frame it makes of them. -/
def look (buffer : List UInt8) : Option (ℕ × Option Frame) :=
  if buffer.length < headerSize then none
  else if readU16Be buffer 0 ≠ magic then some (1, none)
  else
    let totalLength := readU32Be buffer 2
    if totalLength < headerSize ∨ maxFrameSize < totalLength then some (1, none)
    else if buffer.length < totalLength then none
    else some (totalLength, frameAt buffer totalLength)

theorem frameAt_append {t : ℕ} (ht : t ≤ b.length) (hb : headerSize ≤ t) (c : List UInt8) :
    frameAt (b ++ c) t = frameAt b t := by
  unfold headerSize at hb
  unfold frameAt
  rw [byteAt_append (by omega), readU16Be_append (by omega), readU32Be_append (by omega)]
  by_cases hbad : isMessageType (byteAt b 10) = false ∨ t - headerSize < readU16Be b 11
  · simp only [if_pos hbad]
  · simp only [if_neg hbad]
    rw [not_or] at hbad
    unfold headerSize at hbad ⊢
    rw [slice_append (by omega), slice_append ht]

/-- The rounds of `decode_frames`. -/
def scanner : Scanner UInt8 Frame where
  look := look
  look_append {b c k o} h := by
    unfold look at h ⊢
    by_cases hlen : b.length < headerSize
    · rw [if_pos hlen] at h
      cases h
    rw [if_neg hlen] at h
    have hlong : 13 ≤ b.length := Nat.not_lt.1 hlen
    have hlen' : ¬(b ++ c).length < headerSize := by
      unfold headerSize
      rw [List.length_append]
      omega
    rw [if_neg hlen', readU16Be_append (by omega), readU32Be_append (by omega)]
    by_cases hmagic : readU16Be b 0 ≠ magic
    · rwa [if_pos hmagic] at h ⊢
    rw [if_neg hmagic] at h ⊢
    by_cases hlegal : readU32Be b 2 < headerSize ∨ maxFrameSize < readU32Be b 2
    · simp only [if_pos hlegal] at h ⊢
      exact h
    simp only [if_neg hlegal] at h ⊢
    by_cases hshort : b.length < readU32Be b 2
    · rw [if_pos hshort] at h
      cases h
    rw [if_neg hshort] at h
    rw [if_neg (by rw [List.length_append]; omega), frameAt_append (by omega) (by omega), h]
  look_pos {b k o} h := by
    unfold look headerSize at h
    simp only [] at h
    split_ifs at h <;> obtain ⟨rfl, -⟩ := Prod.mk.inj (Option.some.inj h) <;> omega

/-- The loop at an offset scans what is behind it. -/
theorem decodeLoop_eq : ∀ (n : ℕ) (pre b : List UInt8),
    ∃ taken, taken ++ (scanner.scanFuel n b).2 = b ∧
      decodeLoop (pre ++ b) n pre.length = ((scanner.scanFuel n b).1, (pre ++ taken).length)
  | 0, pre, b => ⟨[], rfl, by rw [List.append_nil]; rfl⟩
  | n + 1, pre, b => by
    have hstop : scanner.look b = none → ∃ taken, taken ++ (scanner.scanFuel (n + 1) b).2 = b ∧
        (([], pre.length) : List Frame × ℕ) =
          ((scanner.scanFuel (n + 1) b).1, (pre ++ taken).length) := by
      intro h
      rw [Scanner.scanFuel_none h]
      exact ⟨[], rfl, by rw [List.append_nil]⟩
    have hgo : ∀ k o, scanner.look b = some (k, o) →
        ∃ taken, taken ++ (scanner.scanFuel (n + 1) b).2 = b ∧
        (o.toList ++ (decodeLoop (pre ++ b) n (pre.length + k)).1,
          (decodeLoop (pre ++ b) n (pre.length + k)).2) =
          ((scanner.scanFuel (n + 1) b).1, (pre ++ taken).length) := by
      intro k o h
      have hk : (b.take k).length = k := List.length_take_of_le (scanner.look_pos h).2
      obtain ⟨taken, htaken, ih⟩ := decodeLoop_eq n (pre ++ b.take k) (b.drop k)
      rw [List.append_assoc, List.take_append_drop, List.length_append, hk] at ih
      rw [Scanner.scanFuel_some h, ih]
      refine ⟨b.take k ++ taken, ?_, ?_⟩
      · rw [List.append_assoc, htaken, List.take_append_drop]
      · rw [List.append_assoc]
    have hlook : scanner.look b = look b := rfl
    have hmagic := readU16Be_add pre b 0
    rw [Nat.add_zero] at hmagic
    rw [decodeLoop, List.length_append, hmagic, readU32Be_add, byteAt_add, readU16Be_add,
      readU32Be_add]
    unfold look at hlook
    by_cases hlen : b.length < headerSize
    · rw [if_pos (by omega)]
      exact hstop (by rw [hlook, if_pos hlen])
    rw [if_neg hlen] at hlook
    rw [if_neg (by omega)]
    by_cases hm : readU16Be b 0 ≠ magic
    · rw [if_pos hm] at hlook ⊢
      exact hgo 1 none hlook
    rw [if_neg hm] at hlook ⊢
    by_cases hlegal : readU32Be b 2 < headerSize ∨ maxFrameSize < readU32Be b 2
    · simp only [if_pos hlegal] at hlook ⊢
      exact hgo 1 none hlook
    simp only [if_neg hlegal] at hlook ⊢
    by_cases hshort : b.length < readU32Be b 2
    · rw [if_pos (by omega)]
      exact hstop (by rw [hlook, if_pos hshort])
    rw [if_neg hshort] at hlook
    rw [if_neg (by omega)]
    obtain ⟨taken, htaken, hloop⟩ := hgo _ _ hlook
    refine ⟨taken, htaken, ?_⟩
    rw [← hloop]
    unfold frameAt
    by_cases hbad : isMessageType (byteAt b 10) = false ∨
        readU32Be b 2 - headerSize < readU16Be b 11
    · simp only [if_pos hbad]
      rfl
    · simp only [if_neg hbad]
      rw [Nat.add_assoc pre.length, slice_add, slice_add]
      rfl

theorem decodeFrames_eq (buffer : List UInt8) :
    decodeFrames buffer = ⟨(scanner.scan buffer).1, (scanner.scan buffer).2⟩ := by
  obtain ⟨taken, htaken, hloop⟩ := decodeLoop_eq buffer.length [] buffer
  have hleft : buffer.drop taken.length = (scanner.scan buffer).2 := by
    conv_lhs => rw [← htaken]
    exact List.drop_left
  rw [List.nil_append, List.length_nil, List.nil_append] at hloop
  unfold decodeFrames
  rw [hloop, ← hleft]
  rfl

/-- The loop does not run out of rounds, and is left where another round would do nothing. -/
theorem decodeLoop_ends {buffer : List UInt8} {n : ℕ} (hn : buffer.length ≤ n) :
    decodeLoop buffer n 0 = decodeLoop buffer buffer.length 0 ∧
      ∀ k, decodeLoop buffer k (decodeLoop buffer n 0).2 = ([], (decodeLoop buffer n 0).2) := by
  have hscan : ∀ m, buffer.length ≤ m → ∃ taken, taken ++ (scanner.scan buffer).2 = buffer ∧
      decodeLoop buffer m 0 = ((scanner.scan buffer).1, taken.length) := by
    intro m hm
    have hloop := decodeLoop_eq m [] buffer
    rwa [Scanner.scanFuel_enough m buffer hm] at hloop
  obtain ⟨taken, htaken, hloop⟩ := hscan n hn
  obtain ⟨taken', htaken', hloop'⟩ := hscan buffer.length (Nat.le_refl _)
  obtain rfl := List.append_cancel_right (htaken.trans htaken'.symm)
  refine ⟨hloop.trans hloop'.symm, fun k => ?_⟩
  obtain ⟨more, hmore, hrest⟩ := decodeLoop_eq k taken (scanner.scan buffer).2
  rw [Scanner.scanFuel_none (Scanner.look_rest buffer)] at hmore hrest
  obtain rfl : more = [] := List.append_left_eq_self.1 hmore
  rw [htaken, List.append_nil] at hrest
  rw [hloop, hrest]

/-- Bytes that arrive in any pieces, right or wrong, give the frames and the leftover that all of
them at once give. On any bytes the loop ends: further rounds change nothing, and where it is left
another one would do nothing. -/
theorem decodeFrames_chunks :
    (∀ chunks : List (List UInt8),
      chunks.foldl readAvailableBytes ⟨[], []⟩ = decodeFrames chunks.flatten) ∧
    ∀ (buffer : List UInt8) (more : ℕ),
      decodeLoop buffer (buffer.length + more) 0 = decodeLoop buffer buffer.length 0 ∧
      ∀ k, decodeLoop buffer k (decodeLoop buffer buffer.length 0).2
        = ([], (decodeLoop buffer buffer.length 0).2) := by
  refine ⟨fun chunks => ?_, fun buffer more =>
    ⟨(decodeLoop_ends (Nat.le_add_right _ _)).1, (decodeLoop_ends (Nat.le_refl _)).2⟩⟩
  have hfeed : ∀ (chunks : List (List UInt8)) (s : List Frame × List UInt8),
      chunks.foldl readAvailableBytes ⟨s.1, s.2⟩ =
        ⟨(chunks.foldl scanner.feed s).1, (chunks.foldl scanner.feed s).2⟩ := by
    intro chunks
    induction chunks with
    | nil => exact fun _ => rfl
    | cons chunk chunks ih =>
      intro s
      rw [List.foldl_cons, List.foldl_cons, ← ih (scanner.feed s chunk), readAvailableBytes,
        decodeFrames_eq]
      rfl
  rw [hfeed chunks ([], []), Scanner.feed_chunks, decodeFrames_eq]

end TinRpc.FrameCodec
