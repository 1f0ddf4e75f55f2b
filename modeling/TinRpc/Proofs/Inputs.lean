import TinRpc.FrameSync

/-!
# The inputs of a frame

A tick can only be given what was sent for its frame. `Window` is everything sent for frames still
to come, with no bound on their number; late inputs do not enter it. The input buffer holds the last
`maxFrames` frames of the window and, below them, frames that no tick will ask for, so that what a
tick records can be read off the window (`run_eq`).
-/

namespace TinRpc

open SortedList

/-- A frame with one player's input written into it. -/
def FrameInput.write (frameNo : UInt32) (playerId : String) (input : List UInt8) :
    Option FrameInput → FrameInput
  | none => ⟨frameNo, AList.insert playerId input ∅⟩
  | some fi => ⟨frameNo, fi.players.insert playerId input⟩

/-- The frame's number. -/
def FrameInput.number (fi : FrameInput) : ℕ := fi.frameNo.toNat

variable {k : UInt32} {p q : String} {d : List UInt8}

theorem write_number (o : Option FrameInput) : (FrameInput.write k p d o).number = k.toNat := by
  cases o <;> rfl

theorem number_eq_iff {fi : FrameInput} : fi.number = k.toNat ↔ fi.frameNo = k := UInt32.toNat_inj

namespace InputBuffer

variable {b : InputBuffer}

/-- The place `lower_bound` finds in a sorted buffer. -/
theorem split_buffer (hs : Sorted FrameInput.number b.buffer) (k : UInt32) :
    ∃ lo hi, b.buffer = lo ++ hi ∧ (∀ fi ∈ lo, fi.number < k.toNat)
      ∧ (∀ fi ∈ hi, k.toNat ≤ fi.number) ∧ b.lowerBoundFrame k = lo.length := by
  obtain ⟨lo, hi, he, hlo, hhi⟩ := hs.split k.toNat
  refine ⟨lo, hi, he, hlo, hhi, ?_⟩
  unfold lowerBoundFrame
  rw [he]
  refine lowerBound_append (fun fi hfi => ?_) fun fi hfi => ?_
  · exact decide_eq_true (UInt32.lt_iff_toNat_lt.2 (hlo fi hfi))
  · exact decide_eq_false fun h => (hhi fi hfi).not_gt (UInt32.lt_iff_toNat_lt.1 h)

/-- `AddInput` writes into the sorted buffer and keeps the frames with the largest numbers. -/
theorem addInput_eq (hs : Sorted FrameInput.number b.buffer) (k : UInt32) (p : String)
    (d : List UInt8) : b.addInput k p d
      = { b with buffer := keep b.maxFrames
                  (upsert FrameInput.number k.toNat (FrameInput.write k p d) b.buffer) } := by
  obtain ⟨lo, hi, he, hlo, hhi, hit⟩ := split_buffer hs k
  unfold addInput keep
  simp only [hit]
  rw [he, upsert_append hlo, List.getElem?_append_right (Nat.le_refl _), Nat.sub_self]
  rcases hi with _ | ⟨fi, hi⟩
  · simp [upsert, FrameInput.write]
  · have hge := hhi fi List.mem_cons_self
    simp only [List.getElem?_cons_zero, upsert, if_neg (not_lt.2 hge), number_eq_iff]
    split_ifs with hk
    · simp [FrameInput.write, hk]
    · simp [FrameInput.write]

/-- `GetInput` gives the frame's inputs and takes the frame out. -/
theorem getInput_eq (hs : Sorted FrameInput.number b.buffer) (k : UInt32) : b.getInput k
    = ({ b with buffer := b.buffer.filter fun fi => fi.frameNo ≠ k },
      ((b.buffer.find? fun fi => fi.frameNo = k).map FrameInput.players).getD ∅) := by
  obtain ⟨lo, hi, he, hlo, hhi, hit⟩ := split_buffer hs k
  have hne : ∀ l : List FrameInput, (∀ fi ∈ l, fi.number ≠ k.toNat) →
      l.find? (fun fi => fi.frameNo = k) = none
        ∧ l.filter (fun fi => fi.frameNo ≠ k) = l := fun l hl =>
    ⟨by simpa [number_eq_iff] using hl, List.filter_eq_self.2 (by simpa [number_eq_iff] using hl)⟩
  obtain ⟨hfind, hfilter⟩ := hne lo fun fi h => (hlo fi h).ne
  unfold getInput findFrame
  simp only [hit]
  rw [he, List.getElem?_append_right (Nat.le_refl _), Nat.sub_self, List.find?_append, hfind,
    List.filter_append, hfilter]
  rcases hi with _ | ⟨fi, hi⟩
  · simp [← he]
  · have hs' : Sorted FrameInput.number (fi :: hi) := by
      rw [he] at hs
      exact (List.pairwise_append.1 hs).2.1
    have hge := hhi fi List.mem_cons_self
    obtain ⟨hfindHi, hfilterHi⟩ := hne hi fun fj hj =>
      (hge.trans_lt ((List.pairwise_cons.1 hs').1 fj hj)).ne'
    simp only [List.getElem?_cons_zero]
    by_cases hk : fi.frameNo = k
    · simp only [hk, ↓reduceIte, List.eraseIdx_append_of_length_le (Nat.le_refl _), Nat.sub_self,
        List.eraseIdx_cons_zero]
      rw [List.filter_cons_of_neg (by simpa using hk), List.find?_cons_of_pos (by simpa using hk),
        hfilterHi]
      rfl
    · simp only [hk, ↓reduceIte]
      rw [List.filter_cons_of_pos (by simpa using hk), List.find?_cons_of_neg (by simpa using hk),
        hfindHi, hfilterHi, ← he]
      rfl

end InputBuffer

/-- What was sent for the frames after `now`, frame by frame. -/
structure Window where
  now : ℕ
  frames : List FrameInput
  sorted : Sorted FrameInput.number frames
  ahead : ∀ fi ∈ frames, now < fi.number

namespace Window

/-- Before the first tick, with nothing sent. -/
def start : Window := ⟨0, [], List.Pairwise.nil, by simp⟩

/-- An input enters the window if its frame is still to come. -/
def send (w : Window) (k : UInt32) (p : String) (d : List UInt8) : Window :=
  if h : w.now < k.toNat then
    { now := w.now
      frames := upsert FrameInput.number k.toNat (FrameInput.write k p d) w.frames
      sorted := w.sorted.upsert write_number
      ahead := fun fi hfi => by
        rcases (mem_upsert_keys write_number).1 ⟨fi, hfi, rfl⟩ with hk | ⟨fj, hfj, hj⟩
        · rwa [hk]
        · rw [← hj]
          exact w.ahead fj hfj }
  else w

/-- The next frame passes. -/
def pass (w : Window) : Window where
  now := w.now + 1
  frames := w.frames.filter fun fi => decide (w.now + 1 < fi.number)
  sorted := w.sorted.sublist List.filter_sublist
  ahead := fun _ hfi => of_decide_eq_true (List.mem_filter.1 hfi).2

/-- The window after one call. -/
def apply (w : Window) : FrameSyncManager.Op → Window
  | .onPlayerInput k p d => w.send k p d
  | .tick => w.pass

/-- The window after some calls. -/
def after (w : Window) (ops : List FrameSyncManager.Op) : Window := ops.foldl apply w

variable {w : Window} {m : ℕ}

theorem send_frames (h : w.now < k.toNat) : (w.send k p d).frames
    = upsert FrameInput.number k.toNat (FrameInput.write k p d) w.frames := by
  unfold send
  rw [dif_pos h]

theorem send_of_le (h : k.toNat ≤ w.now) : w.send k p d = w := by
  unfold send
  rw [dif_neg h.not_gt]

@[simp] theorem send_now (w : Window) (k : UInt32) (p : String) (d : List UInt8) :
    (w.send k p d).now = w.now := by
  unfold send
  split_ifs <;> rfl

@[simp] theorem pass_now (w : Window) : w.pass.now = w.now + 1 := rfl

/-- What the next tick records when the buffer holds `m` frames. -/
def record (m : ℕ) (w : Window) : FrameRecord where
  frameNo := UInt32.ofNat (w.now + 1)
  inputs := (((keep m w.frames).find? fun fi => fi.number = w.now + 1).map
    FrameInput.players).getD ∅

theorem after_now : ∀ (ops : List FrameSyncManager.Op) (w : Window),
    (w.after ops).now = w.now + FrameSyncManager.ticks ops
  | [], w => rfl
  | .onPlayerInput k p d :: ops, w => by
    show ((w.send k p d).after ops).now = _
    rw [after_now ops, send_now, FrameSyncManager.ticks_onPlayerInput]
  | .tick :: ops, w => by
    show (w.pass.after ops).now = _
    rw [after_now ops, pass_now, FrameSyncManager.ticks_tick]
    omega

/-- What the ticks of some calls record. -/
def records (m : ℕ) : Window → List FrameSyncManager.Op → List FrameRecord
  | _, [] => []
  | w, .onPlayerInput k p d :: ops => records m (w.send k p d) ops
  | w, .tick :: ops => w.record m :: records m w.pass ops

end Window

namespace FrameSyncManager

/-- What a tick does with the record it makes. -/
def ticked (r : FrameRecord) : Ticked where
  record := r
  count := r.inputs.entries.length
  callback := if r.inputs.entries = [] then none else some (r.frameNo, r.inputs)

/-- The manager's buffer holds the last `m` frames of the window, beside frames that have passed. -/
structure Tracks (m : ℕ) (w : Window) (s : FrameSyncManager) : Prop where
  frameNo : s.frameNo = UInt32.ofNat w.now
  sorted : Sorted FrameInput.number s.inputBuffer.buffer
  maxFrames : s.inputBuffer.maxFrames = m
  frames : (s.inputBuffer.buffer.filter fun fi => decide (w.now < fi.number)) = keep m w.frames
  frameCallback : s.frameCallback = true

variable {m h : ℕ} {w : Window} {s : FrameSyncManager}

theorem ahead_mono (n i j : ℕ) (hij : i ≤ j) (hi : decide (n < i) = true) :
    decide (n < j) = true := by
  have := of_decide_eq_true hi
  exact decide_eq_true (by omega)

theorem tracks_new (m h : ℕ) : Tracks m Window.start (new m h).setFrameCallback :=
  ⟨rfl, List.Pairwise.nil, rfl, by simp [new, setFrameCallback, Window.start, keep], rfl⟩

/-- An input keeps the buffer with the window. -/
theorem Tracks.onPlayerInput (ht : Tracks m w s) (k : UInt32) (p : String) (d : List UInt8) :
    Tracks m (w.send k p d) (s.onPlayerInput k p d) := by
  have hsorted := ht.sorted.upsert (f := FrameInput.write k p d) write_number
  have hbuf := InputBuffer.addInput_eq ht.sorted k p d
  rw [ht.maxFrames] at hbuf
  refine ⟨?_, ?_, ?_, ?_, ht.frameCallback⟩
  · rw [Window.send_now]
    exact ht.frameNo
  · show Sorted _ (s.inputBuffer.addInput k p d).buffer
    rw [hbuf]
    exact hsorted.keep m
  · show (s.inputBuffer.addInput k p d).maxFrames = m
    rw [hbuf]
  · show (s.inputBuffer.addInput k p d).buffer.filter _ = _
    rw [hbuf, Window.send_now]
    show (keep m (upsert _ _ _ s.inputBuffer.buffer)).filter _ = _
    rw [filter_keep (q := fun n => decide (w.now < n)) hsorted (ahead_mono w.now)]
    rcases lt_or_ge w.now k.toNat with hk | hk
    · rw [filter_upsert (q := fun n => decide (w.now < n)) ht.sorted write_number
        (decide_eq_true hk), ht.frames, keep_upsert w.sorted, Window.send_frames hk]
    · rw [filter_upsert_of_not (q := fun n => decide (w.now < n)) write_number
        (decide_eq_false hk.not_gt), ht.frames, keep_keep, Window.send_of_le hk]

/-- A tick, given what it takes out of the buffer. -/
theorem tick_eq {b : InputBuffer} {inputs : FrameInputs}
    (hget : s.inputBuffer.getInput (s.frameNo + 1) = (b, inputs)) : s.tick
      = ({ s with
          inputBuffer := b
          frameNo := s.frameNo + 1
          frameHistory := keep s.maxHistorySize (s.frameHistory ++ [⟨s.frameNo + 1, inputs⟩]) },
        { record := ⟨s.frameNo + 1, inputs⟩
          count := inputs.entries.length
          callback := if s.frameCallback ∧ inputs.entries ≠ [] then some (s.frameNo + 1, inputs)
            else none }) := by
  unfold tick
  simp only [hget]
  rfl

/-- A tick records what the window says. -/
theorem Tracks.tick (ht : Tracks m w s) (hw : w.now + 1 < 2 ^ 32) :
    Tracks m w.pass s.tick.1 ∧ s.tick.2 = ticked (w.record m)
      ∧ s.tick.1.frameHistory = keep s.maxHistorySize (s.frameHistory ++ [w.record m])
      ∧ s.tick.1.maxHistorySize = s.maxHistorySize := by
  have hno : s.frameNo + 1 = UInt32.ofNat (w.now + 1) := by
    rw [ht.frameNo, UInt32.ofNat_add]
    rfl
  have hnum : ∀ fi : FrameInput, fi.frameNo = s.frameNo + 1 ↔ fi.number = w.now + 1 := by
    intro fi
    rw [← number_eq_iff, hno, UInt32.toNat_ofNat_of_lt' hw]
  have hget := InputBuffer.getInput_eq ht.sorted (s.frameNo + 1)
  have hinputs : ((s.inputBuffer.buffer.find? fun fi => fi.frameNo = s.frameNo + 1).map
      FrameInput.players).getD ∅ = (w.record m).inputs := by
    show _ = (((keep m w.frames).find? _).map _).getD _
    rw [← ht.frames, List.find?_filter]
    simp only [hnum]
    congr 3
    funext fi
    refine decide_eq_decide.2 ⟨fun h => ⟨decide_eq_true (by omega), decide_eq_true h⟩, fun h => ?_⟩
    exact of_decide_eq_true h.2
  rw [hinputs] at hget
  rw [tick_eq hget, ht.frameCallback, hno]
  refine ⟨⟨rfl, ht.sorted.sublist List.filter_sublist, ht.maxFrames, ?_, rfl⟩, ?_, rfl, rfl⟩
  · show (s.inputBuffer.buffer.filter _).filter (fun fi => decide (w.now + 1 < fi.number))
      = keep m (w.frames.filter _)
    rw [← filter_keep (q := fun n => decide (w.now + 1 < n)) w.sorted (ahead_mono _), ← ht.frames,
      List.filter_filter, List.filter_filter]
    refine List.filter_congr fun fi _ => ?_
    rw [Bool.eq_iff_iff]
    simp only [← hno, ne_eq, hnum, Bool.and_eq_true, decide_eq_true_eq]
    omega
  · simp [ticked, Window.record]

/-- What a run from a tracked state does. -/
theorem Tracks.foldl : ∀ (ops : List Op) {w : Window} {s : FrameSyncManager} (out : List Ticked),
    Tracks m w s → w.now + ticks ops < 2 ^ 32 →
      Tracks m (w.after ops) (ops.foldl apply (s, out)).1
        ∧ (ops.foldl apply (s, out)).2 = out ++ (w.records m ops).map ticked
        ∧ (∀ past, s.frameHistory = keep s.maxHistorySize past →
            (ops.foldl apply (s, out)).1.frameHistory
              = keep s.maxHistorySize (past ++ w.records m ops))
  | [], w, s, out, ht, _ => by
    refine ⟨ht, by simp [Window.records], fun past hpast => ?_⟩
    simpa [Window.records] using hpast
  | .onPlayerInput k p d :: ops, w, s, out, ht, hn => by
    refine Tracks.foldl ops out (ht.onPlayerInput k p d) ?_
    show (w.send k p d).now + ticks ops < 2 ^ 32
    rw [Window.send_now]
    rwa [ticks_onPlayerInput] at hn
  | .tick :: ops, w, s, out, ht, hn => by
    have hn' : w.now + 1 + ticks ops < 2 ^ 32 := by
      rw [ticks_tick] at hn
      omega
    obtain ⟨ht', hout, hhist, hmax⟩ := ht.tick (by omega)
    obtain ⟨hafter, hrest, hpasts⟩ := Tracks.foldl ops (out ++ [s.tick.2]) ht' hn'
    refine ⟨hafter, ?_, fun past hpast => ?_⟩
    · show (ops.foldl apply (s.tick.1, out ++ [s.tick.2])).2 = _
      rw [hrest, hout, List.append_assoc]
      rfl
    · show (ops.foldl apply (s.tick.1, out ++ [s.tick.2])).1.frameHistory = _
      rw [hpasts (past ++ [w.record m]) (by rw [hhist, hmax, hpast, keep_keep_append]), hmax,
        List.append_assoc]
      rfl

/-- What the ticks of a run do and what the history holds, from the window. -/
theorem run_eq {ops : List Op} (hn : ticks ops < 2 ^ 32) :
    (run m h ops).2 = (Window.start.records m ops).map ticked
      ∧ (run m h ops).1.frameHistory = keep h (Window.start.records m ops)
      ∧ (run m h ops).1.frameNo = UInt32.ofNat (ticks ops) := by
  have hnow : Window.start.now + ticks ops < 2 ^ 32 := by
    show 0 + ticks ops < 2 ^ 32
    omega
  obtain ⟨ht, hout, hhist⟩ := Tracks.foldl ops [] (tracks_new m h) hnow
  refine ⟨hout, hhist [] (by simp [new, setFrameCallback, keep]), ?_⟩
  rw [run, ht.frameNo, Window.after_now, show Window.start.now = 0 from rfl, Nat.zero_add]

end FrameSyncManager

end TinRpc
