import Mathlib.Data.List.Induction
import TinRpc.Proofs.Inputs

/-!
# The input buffer over any run

Calls on an `InputBuffer` in any order leave its frames ascending and no more than it has room for,
which is what the search for a frame relies on. A frame holds what was sent for it since it was
last created: `Since` splits a run there.
-/

namespace TinRpc.InputBuffer

open SortedList

/-- A call on the buffer. -/
inductive Op
  | addInput (frameNo : UInt32) (playerId : String) (input : List UInt8)
  | getInput (frameNo : UInt32)
  | clearUpTo (frameNo : UInt32)
  | clear
  deriving DecidableEq, Repr

/-- The buffer after a call. -/
def apply (b : InputBuffer) : Op → InputBuffer
  | .addInput frameNo playerId input => b.addInput frameNo playerId input
  | .getInput frameNo => (b.getInput frameNo).1
  | .clearUpTo frameNo => b.clearUpTo frameNo
  | .clear => b.clear

/-- A new buffer after some calls. -/
def run (maxFrames : ℕ) (ops : List Op) : InputBuffer := ops.foldl apply { maxFrames }

variable {m : ℕ} {b : InputBuffer} {k : UInt32} {p : String}

theorem run_concat (ops : List Op) (op : Op) : run m (ops ++ [op]) = (run m ops).apply op := by
  unfold run
  rw [List.foldl_append]
  rfl

/-- The frames ascend and there is room for them. -/
structure Ordered (b : InputBuffer) : Prop where
  sorted : Sorted FrameInput.number b.buffer
  room : b.buffer.length ≤ b.maxFrames

/-- What is stored for a frame. -/
def stored (b : InputBuffer) (k : UInt32) : Option FrameInput :=
  b.buffer.find? fun fi => fi.number = k.toNat

/-- `ClearUpTo` takes out the frames below the number. -/
theorem clearUpTo_eq (hs : Sorted FrameInput.number b.buffer) (k : UInt32) : b.clearUpTo k
    = { b with buffer := b.buffer.filter fun fi => k.toNat ≤ fi.number } := by
  unfold clearUpTo
  rw [← hs.dropWhile_eq_filter]
  rfl

theorem Ordered.addInput (hb : b.Ordered) (k : UInt32) (p : String) (d : List UInt8) :
    (b.addInput k p d).Ordered := by
  rw [addInput_eq hb.sorted]
  exact ⟨(hb.sorted.upsert write_number).keep _, (length_keep _ _).trans_le (Nat.min_le_left _ _)⟩

/-- A call that takes frames out. -/
theorem Ordered.sublist {l : List FrameInput} (hb : b.Ordered) (hl : l.Sublist b.buffer) :
    ({ b with buffer := l } : InputBuffer).Ordered :=
  ⟨hb.sorted.sublist hl, hl.length_le.trans hb.room⟩

theorem Ordered.apply (hb : b.Ordered) (op : Op) : (b.apply op).Ordered := by
  cases op with
  | addInput k p d => exact hb.addInput k p d
  | getInput k =>
    show (b.getInput k).1.Ordered
    rw [getInput_eq hb.sorted]
    exact hb.sublist List.filter_sublist
  | clearUpTo k =>
    show (b.clearUpTo k).Ordered
    rw [clearUpTo_eq hb.sorted]
    exact hb.sublist List.filter_sublist
  | clear => exact hb.sublist (List.nil_sublist _)

theorem apply_maxFrames (b : InputBuffer) (op : Op) : (b.apply op).maxFrames = b.maxFrames := by
  cases op with
  | getInput k =>
    show (b.getInput k).1.maxFrames = _
    unfold getInput
    split <;> rfl
  | _ => rfl

theorem run_ordered (ops : List Op) : (run m ops).Ordered ∧ (run m ops).maxFrames = m := by
  induction ops using List.reverseRecOn with
  | nil => exact ⟨⟨List.Pairwise.nil, Nat.zero_le _⟩, rfl⟩
  | append_singleton ops op ih =>
    rw [run_concat, apply_maxFrames]
    exact ⟨ih.1.apply op, ih.2⟩

/-- In an ascending buffer the search finds what is there. -/
theorem findFrame_eq_some_iff (hs : Sorted FrameInput.number b.buffer) {i : ℕ} {fi : FrameInput} :
    b.findFrame k = some (i, fi) ↔ b.buffer[i]? = some fi ∧ fi.frameNo = k := by
  obtain ⟨lo, hi, he, hlo, hhi, hit⟩ := split_buffer hs k
  have hplace : b.buffer[i]? = some fi → fi.frameNo = k → i = lo.length := by
    intro hfi hk
    rw [he] at hfi hs
    have hnumber := number_eq_iff.2 hk
    rcases Nat.lt_trichotomy i lo.length with hlt | heq | hgt
    · rw [List.getElem?_append_left hlt] at hfi
      exact absurd hnumber (hlo fi (List.mem_of_getElem? hfi)).ne
    · exact heq
    · obtain ⟨n, rfl⟩ : ∃ n, i = lo.length + 1 + n := ⟨i - (lo.length + 1), by omega⟩
      rw [List.getElem?_append_right (by omega),
        show lo.length + 1 + n - lo.length = n + 1 by omega] at hfi
      rcases hi with _ | ⟨fj, hi⟩
      · simp at hfi
      · have hlt := (List.pairwise_cons.1 (List.pairwise_append.1 hs).2.1).1 fi
          (List.mem_of_getElem? hfi)
        have hge := hhi fj List.mem_cons_self
        omega
  unfold findFrame
  simp only [hit]
  constructor
  · intro h
    split at h
    · rename_i fj hfj
      split_ifs at h with hk
      injection h with h
      injection h with hi hj
      exact ⟨by rw [← hi, ← hj, hfj], hj ▸ hk⟩
    · cases h
  · rintro ⟨hfi, hk⟩
    obtain rfl := hplace hfi hk
    rw [hfi]
    exact if_pos hk

theorem findFrame_stored (hs : Sorted FrameInput.number b.buffer) (k : UInt32) :
    (b.findFrame k).map Prod.snd = b.stored k := by
  refine Option.ext fun fi => ?_
  unfold stored
  rw [hs.find_eq_some_iff, number_eq_iff, Option.map_eq_some_iff]
  constructor
  · rintro ⟨⟨i, fj⟩, hfind, rfl⟩
    obtain ⟨hfj, hk⟩ := (findFrame_eq_some_iff hs).1 hfind
    exact ⟨List.mem_of_getElem? hfj, hk⟩
  · rintro ⟨hfi, hk⟩
    obtain ⟨i, hi⟩ := List.mem_iff_getElem?.1 hfi
    exact ⟨(i, fi), (findFrame_eq_some_iff hs).2 ⟨hi, hk⟩, rfl⟩

/-- What a call puts into a frame. -/
def Op.write (k : UInt32) : Op → Option FrameInput → Option FrameInput
  | .addInput k' p d, o => if k' = k then some (.write k p d o) else o
  | _, o => o

/-- The input a call sends for a frame and a player. -/
def Op.input (k : UInt32) (p : String) : Op → Option (List UInt8)
  | .addInput k' p' d => if k' = k ∧ p' = p then some d else none
  | _ => none

/-- The last input that some calls send for a frame and a player. -/
def lastInput (k : UInt32) (p : String) (ops : List Op) : Option (List UInt8) :=
  (ops.filterMap (Op.input k p)).getLast?

/-- A frame that is stored after a call holds what the call put into it. -/
theorem Ordered.stored_apply (hb : b.Ordered) (op : Op) (k : UInt32) :
    (b.apply op).stored k = none ∨ (b.apply op).stored k = op.write k (b.stored k) := by
  cases op with
  | addInput k' p d =>
    show (b.addInput k' p d).stored k = none ∨ (b.addInput k' p d).stored k = _
    rw [addInput_eq hb.sorted]
    unfold stored
    have hfind := hb.sorted.find_upsert (f := FrameInput.write k' p d) write_number k.toNat
    rcases (hb.sorted.upsert (f := FrameInput.write k' p d) write_number).find_sublist
      (keep_sublist b.maxFrames _) k.toNat with h | h
    · exact .inl h
    · refine .inr (h.trans (hfind.trans ?_))
      unfold Op.write
      simp only [UInt32.toNat_inj, eq_comm (a := k)]
      split_ifs with hk
      · rw [hk]
      · rfl
  | getInput k' =>
    show (b.getInput k').1.stored k = none ∨ (b.getInput k').1.stored k = _
    rw [getInput_eq hb.sorted]
    exact hb.sorted.find_sublist List.filter_sublist _
  | clearUpTo k' =>
    show (b.clearUpTo k').stored k = none ∨ (b.clearUpTo k').stored k = _
    rw [clearUpTo_eq hb.sorted]
    exact hb.sorted.find_sublist List.filter_sublist _
  | clear => exact .inl rfl

/-- A player's input in a frame, if the frame is there. -/
def inputOf (p : String) (o : Option FrameInput) : Option (List UInt8) :=
  o.bind fun fi => fi.players.lookup p

theorem inputOf_write (op : Op) (o : Option FrameInput) :
    inputOf p (op.write k o) = (op.input k p).or (inputOf p o) := by
  cases op with
  | addInput k' p' d =>
    simp only [Op.write, Op.input]
    by_cases hk : k' = k
    · have hlookup : inputOf p (some (FrameInput.write k p' d o))
          = if p = p' then some d else inputOf p o := by
        cases o with
        | none =>
          refine (AList.lookup_insert_if _ _ _ _).trans ?_
          rw [AList.lookup_empty]
          rfl
        | some fi => exact AList.lookup_insert_if _ _ _ _
      rw [if_pos hk, hlookup]
      by_cases hp : p' = p
      · rw [if_pos hp.symm, if_pos ⟨hk, hp⟩, Option.some_or]
      · rw [if_neg (Ne.symm hp), if_neg fun h => hp h.2, Option.none_or]
    · rw [if_neg hk, if_neg fun h => hk h.1, Option.none_or]
  | _ => exact (Option.none_or).symm

theorem lastInput_concat (ops : List Op) (op : Op) :
    lastInput k p (ops ++ [op]) = (op.input k p).or (lastInput k p ops) := by
  unfold lastInput
  rw [List.filterMap_append, List.getLast?_append]
  cases h : op.input k p <;> simp [h]

/-- After the first calls a frame is not stored, and it is after each of those since. -/
def Since (m : ℕ) (k : UInt32) (pre since : List Op) : Prop :=
  (run m pre).findFrame k = none
    ∧ ∀ mid, mid <+: since → mid ≠ [] → (run m (pre ++ mid)).findFrame k ≠ none

theorem findFrame_eq_none_iff (ops : List Op) :
    (run m ops).findFrame k = none ↔ (run m ops).stored k = none := by
  rw [← findFrame_stored (run_ordered ops).1.sorted, Option.map_eq_none_iff]

/-- A frame holds of each player the last input sent since the frame was last created. -/
theorem stored_since (ops : List Op) : ∃ pre since, ops = pre ++ since ∧ Since m k pre since
    ∧ ∀ p, inputOf p ((run m ops).stored k) = lastInput k p since := by
  induction ops using List.reverseRecOn with
  | nil =>
    exact ⟨[], [], rfl, ⟨rfl, fun mid h hne => absurd (List.prefix_nil.1 h) hne⟩, fun _ => rfl⟩
  | append_singleton ops op ih =>
    have hstep := (run_ordered (m := m) ops).1.stored_apply op k
    rw [← run_concat] at hstep
    rcases hafter : (run m (ops ++ [op])).stored k with _ | fi
    · exact ⟨ops ++ [op], [], (List.append_nil _).symm, ⟨(findFrame_eq_none_iff _).2 hafter,
        fun mid h hne => absurd (List.prefix_nil.1 h) hne⟩, fun _ => rfl⟩
    have hnow : (run m (ops ++ [op])).findFrame k ≠ none := by
      rw [Ne, findFrame_eq_none_iff, hafter]
      exact Option.some_ne_none _
    have hwrite : some fi = op.write k ((run m ops).stored k) := by
      rw [← hafter]
      exact hstep.resolve_left (hafter ▸ Option.some_ne_none _)
    rcases hbefore : (run m ops).stored k with _ | fj
    · refine ⟨ops, [op], rfl, ⟨(findFrame_eq_none_iff _).2 hbefore, fun mid h hne => ?_⟩,
        fun p => ?_⟩
      · rcases List.prefix_cons_iff.1 h with rfl | ⟨rest, rfl, hrest⟩
        · exact absurd rfl hne
        · rwa [List.prefix_nil.1 hrest]
      · rw [hwrite, hbefore, inputOf_write]
        exact (lastInput_concat [] op).symm
    · obtain ⟨pre, since, rfl, ⟨hnone, hsome⟩, hlast⟩ := ih
      refine ⟨pre, since ++ [op], List.append_assoc _ _ _, ⟨hnone, fun mid h hne => ?_⟩,
        fun p => ?_⟩
      · rcases List.prefix_concat_iff.1 h with rfl | h
        · rwa [← List.append_assoc]
        · exact hsome mid h hne
      · rw [hwrite, inputOf_write, hlast, lastInput_concat]

/-- What is returned for a frame is what it held. -/
theorem lookup_getInput (hs : Sorted FrameInput.number b.buffer) :
    (b.getInput k).2.lookup p = inputOf p (b.stored k) := by
  have hfind : (fun fi : FrameInput => decide (fi.frameNo = k))
      = fun fi => decide (fi.number = k.toNat) :=
    funext fun fi => decide_eq_decide.2 number_eq_iff.symm
  rw [getInput_eq hs, hfind]
  show AList.lookup p (((b.stored k).map FrameInput.players).getD ∅) = _
  cases b.stored k with
  | none => exact AList.lookup_empty p
  | some fi => rfl

/-- An input is written, and of the frames then there the smallest that there is no room for are
dropped. -/
theorem evicted_addInput (hb : b.Ordered) (k : UInt32) (p : String) (d : List UInt8) :
    ∃ evicted, Sorted FrameInput.number (evicted ++ (b.addInput k p d).buffer)
      ∧ evicted.length = (evicted ++ (b.addInput k p d).buffer).length - b.maxFrames
      ∧ ∀ fi, fi ∈ evicted ++ (b.addInput k p d).buffer
        ↔ fi ∈ b.buffer ∧ fi.frameNo ≠ k
          ∨ fi = .write k p d ((b.findFrame k).map Prod.snd) := by
  have hkeep : ∀ l : List FrameInput, l.take (l.length - b.maxFrames) ++ keep b.maxFrames l = l :=
    fun l => List.take_append_drop _ l
  rw [addInput_eq hb.sorted]
  simp only []
  generalize hwritten : upsert FrameInput.number k.toNat (FrameInput.write k p d) b.buffer = written
  refine ⟨written.take (written.length - b.maxFrames), ?_⟩
  rw [hkeep, ← hwritten]
  refine ⟨hb.sorted.upsert write_number, ?_, fun fi => ?_⟩
  · rw [List.length_take]
    exact Nat.min_eq_left (Nat.sub_le _ _)
  · rw [hb.sorted.mem_upsert_iff write_number, findFrame_stored hb.sorted, Ne, number_eq_iff]
    rfl

theorem sorted_iff {l : List FrameInput} : Sorted FrameInput.number l
    ↔ l.Pairwise fun fi fj => fi.frameNo < fj.frameNo := by
  unfold Sorted FrameInput.number
  simp only [UInt32.lt_iff_toNat_lt]

/-- After any calls the frames ascend and fit the buffer, and the search finds a frame exactly
where it is stored. `AddInput` writes into its frame and drops the smallest frames that are too
many; `GetInput` gives each player's last input since the frame was last created and takes only
that frame out. -/
theorem representation (m : ℕ) (ops : List Op) (k : UInt32) (p : String) (d : List UInt8) :
    (run m ops).buffer.Pairwise (fun fi fj => fi.frameNo < fj.frameNo)
      ∧ (run m ops).buffer.length ≤ m
      ∧ (∀ i fi, (run m ops).findFrame k = some (i, fi)
        ↔ (run m ops).buffer[i]? = some fi ∧ fi.frameNo = k)
      ∧ (∃ evicted, (evicted ++ ((run m ops).addInput k p d).buffer).Pairwise
            (fun fi fj => fi.frameNo < fj.frameNo)
          ∧ evicted.length = (evicted ++ ((run m ops).addInput k p d).buffer).length - m
          ∧ ∀ fi, fi ∈ evicted ++ ((run m ops).addInput k p d).buffer
            ↔ fi ∈ (run m ops).buffer ∧ fi.frameNo ≠ k
              ∨ fi = .write k p d (((run m ops).findFrame k).map Prod.snd))
      ∧ ((run m ops).getInput k).1.buffer
        = (run m ops).buffer.filter (fun fi => fi.frameNo ≠ k)
      ∧ ∃ pre since, ops = pre ++ since ∧ Since m k pre since
        ∧ ∀ q, ((run m ops).getInput k).2.lookup q = lastInput k q since := by
  obtain ⟨hb, hm⟩ := run_ordered (m := m) ops
  obtain ⟨pre, since, he, hsince, hlast⟩ := stored_since (m := m) (k := k) ops
  obtain ⟨evicted, hsorted, hlength, hmem⟩ := evicted_addInput hb k p d
  rw [hm] at hlength
  refine ⟨sorted_iff.1 hb.sorted, hb.room.trans_eq hm, fun i fi => findFrame_eq_some_iff hb.sorted,
    ⟨evicted, sorted_iff.1 hsorted, hlength, hmem⟩, ?_, pre, since, he, hsince, fun q => ?_⟩
  · rw [getInput_eq hb.sorted]
  · rw [lookup_getInput hb.sorted, hlast]

end TinRpc.InputBuffer
