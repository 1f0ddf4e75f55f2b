import Mathlib.Data.List.Induction
import TinRpc.Proofs.Inputs

/-!
# Frame-sync runs

The records of a run are numbered from 1 in the order of the ticks, and what a record holds for a
player is the last input the player sent for that frame before its tick. They do not depend on
inputs that come too late.
-/

namespace TinRpc

open SortedList FrameSyncManager

/-- What a list of frames holds for a player at a frame. -/
def heldIn (l : List FrameInput) (n : ℕ) (p : String) : Option (List UInt8) :=
  (l.find? fun fi => fi.number = n).bind fun fi => fi.players.lookup p

theorem lookup_write {k : UInt32} {q : String} {e : List UInt8} (o : Option FrameInput)
    (p : String) : (FrameInput.write k q e o).players.lookup p
      = if p = q then some e else o.bind fun fi => fi.players.lookup p := by
  rcases o with _ | fi
  · exact AList.lookup_insert_if _ _ _ _
  · exact AList.lookup_insert_if _ _ _ _

theorem heldIn_upsert {l : List FrameInput} (hs : Sorted FrameInput.number l) (k : UInt32)
    (q : String) (e : List UInt8) (n : ℕ) (p : String) :
    heldIn (upsert FrameInput.number k.toNat (FrameInput.write k q e) l) n p
      = if n = k.toNat ∧ p = q then some e else heldIn l n p := by
  unfold heldIn
  rw [hs.find_upsert write_number]
  by_cases hn : n = k.toNat
  · rw [if_pos hn, Option.bind_some, lookup_write]
    simp [hn]
  · rw [if_neg hn, if_neg (by tauto)]

namespace Window

variable {w : Window} {m n : ℕ} {k : UInt32} {p q : String} {d e : List UInt8}

/-- What the window holds for a player at a frame. -/
def held (w : Window) (n : ℕ) (p : String) : Option (List UInt8) := heldIn w.frames n p

theorem held_of_le (h : n ≤ w.now) : w.held n p = none := by
  unfold held heldIn
  rw [List.find?_eq_none.2, Option.bind_none]
  intro fi hfi
  have := w.ahead fi hfi
  simpa using (by omega : fi.number ≠ n)

theorem lt_of_held (h : w.held n p = some d) : w.now < n := by
  by_contra hn
  rw [held_of_le (by omega)] at h
  cases h

theorem held_send (w : Window) (k : UInt32) (q : String) (e : List UInt8) (n : ℕ) (p : String) :
    (w.send k q e).held n p
      = if w.now < k.toNat ∧ n = k.toNat ∧ p = q then some e else w.held n p := by
  rcases lt_or_ge w.now k.toNat with hk | hk
  · unfold held
    rw [send_frames hk, heldIn_upsert w.sorted]
    simp only [hk, true_and]
  · rw [send_of_le hk, if_neg (by omega)]

theorem held_pass (w : Window) (n : ℕ) (p : String) :
    w.pass.held n p = if n ≤ w.now + 1 then none else w.held n p := by
  split_ifs with hn
  · exact held_of_le hn
  · show ((w.frames.filter _).find? _).bind _ = _
    rw [List.find?_filter]
    congr 2
    funext fi
    refine decide_eq_decide.2 ⟨fun h => of_decide_eq_true h.2, fun h => ?_⟩
    exact ⟨decide_eq_true (by omega), decide_eq_true h⟩

/-- A tick records what is held for its frame, if the frames above it leave it room. -/
theorem lookup_record (w : Window) (m : ℕ) (p : String) : (w.record m).inputs.lookup p
    = if (w.frames.filter fun fi => decide (w.now + 1 < fi.number)).length < m
      then w.held (w.now + 1) p else none := by
  have hs := w.sorted
  have ha := w.ahead
  have hnone : ∀ l : List FrameInput, (∀ fi ∈ l, w.now + 1 < fi.number) →
      l.find? (fun fi => fi.number = w.now + 1) = none := fun l hl => find_of_above hl
  unfold record held heldIn
  rcases hw : w.frames with _ | ⟨fi, hi⟩
  · simp only [keep, List.drop_nil, List.find?_nil, Option.map_none, Option.getD_none,
      Option.bind_none, ite_self]
    exact AList.lookup_empty _
  rw [hw] at hs ha
  obtain ⟨hlt, -⟩ := List.pairwise_cons.1 hs
  have hfi := ha fi List.mem_cons_self
  have hhi : ∀ fj ∈ hi, w.now + 1 < fj.number := fun fj hfj => by
    have : fi.number < fj.number := hlt fj hfj
    omega
  by_cases hnow : fi.number = w.now + 1
  · rw [List.filter_cons_of_neg (by simp [hnow]),
      List.filter_eq_self.2 fun fj hfj => decide_eq_true (hhi fj hfj),
      List.find?_cons_of_pos (by simpa using hnow)]
    split_ifs with hlen
    · rw [keep_of_length_le (by simp only [List.length_cons]; omega),
        List.find?_cons_of_pos (by simpa using hnow)]
      rfl
    · rw [show fi :: hi = [fi] ++ hi from rfl, keep_append (by omega),
        hnone _ fun fj hfj => hhi fj ((keep_sublist m hi).subset hfj)]
      exact AList.lookup_empty _
  · have hall : ∀ fj ∈ fi :: hi, w.now + 1 < fj.number :=
      List.forall_mem_cons.2 ⟨by omega, hhi⟩
    rw [hnone _ hall, hnone _ fun fj hfj => hall fj ((keep_sublist m _).subset hfj)]
    split_ifs
    · exact AList.lookup_empty _
    · exact AList.lookup_empty _

theorem after_append (w : Window) (a b : List Op) : w.after (a ++ b) = (w.after a).after b :=
  List.foldl_append

theorem now_after_start (ops : List Op) : (start.after ops).now = ticks ops := by
  rw [after_now]
  exact Nat.zero_add _

/-- What is held is the last input sent for the frame. -/
theorem last_of_held : ∀ (pre : List Op), (start.after pre).held n p = some d →
    ∃ k lo hi, pre = lo ++ .onPlayerInput k p d :: hi ∧ k.toNat = n
      ∧ ∀ e, Op.onPlayerInput k p e ∉ hi := by
  intro pre
  induction pre using List.reverseRecOn with
  | nil =>
    intro h
    cases h
  | append_singleton pre op ih =>
    intro h
    rw [after_append] at h
    cases op with
    | onPlayerInput k q e =>
      change ((start.after pre).send k q e).held n p = some d at h
      rw [held_send] at h
      split_ifs at h with hc
      · obtain ⟨-, rfl, rfl⟩ := hc
        cases h
        exact ⟨k, pre, [], rfl, rfl, by simp⟩
      · obtain ⟨j, lo, hi, rfl, hj, hlast⟩ := ih h
        refine ⟨j, lo, hi ++ [.onPlayerInput k q e], by simp, hj, fun e' hmem => ?_⟩
        rcases List.mem_append.1 hmem with hmem | hmem
        · exact hlast e' hmem
        · cases List.mem_singleton.1 hmem
          exact hc ⟨hj ▸ lt_of_held h, hj.symm, rfl⟩
    | tick =>
      change (start.after pre).pass.held n p = some d at h
      rw [held_pass] at h
      split_ifs at h
      obtain ⟨j, lo, hi, rfl, hj, hlast⟩ := ih h
      refine ⟨j, lo, hi ++ [.tick], by simp, hj, fun e' hmem => ?_⟩
      rcases List.mem_append.1 hmem with hmem | hmem
      · exact hlast e' hmem
      · cases List.mem_singleton.1 hmem

theorem records_append : ∀ (a : List Op) (w : Window) (b : List Op),
    w.records m (a ++ b) = w.records m a ++ (w.after a).records m b
  | [], _, _ => rfl
  | .onPlayerInput k p d :: a, w, b => records_append a (w.send k p d) b
  | .tick :: a, w, b => congrArg (w.record m :: ·) (records_append a w.pass b)

theorem length_records : ∀ (ops : List Op) (w : Window), (w.records m ops).length = ticks ops
  | [], w => rfl
  | .onPlayerInput k p d :: ops, w => by
    show ((w.send k p d).records m ops).length = _
    rw [length_records ops, ticks_onPlayerInput]
  | .tick :: ops, w => by
    show (w.record m :: w.pass.records m ops).length = _
    rw [List.length_cons, length_records ops, ticks_tick]

/-- The tick behind some calls records what the window after them says. -/
theorem getElem?_records (w : Window) (pre post : List Op) :
    (w.records m (pre ++ .tick :: post))[ticks pre]? = some ((w.after pre).record m) := by
  rw [records_append, List.getElem?_append_right (Nat.le_of_eq (length_records pre w)),
    length_records, Nat.sub_self]
  rfl


/-- The frames are numbered one after the other. -/
theorem frameNo_records : ∀ (ops : List Op) (w : Window), w.now + ticks ops < 2 ^ 32 →
    (w.records m ops).map (fun r => r.frameNo.toNat) = List.range' (w.now + 1) (ticks ops)
  | [], _, _ => rfl
  | .onPlayerInput k p d :: ops, w, hn => by
    rw [ticks_onPlayerInput] at hn ⊢
    have ih := frameNo_records ops (w.send k p d) (by rwa [send_now])
    rwa [send_now] at ih
  | .tick :: ops, w, hn => by
    rw [ticks_tick] at hn ⊢
    have ih := frameNo_records ops w.pass (by rw [pass_now]; omega)
    rw [pass_now] at ih
    rw [records, List.map_cons, ih, List.range'_succ]
    congr 1
    exact UInt32.toNat_ofNat_of_lt' (by omega : w.now + 1 < 2 ^ 32)

end Window

namespace FrameSyncManager

variable {m h : ℕ} {ops : List Op} {p p' : String} {d d' : List UInt8}

/-- The calls before a tick. -/
theorem exists_tick : ∀ (ops : List Op) {i : ℕ}, i < ticks ops →
    ∃ pre post, ops = pre ++ .tick :: post ∧ ticks pre = i
  | [], i, h => by simp at h
  | .onPlayerInput k p d :: ops, i, h => by
    obtain ⟨pre, post, rfl, rfl⟩ := exists_tick ops (by simpa using h)
    exact ⟨.onPlayerInput k p d :: pre, post, rfl, by simp⟩
  | .tick :: ops, 0, _ => ⟨[], ops, rfl, rfl⟩
  | .tick :: ops, i + 1, h => by
    obtain ⟨pre, post, rfl, rfl⟩ := exists_tick ops (i := i) (by simpa using h)
    exact ⟨.tick :: pre, post, rfl, by simp⟩

/-- Call `j` is the input that tick `i` gave for a player. -/
def Delivers (ops : List Op) (out : List Ticked) (i j : ℕ) (p : String) (d : List UInt8) : Prop :=
  ∃ t, out[i]? = some t ∧ t.record.inputs.lookup p = some d
    ∧ ops[j]? = some (.onPlayerInput t.record.frameNo p d) ∧ ticks (ops.take j) ≤ i
    ∧ ∀ j' e, j < j' → ops[j']? = some (.onPlayerInput t.record.frameNo p e) →
      i < ticks (ops.take j')

/-- A recorded input was delivered by the last call that sent one. -/
theorem exists_delivers (hn : ticks ops < 2 ^ 32) {i : ℕ} {t : Ticked}
    (ht : (run m h ops).2[i]? = some t) (hd : t.record.inputs.lookup p = some d) :
    ∃ j, Delivers ops (run m h ops).2 i j p d := by
  have hout := (run_eq (m := m) (h := h) hn).1
  have hi : i < ticks ops := by
    have := (List.getElem?_eq_some_iff.1 ht).1
    rwa [hout, List.length_map, Window.length_records] at this
  obtain ⟨pre, post, rfl, rfl⟩ := exists_tick ops hi
  have hrec := Window.getElem?_records (m := m) Window.start pre post
  have hr : t.record = (Window.start.after pre).record m := by
    rw [hout, List.getElem?_map, hrec] at ht
    cases ht
    rfl
  have hnow := Window.now_after_start pre
  have hheld : (Window.start.after pre).held (ticks pre + 1) p = some d := by
    rw [hr, Window.lookup_record, hnow] at hd
    split_ifs at hd
    exact hd
  obtain ⟨k, lo, later, rfl, hk, hlast⟩ := Window.last_of_held pre hheld
  have hfr : t.record.frameNo = k := by
    rw [hr, Window.record, hnow, ← hk, UInt32.ofNat_toNat]
  refine ⟨lo.length, t, ht, hd, ?_, ?_, fun j' e hj he => ?_⟩
  · simp [hfr]
  · rw [List.append_assoc, List.take_left, ticks_append]
    omega
  · generalize hpre : lo ++ Op.onPlayerInput k p d :: later = pre at he ⊢
    rcases lt_trichotomy j' pre.length with hlt | heq | hgt
    · rw [List.getElem?_append_left hlt, ← hpre, List.getElem?_append_right hj.le,
        show j' - lo.length = j' - lo.length - 1 + 1 by omega, List.getElem?_cons_succ] at he
      exact absurd (List.mem_of_getElem? he) (hfr ▸ hlast e)
    · rw [heq, List.getElem?_append_right (Nat.le_refl _), Nat.sub_self] at he
      cases he
    · rw [List.take_append, List.take_of_length_le (by omega),
        show j' - pre.length = j' - pre.length - 1 + 1 by omega, List.take_succ_cons,
        ticks_append, ticks_tick]
      omega

theorem map_record_run (hn : ticks ops < 2 ^ 32) :
    (run m h ops).2.map (·.record) = Window.start.records m ops := by
  rw [(run_eq hn).1, List.map_map]
  exact List.map_id _

theorem frameNo_run (hn : ticks ops < 2 ^ 32) : (run m h ops).2.map (·.record.frameNo.toNat)
    = List.range' 1 (ticks ops) := by
  have := Window.frameNo_records (m := m) ops Window.start
    (by show 0 + ticks ops < 2 ^ 32; omega)
  rw [(run_eq hn).1, List.map_map]
  exact this

theorem frameNo_of_run (hn : ticks ops < 2 ^ 32) {i : ℕ} {t : Ticked}
    (ht : (run m h ops).2[i]? = some t) : t.record.frameNo.toNat = i + 1 := by
  have hmap := congrArg (·[i]?) (frameNo_run (m := m) (h := h) hn)
  simp only [List.getElem?_map, ht, Option.map_some] at hmap
  have hi := (List.getElem?_eq_some_iff.1 hmap.symm).1
  rw [List.length_range'] at hi
  rw [List.getElem?_range' hi, Option.some_inj] at hmap
  omega

/-- Ticks are numbered in order, the history is the last of them, each is handed to the callback as
recorded if it is not empty, and gives each player's last input for it; no input is given twice. -/
theorem frames_of_run (hn : ticks ops < 2 ^ 32) :
    (run m h ops).2.map (·.record.frameNo.toNat) = List.range' 1 (ticks ops)
      ∧ (run m h ops).1.frameNo.toNat = ticks ops
      ∧ (run m h ops).1.frameHistory
          = ((run m h ops).2.map (·.record)).drop (ticks ops - min (ticks ops) h)
      ∧ (run m h ops).1.frameHistory.map (·.frameNo.toNat)
          = List.range' (ticks ops - min (ticks ops) h + 1) (min (ticks ops) h)
      ∧ (∀ t ∈ (run m h ops).2, t.callback = if t.record.inputs.entries = [] then none
          else some (t.record.frameNo, t.record.inputs))
      ∧ (∀ i t p d, (run m h ops).2[i]? = some t → t.record.inputs.lookup p = some d →
          ∃ j, Delivers ops (run m h ops).2 i j p d)
      ∧ ∀ i i' j p p' d d', Delivers ops (run m h ops).2 i j p d →
          Delivers ops (run m h ops).2 i' j p' d' → i = i' := by
  have hrecords := map_record_run (m := m) (h := h) hn
  have hlen : ((run m h ops).2.map (·.record)).length = ticks ops := by
    rw [hrecords, Window.length_records]
  have hhist : (run m h ops).1.frameHistory
      = ((run m h ops).2.map (·.record)).drop (ticks ops - min (ticks ops) h) := by
    rw [(run_eq hn).2.1, ← hrecords, keep, hlen]
    congr 1
    omega
  refine ⟨frameNo_run hn, ?_, hhist, ?_, ?_, fun i t p d ht hd => exists_delivers hn ht hd, ?_⟩
  · rw [(run_eq hn).2.2]
    exact UInt32.toNat_ofNat_of_lt' hn
  · have hnos : ((run m h ops).2.map (·.record)).map (·.frameNo.toNat)
        = List.range' 1 (ticks ops) := by
      rw [List.map_map]
      exact frameNo_run hn
    rw [hhist, List.map_drop, hnos, List.drop_range', Nat.mul_one, Nat.add_comm,
      show ticks ops - (ticks ops - min (ticks ops) h) = min (ticks ops) h by omega]
  · intro t ht
    rw [(run_eq hn).1] at ht
    obtain ⟨r, -, rfl⟩ := List.mem_map.1 ht
    rfl
  · rintro i i' j p p' d d' ⟨t, ht, -, hj, -⟩ ⟨t', ht', -, hj', -⟩
    have hop := Option.some_inj.1 (hj.symm.trans hj')
    have hno : t.record.frameNo = t'.record.frameNo := by
      injection hop
    have h₁ := frameNo_of_run hn ht
    have h₂ := frameNo_of_run hn ht'
    rw [hno] at h₁
    omega

theorem frames_of_run_two : (run 2 1 [.onPlayerInput 2 "p" [1], .tick, .tick]).1.frameHistory.map
    (·.frameNo.toNat) = [2] :=
  (frames_of_run (m := 2) (h := 1) (by decide)).2.2.2.1

/-- The same calls, but for inputs in either whose frames are not above the number of ticks before
them; `n` ticks were before these calls. -/
inductive Padded : ℕ → List Op → List Op → Prop
  | nil (n : ℕ) : Padded n [] []
  | tick {n : ℕ} {a b : List Op} : Padded (n + 1) a b → Padded n (.tick :: a) (.tick :: b)
  | input {n : ℕ} {a b : List Op} (k : UInt32) (p : String) (d : List UInt8) :
    Padded n a b → Padded n (.onPlayerInput k p d :: a) (.onPlayerInput k p d :: b)
  | lateLeft {n : ℕ} {a b : List Op} (k : UInt32) (p : String) (d : List UInt8) :
    k.toNat ≤ n → Padded n a b → Padded n (.onPlayerInput k p d :: a) b
  | lateRight {n : ℕ} {a b : List Op} (k : UInt32) (p : String) (d : List UInt8) :
    k.toNat ≤ n → Padded n a b → Padded n a (.onPlayerInput k p d :: b)

theorem Padded.ticks_eq {n : ℕ} {a b : List Op} (hp : Padded n a b) : ticks a = ticks b := by
  induction hp with
  | nil => rfl
  | tick _ ih => simpa using ih
  | input k p d _ ih => simpa using ih
  | lateLeft k p d _ _ ih => simpa using ih
  | lateRight k p d _ _ ih => simpa using ih

theorem Padded.records_eq {n : ℕ} {a b : List Op} (hp : Padded n a b) :
    ∀ w : Window, w.now = n → w.records m a = w.records m b := by
  induction hp with
  | nil => exact fun _ _ => rfl
  | tick _ ih =>
    exact fun w hw => congrArg (w.record m :: ·) (ih w.pass (by rw [Window.pass_now, hw]))
  | input k p d _ ih => exact fun w hw => ih (w.send k p d) (by rw [Window.send_now, hw])
  | lateLeft k p d hk _ ih =>
    intro w hw
    show (w.send k p d).records m _ = _
    rw [Window.send_of_le (hw ▸ hk)]
    exact ih w hw
  | lateRight k p d hk _ ih =>
    intro w hw
    show _ = (w.send k p d).records m _
    rw [Window.send_of_le (hw ▸ hk)]
    exact ih w hw

/-- Inputs that come too late change nothing that ticks record, return or pass to the callback. -/
theorem late_inputs {a b : List Op} (hp : Padded 0 a b) (hn : ticks a < 2 ^ 32) :
    (run m h a).2 = (run m h b).2 := by
  rw [(run_eq hn).1, (run_eq (hp.ticks_eq ▸ hn)).1, hp.records_eq Window.start rfl]

theorem late_inputs_one : (run 1 1 [.tick, .onPlayerInput 2 "p" [1], .tick]).2
    = (run 1 1 [.tick, .onPlayerInput 2 "p" [1], .onPlayerInput 1 "q" [2], .tick]).2 :=
  late_inputs (.tick (.input 2 "p" [1] (.lateRight 1 "q" [2] (by decide) (.tick (.nil 2)))))
    (by decide)

end FrameSyncManager

end TinRpc
