import Mathlib.Data.List.Dedup
import TinRpc.Proofs.FrameRuns

/-!
# What other players' inputs can take away

All players share one buffer, which drops the smallest frame when it is full. Inputs of other
players that are put into a run take an input of a player away only that way: by filling the buffer
with frames above the one about to be played.
-/

namespace TinRpc.FrameSyncManager

open SortedList

/-- The second calls are the first, with inputs of players other than `p` put in. -/
inductive Extended (p : String) : List Op → List Op → Prop
  | nil : Extended p [] []
  | same {a b : List Op} (op : Op) : Extended p a b → Extended p (op :: a) (op :: b)
  | extra {a b : List Op} (k : UInt32) (q : String) (d : List UInt8) :
    q ≠ p → Extended p a b → Extended p a (.onPlayerInput k q d :: b)

/-- The frames above `n` that inputs among the calls name. -/
def framesAbove (n : ℕ) (ops : List Op) : List UInt32 :=
  (ops.filterMap fun
    | .onPlayerInput k _ _ => if n < k.toNat then some k else none
    | .tick => none).dedup

variable {m h n : ℕ} {p : String} {a b : List Op}

namespace Extended

theorem ticks_eq (hab : Extended p a b) : ticks a = ticks b := by
  induction hab with
  | nil => rfl
  | same op _ ih => cases op <;> simpa using ih
  | extra k q d _ _ ih => simpa using ih

theorem subset (hab : Extended p a b) : a ⊆ b := by
  induction hab with
  | nil => exact List.Subset.refl _
  | same op _ ih => exact List.cons_subset_cons op ih
  | extra k q d _ _ ih => exact List.subset_cons_of_subset _ ih

/-- Before a tick of the longer calls come an extension of the shorter ones before theirs. -/
theorem split (hab : Extended p a b) : ∀ {pre post : List Op}, b = pre ++ .tick :: post →
    ∃ pre' post', a = pre' ++ .tick :: post' ∧ Extended p pre' pre := by
  induction hab with
  | nil =>
    intro pre post he
    simp at he
  | same op hab ih =>
    intro pre post he
    rcases List.cons_eq_append_iff.1 he with ⟨rfl, hcons⟩ | ⟨pre, rfl, hrest⟩
    · injection hcons with hop _
      exact ⟨[], _, by rw [← hop]; rfl, .nil⟩
    · obtain ⟨pre', post', rfl, hpre⟩ := ih hrest
      exact ⟨op :: pre', post', rfl, hpre.same op⟩
  | extra k q d hq hab ih =>
    intro pre post he
    rcases List.cons_eq_append_iff.1 he with ⟨rfl, hcons⟩ | ⟨pre, rfl, hrest⟩
    · injection hcons with hop _
      cases hop
    · obtain ⟨pre', post', rfl, hpre⟩ := ih hrest
      exact ⟨pre', post', rfl, hpre.extra k q d hq⟩

/-- Inputs of other players leave what the window holds for a player. -/
theorem held_after (hab : Extended p a b) : ∀ {w v : Window}, w.now = v.now →
    (∀ n, w.held n p = v.held n p) → ∀ n, (w.after a).held n p = (v.after b).held n p := by
  induction hab with
  | nil => exact fun _ hheld => hheld
  | same op _ ih =>
    intro w v hnow hheld
    cases op with
    | onPlayerInput k q d =>
      refine ih (w := w.send k q d) (v := v.send k q d) ?_ fun n => ?_
      · rw [Window.send_now, Window.send_now, hnow]
      · rw [Window.held_send, Window.held_send, hnow, hheld]
    | tick =>
      refine ih (w := w.pass) (v := v.pass) ?_ fun n => ?_
      · rw [Window.pass_now, Window.pass_now, hnow]
      · rw [Window.held_pass, Window.held_pass, hnow, hheld]
  | extra k q d hq _ ih =>
    intro w v hnow hheld
    refine ih (v := v.send k q d) ?_ fun n => ?_
    · rw [Window.send_now, hnow]
    · rw [Window.held_send, if_neg fun hc => hq hc.2.2.symm, hheld]

end Extended

/-- The window has the frames still to come that inputs named. -/
theorem mem_frames_after (k : UInt32) : ∀ pre : List Op,
    (∃ fi ∈ (Window.start.after pre).frames, fi.number = k.toNat)
      ↔ ticks pre < k.toNat ∧ ∃ q d, Op.onPlayerInput k q d ∈ pre := by
  intro pre
  induction pre using List.reverseRecOn with
  | nil => simp [Window.after, Window.start]
  | append_singleton pre op ih =>
    have hnow := Window.now_after_start pre
    rw [Window.after_append]
    cases op with
    | onPlayerInput j q d =>
      show (∃ fi ∈ ((Window.start.after pre).send j q d).frames, _) ↔ _
      have hticks : ticks (pre ++ [.onPlayerInput j q d]) = ticks pre := by simp
      rw [hticks]
      rcases lt_or_ge (ticks pre) j.toNat with hj | hj
      · rw [Window.send_frames (hnow ▸ hj), mem_upsert_keys write_number, ih, UInt32.toNat_inj]
        constructor
        · rintro (rfl | ⟨hk, r, e, hmem⟩)
          · exact ⟨hj, q, d, by simp⟩
          · exact ⟨hk, r, e, List.mem_append_left _ hmem⟩
        · rintro ⟨hk, r, e, hmem⟩
          rcases List.mem_append.1 hmem with hmem | hmem
          · exact .inr ⟨hk, r, e, hmem⟩
          · cases List.mem_singleton.1 hmem
            exact .inl rfl
      · rw [Window.send_of_le (hnow ▸ hj), ih]
        constructor
        · rintro ⟨hk, r, e, hmem⟩
          exact ⟨hk, r, e, List.mem_append_left _ hmem⟩
        · rintro ⟨hk, r, e, hmem⟩
          rcases List.mem_append.1 hmem with hmem | hmem
          · exact ⟨hk, r, e, hmem⟩
          · cases List.mem_singleton.1 hmem
            omega
    | tick =>
      show (∃ fi ∈ (Window.start.after pre).frames.filter _, _) ↔ _
      have hticks : ticks (pre ++ [.tick]) = ticks pre + 1 := by simp
      rw [hticks]
      constructor
      · rintro ⟨fi, hfi, hk⟩
        obtain ⟨hfi, hlt⟩ := List.mem_filter.1 hfi
        have := of_decide_eq_true hlt
        obtain ⟨-, q, d, hmem⟩ := ih.1 ⟨fi, hfi, hk⟩
        exact ⟨by omega, q, d, List.mem_append_left _ hmem⟩
      · rintro ⟨hk, q, d, hmem⟩
        rcases List.mem_append.1 hmem with hmem | hmem
        · obtain ⟨fi, hfi, hfk⟩ := ih.2 ⟨by omega, q, d, hmem⟩
          exact ⟨fi, List.mem_filter.2 ⟨hfi, decide_eq_true (by omega)⟩, hfk⟩
        · cases List.mem_singleton.1 hmem

theorem mem_framesAbove {ops : List Op} {k : UInt32} :
    k ∈ framesAbove n ops ↔ n < k.toNat ∧ ∃ q d, Op.onPlayerInput k q d ∈ ops := by
  unfold framesAbove
  rw [List.mem_dedup, List.mem_filterMap]
  constructor
  · rintro ⟨op, hop, hk⟩
    cases op with
    | onPlayerInput j q d =>
      simp only [] at hk
      split_ifs at hk with hj
      cases hk
      exact ⟨hj, q, d, hop⟩
    | tick => cases hk
  · rintro ⟨hk, q, d, hop⟩
    exact ⟨_, hop, if_pos hk⟩

/-- The frames of the window above the next one are those inputs named. -/
theorem length_above (pre : List Op) : ((Window.start.after pre).frames.filter fun fi =>
    decide ((Window.start.after pre).now + 1 < fi.number)).length
      = (framesAbove (ticks pre + 1) pre).length := by
  rw [Window.now_after_start]
  have hnodup : (((Window.start.after pre).frames.filter fun fi =>
      decide (ticks pre + 1 < fi.number)).map FrameInput.frameNo).Nodup := by
    refine List.Pairwise.map _ (fun fi fj h hno => ?_)
      ((Window.start.after pre).sorted.sublist List.filter_sublist)
    exact h.ne (congrArg UInt32.toNat hno)
  have hmem : ∀ k, k ∈ ((Window.start.after pre).frames.filter fun fi =>
      decide (ticks pre + 1 < fi.number)).map FrameInput.frameNo
        ↔ k ∈ framesAbove (ticks pre + 1) pre := by
    intro k
    rw [mem_framesAbove, List.mem_map]
    constructor
    · rintro ⟨fi, hfi, rfl⟩
      obtain ⟨hfi, hlt⟩ := List.mem_filter.1 hfi
      exact ⟨of_decide_eq_true hlt, ((mem_frames_after _ pre).1 ⟨fi, hfi, rfl⟩).2⟩
    · rintro ⟨hk, hsent⟩
      obtain ⟨fi, hfi, hfk⟩ := (mem_frames_after k pre).2 ⟨by omega, hsent⟩
      exact ⟨fi, List.mem_filter.2 ⟨hfi, decide_eq_true (by omega)⟩, number_eq_iff.1 hfk⟩
  have hperm := (List.perm_ext_iff_of_nodup hnodup (List.nodup_dedup _)).2 hmem
  rw [← List.length_map FrameInput.frameNo]
  exact hperm.length_eq

theorem Extended.length_framesAbove (hab : Extended p a b) (n : ℕ) :
    (framesAbove n a).length ≤ (framesAbove n b).length := by
  refine (List.subperm_of_subset (List.nodup_dedup _) fun k hk => ?_).length_le
  obtain ⟨hn, q, d, hop⟩ := mem_framesAbove.1 hk
  exact mem_framesAbove.2 ⟨hn, q, d, hab.subset hop⟩

/-- What a tick of a run records for a player, from the calls before it. -/
theorem lookup_run {ops : List Op} (hn : ticks ops < 2 ^ 32) {pre post : List Op}
    (he : ops = pre ++ .tick :: post) {t : Ticked} (ht : (run m h ops).2[ticks pre]? = some t) :
    t.record.inputs.lookup p = if (framesAbove (ticks pre + 1) pre).length < m
      then (Window.start.after pre).held (ticks pre + 1) p else none := by
  have hrec := Window.getElem?_records (m := m) Window.start pre post
  rw [(run_eq hn).1, he, List.getElem?_map, hrec] at ht
  cases ht
  show ((Window.start.after pre).record m).inputs.lookup p = _
  rw [Window.lookup_record, length_above, Window.now_after_start]

/-- A tick of the longer run records a player's input as that of the shorter run does unless the
calls before it name `m` frames above its own. -/
theorem Extended.lookup_iff (hab : Extended p a b) (hn : ticks a < 2 ^ 32) {pre post : List Op}
    (he : b = pre ++ .tick :: post) {ta tb : Ticked} (hta : (run m h a).2[ticks pre]? = some ta)
    (htb : (run m h b).2[ticks pre]? = some tb) :
    tb.record.inputs.lookup p = ta.record.inputs.lookup p
      ↔ ta.record.inputs.lookup p = none ∨ (framesAbove (ticks pre + 1) pre).length < m := by
  obtain ⟨pre', post', he', hpre⟩ := hab.split he
  have hheld := hpre.held_after (w := Window.start) rfl (fun _ => rfl) (ticks pre + 1)
  have hle := hpre.length_framesAbove (ticks pre + 1)
  rw [← hpre.ticks_eq] at hta
  rw [lookup_run (hab.ticks_eq ▸ hn) he htb, lookup_run hn he' hta, hpre.ticks_eq, hheld]
  by_cases hb : (framesAbove (ticks pre + 1) pre).length < m
  · rw [if_pos hb, if_pos (hle.trans_lt hb)]
    exact iff_of_true rfl (.inr hb)
  · rw [if_neg hb]
    split_ifs with ha
    · simp only [hb, or_false, eq_comm]
    · simp only [true_or]

/-- An input finds its frame in the buffer, or room for it. -/
def Fits (s : FrameSyncManager) : Op → Prop
  | .onPlayerInput k _ _ => (∃ fi ∈ s.inputBuffer.buffer, fi.frameNo = k)
      ∨ s.inputBuffer.buffer.length < s.inputBuffer.maxFrames
  | .tick => True

/-- Two managers that hold the same for a player, the second with room for what it holds. -/
structure Agree (p : String) (s s' : FrameSyncManager) : Prop where
  frameNo : s.frameNo = s'.frameNo
  maxFrames : s.inputBuffer.maxFrames = s'.inputBuffer.maxFrames
  sorted : Sorted FrameInput.number s.inputBuffer.buffer
  sorted' : Sorted FrameInput.number s'.inputBuffer.buffer
  room : s'.inputBuffer.buffer.length ≤ s'.inputBuffer.maxFrames
  held : ∀ n, heldIn s.inputBuffer.buffer n p = heldIn s'.inputBuffer.buffer n p
  frames : ∀ fi ∈ s.inputBuffer.buffer, ∃ fj ∈ s'.inputBuffer.buffer, fj.number = fi.number

variable {s s' : FrameSyncManager}

/-- Where an input fits, nothing is dropped. -/
theorem Fits.buffer {k : UInt32} {q : String} {d : List UInt8}
    (hfit : Fits s (.onPlayerInput k q d)) (hs : Sorted FrameInput.number s.inputBuffer.buffer)
    (hroom : s.inputBuffer.buffer.length ≤ s.inputBuffer.maxFrames) :
    (upsert FrameInput.number k.toNat (FrameInput.write k q d) s.inputBuffer.buffer).length
      ≤ s.inputBuffer.maxFrames := by
  rcases hfit with ⟨fi, hfi, hk⟩ | hlt
  · rw [length_upsert_of_mem hs ⟨fi, hfi, number_eq_iff.2 hk⟩]
    exact hroom
  · refine le_trans length_upsert_succ_le ?_
    exact hlt

theorem onPlayerInput_buffer {k : UInt32} {q : String} {d : List UInt8}
    (hs : Sorted FrameInput.number s.inputBuffer.buffer)
    (hroom : (upsert FrameInput.number k.toNat (FrameInput.write k q d)
      s.inputBuffer.buffer).length ≤ s.inputBuffer.maxFrames) :
    (s.onPlayerInput k q d).inputBuffer = { s.inputBuffer with
      buffer :=
        upsert FrameInput.number k.toNat (FrameInput.write k q d) s.inputBuffer.buffer } := by
  show s.inputBuffer.addInput k q d = _
  rw [InputBuffer.addInput_eq hs, keep_of_length_le hroom]

theorem Agree.onPlayerInput {k : UInt32} {q : String} {d : List UInt8} (hag : Agree p s s')
    (hfit : Fits s' (.onPlayerInput k q d)) :
    Agree p (s.onPlayerInput k q d) (s'.onPlayerInput k q d) := by
  have hroom' := hfit.buffer hag.sorted' hag.room
  have hframes : ∀ fi ∈ upsert FrameInput.number k.toNat (FrameInput.write k q d)
      s.inputBuffer.buffer, ∃ fj ∈ upsert FrameInput.number k.toNat (FrameInput.write k q d)
        s'.inputBuffer.buffer, fj.number = fi.number := by
    intro fi hfi
    rw [mem_upsert_keys write_number]
    rcases (mem_upsert_keys write_number).1 ⟨fi, hfi, rfl⟩ with hk | ⟨fj, hfj, hj⟩
    · exact .inl hk
    · rw [← hj]
      exact .inr (hag.frames fj hfj)
  have hsorted := hag.sorted.upsert (f := FrameInput.write k q d) write_number
  have hroom := (hsorted.length_le hframes).trans (hag.maxFrames ▸ hroom')
  have hb := onPlayerInput_buffer hag.sorted hroom
  have hb' := onPlayerInput_buffer hag.sorted' hroom'
  refine ⟨hag.frameNo, ?_, ?_, ?_, ?_, ?_, ?_⟩
  · rw [hb, hb']
    exact hag.maxFrames
  · rw [hb]
    exact hsorted
  · rw [hb']
    exact hag.sorted'.upsert write_number
  · rw [hb']
    exact hroom'
  · intro n
    rw [hb, hb', heldIn_upsert hag.sorted, heldIn_upsert hag.sorted', hag.held]
  · rw [hb, hb']
    exact hframes

/-- An input of another player made in the second run. -/
theorem Agree.extra {k : UInt32} {q : String} {d : List UInt8} (hag : Agree p s s') (hq : q ≠ p)
    (hfit : Fits s' (.onPlayerInput k q d)) : Agree p s (s'.onPlayerInput k q d) := by
  have hroom' := hfit.buffer hag.sorted' hag.room
  have hb' := onPlayerInput_buffer hag.sorted' hroom'
  refine ⟨hag.frameNo, ?_, hag.sorted, ?_, ?_, fun n => ?_, fun fi hfi => ?_⟩
  · rw [hb']
    exact hag.maxFrames
  · rw [hb']
    exact hag.sorted'.upsert write_number
  · rw [hb']
    exact hroom'
  · rw [hb', heldIn_upsert hag.sorted', if_neg fun hc => hq hc.2.symm, hag.held]
  · rw [hb', mem_upsert_keys write_number]
    exact .inr (hag.frames fi hfi)

theorem heldIn_filter (l : List FrameInput) (k : UInt32) (n : ℕ) :
    heldIn (l.filter fun fi => fi.frameNo ≠ k) n p
      = if n = k.toNat then none else heldIn l n p := by
  unfold heldIn
  rw [List.find?_filter]
  split_ifs with hn
  · rw [List.find?_eq_none.2, Option.bind_none]
    intro fi _
    simp only [hn, number_eq_iff, decide_eq_true_eq, ne_eq]
    exact fun h => h.1 h.2
  · congr 2
    funext fi
    refine decide_eq_decide.2 ⟨fun h => of_decide_eq_true h.2, fun h => ?_⟩
    exact ⟨decide_eq_true fun hk => hn (h ▸ number_eq_iff.2 hk), decide_eq_true h⟩

theorem lookup_inputs (l : List FrameInput) (k : UInt32) : AList.lookup p
    (((l.find? fun fi => fi.frameNo = k).map FrameInput.players).getD ∅) = heldIn l k.toNat p := by
  have hfind : (fun fi : FrameInput => decide (fi.number = k.toNat))
      = fun fi => decide (fi.frameNo = k) := funext fun fi => decide_eq_decide.2 number_eq_iff
  unfold heldIn
  rw [hfind]
  generalize l.find? _ = o
  rcases o with _ | fi
  · exact AList.lookup_empty p
  · rfl

theorem Agree.tick (hag : Agree p s s') : Agree p s.tick.1 s'.tick.1
    ∧ s.tick.2.record.inputs.lookup p = s'.tick.2.record.inputs.lookup p := by
  rw [tick_eq (InputBuffer.getInput_eq hag.sorted _),
    tick_eq (InputBuffer.getInput_eq hag.sorted' _), ← hag.frameNo]
  refine ⟨⟨rfl, hag.maxFrames, hag.sorted.sublist List.filter_sublist,
    hag.sorted'.sublist List.filter_sublist, (List.length_filter_le _ _).trans hag.room,
    fun n => ?_, fun fi hfi => ?_⟩, ?_⟩
  · show heldIn (List.filter _ _) n p = heldIn (List.filter _ _) n p
    rw [heldIn_filter, heldIn_filter, hag.held]
  · obtain ⟨hfi, hk⟩ := List.mem_filter.1 hfi
    obtain ⟨fj, hfj, hj⟩ := hag.frames fi hfi
    refine ⟨fj, List.mem_filter.2 ⟨hfj, ?_⟩, hj⟩
    rwa [UInt32.toNat_inj.1 hj]
  · show AList.lookup p (Option.getD _ _) = AList.lookup p (Option.getD _ _)
    rw [lookup_inputs, lookup_inputs, hag.held]

/-- While every input of the longer run fits, a player's recorded inputs are those of the shorter
run. -/
theorem Extended.agree (hab : Extended p a b) :
    ∀ {s s' : FrameSyncManager} {out out' : List Ticked}, Agree p s s' →
    out.map (·.record.inputs.lookup p) = out'.map (·.record.inputs.lookup p) →
    (∀ pre op post, b = pre ++ op :: post → Fits (pre.foldl apply (s', out')).1 op) →
      (a.foldl apply (s, out)).2.map (·.record.inputs.lookup p)
        = (b.foldl apply (s', out')).2.map (·.record.inputs.lookup p) := by
  induction hab with
  | nil => exact fun _ hout _ => hout
  | @same a b op _ ih =>
    intro s s' out out' hag hout hfit
    have hhead := hfit [] op b rfl
    have hrest : ∀ pre op' post, b = pre ++ op' :: post →
        Fits (pre.foldl apply (apply (s', out') op)).1 op' := fun pre op' post he =>
      hfit (op :: pre) op' post (by rw [he]; rfl)
    cases op with
    | onPlayerInput k q d => exact ih (hag.onPlayerInput hhead) hout hrest
    | tick =>
      obtain ⟨hag', hlook⟩ := hag.tick
      refine ih hag' ?_ hrest
      rw [List.map_append, List.map_append, hout, List.map_singleton, List.map_singleton, hlook]
  | @extra a b k q d hq _ ih =>
    intro s s' out out' hag hout hfit
    exact ih (hag.extra hq (hfit [] _ b rfl)) hout fun pre op' post he =>
      hfit (.onPlayerInput k q d :: pre) op' post (by rw [he]; rfl)

/-- Inputs of other players put into a run leave what its ticks record for a player as long as every
input of the longer run fits into the buffer. With fewer than `2 ^ 32` ticks they leave it exactly
where nothing was recorded or fewer than `m` frames above the tick's were named before it. -/
theorem suppression (hab : Extended p a b) :
    ((∀ pre op post, b = pre ++ op :: post → Fits (run m h pre).1 op) →
        (run m h a).2.map (·.record.inputs.lookup p) = (run m h b).2.map (·.record.inputs.lookup p))
      ∧ (ticks a < 2 ^ 32 → ∀ pre post, b = pre ++ .tick :: post → ∀ ta tb,
        (run m h a).2[ticks pre]? = some ta → (run m h b).2[ticks pre]? = some tb →
          (tb.record.inputs.lookup p = ta.record.inputs.lookup p
            ↔ ta.record.inputs.lookup p = none ∨ (framesAbove (ticks pre + 1) pre).length < m)) := by
  have hnew : Agree p (new m h).setFrameCallback (new m h).setFrameCallback :=
    ⟨rfl, rfl, List.Pairwise.nil, List.Pairwise.nil, Nat.zero_le _, fun _ => rfl, by simp [new,
      setFrameCallback]⟩
  exact ⟨fun hfit => hab.agree hnew rfl hfit, fun hn pre post he ta tb hta htb =>
    hab.lookup_iff hn he hta htb⟩

theorem suppression_three : ∃ ta tb,
    (run 3 3 [.onPlayerInput 1 "p" [1], .tick]).2[0]? = some ta
      ∧ (run 3 3 [.onPlayerInput 1 "p" [1], .onPlayerInput 2 "q" [], .onPlayerInput 3 "q" [],
          .tick]).2[0]? = some tb
      ∧ tb.record.inputs.lookup "p" = ta.record.inputs.lookup "p" :=
  ⟨_, _, rfl, rfl, ((suppression (m := 3) (h := 3) (.same _ (.extra 2 "q" [] (by decide)
    (.extra 3 "q" [] (by decide) (.same _ .nil))))).2 (by decide)
      [.onPlayerInput 1 "p" [1], .onPlayerInput 2 "q" [], .onPlayerInput 3 "q" []] [] rfl
      _ _ rfl rfl).2 (.inr (by decide))⟩

/-- Two frames of another player fill a buffer of two, and the frame about to be played is
dropped. -/
theorem suppressed : ¬ ∀ (m h : ℕ) (p : String) (a b : List Op), Extended p a b →
    (run m h a).2.map (·.record.inputs.lookup p)
      = (run m h b).2.map (·.record.inputs.lookup p) := by
  intro hall
  have h := hall 2 2 "p" [.onPlayerInput 1 "p" [1], .tick]
    [.onPlayerInput 1 "p" [1], .onPlayerInput 2 "q" [], .onPlayerInput 3 "q" [], .tick]
    (.same _ (.extra 2 "q" [] (by decide) (.extra 3 "q" [] (by decide) (.same _ .nil))))
  revert h
  decide

end TinRpc.FrameSyncManager
