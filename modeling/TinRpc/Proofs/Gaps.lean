import Mathlib.Data.List.Induction
import Mathlib.Data.List.TakeWhile
import TinRpc.FrameSync

/-!
# Gaps in a reply

The history holds the last frames, numbered one after the other and counted modulo `2 ^ 32`
(`frameNo_history`). A reply has the frames of the history that are in the window the client asks
for, so it starts with the client's next frame unless just the first frames of the window have been
dropped (`gapFree_iff`). The window takes in three frames, so a reply has the client's next two, or
as many as there are, just where he is near enough (`exactBatch_iff`).
-/

namespace TinRpc

namespace CountUp

variable {a b c e m n : ℕ}

/-- Up to the modulus nothing is reduced. -/
theorem map_mod_range' (h : b % m + n ≤ m) :
    (List.range' b n).map (· % m) = List.range' (b % m) n := by
  rw [List.range'_eq_map_range, List.range'_eq_map_range, List.map_map]
  refine List.map_congr_left fun i hi => ?_
  have hlt := List.mem_range.1 hi
  show (b + i) % m = b % m + i
  rw [← Nat.mod_add_mod, Nat.mod_eq_of_lt (by omega)]

theorem filter_range' (c : ℕ) : ∀ n a, (List.range' a n).filter (fun i => decide (c ≤ i))
    = List.range' (max a c) (a + n - max a c)
  | 0, a => by
    rw [show a + 0 - max a c = 0 by omega]
    rfl
  | n + 1, a => by
    rw [List.range'_succ]
    by_cases h : c ≤ a
    · rw [List.filter_cons, if_pos (decide_eq_true h), filter_range' c n, max_eq_left h,
        max_eq_left (by omega), show a + (n + 1) - a = n + 1 by omega,
        show a + 1 + n - (a + 1) = n by omega, List.range'_succ]
    · rw [List.filter_cons_of_neg (by simpa using h), filter_range' c n, max_eq_right (by omega),
        max_eq_right (by omega), show a + 1 + n - c = a + (n + 1) - c by omega]

/-- Of numbers that pass `e`, those up to the first one above it. -/
theorem takeWhile_map_mod (hb : b % m ≤ e) (he : e < m) (hend : e ≤ (b + (n - 1)) % m) (hn : 0 < n)
    (hwrap : e + 1 = m → n ≤ m) : ((List.range' b n).map (· % m)).takeWhile (· ≤ e)
      = List.range' (b % m) (e + 1 - b % m) := by
  have hlong : e + 1 - b % m ≤ n := by
    by_contra hshort
    rw [← Nat.mod_add_mod, Nat.mod_eq_of_lt (by omega)] at hend
    omega
  obtain ⟨k, hk⟩ : ∃ k, n = e + 1 - b % m + k := ⟨n - (e + 1 - b % m), by omega⟩
  have hfirst : (List.range' b (e + 1 - b % m)).map (· % m)
      = List.range' (b % m) (e + 1 - b % m) := map_mod_range' (by omega)
  rw [hk, ← List.range'_append_1, List.map_append, hfirst, List.takeWhile_append_of_pos]
  · rcases k with _ | k
    · simp
    · rw [List.range'_succ, List.map_cons, List.takeWhile_cons_of_neg, List.append_nil]
      rw [← Nat.mod_add_mod, show b % m + (e + 1 - b % m) = e + 1 by omega]
      rcases Nat.lt_or_ge (e + 1) m with hlt | hge
      · rw [Nat.mod_eq_of_lt hlt]
        simp
      · have hend' : (b + (n - 1)) % m = (b % m + (n - 1) - m) % m := by
          rw [← Nat.mod_add_mod, ← Nat.mod_eq_sub_mod (by omega)]
        have := hwrap (by omega)
        rw [hend', Nat.mod_eq_of_lt (by omega)] at hend
        omega
  · intro i hi
    have := List.mem_range'_1.1 hi
    simp
    omega

end CountUp

namespace FrameSyncManager

open CountUp

variable {m h : ℕ} {ops : List Op} {c start stop : UInt32}

/-- The numbers of the records, oldest first. -/
def numbers (records : List FrameRecord) : List ℕ := records.map (·.frameNo.toNat)

theorem frameNo_history (m h : ℕ) (ops : List Op) :
    (run m h ops).1.frameNo = UInt32.ofNat (ticks ops) ∧ (run m h ops).1.maxHistorySize = h ∧
    ∃ n ≤ ticks ops, numbers (run m h ops).1.frameHistory
      = (List.range' (ticks ops - n + 1) n).map (· % 2 ^ 32) := by
  unfold run
  induction ops using List.reverseRecOn with
  | nil => exact ⟨rfl, rfl, 0, Nat.le_refl _, rfl⟩
  | append_singleton ops op ih =>
    rw [List.foldl_append]
    generalize ops.foldl apply _ = s at ih
    obtain ⟨hno, hsize, n, hn, hnumbers⟩ := ih
    cases op with
    | onPlayerInput k p d =>
      rw [ticks_append, ticks_onPlayerInput, ticks_nil, Nat.add_zero]
      exact ⟨hno, hsize, n, hn, hnumbers⟩
    | tick =>
      rw [ticks_append, ticks_tick, ticks_nil, Nat.zero_add]
      have hnext : s.1.frameNo + 1 = UInt32.ofNat (ticks ops + 1) := by
        rw [hno, UInt32.ofNat_add]
        rfl
      have hlen : s.1.frameHistory.length = n := by
        simpa [numbers] using congrArg List.length hnumbers
      refine ⟨hnext, hsize, n + 1 - (n + 1 - h), by omega, ?_⟩
      show numbers ((s.1.frameHistory ++ [(⟨s.1.frameNo + 1, _⟩ : FrameRecord)]).drop _) = _
      rw [hsize, List.length_append, List.length_singleton, hlen]
      unfold numbers at hnumbers ⊢
      rw [List.map_drop, List.map_append, hnumbers, hnext, List.map_singleton, UInt32.toNat_ofNat',
        show [(ticks ops + 1) % 2 ^ 32] = [ticks ops + 1].map (· % 2 ^ 32) from rfl,
        ← List.map_append, ← List.map_drop]
      have hrange := List.range'_1_concat (s := ticks ops - n + 1) (n := n)
      rw [show ticks ops - n + 1 + n = ticks ops + 1 by omega] at hrange
      rw [← hrange, List.drop_range', Nat.mul_one,
        show ticks ops - n + 1 + (n + 1 - h) = ticks ops + 1 - (n + 1 - (n + 1 - h)) + 1 by omega]

/-- A history that is not empty is a window of the numbers that ends at the current frame. -/
theorem exists_window {r : FrameRecord} {rest : List FrameRecord}
    (hhist : (run m h ops).1.frameHistory = r :: rest) :
    ∃ b, numbers (r :: rest) = (List.range' b (r :: rest).length).map (· % 2 ^ 32) ∧
      r.frameNo.toNat = b % 2 ^ 32 ∧
      (run m h ops).1.frameNo.toNat = (b + ((r :: rest).length - 1)) % 2 ^ 32 := by
  obtain ⟨hno, -, n, hn, hnumbers⟩ := frameNo_history m h ops
  rw [hhist] at hnumbers
  have hlen : (r :: rest).length = n := by simpa [numbers] using congrArg List.length hnumbers
  obtain ⟨k, rfl⟩ : ∃ k, n = k + 1 := ⟨rest.length, hlen.symm⟩
  refine ⟨ticks ops - (k + 1) + 1, hlen.symm ▸ hnumbers, ?_, ?_⟩
  · rw [List.range'_succ] at hnumbers
    exact (List.cons.inj hnumbers).1
  · rw [hno, hlen, UInt32.toNat_ofNat',
      show ticks ops - (k + 1) + 1 + (k + 1 - 1) = ticks ops by omega]

/-! ## The reply -/

/-- The loop takes what is in the window up to the first frame behind it. -/
theorem numbers_catchUpLoop (start stop : UInt32) : ∀ records : List FrameRecord,
    numbers (catchUpLoop start stop records) = ((numbers records).takeWhile
      (· ≤ stop.toNat)).filter fun i => decide (start.toNat ≤ i)
  | [] => rfl
  | r :: records => by
    have ih := numbers_catchUpLoop start stop records
    have hcons : ∀ l, numbers (r :: l) = r.frameNo.toNat :: numbers l := fun _ => rfl
    rw [catchUpLoop, hcons, List.takeWhile_cons]
    simp only [UInt32.lt_iff_toNat_lt, UInt32.le_iff_toNat_le, decide_eq_true_eq]
    by_cases hstop : r.frameNo.toNat ≤ stop.toNat
    · rw [if_pos hstop, if_neg (by omega : ¬stop.toNat < _), List.filter_cons, ← ih]
      by_cases hstart : start.toNat ≤ r.frameNo.toNat
      · rw [if_pos ⟨hstart, hstop⟩, if_pos (decide_eq_true hstart), hcons]
      · rw [if_neg (fun h => hstart h.1), if_neg (by simpa using hstart)]
    · rw [if_neg hstop, if_pos (by omega : stop.toNat < _), if_neg (fun h => hstop h.2)]
      rfl

/-- The first record of a reply is the client's next frame, and the records are consecutive. -/
def GapFree (c : UInt32) (reply : List FrameRecord) : Prop :=
  numbers reply = List.range' (c.toNat + 1) reply.length

instance (c : UInt32) (reply : List FrameRecord) : Decidable (GapFree c reply) :=
  inferInstanceAs (Decidable (_ = _))

/-- The history reaches back to the first frame of the window a client asks for, or it has no frame
of that window; and no frame number stands in it twice. -/
def HistoryReaches (s : FrameSyncManager) (c : UInt32) : Prop :=
  let start := c + 1
  let stop := min (c + 3) s.frameNo
  c < s.frameNo → start ≤ stop →
    (∀ r ∈ s.frameHistory.head?, r.frameNo ≤ start ∨ stop < r.frameNo) ∧
    (stop = UInt32.ofNat (2 ^ 32 - 1) → s.frameHistory.length ≤ 2 ^ 32)

theorem gapFree_of_numbers {reply : List FrameRecord} {a k : ℕ}
    (h : numbers reply = List.range' a k) (hk : 0 < k) :
    GapFree c reply ↔ a = c.toNat + 1 := by
  have hlen : reply.length = k := by simpa [numbers] using congrArg List.length h
  unfold GapFree
  rw [h, hlen, List.range'_inj]
  constructor
  · rintro ⟨-, hzero | heq⟩
    · omega
    · exact heq
  · exact fun heq => ⟨rfl, .inr heq⟩

theorem gapFree_of_numbers_nil {reply : List FrameRecord} (h : numbers reply = []) :
    GapFree c reply := by
  rw [List.map_eq_nil_iff.1 h]
  exact rfl

theorem start_toNat {f : UInt32} (hc : c < f) : (c + 1).toNat = c.toNat + 1 := by
  have hlt := UInt32.lt_iff_toNat_lt.1 hc
  have := f.toNat_lt
  rw [UInt32.toNat_add]
  exact Nat.mod_eq_of_lt (by show c.toNat + 1 < 2 ^ 32; omega)

theorem stop_le (c f : UInt32) : (min (c + 3) f).toNat ≤ f.toNat := by
  show (if _ ≤ _ then _ else _ : UInt32).toNat ≤ _
  split_ifs with h
  · exact UInt32.le_iff_toNat_le.1 h
  · exact Nat.le_refl _

theorem eq_last_iff : stop = UInt32.ofNat (2 ^ 32 - 1) ↔ stop.toNat + 1 = 2 ^ 32 := by
  rw [← UInt32.toNat_inj, UInt32.toNat_ofNat_of_lt' (by decide)]
  omega

/-- No frame is behind the last of all numbers. -/
theorem takeWhile_all {b n : ℕ} (hlast : stop.toNat + 1 = 2 ^ 32) :
    ((List.range' b n).map (· % 2 ^ 32)).takeWhile (· ≤ stop.toNat)
      = (List.range' b n).map (· % 2 ^ 32) := by
  refine List.takeWhile_eq_self_iff.2 fun i hi => decide_eq_true ?_
  obtain ⟨j, -, rfl⟩ := List.mem_map.1 hi
  have := Nat.mod_lt j (by omega : 0 < 2 ^ 32)
  show j % 2 ^ 32 ≤ stop.toNat
  omega

/-- A history with more than `2 ^ 32` frames has its last number twice. -/
theorem last_twice {b n e : ℕ} (hn : 2 ^ 32 < n) (he : e = (b + (n - 1)) % 2 ^ 32) (hc : c.toNat < e)
    {reply : List FrameRecord} (h : numbers reply = ((List.range' b n).map (· % 2 ^ 32)).filter
      fun i => decide (c.toNat + 1 ≤ i)) : ¬GapFree c reply := by
  intro hgap
  have hnodup : (numbers reply).Nodup := by
    rw [hgap]
    exact List.nodup_range'
  obtain ⟨k, rfl⟩ : ∃ k, n = k + 1 := ⟨n - 1, by omega⟩
  rw [h, List.range'_1_concat, List.map_append, List.filter_append] at hnodup
  refine (List.nodup_append.1 hnodup).2.2 e ?_ e ?_ rfl
  · refine List.mem_filter.2 ⟨List.mem_map.2 ⟨b + (k - 2 ^ 32), ?_, ?_⟩, decide_eq_true hc⟩
    · exact List.mem_range'_1.2 ⟨by omega, by omega⟩
    · omega
  · exact List.mem_filter.2 ⟨List.mem_singleton.2 he, decide_eq_true hc⟩

/-- A reply to a client that is behind, over a history that ends at frame `f`. -/
theorem gapFree_window {history : List FrameRecord} {f : UInt32} {b : ℕ} (hc : c < f)
    (hle : stop.toNat ≤ f.toNat) (hstart : c.toNat + 1 ≤ stop.toNat) (hne : history ≠ [])
    (hnumbers : numbers history = (List.range' b history.length).map (· % 2 ^ 32))
    (hend : f.toNat = (b + (history.length - 1)) % 2 ^ 32) :
    GapFree c (catchUpLoop (c + 1) stop history) ↔
      (b % 2 ^ 32 ≤ c.toNat + 1 ∨ stop.toNat < b % 2 ^ 32) ∧
        (stop.toNat + 1 = 2 ^ 32 → history.length ≤ 2 ^ 32) := by
  have hpos : 0 < history.length := List.length_pos_iff.2 hne
  have hstop := stop.toNat_lt
  have hloop := numbers_catchUpLoop (c + 1) stop history
  rw [start_toNat hc, hnumbers] at hloop
  by_cases hb : b % 2 ^ 32 ≤ stop.toNat
  · by_cases hwrap : stop.toNat + 1 = 2 ^ 32 → history.length ≤ 2 ^ 32
    · rw [takeWhile_map_mod hb hstop (hend ▸ hle) hpos hwrap, filter_range',
        show b % 2 ^ 32 + (stop.toNat + 1 - b % 2 ^ 32) = stop.toNat + 1 by omega] at hloop
      rw [gapFree_of_numbers hloop (by omega)]
      omega
    · have hlast : stop.toNat + 1 = 2 ^ 32 := by
        by_contra h
        exact hwrap fun h' => absurd h' h
      have hlong : 2 ^ 32 < history.length := by
        by_contra h
        exact hwrap fun _ => by omega
      have hf := f.toNat_lt
      rw [takeWhile_all hlast] at hloop
      exact iff_of_false (last_twice hlong hend (by omega) hloop) fun h => hwrap h.2
  · have hfirst : ((List.range' b history.length).map (· % 2 ^ 32)).takeWhile (· ≤ stop.toNat)
        = [] := by
      obtain ⟨k, hk⟩ := Nat.exists_eq_add_of_lt hpos
      rw [hk, List.range'_succ, List.map_cons, List.takeWhile_cons_of_neg (by simpa using hb)]
    rw [hfirst] at hloop
    exact iff_of_true (gapFree_of_numbers_nil hloop) ⟨.inr (by omega), fun h => by
      have := Nat.mod_lt b (by omega : 0 < 2 ^ 32)
      omega⟩

/-- A reply is without a gap exactly when the history reaches back to the first frame it should
have. -/
theorem gapFree_iff (m h : ℕ) (ops : List Op) (c : UInt32) :
    GapFree c ((run m h ops).1.getCatchUpFrames c) ↔ HistoryReaches (run m h ops).1 c := by
  have hwindow := @exists_window m h ops
  generalize (run m h ops).1 = s at hwindow
  unfold getCatchUpFrames HistoryReaches
  simp only []
  by_cases hc : c < s.frameNo
  · have hc' : ¬s.frameNo ≤ c := UInt32.not_le.2 hc
    rw [if_neg hc', imp_iff_right hc]
    generalize hstop : min (c + 3) s.frameNo = stop
    have hle : stop.toNat ≤ s.frameNo.toNat := hstop ▸ stop_le c s.frameNo
    by_cases hstart : c + 1 ≤ stop
    · have hstart' : c.toNat + 1 ≤ stop.toNat := start_toNat hc ▸ UInt32.le_iff_toNat_le.1 hstart
      rw [imp_iff_right hstart, eq_last_iff]
      rcases hhist : s.frameHistory with _ | ⟨r, rest⟩
      · simpa using gapFree_of_numbers_nil rfl
      · obtain ⟨b, hnumbers, hhead, hend⟩ := hwindow hhist
        rw [gapFree_window hc hle hstart' (List.cons_ne_nil r rest) hnumbers hend, ← hhead]
        simp only [List.head?_cons, Option.mem_some_iff, forall_eq', UInt32.le_iff_toNat_le,
          UInt32.lt_iff_toNat_lt, start_toNat hc]
    · have hlow : stop.toNat < c.toNat + 1 := by
        have := UInt32.lt_iff_toNat_lt.1 (UInt32.not_le.1 hstart)
        rwa [start_toNat hc] at this
      refine iff_of_true (gapFree_of_numbers_nil ?_) fun h => absurd h hstart
      rw [numbers_catchUpLoop, List.filter_eq_nil_iff, start_toNat hc]
      intro i hi
      have : i ≤ stop.toNat := by simpa using List.mem_takeWhile_imp hi
      simp only [decide_eq_true_eq, not_le]
      omega
  · rw [if_pos (UInt32.not_lt.1 hc)]
    exact iff_of_true (gapFree_of_numbers_nil rfl) fun h => absurd h hc

/-- With a history of five frames, a client at frame 4 of 10 gets frame 6 first. -/
theorem not_gapFree_evicted : ¬GapFree 4
    ((run 60 5 (List.replicate 10 .tick)).1.getCatchUpFrames 4) := by
  decide +kernel

/-! ## The size of a reply -/

/-- The frames a client asks for: its next two, as far as there are any. -/
def batch (s : FrameSyncManager) (c : UInt32) : List ℕ :=
  List.range' (c.toNat + 1) (min (c.toNat + 2) s.frameNo.toNat - c.toNat)

/-- A reply has the records of these frames, in order. -/
def ExactBatch (s : FrameSyncManager) (c : UInt32) : Prop :=
  (s.getCatchUpFrames c).Sublist s.frameHistory ∧ numbers (s.getCatchUpFrames c) = s.batch c

instance (s : FrameSyncManager) (c : UInt32) : Decidable (numbers (s.getCatchUpFrames c) = s.batch c) :=
  inferInstanceAs (Decidable (_ = _))

theorem catchUpLoop_sublist (start stop : UInt32) : ∀ records : List FrameRecord,
    (catchUpLoop start stop records).Sublist records
  | [] => .slnil
  | r :: records => by
    have htail : (if stop < r.frameNo then [] else catchUpLoop start stop records).Sublist records := by
      split_ifs
      · exact List.nil_sublist _
      · exact catchUpLoop_sublist start stop records
    rw [catchUpLoop]
    generalize (if stop < r.frameNo then [] else catchUpLoop start stop records) = tail at htail
    split_ifs
    · exact htail.cons_cons r
    · exact htail.cons r

theorem getCatchUpFrames_sublist (s : FrameSyncManager) (c : UInt32) :
    (s.getCatchUpFrames c).Sublist s.frameHistory := by
  unfold getCatchUpFrames
  split_ifs
  · exact List.nil_sublist _
  · exact catchUpLoop_sublist _ _ _

/-- Where the window ends: behind three frames, or at the current one, or in front of all frames
where the end does not fit. -/
theorem stop_toNat (c f : UInt32) : (min (c + 3) f).toNat =
    min (if c.toNat + 3 < 2 ^ 32 then c.toNat + 3 else c.toNat + 3 - 2 ^ 32) f.toNat := by
  have hc := c.toNat_lt
  have hadd : (c + 3).toNat
      = if c.toNat + 3 < 2 ^ 32 then c.toNat + 3 else c.toNat + 3 - 2 ^ 32 := by
    rw [UInt32.toNat_add]
    show (c.toNat + 3) % 2 ^ 32 = _
    split_ifs with h
    · exact Nat.mod_eq_of_lt h
    · omega
  rw [← hadd]
  show (if c + 3 ≤ f then c + 3 else f).toNat = _
  split_ifs with h
  · exact (Nat.min_eq_left (UInt32.le_iff_toNat_le.1 h)).symm
  · exact (Nat.min_eq_right (UInt32.lt_iff_toNat_lt.1 (UInt32.not_le.1 h)).le).symm

section Window

variable {b n i : ℕ} (hpos : 0 < n) (hle : stop.toNat ≤ (b + (n - 1)) % 2 ^ 32)
  (hi : i ∈ ((List.range' b n).map (· % 2 ^ 32)).takeWhile (· ≤ stop.toNat))

include hpos hle hi

/-- What a history has of a window without the last of all numbers, if it has anything. -/
theorem takeWhile_window (hlast : stop.toNat + 1 ≠ 2 ^ 32) :
    ((List.range' b n).map (· % 2 ^ 32)).takeWhile (· ≤ stop.toNat)
      = List.range' (b % 2 ^ 32) (stop.toNat + 1 - b % 2 ^ 32) := by
  have hb : b % 2 ^ 32 ≤ stop.toNat := by
    by_contra hb
    obtain ⟨k, rfl⟩ : ∃ k, n = k + 1 := ⟨n - 1, by omega⟩
    rw [List.range'_succ, List.map_cons, List.takeWhile_cons_of_neg (by simpa using hb)] at hi
    cases hi
  exact takeWhile_map_mod hb stop.toNat_lt hle hpos fun h => absurd h hlast

theorem stop_mem :
    stop.toNat ∈ ((List.range' b n).map (· % 2 ^ 32)).takeWhile (· ≤ stop.toNat) := by
  have hstop := stop.toNat_lt
  by_cases hlast : stop.toNat + 1 = 2 ^ 32
  · have hend : (b + (n - 1)) % 2 ^ 32 = stop.toNat := by omega
    rw [takeWhile_all hlast]
    exact List.mem_map.2 ⟨b + (n - 1), List.mem_range'_1.2 ⟨by omega, by omega⟩, hend⟩
  · have hwindow := takeWhile_window hpos hle hi hlast
    rw [hwindow] at hi ⊢
    have := List.mem_range'_1.1 hi
    exact List.mem_range'_1.2 ⟨by omega, by omega⟩

end Window

/-- The reply to a client that is behind, over a history that ends at frame `f`. -/
theorem batch_window {history : List FrameRecord} {f : UInt32} {b n : ℕ} (hc : c < f) (hpos : 0 < n)
    (hnumbers : numbers history = (List.range' b n).map (· % 2 ^ 32))
    (hend : f.toNat = (b + (n - 1)) % 2 ^ 32) :
    numbers (catchUpLoop (c + 1) (min (c + 3) f) history)
        = List.range' (c.toNat + 1) (min (c.toNat + 2) f.toNat - c.toNat) ↔
      f.toNat ≤ c.toNat + 2 ∧ c.toNat + 3 < 2 ^ 32 ∧ b % 2 ^ 32 ≤ c.toNat + 1 := by
  have hc' := UInt32.lt_iff_toNat_lt.1 hc
  have hf := f.toNat_lt
  have hstop := stop_toNat c f
  rw [numbers_catchUpLoop, start_toNat hc, hnumbers]
  generalize min (c + 3) f = stop at hstop
  have hle : stop.toNat ≤ (b + (n - 1)) % 2 ^ 32 := by omega
  constructor
  · intro h
    have hmem : ∀ i, c.toNat + 1 ≤ i → i < c.toNat + 3 → i ≤ f.toNat →
        i ∈ ((List.range' b n).map (· % 2 ^ 32)).takeWhile (· ≤ stop.toNat) := by
      intro i h₁ h₂ h₃
      have hi : i ∈ List.range' (c.toNat + 1) (min (c.toNat + 2) f.toNat - c.toNat) :=
        List.mem_range'_1.2 ⟨h₁, by omega⟩
      rw [← h] at hi
      exact (List.mem_filter.1 hi).1
    have hfirst := hmem (c.toNat + 1) le_rfl (by omega) hc'
    have hlast := stop_mem hpos hle hfirst
    have hwindow : c.toNat + 1 ≤ stop.toNat := by
      simpa using List.mem_takeWhile_imp hfirst
    have hbatch : stop.toNat ∈ List.range' (c.toNat + 1) (min (c.toNat + 2) f.toNat - c.toNat) := by
      rw [← h]
      exact List.mem_filter.2 ⟨hlast, decide_eq_true hwindow⟩
    have hrange := List.mem_range'_1.1 hbatch
    have hfits : c.toNat + 3 < 2 ^ 32 := by
      by_contra hlong
      rw [if_neg hlong] at hstop
      omega
    rw [if_pos hfits] at hstop
    rw [takeWhile_window hpos hle hfirst (by omega)] at hfirst
    have := List.mem_range'_1.1 hfirst
    exact ⟨by omega, hfits, this.1⟩
  · rintro ⟨hnear, hfits, hb⟩
    rw [if_pos hfits, Nat.min_eq_right (by omega)] at hstop
    rw [takeWhile_map_mod (by omega) (by omega) hle hpos (by omega), filter_range', hstop,
      Nat.max_eq_right hb, Nat.min_eq_right hnear]
    congr 1
    omega

/-- A reply has the client's next two frames, or as many as there are, exactly where the client is
at most two frames behind, three more than its number is a frame number, and the history does not
start before the frames were counted from zero again. -/
theorem exactBatch_iff (m h : ℕ) (ops : List Op) (c : UInt32) :
    let s := (run m h ops).1
    s.ExactBatch c ↔ s.frameNo.toNat ≤ c.toNat ∨ s.frameNo.toNat ≤ c.toNat + 2 ∧
      c.toNat + 3 < 2 ^ 32 ∧ ∃ r ∈ s.frameHistory.head?, r.frameNo.toNat ≤ c.toNat + 1 := by
  have hwindow := @exists_window m h ops
  generalize (run m h ops).1 = s at hwindow
  have hexact : s.ExactBatch c ↔ numbers (s.getCatchUpFrames c) = s.batch c :=
    and_iff_right (getCatchUpFrames_sublist s c)
  show s.ExactBatch c ↔ _
  rw [hexact]
  unfold batch getCatchUpFrames
  by_cases hc : c < s.frameNo
  · have hc' := UInt32.lt_iff_toNat_lt.1 hc
    rw [if_neg (UInt32.not_le.2 hc), or_iff_right (by omega)]
    rcases hhist : s.frameHistory with _ | ⟨r, rest⟩
    · refine iff_of_false (fun he => ?_) (by simp)
      have hlen := congrArg List.length he
      rw [List.length_range'] at hlen
      change 0 = _ at hlen
      omega
    · obtain ⟨b, hnumbers, hhead, hend⟩ := hwindow hhist
      rw [batch_window hc rest.length.succ_pos hnumbers hend, ← hhead]
      simp
  · have hc' : s.frameNo.toNat ≤ c.toNat := UInt32.le_iff_toNat_le.1 (UInt32.not_lt.1 hc)
    rw [if_pos (UInt32.not_lt.1 hc), Nat.sub_eq_zero_of_le (by omega)]
    exact iff_of_true rfl (.inl hc')

/-- A client at frame 5 of 10 gets three frames. -/
theorem not_exactBatch_behind : ¬(run 60 120 (List.replicate 10 .tick)).1.ExactBatch 5 := by
  intro h
  exact absurd h.2 (by decide +kernel)

end FrameSyncManager

end TinRpc
