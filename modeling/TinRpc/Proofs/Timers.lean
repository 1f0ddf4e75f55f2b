import Mathlib.Algebra.Ring.Int.Defs
import TinRpc.Lib.Reach
import TinRpc.TimerHeap

/-!
# Timers fire when they should

What a timer queue owes its user is a property of the log of a run (`Lawful`): a callback runs once
and only while its timer is pending, not before its deadline and before no earlier one, and `Tick`
leaves nothing that was due. The timer heap keeps it, whatever the heap operations make of the
order in the vector and whatever callbacks schedule and cancel, as long as the deadlines fit the
clock and no id is given twice (`timers_lawful`).
-/

namespace TinRpc

open Transition

namespace TimerHeap

/-- A timer that was scheduled and has neither fired nor been cancelled. -/
def Pending (log : List Entry) (n : ℕ) (id : UInt64) (deadline : ℤ) : Prop :=
  .scheduled n id deadline ∈ log ∧ .fired n ∉ log ∧ ∀ i, .cancelled i (some n) ∉ log

/-- The time read by the `Tick` underway and the callbacks it has run. -/
def underway : List Entry → Option (ℤ × ℕ)
  | [] => none
  | .ticking now :: _ => some (now, 0)
  | .fired _ :: log => (underway log).map fun t => (t.1, t.2 + 1)
  | .ticked _ :: _ => none
  | .scheduled .. :: log | .cancelled .. :: log => underway log

/-- The log of a timer queue that does what it should, the last entry first. -/
def Lawful : List Entry → Prop
  | [] => True
  | .scheduled n id _ :: log => Lawful log ∧
      id = UInt64.ofNat (n + 1) ∧ ∀ i d, .scheduled n i d ∉ log
  | .cancelled id hit :: log => Lawful log ∧
      (∀ n ∈ hit, ∃ d, Pending log n id d) ∧ ∀ n d, Pending log n id d → hit = some n
  | .ticking _ :: log => Lawful log ∧ underway log = none
  | .fired n :: log => Lawful log ∧
      ∃ now k id d, underway log = some (now, k) ∧ Pending log n id d ∧ d ≤ now ∧
        ∀ m i e, Pending log m i e → d ≤ e
  | .ticked result :: log => Lawful log ∧
      ∃ now, underway log = some (now, result) ∧ ∀ m i d, Pending log m i d → now < d

variable {log : List Entry} {n : ℕ} {id : UInt64} {d : ℤ}

theorem Lawful.tail {e : Entry} (h : Lawful (e :: log)) : Lawful log := by
  cases e <;> exact h.1

/-- What fired or was cancelled had been scheduled. -/
theorem scheduled_of_lawful : ∀ {log : List Entry}, Lawful log → ∀ {n : ℕ},
    (.fired n ∈ log ∨ ∃ i, .cancelled i (some n) ∈ log) → ∃ id d, .scheduled n id d ∈ log
  | [], _, n, h => by simp at h
  | e :: log, hl, n, h => by
    have hrest : (.fired n ∈ log ∨ ∃ i, .cancelled i (some n) ∈ log) →
        ∃ id d, .scheduled n id d ∈ e :: log := by
      intro h
      obtain ⟨id, d, h⟩ := scheduled_of_lawful hl.tail h
      exact ⟨id, d, List.mem_cons_of_mem _ h⟩
    rcases h with h | ⟨i, h⟩
    · rcases List.mem_cons.1 h with rfl | h
      · obtain ⟨-, -, -, id, d, -, hp, -⟩ := hl
        exact ⟨id, d, List.mem_cons_of_mem _ hp.1⟩
      · exact hrest (.inl h)
    · rcases List.mem_cons.1 h with rfl | h
      · obtain ⟨-, hhit, -⟩ := hl
        obtain ⟨d, hp⟩ := hhit n rfl
        exact ⟨i, d, List.mem_cons_of_mem _ hp.1⟩
      · exact hrest (.inr ⟨i, h⟩)

/-- The ids are given in order. -/
theorem id_of_lawful : ∀ {log : List Entry}, Lawful log → ∀ {n : ℕ} {id : UInt64} {d : ℤ},
    .scheduled n id d ∈ log → id = UInt64.ofNat (n + 1)
  | [], _, n, id, d, h => by cases h
  | e :: log, hl, n, id, d, h => by
    rcases List.mem_cons.1 h with rfl | h
    · exact hl.2.1
    · exact id_of_lawful hl.tail h

/-! ## The heap and the log -/

/-- The timers in the heap, in whatever order, against the log. -/
structure Kept (heap : List (Timer ℕ)) (log : List Entry) : Prop where
  marked : ∀ t ∈ heap, t.callback = none ↔ t.cancelled = true
  pending : ∀ n id d, Pending log n id d ↔ ⟨id, d, some n, false⟩ ∈ heap
  distinct : (heap.filterMap Timer.callback).Nodup
  given : ∀ t ∈ heap, ∃ n d, .scheduled n t.id d ∈ log
  ids : (heap.map Timer.id).Nodup

namespace Kept

variable {heap heap' : List (Timer ℕ)} {t : Timer ℕ}

theorem perm (h : Kept heap log) (hp : heap.Perm heap') : Kept heap' log where
  marked t ht := h.marked t (hp.mem_iff.2 ht)
  pending n id d := (h.pending n id d).trans hp.mem_iff
  distinct := (hp.filterMap _).nodup_iff.1 h.distinct
  given t ht := h.given t (hp.mem_iff.2 ht)
  ids := (hp.map _).nodup_iff.1 h.ids

/-- Who still has his callback is pending. -/
theorem pending_of_callback (h : Kept heap log) (ht : t ∈ heap) (hn : t.callback = some n) :
    Pending log n t.id t.deadline := by
  obtain ⟨id, d, callback, cancelled⟩ := t
  obtain rfl : callback = some n := hn
  obtain rfl : cancelled = false := by
    rw [← Bool.not_eq_true, ← h.marked _ ht]
    exact Option.some_ne_none n
  exact (h.pending n id d).2 ht

theorem drop (h : Kept (t :: heap) log) (ht : t.cancelled = true) : Kept heap log where
  marked u hu := h.marked u (List.mem_cons_of_mem _ hu)
  pending n id d := by
    rw [h.pending, List.mem_cons, or_iff_right]
    rintro rfl
    cases ht
  distinct := by
    have hnone := (h.marked t List.mem_cons_self).2 ht
    simpa only [List.filterMap_cons, hnone] using h.distinct
  given u hu := h.given u (List.mem_cons_of_mem _ hu)
  ids := (List.nodup_cons.1 h.ids).2

theorem congr {log' : List Entry} (h : Kept heap log)
    (hpending : ∀ n id d, Pending log' n id d ↔ Pending log n id d)
    (hgave : ∀ n id d, .scheduled n id d ∈ log → .scheduled n id d ∈ log') : Kept heap log' where
  marked := h.marked
  pending n id d := (hpending n id d).trans (h.pending n id d)
  distinct := h.distinct
  given t ht := by
    obtain ⟨n, d, hgiven⟩ := h.given t ht
    exact ⟨n, d, hgave n t.id d hgiven⟩
  ids := h.ids

theorem schedule (h : Kept heap log) (hl : Lawful log) (hn : ∀ i e, .scheduled n i e ∉ log)
    (hid : ∀ m e, .scheduled m id e ∉ log) :
    Kept (heap ++ [⟨id, d, some n, false⟩]) (.scheduled n id d :: log) := by
  have hfresh : .fired n ∉ log ∧ ∀ i, .cancelled i (some n) ∉ log := by
    refine ⟨fun hf => ?_, fun i hf => ?_⟩
    · obtain ⟨i, e, hs⟩ := scheduled_of_lawful hl (.inl hf)
      exact hn i e hs
    · obtain ⟨i, e, hs⟩ := scheduled_of_lawful hl (.inr ⟨i, hf⟩)
      exact hn i e hs
  refine ⟨fun t ht => ?_, fun m i e => ?_, ?_, fun t ht => ?_, ?_⟩
  · rcases List.mem_append.1 ht with ht | ht
    · exact h.marked t ht
    · rw [List.mem_singleton.1 ht]
      simp
  · rw [List.mem_append, List.mem_singleton, ← h.pending]
    unfold Pending
    simp only [List.mem_cons, reduceCtorEq, false_or, Entry.scheduled.injEq, Timer.mk.injEq,
      Option.some.injEq, and_true]
    constructor
    · rintro ⟨⟨rfl, rfl, rfl⟩ | hs, hrest⟩
      · exact .inr ⟨rfl, rfl, rfl⟩
      · exact .inl ⟨hs, hrest⟩
    · rintro (⟨hs, hrest⟩ | ⟨rfl, rfl, rfl⟩)
      · exact ⟨.inr hs, hrest⟩
      · exact ⟨.inl ⟨rfl, rfl, rfl⟩, hfresh⟩
  · rw [List.filterMap_append, List.nodup_append]
    refine ⟨h.distinct, by simp, fun a ha b hb => ?_⟩
    simp only [List.filterMap_cons, List.filterMap_nil, List.mem_singleton] at hb
    obtain rfl := hb
    rintro rfl
    obtain ⟨t, ht, hcb⟩ := List.mem_filterMap.1 ha
    exact hn _ _ (h.pending_of_callback ht hcb).1
  · rcases List.mem_append.1 ht with ht | ht
    · obtain ⟨m, e, hm⟩ := h.given t ht
      exact ⟨m, e, List.mem_cons_of_mem _ hm⟩
    · rw [List.mem_singleton.1 ht]
      exact ⟨n, d, List.mem_cons_self⟩
  · rw [List.map_append, List.nodup_append]
    refine ⟨h.ids, by simp, fun i hi j hj => ?_⟩
    rw [List.map_singleton, List.mem_singleton] at hj
    rw [hj]
    rintro rfl
    obtain ⟨t, ht, rfl⟩ := List.mem_map.1 hi
    obtain ⟨m, e, hm⟩ := h.given t ht
    exact hid m e hm

/-- A timer that is pending no more leaves a cancelled one behind. -/
theorem retire (h : Kept (⟨id, d, some n, false⟩ :: heap) log) (log' : List Entry)
    (hpending : ∀ m i e, Pending log' m i e ↔ Pending log m i e ∧ m ≠ n)
    (hgave : ∀ m i e, .scheduled m i e ∈ log → .scheduled m i e ∈ log') :
    Kept (⟨id, d, none, true⟩ :: heap) log' where
  marked u hu := by
    rcases List.mem_cons.1 hu with rfl | hu
    · simp
    · exact h.marked u (List.mem_cons_of_mem _ hu)
  pending m i e := by
    have hd := h.distinct
    simp only [List.filterMap_cons, List.nodup_cons] at hd
    rw [hpending, h.pending, List.mem_cons, List.mem_cons]
    simp only [Timer.mk.injEq, Option.some.injEq, and_true, reduceCtorEq, and_false, false_or]
    constructor
    · rintro ⟨⟨-, -, heq⟩ | hin, hne⟩
      · exact absurd heq hne
      · exact hin
    · intro hin
      refine ⟨.inr hin, ?_⟩
      rintro rfl
      exact hd.1 (List.mem_filterMap.2 ⟨_, hin, rfl⟩)
  distinct := by
    have hd := h.distinct
    simp only [List.filterMap_cons, List.nodup_cons] at hd
    exact hd.2
  given u hu := by
    have hgiven : ∃ m e, .scheduled m u.id e ∈ log := by
      rcases List.mem_cons.1 hu with rfl | hu
      · exact h.given ⟨id, d, some n, false⟩ List.mem_cons_self
      · exact h.given u (List.mem_cons_of_mem _ hu)
    obtain ⟨m, e, hm⟩ := hgiven
    exact ⟨m, e, hgave m u.id e hm⟩
  ids := h.ids

theorem fire (h : Kept (⟨id, d, some n, false⟩ :: heap) log) : Kept heap (.fired n :: log) := by
  refine (h.retire (.fired n :: log) (fun m i e => ?_)
    fun m i e => List.mem_cons_of_mem _).drop rfl
  unfold Pending
  simp only [List.mem_cons, reduceCtorEq, false_or, Entry.fired.injEq, not_or]
  tauto

theorem cancel {pre post : List (Timer ℕ)}
    (h : Kept (pre ++ ⟨id, d, some n, false⟩ :: post) log) :
    Kept (pre ++ ⟨id, d, none, true⟩ :: post) (.cancelled id (some n) :: log) := by
  refine ((h.perm List.perm_middle).retire (.cancelled id (some n) :: log)
    (fun m i e => ?_) fun m i e => List.mem_cons_of_mem _).perm List.perm_middle.symm
  unfold Pending
  simp only [List.mem_cons, reduceCtorEq, false_or, Entry.cancelled.injEq, Option.some.injEq,
    not_or, not_and]
  constructor
  · rintro ⟨hs, hf, hc⟩
    exact ⟨⟨hs, hf, fun i => (hc i).2⟩, (hc id).1 rfl⟩
  · rintro ⟨⟨hs, hf, hc⟩, hne⟩
    exact ⟨hs, hf, fun i => ⟨fun _ => hne, hc i⟩⟩

end Kept

/-- `Cancel` finds no timer with the id, or marks the first. -/
theorem cancel_cases (tm : TimerManager ℕ) (id : UInt64) :
    ((tm.cancel id).heap = tm.heap ∧ released tm id = none ∧ ∀ t ∈ tm.heap, t.id ≠ id) ∨
    ∃ pre t post, tm.heap = pre ++ t :: post ∧ t.id = id ∧ released tm id = t.callback ∧
      (tm.cancel id).heap = pre ++ { t with cancelled := true, callback := none } :: post := by
  have hgo : ∀ heap : List (Timer ℕ),
      (TimerManager.cancel.go id heap = heap ∧ heap.find? (·.id = id) = none) ∨
      ∃ pre t post, heap = pre ++ t :: post ∧ t.id = id ∧ heap.find? (·.id = id) = some t ∧
        TimerManager.cancel.go id heap =
          pre ++ { t with cancelled := true, callback := none } :: post := by
    intro heap
    induction heap with
    | nil => exact .inl ⟨rfl, rfl⟩
    | cons t ts ih =>
      by_cases ht : t.id = id
      · refine .inr ⟨[], t, ts, rfl, ht, ?_, ?_⟩
        · rw [List.find?_cons_of_pos (by simpa using ht)]
        · rw [TimerManager.cancel.go, if_pos ht]
          rfl
      · rw [List.find?_cons_of_neg (by simpa using ht), TimerManager.cancel.go, if_neg ht]
        rcases ih with ⟨hheap, hnone⟩ | ⟨pre, u, post, hts, hu, hfind, hheap⟩
        · exact .inl ⟨by rw [hheap], hnone⟩
        · exact .inr ⟨t :: pre, u, post, by rw [hts]; rfl, hu, hfind, by rw [hheap]; rfl⟩
  unfold released TimerManager.cancel
  rcases hgo tm.heap with ⟨hheap, hnone⟩ | ⟨pre, t, post, hts, ht, hfind, hheap⟩
  · refine .inl ⟨hheap, by rw [hnone]; rfl, fun t ht => ?_⟩
    simpa using List.find?_eq_none.1 hnone t ht
  · exact .inr ⟨pre, t, post, hts, ht, by rw [hfind]; rfl, hheap⟩

variable (std : StdHeap (Timer.deadline (α := ℕ)))

/-- `CleanCancelled` only takes cancelled timers off. -/
theorem cleaned_spec : ∀ (fuel : ℕ) {heap : List (Timer ℕ)},
    IsHeap (heap.map Timer.deadline) → Kept heap log →
    IsHeap ((cleaned std fuel heap).map Timer.deadline) ∧ Kept (cleaned std fuel heap) log
  | 0, _, hh, hk => ⟨hh, hk⟩
  | _ + 1, [], hh, hk => ⟨hh, hk⟩
  | fuel + 1, t :: ts, hh, hk => by
    unfold cleaned
    split_ifs with ht
    · obtain ⟨hperm, hheap⟩ := std.popped_cons hh
      exact cleaned_spec fuel hheap ((hk.drop ht).perm hperm.symm)
    · exact ⟨hh, hk⟩

/-- The fuel is enough: after `CleanCancelled` no cancelled timer is at the front. -/
theorem cleaned_front : ∀ (fuel : ℕ) {heap : List (Timer ℕ)}, heap.length ≤ fuel →
    IsHeap (heap.map Timer.deadline) → ∀ t ∈ (cleaned std fuel heap).head?, t.cancelled = false
  | 0, heap, hlen, _, t, ht => by
    obtain rfl := List.eq_nil_of_length_eq_zero (Nat.le_zero.1 hlen)
    cases ht
  | _ + 1, [], _, _, t, ht => by cases ht
  | fuel + 1, t :: ts, hlen, hh, u, hu => by
    unfold cleaned at hu
    split_ifs at hu with ht
    · obtain ⟨hperm, hheap⟩ := std.popped_cons hh
      refine cleaned_front fuel ?_ hheap u hu
      rw [hperm.length_eq]
      exact Nat.le_of_succ_le_succ hlen
    · obtain rfl := Option.some.inj hu
      simpa using ht

/-- `Tick` stops where no timer is due, or takes off one that is, and none is due earlier. -/
theorem popDue_cases {tm : TimerManager ℕ} (now : ℤ) (hh : IsHeap (tm.heap.map Timer.deadline)) :
    (popDue std tm now = none ∧ ∀ t ∈ tm.heap, now < t.deadline) ∨
    ∃ t ts heap, popDue std tm now = some (t, { tm with heap }) ∧ tm.heap = t :: ts ∧
      t.deadline ≤ now ∧ (∀ u ∈ tm.heap, t.deadline ≤ u.deadline) ∧ heap.Perm ts ∧
      IsHeap (heap.map Timer.deadline) := by
  unfold popDue
  rcases hheap : tm.heap with _ | ⟨t, ts⟩
  · exact .inl ⟨rfl, by simp⟩
  rw [hheap] at hh
  have hle : ∀ u ∈ t :: ts, t.deadline ≤ u.deadline := fun u hu =>
    IsHeap.le hh _ (List.mem_map_of_mem hu)
  dsimp only
  split_ifs with ht
  · obtain ⟨hperm, hheap'⟩ := std.popped_cons (a := { t with callback := none }) (l := ts) hh
    exact .inr ⟨t, ts, _, rfl, rfl, ht, hle, hperm, hheap'⟩
  · exact .inl ⟨rfl, fun u hu => (not_le.1 ht).trans_le (hle u hu)⟩

/-! ## Every step -/

/-- The deadline is a time of the clock. -/
def FitsClock (_ : Timers) : Event → Prop
  | .schedule now delayMs =>
    -2 ^ 63 ≤ now + delayMs * 1000000 ∧ now + delayMs * 1000000 < 2 ^ 63
  | _ => True

/-- The id was not given before. -/
def NewId (s : Timers) : Event → Prop
  | .schedule .. => s.calls < 2 ^ 64
  | _ => True

def Bounded (s : Timers) (e : Event) : Prop := FitsClock s e ∧ NewId s e

instance (s : Timers) : ∀ e, Decidable (FitsClock s e)
  | .schedule .. => inferInstanceAs (Decidable (_ ∧ _))
  | .cancel _ | .tick _ | .resume => .isTrue trivial

instance (s : Timers) : ∀ e, Decidable (NewId s e)
  | .schedule .. => inferInstanceAs (Decidable (_ < _))
  | .cancel _ | .tick _ | .resume => .isTrue trivial

instance (s : Timers) (e : Event) : Decidable (Bounded s e) := inferInstanceAs (Decidable (_ ∧ _))

/-- Within the clock's range nothing wraps. -/
theorem deadline_eq {now delayMs : ℤ} (hlow : -2 ^ 63 ≤ now + delayMs * 1000000)
    (hhigh : now + delayMs * 1000000 < 2 ^ 63) : deadline now delayMs = now + delayMs * 1000000 :=
  Int.bmod_eq_of_le (by omega) (by omega)

structure Inv (s : Timers) : Prop where
  heap : IsHeap (s.tm.heap.map Timer.deadline)
  kept : Kept s.tm.heap s.log
  nextId : s.tm.nextId = UInt64.ofNat (s.calls + 1)
  numbered : ∀ n id d, .scheduled n id d ∈ s.log → n < s.calls
  tick : underway s.log = s.tick.map fun t => (t.now, if t.running then t.fired + 1 else t.fired)
  lawful : Lawful s.log

variable {s s' : Timers}

theorem Inv.new_id (hs : Inv s) (hnew : s.calls < 2 ^ 64) (m : ℕ) (e : ℤ) :
    .scheduled m s.tm.nextId e ∉ s.log := by
  intro hin
  have hlt := hs.numbered m s.tm.nextId e hin
  have hid := congrArg UInt64.toNat (hs.nextId.symm.trans (id_of_lawful hs.lawful hin))
  rw [UInt64.toNat_ofNat', UInt64.toNat_ofNat'] at hid
  omega

theorem inv_schedule {now delayMs : ℤ} (hs : Inv s) (hok : Bounded s (.schedule now delayMs))
    (h : step std s (.schedule now delayMs) = some s') : Inv s' := by
  obtain ⟨⟨hlow, hhigh⟩, hnew⟩ := hok
  simp only [step, schedule, deadline_eq hlow hhigh] at h
  split_ifs at h
  obtain rfl := Option.some.inj h
  have hfresh : ∀ i e, .scheduled s.calls i e ∉ s.log := fun i e hin =>
    Nat.lt_irrefl _ (hs.numbered _ i e hin)
  refine ⟨std.pushHeap_heap _ _ hs.heap, ?_, ?_, fun n id d hin => ?_, hs.tick, hs.lawful, ?_,
    hfresh⟩
  · exact (hs.kept.schedule hs.lawful hfresh (hs.new_id hnew)).perm (std.pushHeap_perm _).symm
  · show s.tm.nextId + 1 = _
    rw [hs.nextId, UInt64.ofNat_add (s.calls + 1) 1]
    rfl
  · rcases List.mem_cons.1 hin with heq | hin
    · obtain rfl := (Entry.scheduled.inj heq).1
      exact Nat.lt_succ_self _
    · exact Nat.lt_succ_of_lt (hs.numbered _ _ _ hin)
  · exact hs.nextId

theorem inv_cancel {id : UInt64} (hs : Inv s) (h : step std s (.cancel id) = some s') : Inv s' := by
  simp only [step] at h
  split_ifs at h
  obtain rfl := Option.some.inj h
  have hnumbered : ∀ n i d, .scheduled n i d ∈ .cancelled id (released s.tm id) :: s.log →
      n < s.calls := fun n i d hin => hs.numbered n i d (by simpa using hin)
  have hkept : ∀ {heap}, Kept heap s.log → Kept heap (.cancelled id none :: s.log) := fun hk =>
    hk.congr (fun n i d => by simp [Pending]) fun n i d => List.mem_cons_of_mem _
  rcases cancel_cases s.tm id with ⟨hheap, hhit, hnone⟩ | ⟨pre, t, post, hts, rfl, hhit, hheap⟩
  · refine ⟨?_, ?_, hs.nextId, hnumbered, hs.tick, hs.lawful, ?_, fun n d hn => ?_⟩
    · rw [hheap]
      exact hs.heap
    · rw [hheap, hhit]
      exact hkept hs.kept
    · simp [hhit]
    · exact absurd rfl (hnone _ ((hs.kept.pending n id d).1 hn))
  · have ht : t ∈ s.tm.heap := by simp [hts]
    have hdeadlines :
        (s.tm.cancel t.id).heap.map Timer.deadline = s.tm.heap.map Timer.deadline := by
      rw [hheap, hts, List.map_append, List.map_append]
      rfl
    rcases hcb : t.callback with _ | n
    · have hsame : (s.tm.cancel t.id).heap = s.tm.heap := by
        have hmarked := (hs.kept.marked t ht).1 hcb
        obtain ⟨i, d, callback, cancelled⟩ := t
        obtain rfl : callback = none := hcb
        obtain rfl : cancelled = true := hmarked
        rw [hheap, hts]
      refine ⟨hdeadlines ▸ hs.heap, ?_, hs.nextId, hnumbered, hs.tick, hs.lawful, ?_,
        fun n d hn => ?_⟩
      · rw [hsame, hhit, hcb]
        exact hkept hs.kept
      · simp [hhit, hcb]
      · have heq := List.inj_on_of_nodup_map hs.kept.ids ((hs.kept.pending n t.id d).1 hn) ht rfl
        rw [← congrArg Timer.callback heq] at hcb
        cases hcb
    · have hpending := hs.kept.pending_of_callback ht hcb
      refine ⟨hdeadlines ▸ hs.heap, ?_, hs.nextId, hnumbered, hs.tick, hs.lawful, ?_,
        fun m d hm => ?_⟩
      · rw [hheap, hhit, hcb]
        have hcancelled : t.cancelled = false := by
          rw [← Bool.not_eq_true, ← hs.kept.marked t ht, hcb]
          exact Option.some_ne_none n
        obtain ⟨i, d, callback, cancelled⟩ := t
        obtain rfl : callback = some n := hcb
        obtain rfl : cancelled = false := hcancelled
        exact (hts ▸ hs.kept).cancel
      · intro m hm
        rw [hhit, hcb] at hm
        obtain rfl := Option.some.inj hm
        exact ⟨_, hpending⟩
      · have heq := List.inj_on_of_nodup_map hs.kept.ids ((hs.kept.pending m t.id d).1 hm) ht rfl
        rw [hhit, ← congrArg Timer.callback heq]

theorem inv_tick {now : ℤ} (hs : Inv s) (h : step std s (.tick now) = some s') : Inv s' := by
  simp only [step] at h
  rcases htick : s.tick with _ | t
  · rw [htick] at h
    obtain rfl := Option.some.inj h
    obtain ⟨hheap, hkept⟩ := cleaned_spec std s.tm.heap.length hs.heap hs.kept
    have hidle : underway s.log = none := by rw [hs.tick, htick]; rfl
    exact ⟨hheap, hkept.congr (fun n i d => by simp [Pending])
      fun n i d => List.mem_cons_of_mem _, hs.nextId,
      fun n i d hin => hs.numbered n i d (by simpa using hin), rfl, hs.lawful, hidle⟩
  · rw [htick] at h
    cases h

theorem inv_resume (hs : Inv s) (h : step std s .resume = some s') : Inv s' := by
  obtain ⟨t, htick, rfl⟩ := Option.map_eq_some_iff.1 h
  have hunder : underway s.log = some (t.now, if t.running then t.fired + 1 else t.fired) := by
    rw [hs.tick, htick]
    rfl
  unfold resume
  generalize (if t.running then t.fired + 1 else t.fired) = k at hunder
  rcases popDue_cases std t.now hs.heap with
    ⟨hpop, hlate⟩ | ⟨u, us, heap, hpop, hts, hdue, hle, hperm, hheap⟩
  · rw [hpop]
    refine ⟨hs.heap, hs.kept.congr (fun n i d => by simp [Pending])
      fun n i d => List.mem_cons_of_mem _, hs.nextId,
      fun n i d hin => hs.numbered n i d (by simpa using hin), rfl, hs.lawful, t.now, hunder, ?_⟩
    intro m i d hm
    exact hlate _ ((hs.kept.pending m i d).1 hm)
  · rw [hpop]
    have hu : u ∈ s.tm.heap := hts ▸ List.mem_cons_self
    have hkept := hts ▸ hs.kept
    rcases hcancelled : u.cancelled with _ | _
    · rcases hcb : u.callback with _ | n
      · have := (hs.kept.marked u hu).1 hcb
        rw [hcancelled] at this
        cases this
      · have hpending := hs.kept.pending_of_callback hu hcb
        have hfire : Kept heap (.fired n :: s.log) := by
          obtain ⟨i, d, callback, cancelled⟩ := u
          obtain rfl : callback = some n := hcb
          obtain rfl : cancelled = false := hcancelled
          exact hkept.fire.perm hperm.symm
        simp only [hcancelled, hcb, Bool.false_eq_true, ↓reduceIte]
        refine ⟨hheap, hfire, hs.nextId, fun n i d hin => hs.numbered n i d (by simpa using hin),
          ?_, hs.lawful, t.now, k, u.id, u.deadline, hunder, hpending, hdue, fun m i e hm => ?_⟩
        · rw [underway, hunder]
          rfl
        · exact hle _ ((hs.kept.pending m i e).1 hm)
    · simp only [hcancelled, ↓reduceIte]
      refine ⟨hheap, (hkept.drop hcancelled).perm hperm.symm, hs.nextId, hs.numbered, ?_, hs.lawful⟩
      rw [hunder]
      rfl

theorem inv_step {e : Event} (hs : Inv s) (hok : Bounded s e) (h : step std s e = some s') :
    Inv s' := by
  cases e with
  | schedule now delayMs => exact inv_schedule std hs hok h
  | cancel timerId => exact inv_cancel std hs h
  | tick now => exact inv_tick std hs h
  | resume => exact inv_resume std hs h

/-- In every run whose deadlines fit the clock and which gives no id twice, with callbacks that
schedule and cancel, the timer queue does what it should. -/
theorem timers_lawful (h : Reach (step std) Bounded {} s) : Lawful s.log := by
  refine (h.invariant (P := Inv) ?_ fun s e s' hs hok he => inv_step std hs hok he).lawful
  refine ⟨isHeap_nil, ⟨by simp, ?_, .nil, by simp, .nil⟩, rfl, by simp, rfl, trivial⟩
  simp [Pending]

/-- Two timers, the later one cancelled by the earlier one's callback, which schedules a third one
that is due in the same `Tick`. -/
theorem timers_lawful_two : ∃ s : Timers, s.log = [.ticked 2, .fired 2, .cancelled 2 (some 1),
      .scheduled 2 3 9000000, .fired 0, .ticking 9000000, .scheduled 1 2 8000000,
      .scheduled 0 1 5000000] ∧ Lawful s.log := by
  have hrun : ([.schedule 0 5, .schedule 0 8, .tick 9000000, .resume, .schedule 9000000 0,
      .cancel 2, .resume, .resume, .resume].foldlM (fun s e => if Bounded s e then
        step (.sorting _) s e else none) {}).map Timers.log = some [.ticked 2, .fired 2,
      .cancelled 2 (some 1), .scheduled 2 3 9000000, .fired 0, .ticking 9000000,
      .scheduled 1 2 8000000, .scheduled 0 1 5000000] := by
    decide +kernel
  obtain ⟨s, hs, hlog⟩ := Option.map_eq_some_iff.1 hrun
  exact ⟨s, hlog, timers_lawful (.sorting _) (Reach.of_foldlM _ hs)⟩

/-- Any number of timers can be pending. -/
theorem reach_scheduled : ∀ n : ℕ, ∃ s, Reach (step std) FitsClock {} s ∧ s.calls = n ∧
    s.tick = none ∧ s.tm.nextId = UInt64.ofNat (n + 1) ∧
    (∀ m, .fired m ∉ s.log ∧ ∀ i, .cancelled i (some m) ∉ s.log) ∧
    ∀ m < n, .scheduled m (UInt64.ofNat (m + 1)) 1000000 ∈ s.log
  | 0 => ⟨{}, .start, rfl, rfl, rfl, by simp, fun _ hm => absurd hm (Nat.not_lt_zero _)⟩
  | n + 1 => by
    obtain ⟨s, hs, hcalls, htick, hid, hnone, hall⟩ := reach_scheduled n
    have hfree : s.free = true := by
      unfold Timers.free
      rw [htick]
    have hstep : step std s (.schedule 0 1) = some { s with
        tm := (schedule std s.tm 0 1 (some s.calls)).1, calls := s.calls + 1
        log := .scheduled s.calls s.tm.nextId 1000000 :: s.log } := if_pos hfree
    refine ⟨_, .next (e := .schedule 0 1) hs ⟨by decide, by decide⟩ hstep, congrArg (· + 1) hcalls,
      htick, ?_, ?_, fun m hm => ?_⟩
    · show s.tm.nextId + 1 = _
      rw [hid, UInt64.ofNat_add (n + 1) 1]
      rfl
    · simpa using hnone
    · rcases Nat.lt_succ_iff_lt_or_eq.1 hm with hm | rfl
      · exact List.mem_cons_of_mem _ (hall m hm)
      · rw [← hid, ← hcalls]
        exact List.mem_cons_self

/-- A delay of 9223372036855 ms is due at once, and after 2^64 more timers `Cancel` leaves one with
the id it was given. -/
theorem not_timers_lawful :
    (∃ s, Reach (step (.sorting _)) NewId {} s ∧ ¬Lawful s.log) ∧
      ∃ s, Reach (step (.sorting _)) FitsClock {} s ∧ ¬Lawful s.log := by
  constructor
  · have hrun : ([.schedule 0 9223372036855, .tick 0, .resume].foldlM (fun s e =>
        if NewId s e then step (.sorting _) s e else none) {}).map Timers.log
          = some [.fired 0, .ticking 0, .scheduled 0 1 9223372036855000000] := by
      decide +kernel
    obtain ⟨s, hs, hlog⟩ := Option.map_eq_some_iff.1 hrun
    refine ⟨s, Reach.of_foldlM _ hs, fun hlawful => ?_⟩
    rw [hlog] at hlawful
    obtain ⟨-, now, k, id, d, hunder, ⟨hscheduled, -⟩, hdue, -⟩ := hlawful
    obtain ⟨rfl, -⟩ := Prod.mk.inj (Option.some.inj hunder)
    simp only [List.mem_cons, reduceCtorEq, List.not_mem_nil, or_false, false_or,
      Entry.scheduled.injEq] at hscheduled
    omega
  · obtain ⟨s, hs, -, htick, -, hnone, hall⟩ := reach_scheduled (.sorting _) (2 ^ 64 + 1)
    have hfree : s.free = true := by
      unfold Timers.free
      rw [htick]
    have hstep : step (.sorting _) s (.cancel 1) = some { s with
        tm := s.tm.cancel 1, log := .cancelled 1 (released s.tm 1) :: s.log } := if_pos hfree
    refine ⟨_, .next (e := .cancel 1) hs trivial hstep, fun hlawful => ?_⟩
    obtain ⟨-, -, hhit⟩ := hlawful
    have hfirst := hhit 0 1000000 ⟨hall 0 (by omega), hnone 0⟩
    have hlast := hhit (2 ^ 64) 1000000 ⟨hall (2 ^ 64) (by omega), hnone (2 ^ 64)⟩
    exact absurd (Option.some.inj (hfirst.symm.trans hlast)) (by decide)

/-! ## The list of timers

With heap operations that sort, the vector is the list `TimerManager` keeps. -/

section Sorting

variable {α : Type} {tm : TimerManager α}

def InOrder (tm : TimerManager α) : Prop := tm.heap.Pairwise fun t u => t.deadline ≤ u.deadline

/-- `push_heap` sorts a timer in behind those that are not later. -/
theorem pushHeap_sorting (t : Timer α) : ∀ {ts : List (Timer α)},
    ts.Pairwise (fun t u => t.deadline ≤ u.deadline) →
    (StdHeap.sorting Timer.deadline).pushHeap (ts ++ [t]) = TimerManager.pushHeap t ts
  | [], _ => rfl
  | u :: us, h => by
    obtain ⟨hu, hus⟩ := List.pairwise_cons.1 h
    have ih := pushHeap_sorting t hus
    unfold TimerManager.pushHeap
    split_ifs with hle
    · have hfirst : ∀ v ∈ us ++ [t], u.deadline ≤ v.deadline := by
        simp only [List.forall_mem_append, List.forall_mem_singleton]
        exact ⟨hu, hle⟩
      exact (List.insertionSort_cons_of_forall_rel _ hfirst).trans (congrArg (u :: ·) ih)
    · have hpush : TimerManager.pushHeap t us = t :: us := by
        rcases us with _ | ⟨v, us⟩
        · rfl
        · have := hu v List.mem_cons_self
          rw [TimerManager.pushHeap, if_neg (by omega)]
      have hinsert : us.orderedInsert (fun t u => t.deadline ≤ u.deadline) u = u :: us := by
        rcases us with _ | ⟨v, us⟩
        · rfl
        · exact List.orderedInsert_cons_of_le _ us (hu v List.mem_cons_self)
      show List.orderedInsert _ u ((StdHeap.sorting Timer.deadline).pushHeap (us ++ [t])) = _
      rw [ih, hpush, List.orderedInsert_of_not_le _ us hle, hinsert]

theorem schedule_sorting (h : InOrder tm) {now delayMs : ℤ}
    (hlow : -2 ^ 63 ≤ now + delayMs * 1000000) (hhigh : now + delayMs * 1000000 < 2 ^ 63)
    (callback : Option α) :
    schedule (.sorting _) tm now delayMs callback = tm.schedule now delayMs callback := by
  unfold schedule push TimerManager.schedule
  simp only [deadline_eq hlow hhigh, pushHeap_sorting _ h]

theorem popped_sorting {t : Timer α} {ts : List (Timer α)}
    (h : ts.Pairwise fun t u => t.deadline ≤ u.deadline) :
    (StdHeap.sorting Timer.deadline).popped (t :: ts) = ts := by
  unfold StdHeap.popped StdHeap.sorting
  rw [List.dropLast_concat, h.insertionSort_eq]

theorem popDue_sorting (h : InOrder tm) (now : ℤ) :
    popDue (.sorting _) tm now = tm.popDue now := by
  unfold popDue TimerManager.popDue
  unfold InOrder at h
  rcases hheap : tm.heap with _ | ⟨t, ts⟩
  · rfl
  · rw [hheap] at h
    dsimp only
    rw [popped_sorting (List.pairwise_cons.1 h).2]

theorem cleaned_sorting : ∀ {heap : List (Timer α)},
    heap.Pairwise (fun t u => t.deadline ≤ u.deadline) →
    cleaned (.sorting _) heap.length heap = heap.dropWhile (·.cancelled)
  | [], _ => rfl
  | t :: ts, h => by
    have hts := (List.pairwise_cons.1 h).2
    rw [List.length_cons, cleaned, popped_sorting hts, cleaned_sorting hts, List.dropWhile_cons]

theorem cleanCancelled_sorting (h : InOrder tm) :
    cleanCancelled (.sorting _) tm = tm.cleanCancelled := by
  unfold cleanCancelled TimerManager.cleanCancelled
  rw [cleaned_sorting h]

theorem InOrder.cancel (h : InOrder tm) (id : UInt64) : InOrder (tm.cancel id) := by
  have hgo : ∀ heap : List (Timer α),
      (TimerManager.cancel.go id heap).map Timer.deadline = heap.map Timer.deadline := by
    intro heap
    induction heap with
    | nil => rfl
    | cons t ts ih =>
      unfold TimerManager.cancel.go
      split_ifs
      · rfl
      · rw [List.map_cons, ih, List.map_cons]
  exact List.pairwise_map.1 (hgo tm.heap ▸ List.pairwise_map.2 h)

theorem InOrder.popDue {now : ℤ} {t : Timer α} {tm' : TimerManager α} (h : InOrder tm)
    (hpop : tm.popDue now = some (t, tm')) : InOrder tm' := by
  unfold TimerManager.popDue at hpop
  unfold InOrder at h
  rcases hheap : tm.heap with _ | ⟨u, us⟩
  · rw [hheap] at hpop
    cases hpop
  · rw [hheap] at h hpop
    dsimp only at hpop
    split_ifs at hpop
    obtain ⟨-, rfl⟩ := Prod.mk.inj (Option.some.inj hpop)
    exact (List.pairwise_cons.1 h).2

theorem inOrder_step {s s' : Timers} {e : Event} (h : InOrder s.tm)
    (he : step (.sorting _) s e = some s') : InOrder s'.tm := by
  cases e with
  | schedule now delayMs =>
    simp only [step] at he
    split_ifs at he
    obtain rfl := Option.some.inj he
    exact StdHeap.pairwise_insertionSort _ _
  | cancel timerId =>
    simp only [step] at he
    split_ifs at he
    obtain rfl := Option.some.inj he
    exact h.cancel timerId
  | tick now =>
    simp only [step, cleanCancelled_sorting h] at he
    split at he
    · cases he
    · obtain rfl := Option.some.inj he
      exact h.sublist (List.dropWhile_sublist _)
  | resume =>
    obtain ⟨t, -, rfl⟩ := Option.map_eq_some_iff.1 he
    unfold resume
    rw [popDue_sorting h]
    rcases hpop : s.tm.popDue t.now with _ | ⟨u, tm⟩
    · exact h
    · have htm := h.popDue hpop
      dsimp only
      split <;> exact htm

/-- In every state the vector is the list, and so are the operations on it. -/
theorem list_operations {s : Timers} (h : Reach (step (.sorting _)) anyEvent {} s) :
    InOrder s.tm ∧ cleanCancelled (.sorting _) s.tm = s.tm.cleanCancelled ∧
      (∀ now, popDue (.sorting _) s.tm now = s.tm.popDue now) ∧
      ∀ now delayMs callback, FitsClock s (.schedule now delayMs) →
        schedule (.sorting _) s.tm now delayMs callback = s.tm.schedule now delayMs callback := by
  have horder : InOrder s.tm := by
    refine h.invariant (P := fun s => InOrder s.tm) ?_ fun _ _ _ hs _ he => inOrder_step hs he
    exact List.Pairwise.nil
  exact ⟨horder, cleanCancelled_sorting horder, popDue_sorting horder,
    fun _ _ callback hfits => schedule_sorting horder hfits.1 hfits.2 callback⟩

end Sorting

end TimerHeap

end TinRpc
