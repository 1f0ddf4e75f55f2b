import Mathlib.Data.List.Count
import Mathlib.Data.UInt
import TinRpc.Lib.RingBuffer
import TinRpc.QpsCounter

/-!
# Where the requests are

The age of a request says where it is counted: a request without one is pending, one of age `a` is
in the bucket `a` places behind the head, and one as old as the ring is large is in the total. Ages
follow from the times of the calls alone (`Ages`), and with them the counter at any time
(`Accounts`).
-/

namespace TinRpc.Rpc.QpsCounter

open RingBuffer

/-- The requests so far by age, and the time of the last tick that moved the ring. -/
structure Ages where
  lastTick : ℤ
  requests : List (Option ℕ)

/-- A request is pending first; a tick that is not too early ages all that came before. -/
def Ages.apply (size : ℕ) (s : Ages) : Event → Ages
  | .recordRequest => { s with requests := none :: s.requests }
  | .tick now => match steps size s.lastTick now with
    | none => s
    | some k => ⟨now, s.requests.map fun age => some (age.elim 0 (· + k.toNat))⟩

/-- The ages of the requests among some calls on a new counter. -/
def ages (size : ℕ) (start : ℤ) (events : List Event) : Ages :=
  events.foldl (Ages.apply size) ⟨start, []⟩

/-- The request has left the ring. -/
def expired (size : ℕ) (age : Option ℕ) : Bool := age.any fun a => size ≤ a

/-- The ages after a turn of the ring. -/
def older (ages : List (Option ℕ)) : List (Option ℕ) := ages.map (Option.map Nat.succ)

/-- The ages after the pending requests are put into the ring. -/
def filled (ages : List (Option ℕ)) : List (Option ℕ) := ages.map fun age => some (age.getD 0)

variable {n a : ℕ}

theorem filled_older (k : ℕ) (ages : List (Option ℕ)) :
    filled (older^[k] ages) = ages.map fun age => some (age.elim 0 (· + k)) := by
  induction k generalizing ages with
  | zero => exact List.map_congr_left fun age _ => by cases age <;> rfl
  | succ k ih =>
    rw [Function.iterate_succ_apply, ih, older, List.map_map]
    refine List.map_congr_left fun age _ => ?_
    cases age with
    | none => rfl
    | some a => exact congrArg some (Nat.succ_add_eq_add_succ a k)

theorem count_older_none (ages : List (Option ℕ)) : (older ages).count none = ages.count none :=
  List.count_map_of_injective ages _ (Option.map_injective Nat.succ_injective) none

theorem count_older_zero (ages : List (Option ℕ)) : (older ages).count (some 0) = 0 := by
  rw [List.count_eq_zero]
  intro h
  obtain ⟨age, -, hage⟩ := List.mem_map.1 h
  cases age <;> simp at hage

theorem count_older_succ (ages : List (Option ℕ)) (a : ℕ) :
    (older ages).count (some (a + 1)) = ages.count (some a) :=
  List.count_map_of_injective ages _ (Option.map_injective Nat.succ_injective) (some a)

/-- The requests that a turn takes out of the ring are those furthest behind. -/
theorem countP_older (hn : 0 < n) (ages : List (Option ℕ)) :
    (older ages).countP (expired n) = ages.countP (expired n) + ages.count (some (n - 1)) := by
  induction ages with
  | nil => rfl
  | cons age ages ih =>
    rw [older, List.map_cons, List.countP_cons, ← older, ih, List.countP_cons, List.count_cons]
    cases age with
    | none => simp [expired]
    | some b =>
      simp only [expired, Option.map_some, Option.any_some, decide_eq_true_eq, beq_iff_eq,
        Option.some.injEq]
      split_ifs <;> omega

theorem count_filled_none (ages : List (Option ℕ)) : (filled ages).count none = 0 := by
  rw [List.count_eq_zero]
  intro h
  obtain ⟨age, -, hage⟩ := List.mem_map.1 h
  cases hage

theorem count_filled_some (ages : List (Option ℕ)) (a : ℕ) : (filled ages).count (some a)
    = ages.count (some a) + if a = 0 then ages.count none else 0 := by
  induction ages with
  | nil => simp [filled]
  | cons age ages ih =>
    rw [filled, List.map_cons, List.count_cons, ← filled, ih, List.count_cons, List.count_cons]
    cases age with
    | none =>
      simp only [Option.getD_none, beq_iff_eq, Option.some.injEq, reduceCtorEq, ↓reduceIte]
      split_ifs <;> omega
    | some b =>
      simp only [Option.getD_some, beq_iff_eq, reduceCtorEq, ↓reduceIte, Nat.add_zero]
      omega

theorem countP_filled (hn : 0 < n) (ages : List (Option ℕ)) :
    (filled ages).countP (expired n) = ages.countP (expired n) := by
  rw [filled, List.countP_map]
  refine List.countP_congr fun age _ => ?_
  cases age with
  | none => simp [expired, hn.ne']
  | some a => rfl

variable {c c' : QpsCounter}

/-- The requests the counter knows of. -/
def counted (c : QpsCounter) : UInt64 := c.totalRequests + c.buckets.sum + c.requestsSinceTick

theorem counted_advance (hc : c.bucketIdx < c.buckets.length) : c.advance.counted = c.counted := by
  have hsum := sum_set_add c.buckets 0 (next_lt hc)
  rw [add_zero, add_comm] at hsum
  show c.totalRequests + c.buckets.getD (next c.buckets.length c.bucketIdx) 0
    + (c.buckets.set (next c.buckets.length c.bucketIdx) 0).sum + c.requestsSinceTick = _
  rw [add_assoc c.totalRequests, hsum]
  rfl

theorem counted_fill (hc : c.fill = some c') : c'.counted = c.counted := by
  unfold fill at hc
  split at hc
  · cases hc
  rename_i count hcount
  obtain rfl := Option.some.inj hc
  obtain ⟨hlt, rfl⟩ := List.getElem?_eq_some_iff.1 hcount
  have hsum := sum_set_add c.buckets (c.buckets[c.bucketIdx] + c.requestsSinceTick) hlt
  rw [List.getD_eq_getElem?_getD, hcount, Option.getD_some, add_comm c.buckets[c.bucketIdx],
    ← add_assoc] at hsum
  show c.totalRequests + (c.buckets.set c.bucketIdx _).sum + 0 = c.totalRequests + _ + _
  rw [add_zero, add_comm c.buckets[c.bucketIdx], add_right_cancel hsum, add_assoc]

/-- The counter holds the requests where their ages say. -/
structure Accounts (n : ℕ) (s : Ages) (c : QpsCounter) : Prop where
  size : c.buckets.length = n
  head : c.bucketIdx < max n 1
  lastTick : c.lastTick = s.lastTick
  pending : c.requestsSinceTick = UInt64.ofNat (s.requests.count none)
  ring : ∀ a < n, cell c.buckets c.bucketIdx a = UInt64.ofNat (s.requests.count (some a))
  total : c.totalRequests = UInt64.ofNat (s.requests.countP (expired n))
  counted : c.counted = UInt64.ofNat s.requests.length

variable {s : Ages}

theorem Accounts.start (windowSec : UInt64) (start : ℤ) :
    Accounts (windowSec * 10).toNat ⟨start, []⟩ (new windowSec start) where
  size := List.length_replicate
  head := by
    show 0 < max _ 1
    omega
  lastTick := rfl
  pending := rfl
  ring a _ := by
    show List.getD (List.replicate _ 0) _ 0 = 0
    rw [List.getD_eq_getElem?_getD, List.getElem?_replicate]
    split_ifs <;> rfl
  total := rfl
  counted := by
    show (0 : UInt64) + (List.replicate _ 0).sum + 0 = 0
    rw [List.sum_replicate, nsmul_zero, add_zero, add_zero]

theorem Accounts.recordRequest (h : Accounts n s c) :
    Accounts n (s.apply n .recordRequest) c.recordRequest where
  size := h.size
  head := h.head
  lastTick := h.lastTick
  pending := by
    show c.requestsSinceTick + 1 = UInt64.ofNat (List.count none (none :: s.requests))
    rw [List.count_cons_self, UInt64.ofNat_add, h.pending]
    rfl
  ring a ha := by
    show cell c.buckets c.bucketIdx a = UInt64.ofNat (List.count (some a) (none :: s.requests))
    rw [List.count_cons_of_ne (by simp), h.ring a ha]
  total := by
    show c.totalRequests = UInt64.ofNat (List.countP (expired n) (none :: s.requests))
    rw [List.countP_cons_of_neg (by simp [expired]), h.total]
  counted := by
    show c.totalRequests + c.buckets.sum + (c.requestsSinceTick + 1) = _
    rw [← add_assoc]
    exact (congrArg (· + 1) h.counted).trans (UInt64.ofNat_add _ 1).symm

theorem Accounts.advance (hn : 0 < n) (h : Accounts n s c) :
    Accounts n ⟨s.lastTick, older s.requests⟩ c.advance := by
  have hhead : c.bucketIdx < c.buckets.length := by
    have := h.head
    have := h.size
    omega
  refine ⟨?_, ?_, h.lastTick, ?_, fun a ha => ?_, ?_, ?_⟩
  · show (c.buckets.set _ 0).length = n
    rw [List.length_set, h.size]
  · show next c.buckets.length c.bucketIdx < _
    have := next_lt hhead
    have := h.size
    omega
  · show c.requestsSinceTick = _
    rw [count_older_none, h.pending]
  · refine (cell_turn hhead (h.size ▸ ha)).trans ?_
    cases a with
    | zero => rw [if_pos rfl, count_older_zero]; rfl
    | succ a =>
      rw [if_neg a.succ_ne_zero, Nat.add_sub_cancel, h.ring a (by omega), count_older_succ]
  · show c.totalRequests + c.buckets.getD (next c.buckets.length c.bucketIdx) 0 = _
    rw [getD_next hhead, h.size, h.ring _ (by omega), h.total, countP_older hn, UInt64.ofNat_add]
  · rw [counted_advance hhead, h.counted, older, List.length_map]

theorem Accounts.iterate (hn : 0 < n) (k : ℕ) (h : Accounts n s c) :
    Accounts n ⟨s.lastTick, older^[k] s.requests⟩ (QpsCounter.advance^[k] c) := by
  induction k with
  | zero => exact h
  | succ k ih =>
    rw [Function.iterate_succ_apply', Function.iterate_succ_apply']
    exact ih.advance hn

theorem Accounts.fill (hn : 0 < n) (h : Accounts n s c) (hc : c.fill = some c') :
    Accounts n ⟨s.lastTick, filled s.requests⟩ c' := by
  have hhead : c.bucketIdx < c.buckets.length := by
    have := h.head
    have := h.size
    omega
  have hzero : c.buckets[c.bucketIdx] = UInt64.ofNat (s.requests.count (some 0)) := by
    rw [← h.ring 0 hn, cell, behind_zero, List.getD_eq_getElem?_getD,
      List.getElem?_eq_getElem hhead]
    rfl
  have hcounted := (counted_fill hc).trans h.counted
  unfold QpsCounter.fill at hc
  rw [List.getElem?_eq_getElem hhead] at hc
  obtain rfl := Option.some.inj hc
  refine ⟨List.length_set.trans h.size, h.head, h.lastTick, ?_, fun a ha => ?_, ?_, ?_⟩
  · rw [count_filled_none]
    rfl
  · refine (cell_set hhead (h.size ▸ ha)).trans ?_
    rw [count_filled_some]
    split_ifs with h₀
    · rw [hzero, h.pending, h₀, UInt64.ofNat_add]
    · exact h.ring a ha
  · rw [countP_filled hn]
    exact h.total
  · rw [hcounted, filled, List.length_map]

theorem iterate_advance_length (k : ℕ) (c : QpsCounter) :
    (advance^[k] c).buckets.length = c.buckets.length := by
  induction k with
  | zero => rfl
  | succ k ih =>
    rw [Function.iterate_succ_apply']
    exact List.length_set.trans ih

/-- The ring does not depend on the time of the last tick. -/
theorem Accounts.read (h : Accounts n s c) (now : ℤ) :
    Accounts n ⟨now, s.requests⟩ { c with lastTick := now } :=
  ⟨h.size, h.head, rfl, h.pending, h.ring, h.total, h.counted⟩

theorem Accounts.tick {now : ℤ} (h : Accounts n s c) (hc : c.tick now = some c') :
    Accounts n (s.apply n (.tick now)) c' := by
  unfold QpsCounter.tick at hc
  rw [h.size, h.lastTick] at hc
  simp only [Ages.apply]
  rcases hk : steps n s.lastTick now with _ | k
  · rw [hk] at hc
    obtain rfl := Option.some.inj hc
    exact h
  rw [hk] at hc
  simp only [] at hc ⊢
  rcases Nat.eq_zero_or_pos n with rfl | hn
  · have hnil : (QpsCounter.advance^[k.toNat] { c with lastTick := now }).buckets = [] :=
      List.eq_nil_of_length_eq_zero ((iterate_advance_length _ _).trans h.size)
    unfold QpsCounter.fill at hc
    rw [hnil] at hc
    cases hc
  · rw [← filled_older]
    exact ((h.read now).iterate hn k.toNat).fill hn hc

theorem Accounts.apply {event : Event} (h : Accounts n s c) (hc : c.apply event = some c') :
    Accounts n (s.apply n event) c' := by
  cases event with
  | recordRequest =>
    obtain rfl := Option.some.inj hc
    exact h.recordRequest
  | tick now => exact h.tick hc

/-- With a bucket to put the pending requests in, a call does not fail. -/
theorem Accounts.apply_eq_some (hn : 0 < n) (h : Accounts n s c) (event : Event) :
    ∃ c', c.apply event = some c' := by
  cases event with
  | recordRequest => exact ⟨_, rfl⟩
  | tick now =>
    show ∃ c', c.tick now = some c'
    unfold QpsCounter.tick
    split
    · exact ⟨_, rfl⟩
    · rename_i k _
      have hturned := (h.read now).iterate hn k.toNat
      have hhead := hturned.head
      have hsize := hturned.size
      unfold QpsCounter.fill
      rw [List.getElem?_eq_getElem (by omega)]
      exact ⟨_, rfl⟩

theorem Accounts.foldlM : ∀ {events : List Event} {s : Ages} {c : QpsCounter}, Accounts n s c →
    events.foldlM QpsCounter.apply c = some c' → Accounts n (events.foldl (Ages.apply n) s) c'
  | [], s, c, h, hc => Option.some.inj hc ▸ h
  | event :: events, s, c, h, hc => by
    rw [List.foldlM_cons, Option.bind_eq_bind, Option.bind_eq_some_iff] at hc
    obtain ⟨c₁, hc₁, hc⟩ := hc
    exact (h.apply hc₁).foldlM hc

theorem Accounts.isSome_foldlM (hn : 0 < n) : ∀ {events : List Event} {s : Ages} {c : QpsCounter},
    Accounts n s c → (events.foldlM QpsCounter.apply c).isSome
  | [], s, c, _ => rfl
  | event :: events, s, c, h => by
    obtain ⟨c₁, hc₁⟩ := h.apply_eq_some hn event
    rw [List.foldlM_cons, hc₁]
    exact isSome_foldlM hn (h.apply hc₁)

theorem length_ages (size : ℕ) (events : List Event) : ∀ s : Ages,
    (events.foldl (Ages.apply size) s).requests.length = s.requests.length + requests events := by
  induction events with
  | nil => exact fun _ => rfl
  | cons event events ih =>
    intro s
    rw [List.foldl_cons, ih, requests, requests, List.count_cons]
    cases event with
    | recordRequest =>
      show (none :: s.requests).length + _ = _
      rw [List.length_cons, if_pos (by rfl)]
      omega
    | tick now =>
      have hlength : (s.apply size (.tick now)).requests.length = s.requests.length := by
        simp only [Ages.apply]
        split
        · rfl
        · exact List.length_map _
      rw [hlength, if_neg (by simp)]
      omega

/-- In every run on a counter that has buckets each request is counted once, as pending, in a bucket
or in the total. The total is the number of requests exactly when all of them have left the
ring. -/
theorem total_iff_expired (windowSec : UInt64) (start : ℤ) (events : List Event) :
    ((windowSec * 10).toNat ≠ 0 → (run windowSec start events).isSome)
      ∧ ∀ c ∈ run windowSec start events,
        c.totalRequests + c.buckets.sum + c.requestsSinceTick = UInt64.ofNat (requests events)
          ∧ (c.totalRequests.toNat = requests events ↔ requests events < 2 ^ 64
            ∧ ∀ age ∈ (ages (windowSec * 10).toNat start events).requests,
              expired (windowSec * 10).toNat age) := by
  have hstart := Accounts.start windowSec start
  refine ⟨fun hn => hstart.isSome_foldlM (Nat.pos_of_ne_zero hn), fun c hc => ?_⟩
  have h : Accounts _ (ages _ start events) c := hstart.foldlM hc
  have hlength : (ages (windowSec * 10).toNat start events).requests.length = requests events :=
    (length_ages _ events ⟨start, []⟩).trans (Nat.zero_add _)
  refine ⟨hlength ▸ h.counted, ?_⟩
  rw [h.total, UInt64.toNat_ofNat', ← hlength, ← List.countP_eq_length]
  have hle := List.countP_le_length (p := expired (windowSec * 10).toNat)
    (l := (ages (windowSec * 10).toNat start events).requests)
  constructor
  · intro he
    have hlt := Nat.mod_lt ((ages (windowSec * 10).toNat start events).requests.countP
      (expired (windowSec * 10).toNat)) (show 0 < 2 ^ 64 by decide)
    have hmod := Nat.mod_le ((ages (windowSec * 10).toNat start events).requests.countP
      (expired (windowSec * 10).toNat)) (2 ^ 64)
    omega
  · rintro ⟨hlt, he⟩
    rw [he, Nat.mod_eq_of_lt hlt]

/-- A request enters the ring of one second, and a tick more than a second later counts it. -/
theorem total_iff_expired_one : ∃ c ∈ run 1 0 [.recordRequest, .tick 100000000, .tick 1200000000],
    c.totalRequests.toNat = 1 :=
  have hc := Option.get_mem (o := run 1 0 [.recordRequest, .tick 100000000, .tick 1200000000])
    ((total_iff_expired 1 0 _).1 (by decide))
  ⟨_, hc, ((total_iff_expired 1 0 _).2 _ hc).2.2 ⟨by decide, by decide⟩⟩

/-- A tick 100 ms after a request leaves the total at 0. -/
theorem total_late : ¬ ∀ (windowSec : UInt64) (start : ℤ) (events : List Event),
    ∀ c ∈ run windowSec start events, c.totalRequests.toNat = requests events := by
  intro h
  have hc : ∃ c, run 5 0 [.recordRequest, .tick 100000000] = some c ∧ c.totalRequests = 0 := by
    rw [← Option.map_eq_some_iff]
    decide
  obtain ⟨c, hc, htotal⟩ := hc
  have := h 5 0 _ c hc
  rw [htotal] at this
  exact absurd this (by decide)

end TinRpc.Rpc.QpsCounter
