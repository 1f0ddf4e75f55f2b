import Mathlib.Data.List.Basic
import Mathlib.Data.Int.Order.Basic
import Mathlib.Tactic.SplitIfs
import TinRpc.ProtoBridge

/-!
# What a message can do to a decoder

A decoder's loop goes forward within its body as long as every field is well behaved. Three kinds
are not (`Misread`): a value that cannot be skipped where the loop does not look at what
`_skip_value` says, a `fixed32` read without a look at what is left, and a length whose end wraps
around. From these the loop goes on outside of the body, and there it may go round for ever.
-/

namespace TinRpc.ProtoBridge

/-- Where a loop goes on after an iteration. -/
def Step.goesOn {R : Type} : Step R → Option ℤ
  | leave _ => none
  | value offset _ => some offset
  | nested offset _ _ _ => some offset

/-- While `m` is decoded from `body`, the loop of a message over a body comes to an offset. -/
inductive Visits (m : Message) (body : List UInt8) : Message → List UInt8 → ℤ → Prop
  | start : Visits m body m body 0
  | value {m' body' o o' set} : Visits m body m' body' o → o < body'.length →
    readField m' body' o = some (.value o' set) → Visits m body m' body' o'
  | nested {m' body' o o' m'' body'' set} : Visits m body m' body' o → o < body'.length →
    readField m' body' o = some (.nested o' m'' body'' set) → Visits m body m'' body'' 0
  | after {m' body' o o' m'' body'' set n result} : Visits m body m' body' o → o < body'.length →
    readField m' body' o = some (.nested o' m'' body'' set) →
    decode n m'' body'' = .returned result → Visits m body m' body' o'

/-- A value after which the loop goes on outside of the body. -/
def Misread (m : Message) (body : List UInt8) (field : FieldHeader) : Prop :=
  match branch m field.number field.wireType with
  | .varint _ => False
  | .bytes _ => Wraps body field.offset
  | .nested _ _ => Wraps body field.offset
  | .fixed32 guarded _ => guarded = false ∧ body.length < field.offset + 4
  | .last _ => False
  | .skip => breaksOnSkip m = false ∧
    ∃ stop, skipValue body field.offset field.wireType = some stop ∧ stop < 0
where
  Wraps (body : List UInt8) (offset : ℤ) : Prop :=
    ∃ length, readVarint body offset = some length ∧ length.ok = true ∧ 0 ≤ length.value ∧
      2 ^ 63 ≤ length.offset + length.value.toInt

/-- Decoding ends, and each iteration that goes on has moved forward within the body. -/
structure Ends (m : Message) (body : List UInt8) : Prop where
  ended : ∃ n, decode n m body ≠ .running
  forward : ∀ m' body' o step o', Visits m body m' body' o → o < body'.length →
    readField m' body' o = some step → step.goesOn = some o' → 0 ≤ o ∧ o < o' ∧ o' ≤ body'.length

variable {m m' : Message} {body body' : List UInt8} {offset : ℤ}

theorem byteAt_eq_some (h0 : 0 ≤ offset) (h : offset < body.length) :
    ∃ byte, byteAt body offset = some byte := by
  unfold byteAt
  rw [if_neg (not_lt.2 h0), if_neg (not_lt.2 h0)]
  exact ⟨_, List.getElem?_eq_getElem (by omega)⟩

theorem varintLoop_spec : ∀ (n shift : ℕ) (value : Int64) {offset : ℤ}, 0 ≤ offset →
    ∃ v, varintLoop body n shift value offset = some v ∧
      (v.ok = true → offset < v.offset ∧ v.offset ≤ body.length)
  | 0, _, _, _, _ => ⟨_, rfl, nofun⟩
  | n + 1, shift, value, offset, h0 => by
    unfold varintLoop
    split_ifs with hin
    · obtain ⟨byte, hbyte⟩ := byteAt_eq_some h0 hin.1
      rw [hbyte, Option.bind_some]
      simp only []
      split_ifs
      · exact ⟨_, rfl, fun _ => ⟨Int.lt_succ offset, hin.1⟩⟩
      · obtain ⟨v, hv, hforward⟩ := varintLoop_spec n (shift + 7)
          (value ||| Int64.ofNat ((byte &&& 0x7F).toNat <<< shift)) (by omega : 0 ≤ offset + 1)
        refine ⟨v, hv, fun hok => ?_⟩
        obtain ⟨h₁, h₂⟩ := hforward hok
        exact ⟨by omega, h₂⟩
    · exact ⟨_, rfl, nofun⟩

theorem readVarint_spec (h0 : 0 ≤ offset) : ∃ v, readVarint body offset = some v ∧
    (v.ok = true → offset < v.offset ∧ v.offset ≤ body.length) := varintLoop_spec 10 0 0 h0

theorem readFieldHeader_spec (h0 : 0 ≤ offset) : ∃ field, readFieldHeader body offset = some field ∧
    (field.ok = true → offset < field.offset ∧ field.offset ≤ body.length) := by
  obtain ⟨tag, htag, hforward⟩ := @readVarint_spec body _ h0
  unfold readFieldHeader
  rw [htag, Option.map_some]
  split_ifs with hbad
  · exact ⟨_, rfl, nofun⟩
  · exact ⟨_, rfl, fun _ => hforward (by simpa using fun h => hbad (.inl h))⟩

theorem stop_eq {start : ℤ} {length : Int64} (h0 : 0 ≤ start) (hsize : start < 2 ^ 63)
    (hl : 0 ≤ length) : (Int64.ofInt (start + length.toInt)).toInt =
      if start + length.toInt < 2 ^ 63 then start + length.toInt
      else start + length.toInt - 2 ^ 64 := by
  have hlow : 0 ≤ length.toInt := Int64.le_iff_toInt_le.1 hl
  have hhigh := Int64.toInt_lt length
  have hword : (Int64.size : ℤ) = 2 ^ 64 := rfl
  rw [Int64.toInt_ofInt, Int.bmod_def, hword, Int.emod_eq_of_lt (by omega) (by omega)]
  split_ifs <;> omega

theorem length_slice_lt {start stop : ℤ} (h0 : 0 < start) (h : start ≤ body.length) :
    (slice body start stop).length < body.length := by
  have hclamp : clampBound body start = start.toNat := by
    unfold clampBound
    rw [min_eq_left h, max_eq_right (by omega)]
    simp only []
    rw [if_neg (not_lt.2 (le_of_lt h0))]
  unfold slice
  rw [hclamp, List.length_drop, List.length_take]
  omega

/-- A length is read and its end is in the body, or it wraps around to before the body. -/
theorem readLengthDelimited_spec (h0 : 0 ≤ offset) (hsize : body.length < 2 ^ 63) :
    ∃ r, readLengthDelimited body offset = some r ∧
      (Misread.Wraps body offset → r.ok = true ∧ r.offset < 0) ∧
      (¬Misread.Wraps body offset → r.ok = true →
        offset < r.offset ∧ r.offset ≤ body.length ∧ r.value.length < body.length) := by
  obtain ⟨length, hlength, hforward⟩ := @readVarint_spec body _ h0
  unfold readLengthDelimited
  rw [hlength, Option.map_some]
  refine ⟨_, rfl, ?_, ?_⟩
  · rintro ⟨length', hlength', hok, hnonneg, hwraps⟩
    obtain rfl : length = length' := Option.some.inj (hlength.symm.trans hlength')
    obtain ⟨h₁, h₂⟩ := hforward hok
    have hhigh := Int64.toInt_lt length.value
    have hstop := @stop_eq length.offset _ (by omega) (by omega) hnonneg
    rw [if_neg (by omega)] at hstop
    rw [if_neg (by simp [hok, Int64.not_lt.2 hnonneg])]
    simp only []
    rw [hstop, if_neg (by omega)]
    exact ⟨rfl, show length.offset + length.value.toInt - 2 ^ 64 < 0 by omega⟩
  · intro hnot
    split_ifs with hbad
    · exact nofun
    · obtain ⟨hok, hnonneg⟩ := not_or.1 hbad
      have hok : length.ok = true := Bool.not_eq_false _ ▸ hok
      have hnonneg := Int64.not_lt.1 hnonneg
      obtain ⟨h₁, h₂⟩ := hforward hok
      have hfits : length.offset + length.value.toInt < 2 ^ 63 := by
        by_contra hwraps
        exact hnot ⟨length, hlength, hok, hnonneg, not_lt.1 hwraps⟩
      have hlow : 0 ≤ length.value.toInt := Int64.le_iff_toInt_le.1 hnonneg
      have hstop := @stop_eq length.offset _ (by omega) (by omega) hnonneg
      rw [if_pos hfits] at hstop
      simp only []
      rw [hstop]
      split_ifs with hlong
      · exact nofun
      · refine fun _ => ⟨?_, ?_, length_slice_lt (by omega) h₂⟩
        · show offset < length.offset + length.value.toInt
          omega
        · exact not_lt.1 hlong

/-! ## An iteration -/

theorem readField_eq (h0 : 0 ≤ offset) : ∃ field, readFieldHeader body offset = some field ∧
    (field.ok = false ∧ readField m body offset = some (.leave id) ∨
      field.ok = true ∧ readField m body offset = readValue m body field ∧
        offset < field.offset ∧ field.offset ≤ body.length) := by
  obtain ⟨field, hfield, hforward⟩ := @readFieldHeader_spec body _ h0
  refine ⟨field, hfield, ?_⟩
  unfold readField
  rw [hfield, Option.bind_some]
  cases hok : field.ok with
  | false => exact .inl ⟨rfl, rfl⟩
  | true => exact .inr ⟨rfl, rfl, hforward hok⟩

theorem skipValue_spec (h0 : 0 ≤ offset) (hsize : body.length < 2 ^ 63) (wireType : Int64) :
    ∃ stop, skipValue body offset wireType = some stop ∧
      (0 ≤ stop → offset < stop ∧ stop ≤ body.length) := by
  unfold skipValue
  split_ifs with hv hf hinside hl
  · obtain ⟨v, hv, hforward⟩ := @readVarint_spec body _ h0
    rw [hv, Option.map_some]
    refine ⟨_, rfl, fun hstop => ?_⟩
    split_ifs at hstop ⊢ with hok
    · exact hforward hok
    · omega
  · exact ⟨_, rfl, fun _ => ⟨by omega, hinside⟩⟩
  · exact ⟨_, rfl, by omega⟩
  · obtain ⟨r, hr, hwraps, hinside⟩ := readLengthDelimited_spec h0 hsize
    rw [hr, Option.map_some]
    refine ⟨_, rfl, fun hstop => ?_⟩
    split_ifs at hstop ⊢ with hok
    · by_cases hw : Misread.Wraps body offset
      · exact absurd hstop (not_le.2 (hwraps hw).2)
      · exact ⟨(hinside hw hok).1, (hinside hw hok).2.1⟩
    · omega
  · exact ⟨_, rfl, by omega⟩

/-- The loop goes on, if it does, behind an offset within the body, and what is nested is shorter.
-/
structure Step.Forward {R : Type} (step : Step R) (body : List UInt8) (offset : ℤ) : Prop where
  goesOn : ∀ o, step.goesOn = some o → offset < o ∧ o ≤ body.length
  shorter : ∀ o m' body' set, step = .nested o m' body' set → body'.length < body.length

section Forward

variable {R : Type} {o : ℤ}

theorem Step.forward_leave (set : R → R) : (leave set).Forward body offset := ⟨nofun, nofun⟩

theorem Step.forward_value (h : offset < o ∧ o ≤ body.length) (set : R → R) :
    (value o set).Forward body offset := by
  refine ⟨?_, nofun⟩
  rintro o' ⟨rfl⟩
  exact h

theorem Step.forward_nested (h : offset < o ∧ o ≤ body.length) (hshort : body'.length < body.length)
    (set : Result m' → R → R) : (nested o m' body' set).Forward body offset := by
  constructor
  · rintro o' ⟨rfl⟩
    exact h
  · rintro o' m'' body'' set' ⟨⟩
    exact hshort

end Forward

theorem readLengthDelimited_forward (h0 : 0 ≤ offset) (hsize : body.length < 2 ^ 63)
    (hgood : ¬Misread.Wraps body offset) : ∃ r, readLengthDelimited body offset = some r ∧
      (r.ok = true → (offset < r.offset ∧ r.offset ≤ body.length) ∧ r.value.length < body.length) := by
  obtain ⟨r, hr, -, hinside⟩ := readLengthDelimited_spec h0 hsize
  exact ⟨r, hr, fun hok => and_assoc.2 (hinside hgood hok)⟩

/-- Where no value is misread, an iteration goes on, if it does, forward. -/
theorem readValue_forward {field : FieldHeader} (h0 : 0 ≤ field.offset)
    (hsize : body.length < 2 ^ 63) (hgood : ¬Misread m body field) :
    ∃ step, readValue m body field = some step ∧ step.Forward body field.offset := by
  unfold readValue
  unfold Misread at hgood
  cases hb : branch m field.number field.wireType with
  | varint set =>
    obtain ⟨v, hv, hforward⟩ := @readVarint_spec body _ h0
    simp only [hv, Option.map_some]
    refine ⟨_, rfl, ?_⟩
    split_ifs with hok
    · exact Step.forward_value (hforward hok) _
    · exact Step.forward_leave id
  | bytes set =>
    obtain ⟨r, hr, hinside⟩ := readLengthDelimited_forward h0 hsize (by simpa only [hb] using hgood)
    simp only [hr, Option.map_some]
    refine ⟨_, rfl, ?_⟩
    split_ifs with hok
    · exact Step.forward_value (hinside hok).1 _
    · exact Step.forward_leave id
  | nested m' set =>
    obtain ⟨r, hr, hinside⟩ := readLengthDelimited_forward h0 hsize (by simpa only [hb] using hgood)
    simp only [hr, Option.map_some]
    refine ⟨_, rfl, ?_⟩
    split_ifs with hok
    · exact Step.forward_nested (hinside hok).1 (hinside hok).2 set
    · exact Step.forward_leave id
  | fixed32 guarded set =>
    have hgood : ¬(guarded = false ∧ body.length < field.offset + 4) := by
      simpa only [hb] using hgood
    refine ⟨_, rfl, ?_⟩
    split_ifs with hshort
    · exact Step.forward_leave id
    · refine Step.forward_value ⟨by omega, ?_⟩ _
      cases guarded with
      | false => exact not_lt.1 fun h => hgood ⟨rfl, h⟩
      | true => exact not_lt.1 (by simpa using hshort)
  | last set =>
    obtain ⟨r, hr, -, -⟩ := readLengthDelimited_spec h0 hsize
    simp only [hr, Option.map_some]
    exact ⟨_, rfl, Step.forward_leave _⟩
  | skip =>
    obtain ⟨stop, hstop, hforward⟩ := skipValue_spec h0 hsize field.wireType
    have hgood : ¬(breaksOnSkip m = false ∧
        ∃ stop, skipValue body field.offset field.wireType = some stop ∧ stop < 0) := by
      simpa only [hb] using hgood
    simp only [hstop, Option.map_some]
    refine ⟨_, rfl, ?_⟩
    split_ifs with hneg
    · exact Step.forward_leave id
    · refine Step.forward_value (hforward (not_lt.1 fun h => ?_)) id
      cases hbreaks : breaksOnSkip m with
      | false => exact hgood ⟨hbreaks, stop, hstop, h⟩
      | true => exact hneg (by simp [h, hbreaks])

/-- Where a value is misread, the iteration goes on outside of the body. -/
theorem readValue_outside {field : FieldHeader} (h0 : 0 ≤ field.offset)
    (hsize : body.length < 2 ^ 63) (hbad : Misread m body field) :
    ∃ step o, readValue m body field = some step ∧ step.goesOn = some o ∧
      (o < 0 ∨ body.length < o) := by
  unfold readValue
  unfold Misread at hbad
  cases hb : branch m field.number field.wireType with
  | varint set =>
    rw [hb] at hbad
    exact hbad.elim
  | bytes set =>
    rw [hb] at hbad
    obtain ⟨r, hr, hwraps, -⟩ := readLengthDelimited_spec h0 hsize
    obtain ⟨hok, hneg⟩ := hwraps hbad
    simp only [hr, Option.map_some, hok, if_true]
    exact ⟨_, _, rfl, rfl, .inl hneg⟩
  | nested m' set =>
    rw [hb] at hbad
    obtain ⟨r, hr, hwraps, -⟩ := readLengthDelimited_spec h0 hsize
    obtain ⟨hok, hneg⟩ := hwraps hbad
    simp only [hr, Option.map_some, hok, if_true]
    exact ⟨_, _, rfl, rfl, .inl hneg⟩
  | fixed32 guarded set =>
    rw [hb] at hbad
    obtain ⟨rfl, hshort⟩ := hbad
    exact ⟨_, _, rfl, rfl, .inr hshort⟩
  | last set =>
    rw [hb] at hbad
    exact hbad.elim
  | skip =>
    rw [hb] at hbad
    obtain ⟨hbreaks, stop, hstop, hneg⟩ := hbad
    simp only [hstop, Option.map_some, hbreaks, Bool.and_false, Bool.false_eq_true, if_false]
    exact ⟨_, _, rfl, rfl, .inl hneg⟩

/-! ## A whole run -/

theorem loop_mono : ∀ {n n' : ℕ} {m : Message} {body : List UInt8} {offset : ℤ}
    {result final : Result m}, n ≤ n' → loop n m body offset result = .returned final →
    loop n' m body offset result = .returned final
  | 0, _, _, _, _, _, _, _, h => by cases h
  | n + 1, 0, _, _, _, _, _, hle, _ => absurd hle (Nat.not_succ_le_zero n)
  | n + 1, n' + 1, m, body, offset, result, final, hle, h => by
    have hle : n ≤ n' := Nat.le_of_succ_le_succ hle
    unfold loop at h ⊢
    split_ifs at h ⊢ with hin
    · cases hstep : readField m body offset with
      | none =>
        rw [hstep] at h
        cases h
      | some step =>
        rw [hstep] at h
        cases step with
        | leave set => exact h
        | value o set => exact loop_mono hle h
        | nested o m' body' set =>
          simp only [] at h ⊢
          cases hnested : loop n m' body' 0 (initial m') with
          | running =>
            rw [hnested] at h
            cases h
          | aborted =>
            rw [hnested] at h
            cases h
          | returned value =>
            rw [hnested] at h
            rw [loop_mono hle hnested]
            exact loop_mono hle h
    · exact h

theorem length_readLengthDelimited {r : LengthDelimited}
    (h : readLengthDelimited body offset = some r) : r.value.length ≤ body.length := by
  obtain ⟨length, -, rfl⟩ := Option.map_eq_some_iff.1 h
  split_ifs
  · exact Nat.zero_le _
  · simp only []
    split_ifs
    · exact Nat.zero_le _
    · show (List.drop _ (List.take _ body)).length ≤ body.length
      rw [List.length_drop, List.length_take]
      omega

theorem length_nested {o : ℤ} {set : Result m' → Result m → Result m}
    (h : readField m body offset = some (.nested o m' body' set)) :
    body'.length ≤ body.length := by
  obtain ⟨field, -, h⟩ := Option.bind_eq_some_iff.1 h
  split_ifs at h
  · unfold readValue at h
    cases hb : branch m field.number field.wireType with
    | nested m'' set' =>
      rw [hb] at h
      obtain ⟨r, hr, h⟩ := Option.map_eq_some_iff.1 h
      split_ifs at h
      · cases h
        exact length_readLengthDelimited hr
    | fixed32 guarded set' =>
      rw [hb] at h
      simp only [] at h
      split_ifs at h <;> cases h
    | varint set' | bytes set' | last set' | skip =>
      rw [hb] at h
      obtain ⟨r, hr, h⟩ := Option.map_eq_some_iff.1 h
      split_ifs at h
  · cases h

theorem Visits.length_le (h : Visits m body m' body' offset) : body'.length ≤ body.length := by
  induction h with
  | start => exact Nat.le_refl _
  | value _ _ _ ih => exact ih
  | nested _ _ hstep ih => exact Nat.le_trans (length_nested hstep) ih
  | after _ _ _ _ ih => exact ih

/-- The loops are inside of their bodies while each of them goes on only within its own. -/
theorem Visits.nonneg (h : Visits m body m' body' offset)
    (hforward : ∀ m' body' o step o', Visits m body m' body' o → o < body'.length →
      readField m' body' o = some step → step.goesOn = some o' → 0 ≤ o') : 0 ≤ offset := by
  cases h with
  | start => exact Int.le_refl 0
  | value hv hin hstep => exact hforward _ _ _ _ _ hv hin hstep rfl
  | nested hv hin hstep => exact Int.le_refl 0
  | after hv hin hstep _ => exact hforward _ _ _ _ _ hv hin hstep rfl

/-- No field that a loop comes to is misread. -/
def Clean (m : Message) (body : List UInt8) : Prop :=
  ∀ m' body' o field, Visits m body m' body' o → o < body'.length →
    readFieldHeader body' o = some field → field.ok = true → ¬Misread m' body' field

theorem readField_forward (h0 : 0 ≤ offset) (hsize : body.length < 2 ^ 63)
    (hgood : ∀ field, readFieldHeader body offset = some field → field.ok = true →
      ¬Misread m body field) :
    ∃ step, readField m body offset = some step ∧ step.Forward body offset := by
  obtain ⟨field, hfield, ⟨-, hread⟩ | ⟨hok, hread, h₁, h₂⟩⟩ :=
    @readField_eq m body _ h0
  · exact ⟨_, hread, Step.forward_leave id⟩
  · obtain ⟨step, hstep, hforward⟩ := readValue_forward (by omega) hsize (hgood field hfield hok)
    refine ⟨step, hread.trans hstep, fun o ho => ?_, hforward.shorter⟩
    obtain ⟨h₃, h₄⟩ := hforward.goesOn o ho
    exact ⟨by omega, h₄⟩

/-- An iteration of a clean run. -/
theorem Clean.forward (hclean : Clean m body) (hv : Visits m body m' body' offset)
    (hin : offset < body'.length) (h0 : 0 ≤ offset) (hsize : body'.length < 2 ^ 63) :
    ∃ step, readField m' body' offset = some step ∧ step.Forward body' offset :=
  readField_forward h0 hsize fun field hf hok => hclean _ _ _ field hv hin hf hok

theorem Clean.forward_of_step (hclean : Clean m body) (hv : Visits m body m' body' offset)
    (hin : offset < body'.length) (h0 : 0 ≤ offset) (hsize : body'.length < 2 ^ 63)
    {step : Step (Result m')} (hstep : readField m' body' offset = some step) :
    step.Forward body' offset := by
  obtain ⟨step', hread, hforward⟩ := hclean.forward hv hin h0 hsize
  obtain rfl := Option.some.inj (hstep.symm.trans hread)
  exact hforward

theorem Clean.inside (hclean : Clean m body) (hsize : body.length < 2 ^ 63)
    (h : Visits m body m' body' offset) :
    0 ≤ offset ∧ offset ≤ body'.length ∧ body'.length < 2 ^ 63 := by
  induction h with
  | start => exact ⟨Int.le_refl 0, by omega, hsize⟩
  | value hv hin hstep ih =>
    obtain ⟨h₁, h₂⟩ := (hclean.forward_of_step hv hin ih.1 ih.2.2 hstep).goesOn _ rfl
    exact ⟨by omega, h₂, ih.2.2⟩
  | nested hv hin hstep ih =>
    have hshort := (hclean.forward_of_step hv hin ih.1 ih.2.2 hstep).shorter _ _ _ _ rfl
    exact ⟨Int.le_refl 0, by omega, Nat.lt_trans hshort ih.2.2⟩
  | after hv hin hstep _ ih =>
    obtain ⟨h₁, h₂⟩ := (hclean.forward_of_step hv hin ih.1 ih.2.2 hstep).goesOn _ rfl
    exact ⟨by omega, h₂, ih.2.2⟩

/-- From wherever a clean run comes to, a loop returns: nested bodies are shorter, and the offset
comes nearer to the end. -/
theorem Clean.loop_returns (hclean : Clean m body) (hsize : body.length < 2 ^ 63) (k j : ℕ) :
    ∀ m' body' o, Visits m body m' body' o → body'.length ≤ k → body'.length - o ≤ j →
      ∀ result : Result m', ∃ n final, loop n m' body' o result = .returned final := by
  induction k using Nat.strongRecOn generalizing j with
  | ind k ihk =>
    induction j with
    | zero =>
      intro m' body' o hv hk hj result
      exact ⟨1, result, by rw [loop, if_neg (by omega)]⟩
    | succ j ihj =>
      intro m' body' o hv hk hj result
      obtain ⟨h0, hle, hsize'⟩ := hclean.inside hsize hv
      by_cases hin : o < body'.length
      · obtain ⟨step, hread, hforward⟩ := hclean.forward hv hin h0 hsize'
        cases step with
        | leave set => exact ⟨1, set result, by rw [loop, if_pos hin, hread]⟩
        | value o' set =>
          obtain ⟨h₁, -⟩ := hforward.goesOn o' rfl
          obtain ⟨n, final, hn⟩ := ihj m' body' o' (hv.value hin hread) hk (by omega) (set result)
          exact ⟨n + 1, final, by rw [loop, if_pos hin, hread]; exact hn⟩
        | nested o' m'' body'' set =>
          obtain ⟨h₁, -⟩ := hforward.goesOn o' rfl
          have hshort := hforward.shorter o' m'' body'' set rfl
          obtain ⟨n₁, value, hn₁⟩ := ihk body''.length (by omega) body''.length m'' body'' 0
            (hv.nested hin hread) (Nat.le_refl _) (by omega) (initial m'')
          obtain ⟨n₂, final, hn₂⟩ := ihj m' body' o' (hv.after hin hread hn₁) hk (by omega)
            (set value result)
          refine ⟨max n₁ n₂ + 1, final, ?_⟩
          rw [loop, if_pos hin, hread]
          simp only []
          rw [loop_mono (Nat.le_max_left n₁ n₂) hn₁]
          exact loop_mono (Nat.le_max_right n₁ n₂) hn₂
      · exact ⟨1, result, by rw [loop, if_neg hin]⟩

/-- Decoding a message ends going forward all the way just if no value is misread. -/
theorem ends_iff_clean (hsize : body.length < 2 ^ 63) : Ends m body ↔ Clean m body := by
  constructor
  · intro h m' body' o field hv hin hfield hok hbad
    have h0 : 0 ≤ o := hv.nonneg fun m' body' o step o' hv hin hstep ho => by
      obtain ⟨h₁, h₂, -⟩ := h.forward m' body' o step o' hv hin hstep ho
      omega
    obtain ⟨field', hfield', hread⟩ := @readField_eq m' body' _ h0
    obtain rfl := Option.some.inj (hfield.symm.trans hfield')
    rcases hread with ⟨hnot, -⟩ | ⟨-, hread, h₁, -⟩
    · rw [hok] at hnot
      cases hnot
    · have hsize' : body'.length < 2 ^ 63 := Nat.lt_of_le_of_lt hv.length_le hsize
      obtain ⟨step, o', hstep, ho, hout⟩ := readValue_outside (by omega) hsize' hbad
      obtain ⟨-, h₂, h₃⟩ := h.forward m' body' o step o' hv hin (hread.trans hstep) ho
      omega
  · intro hclean
    refine ⟨?_, fun m' body' o step o' hv hin hstep ho => ?_⟩
    · obtain ⟨n, final, hn⟩ := hclean.loop_returns hsize body.length body.length m body 0 .start
        (Nat.le_refl _) (by omega) (initial m)
      refine ⟨n, ?_⟩
      unfold decode
      rw [hn]
      exact nofun
    · obtain ⟨h0, -, hsize'⟩ := hclean.inside hsize hv
      exact ⟨h0, (hclean.forward_of_step hv hin h0 hsize' hstep).goesOn o' ho⟩

theorem firstNested_spec (hsize : body.length < 2 ^ 63) :
    ∃ nested, firstNested body = some nested ∧ nested.length ≤ body.length := by
  obtain ⟨field, hfield, hforward⟩ := @readFieldHeader_spec body _ (Int.le_refl 0)
  unfold firstNested
  rw [hfield, Option.bind_some]
  split_ifs with hother
  · exact ⟨[], rfl, Nat.zero_le _⟩
  · have hok : field.ok = true := by
      by_contra h
      exact hother (.inl (Bool.not_eq_true _ ▸ h))
    obtain ⟨r, hr, -⟩ := @readLengthDelimited_spec _ field.offset
      (by have := hforward hok; omega) hsize
    rw [hr, Option.map_some]
    refine ⟨_, rfl, ?_⟩
    split_ifs
    · exact length_readLengthDelimited hr
    · exact Nat.zero_le _

namespace Decoder

/-- The loop that a decoder starts, if it starts one. -/
def start : Decoder → List UInt8 → Option (Message × List UInt8)
  | message m, body => some (m, body)
  | voxelEditNtf, body => (firstNested body).map fun nested => (.voxelEdit, nested)
  | resourceChanged, body => (firstNested body).bind fun nested =>
    if nested.isEmpty then none else some (.resource, nested)
  | buildingPlaced, body => (firstNested body).bind fun nested =>
    if nested.isEmpty then none else some (.building, nested)

/-- A call ends, and each iteration of its loops that goes on has moved forward within the body. -/
structure Ends (d : Decoder) (body : PackedByteArray) : Prop where
  ended : ∃ n, d.call n body.bytes ≠ .running
  forward : ∀ m nested, d.start body.bytes = some (m, nested) → ∀ m' body' o step o',
    Visits m nested m' body' o → o < body'.length → readField m' body' o = some step →
    step.goesOn = some o' → 0 ≤ o ∧ o < o' ∧ o' ≤ body'.length

theorem unlessEmpty_running {R : Type} {nested : List UInt8} (h : nested.isEmpty = false)
    (decoded : Outcome R) : unlessEmpty nested decoded = .running ↔ decoded = .running := by
  unfold unlessEmpty
  rw [h]
  cases decoded <;> simp [Outcome.bind]

/-- A call is at an end when its loop is, if it starts one. -/
theorem call_running (d : Decoder) (hsize : body.length < 2 ^ 63) :
    (d.start body = none ∧ ∀ n, d.call n body ≠ .running) ∨
      ∃ m nested, d.start body = some (m, nested) ∧ nested.length ≤ body.length ∧
        ∀ n, d.call n body = .running ↔ decode n m nested = .running := by
  obtain ⟨nested, hnested, hlength⟩ := firstNested_spec hsize
  cases d with
  | message m => exact .inr ⟨m, body, rfl, Nat.le_refl _, fun n => Iff.rfl⟩
  | voxelEditNtf =>
    refine .inr ⟨.voxelEdit, nested, ?_, hlength, fun n => ?_⟩
    · rw [start, hnested, Option.map_some]
    · rw [call, hnested]
  | resourceChanged =>
    simp only [start, call, hnested, Option.bind_some]
    cases hempty : nested.isEmpty with
    | true => exact .inl ⟨rfl, fun n => by simp [unlessEmpty, hempty]⟩
    | false => exact .inr ⟨_, _, rfl, hlength, fun n => unlessEmpty_running hempty _⟩
  | buildingPlaced =>
    simp only [start, call, hnested, Option.bind_some]
    cases hempty : nested.isEmpty with
    | true => exact .inl ⟨rfl, fun n => by simp [unlessEmpty, hempty]⟩
    | false => exact .inr ⟨_, _, rfl, hlength, fun n => unlessEmpty_running hempty _⟩

/-- A decoder's call ends, going forward within the body all the way, just if none of the fields
that its loops come to is misread. -/
theorem ends_iff (d : Decoder) (body : PackedByteArray) :
    d.Ends body ↔ ∀ m nested, d.start body.bytes = some (m, nested) → Clean m nested := by
  rcases d.call_running body.size_lt with ⟨hnone, hended⟩ | ⟨m, nested, hstart, hlength, hcall⟩
  · rw [hnone]
    exact ⟨fun _ => nofun, fun _ => ⟨⟨0, hended 0⟩, by rw [hnone]; exact nofun⟩⟩
  · have hloop : d.Ends body ↔ ProtoBridge.Ends m nested := by
      constructor
      · rintro ⟨⟨n, hn⟩, hforward⟩
        exact ⟨⟨n, fun h => hn ((hcall n).2 h)⟩, hforward m nested hstart⟩
      · rintro ⟨⟨n, hn⟩, hforward⟩
        refine ⟨⟨n, fun h => hn ((hcall n).1 h)⟩, fun m' nested' hstart' => ?_⟩
        obtain ⟨rfl, rfl⟩ := Prod.mk.inj (Option.some.inj (hstart.symm.trans hstart'))
        exact hforward
    rw [hloop, ends_iff_clean (Nat.lt_of_le_of_lt hlength body.size_lt)]
    constructor
    · intro hclean m' nested' hstart'
      obtain ⟨rfl, rfl⟩ := Prod.mk.inj (Option.some.inj (hstart.symm.trans hstart'))
      exact hclean
    · exact fun h => h m nested hstart

end Decoder

/-- The body of one byte, a field of wire type 7, which cannot be skipped. -/
def oneByte : PackedByteArray := ⟨[7], by decide⟩

/-- `decode_voxel_edit` goes from offset 0 to -1, from there, reading the last byte, to 0, and so
on. -/
theorem loop_oneByte : ∀ n : ℕ, decode n .voxelEdit [7] = .running ∧
    loop n .voxelEdit [7] (-1) (initial .voxelEdit) = .running
  | 0 => ⟨rfl, rfl⟩
  | n + 1 => by
    obtain ⟨hstart, hback⟩ := loop_oneByte n
    have hstep : ∀ o : ℤ, o = 0 ∨ o = -1 →
        readField .voxelEdit [7] o = some (.value (-1) id) := by
      rintro o (rfl | rfl) <;> rfl
    refine ⟨?_, ?_⟩
    · unfold decode
      rw [loop, if_pos (by decide), hstep 0 (.inl rfl)]
      exact hback
    · rw [loop, if_pos (by decide), hstep (-1) (.inr rfl)]
      exact hback

/-- So the client hangs. -/
theorem not_ends_oneByte : ¬∀ (d : Decoder) (body : PackedByteArray), d.Ends body := by
  intro h
  obtain ⟨n, hn⟩ := (h (.message .voxelEdit) oneByte).ended
  exact hn (loop_oneByte n).1

end TinRpc.ProtoBridge
