import Mathlib.Algebra.Order.Ring.Nat
import Mathlib.Data.Int.Order.Basic
import Mathlib.Tactic.NormNum
import Mathlib.Tactic.Ring
import TinRpc.ProtoBridge

/-!
# A voxel edit on the wire and back

What `_write_varint` writes of a number that is not negative `_read_varint` reads back, wherever it
stands. Shifting a 32-bit coordinate into its zigzag form gives such a number and loses nothing, so
`decode_voxel_edit` reads the edit that `encode_voxel_edit` wrote.
-/

namespace TinRpc.ProtoBridge

theorem toInt_shiftRight (x : Int64) {k : Int64} {n : ℕ} (hn : n < 64)
    (hk : k.toBitVec.smod 64 = BitVec.ofNat 64 n) : (x >>> k).toInt = x.toInt / 2 ^ n := by
  rw [Int64.toInt, Int64.toBitVec_shiftRight, hk, BitVec.toInt_sshiftRight', BitVec.toNat_ofNat,
    Nat.mod_eq_of_lt (by omega), Int.shiftRight_eq_div_pow]
  rfl

theorem toInt_shiftLeft_one {x : Int64} (hlow : -2 ^ 62 ≤ x.toInt) (hhigh : x.toInt < 2 ^ 62) :
    (x <<< (1 : Int64)).toInt = 2 * x.toInt := by
  have hk : (1 : Int64).toBitVec.smod 64 = 1#64 := by decide
  have hx : x.toInt = (x.toBitVec.toNat : ℤ).bmod (2 ^ 64) := BitVec.toInt_eq_toNat_bmod _
  have hdouble : ((x.toBitVec.toNat <<< (1#64).toNat : ℕ) : ℤ) = 2 * x.toBitVec.toNat := by
    rw [Nat.shiftLeft_eq]
    push_cast
    exact mul_comm _ _
  rw [Int64.toInt, Int64.toBitVec_shiftLeft, hk, BitVec.shiftLeft_eq', BitVec.toInt_shiftLeft,
    hdouble, ← Int.mul_bmod_bmod, ← hx, Int.bmod_def]
  push_cast
  split_ifs <;> omega

theorem lt_ofNat {v : ℕ} (hv : v < 2 ^ 63) : 0x7F < Int64.ofNat v ↔ 127 < v := by
  rw [Int64.lt_iff_toInt_lt, Int64.toInt_ofNat_of_lt hv]
  exact Int.ofNat_lt

theorem ofNat_shiftRight {v : ℕ} (hv : v < 2 ^ 63) :
    Int64.ofNat v >>> (7 : Int64) = Int64.ofNat (v / 128) := by
  rw [← Int64.toInt_inj, toInt_shiftRight (n := 7) _ (by decide) (by decide),
    Int64.toInt_ofNat_of_lt hv, Int64.toInt_ofNat_of_lt (by omega)]
  rfl

theorem toUInt8_ofNat (v : ℕ) : (Int64.ofNat v).toUInt64.toUInt8 = UInt8.ofNat v := by
  rw [← UInt8.toNat_inj, UInt64.toNat_toUInt8, UInt8.toNat_ofNat']
  show v % 2 ^ 64 % 2 ^ 8 = v % 2 ^ 8
  omega

theorem toUInt8_continued (v : ℕ) : ((Int64.ofNat v &&& 0x7F) ||| 0x80).toUInt64.toUInt8 =
    UInt8.ofNat (v % 128 + 128) := by
  rw [← UInt8.toNat_inj, UInt64.toNat_toUInt8, UInt8.toNat_ofNat', Int64.toUInt64_or,
    Int64.toUInt64_and, UInt64.toNat_or, UInt64.toNat_and]
  show (v % 2 ^ 64 &&& 127 ||| 128) % 2 ^ 8 = _
  rw [show 127 = 2 ^ 7 - 1 from rfl, Nat.and_two_pow_sub_one_eq_mod, Nat.or_comm,
    show 128 = 2 ^ 7 * 1 from rfl, ← Nat.two_pow_add_eq_or_of_lt (Nat.mod_lt _ (by decide))]
  omega

theorem ofNat_or (a b : ℕ) : Int64.ofNat a ||| Int64.ofNat b = Int64.ofNat (a ||| b) := by
  rw [← Int64.toBitVec_inj]
  exact BitVec.ofNat_or.symm

theorem or_shifted {acc shift : ℕ} (hacc : acc < 2 ^ shift) (v : ℕ) :
    Int64.ofNat acc ||| Int64.ofNat (v <<< shift) = Int64.ofNat (acc + 2 ^ shift * v) := by
  rw [ofNat_or, Nat.shiftLeft_eq, mul_comm, Nat.or_comm, ← Nat.two_pow_add_eq_or_of_lt hacc,
    add_comm]

theorem exists_ofNat {x : Int64} (h : 0 ≤ x.toInt) : ∃ v < 2 ^ 63, x = Int64.ofNat v := by
  have hhigh := Int64.toInt_lt x
  refine ⟨x.toInt.toNat, by omega, ?_⟩
  rw [← Int64.toInt_inj, Int64.toInt_ofNat_of_lt (by omega)]
  omega

theorem last_byte {v : ℕ} (hv : v < 128) :
    (UInt8.ofNat v &&& 0x7F).toNat = v ∧ UInt8.ofNat v &&& 0x80 = 0 :=
  (by decide +kernel : ∀ v : Fin 128, (UInt8.ofNat v &&& 0x7F).toNat = v ∧
    UInt8.ofNat v &&& 0x80 = 0) ⟨v, hv⟩

theorem continued_byte (v : ℕ) : (UInt8.ofNat (v % 128 + 128) &&& 0x7F).toNat = v % 128 ∧
    UInt8.ofNat (v % 128 + 128) &&& 0x80 ≠ 0 :=
  (by decide +kernel : ∀ v : Fin 128, (UInt8.ofNat (v + 128) &&& 0x7F).toNat = v ∧
    UInt8.ofNat (v + 128) &&& 0x80 ≠ 0) ⟨v % 128, Nat.mod_lt _ (by decide)⟩

theorem byteAt_append (pre : List UInt8) (byte : UInt8) (rest : List UInt8) :
    byteAt (pre ++ byte :: rest) pre.length = some byte := by
  have h0 : ¬(pre.length : ℤ) < 0 := by omega
  unfold byteAt
  rw [if_neg h0, if_neg h0, Int.toNat_natCast, List.getElem?_append_right (Nat.le_refl _),
    Nat.sub_self]
  rfl

theorem varintLoop_cons {shift : ℕ} (hshift : shift < 64) (n : ℕ) (value : Int64)
    (pre : List UInt8) (byte : UInt8) (rest : List UInt8) :
    varintLoop (pre ++ byte :: rest) (n + 1) shift value pre.length =
      if byte &&& 0x80 = 0 then
        some ⟨true, value ||| Int64.ofNat ((byte &&& 0x7F).toNat <<< shift), pre.length + 1⟩
      else varintLoop (pre ++ byte :: rest) n (shift + 7)
        (value ||| Int64.ofNat ((byte &&& 0x7F).toNat <<< shift)) (pre.length + 1) := by
  have hin : (pre.length : ℤ) < (pre ++ byte :: rest).length ∧ shift < 64 := by
    refine ⟨?_, hshift⟩
    rw [List.length_append, List.length_cons]
    omega
  rw [varintLoop, if_pos hin, byteAt_append, Option.bind_some]

theorem varintLoop_last {k shift v acc : ℕ} (hv : v < 128) (hk : 0 < k) (hshift : shift < 64)
    (hacc : acc < 2 ^ shift) (pre post : List UInt8) :
    varintLoop (pre ++ ([UInt8.ofNat v] ++ post)) k shift (Int64.ofNat acc) pre.length =
      some ⟨true, Int64.ofNat (acc + 2 ^ shift * v), pre.length + 1⟩ := by
  obtain ⟨k, rfl⟩ := Nat.exists_eq_add_of_lt hk
  obtain ⟨hpayload, hend⟩ := last_byte hv
  rw [List.singleton_append, Nat.zero_add, varintLoop_cons hshift, if_pos hend, hpayload,
    or_shifted hacc]

/-- Seven bits go over from the number to come to the one that has been read. -/
theorem acc_step {acc shift : ℕ} (hacc : acc < 2 ^ shift) (v : ℕ) :
    acc + 2 ^ shift * (v % 128) < 2 ^ (shift + 7) ∧
      acc + 2 ^ shift * (v % 128) + 2 ^ (shift + 7) * (v / 128) = acc + 2 ^ shift * v := by
  have hpow : 2 ^ (shift + 7) = 2 ^ shift * 128 := by rw [pow_add]; rfl
  have hmod := Nat.mod_lt v (show 0 < 128 by decide)
  constructor
  · calc acc + 2 ^ shift * (v % 128)
        < 2 ^ shift + 2 ^ shift * (v % 128) := by omega
      _ = 2 ^ shift * (v % 128 + 1) := by ring
      _ ≤ 2 ^ (shift + 7) := by
        rw [hpow]
        exact Nat.mul_le_mul_left _ hmod
  · calc acc + 2 ^ shift * (v % 128) + 2 ^ (shift + 7) * (v / 128)
        = acc + 2 ^ shift * (128 * (v / 128) + v % 128) := by rw [hpow]; ring
      _ = acc + 2 ^ shift * v := by rw [Nat.div_add_mod]

/-- The loop that reads goes through the bytes which the loop that writes has left, the bits below a
shift being read. -/
theorem varintLoop_write (post : List UInt8) : ∀ (n k : ℕ) {shift v acc : ℕ} (pre : List UInt8),
    v < 128 ^ (n + 1) → n < k → shift + 7 * n < 64 → acc < 2 ^ shift →
    acc + 2 ^ shift * v < 2 ^ 63 →
    varintLoop (pre ++ (writeVarintLoop n (Int64.ofNat v) ++ post)) k shift (Int64.ofNat acc)
      pre.length = some ⟨true, Int64.ofNat (acc + 2 ^ shift * v),
        pre.length + (writeVarintLoop n (Int64.ofNat v)).length⟩ := by
  intro n
  induction n with
  | zero =>
    intro k shift v acc pre hv hk hshift hacc _
    rw [writeVarintLoop, toUInt8_ofNat]
    exact varintLoop_last (by omega) hk (by omega) hacc pre post
  | succ n ih =>
    intro k shift v acc pre hv hk hshift hacc hfit
    have hword : v < 2 ^ 63 := by
      have := Nat.le_mul_of_pos_left v (Nat.two_pow_pos shift)
      omega
    rw [writeVarintLoop]
    by_cases hmore : 127 < v
    · obtain ⟨k, rfl⟩ := Nat.exists_eq_add_of_lt (Nat.zero_lt_of_lt hk)
      obtain ⟨hpayload, hnot⟩ := continued_byte v
      obtain ⟨hbound, hsum⟩ := acc_step hacc v
      have hrest : v / 128 < 128 ^ (n + 1) := by
        rw [Nat.div_lt_iff_lt_mul (by decide), ← pow_succ]
        exact hv
      have hnext := @ih k (shift + 7) _ _ (pre ++ [UInt8.ofNat (v % 128 + 128)]) hrest (by omega)
        (by omega) hbound (by omega)
      rw [if_pos ((lt_ofNat hword).2 hmore), toUInt8_continued, ofNat_shiftRight hword,
        Nat.zero_add, List.cons_append, varintLoop_cons (by omega), if_neg hnot, hpayload,
        or_shifted hacc]
      rw [hsum, List.append_assoc, List.length_append, List.length_singleton, Nat.cast_add,
        Nat.cast_one] at hnext
      have hoffset : ∀ l : List UInt8, (pre.length : ℤ) + (l.length + 1 : ℕ) =
          pre.length + 1 + l.length := fun l => by omega
      rw [List.length_cons, hoffset]
      exact hnext
    · rw [if_neg (fun h => hmore ((lt_ofNat hword).1 h)), toUInt8_ofNat]
      exact varintLoop_last (by omega) (by omega) (by omega) hacc pre post

theorem readVarint_write {v : ℕ} (hv : v < 2 ^ 63) (pre post : List UInt8) :
    readVarint (pre ++ (writeVarint (Int64.ofNat v) ++ post)) pre.length =
      some ⟨true, Int64.ofNat v, pre.length + (writeVarint (Int64.ofNat v)).length⟩ := by
  have hread := @varintLoop_write post 9 10 0 v 0 pre (by omega) (by decide) (by decide) (by decide)
    (by omega)
  rwa [pow_zero, one_mul, Nat.zero_add] at hread

theorem readFieldHeader_write {t : ℕ} (h0 : 0 < t) (ht : t < 2 ^ 63) (pre post : List UInt8) :
    readFieldHeader (pre ++ (writeVarint (Int64.ofNat t) ++ post)) pre.length =
      some ⟨true, Int64.ofNat t >>> (3 : Int64), Int64.ofNat t &&& 0x07,
        pre.length + (writeVarint (Int64.ofNat t)).length⟩ := by
  have hne : Int64.ofNat t ≠ 0 := by
    rw [← Int64.toInt_inj.ne, Int64.toInt_ofNat_of_lt ht]
    exact Int.natCast_ne_zero.2 h0.ne'
  unfold readFieldHeader
  rw [readVarint_write ht, Option.map_some, if_neg (by simpa using hne)]

theorem readField_write {m : Message} {number : Int64} {t v : ℕ} {set : Int64 → Result m → Result m}
    (h0 : 0 < t) (ht : t < 2 ^ 63) (hv : v < 2 ^ 63)
    (htag : number <<< (3 : Int64) ||| wireVarint = Int64.ofNat t)
    (hbranch : branch m (Int64.ofNat t >>> (3 : Int64)) (Int64.ofNat t &&& 0x07) = .varint set)
    (pre post : List UInt8) :
    readField m (pre ++ (encodeVarintField number (Int64.ofNat v) ++ post)) pre.length =
      some (.value (pre ++ encodeVarintField number (Int64.ofNat v)).length
        (set (Int64.ofNat v))) := by
  have hread := readVarint_write hv (pre ++ writeVarint (Int64.ofNat t)) post
  rw [List.append_assoc, List.length_append, Nat.cast_add] at hread
  unfold readField encodeVarintField
  rw [htag, List.append_assoc, readFieldHeader_write h0 ht, Option.bind_some]
  simp only [if_true]
  unfold readValue
  simp only [hbranch]
  rw [hread, Option.map_some, if_pos rfl, List.length_append, List.length_append]
  push_cast
  rw [add_assoc]

theorem writeVarintLoop_ne_nil (n : ℕ) (value : Int64) : writeVarintLoop n value ≠ [] := by
  cases n with
  | zero => exact List.cons_ne_nil _ _
  | succ n =>
    rw [writeVarintLoop]
    split_ifs <;> exact List.cons_ne_nil _ _

/-- A loop at a field that one of its branches for varints reads. -/
theorem loop_write {m : Message} {number w : Int64} {t : ℕ} {set : Int64 → Result m → Result m}
    {body pre post : List UInt8} (hbody : body = pre ++ (encodeVarintField number w ++ post))
    (h0 : 0 < t) (ht : t < 2 ^ 63) (htag : number <<< (3 : Int64) ||| wireVarint = Int64.ofNat t)
    (hbranch : branch m (Int64.ofNat t >>> (3 : Int64)) (Int64.ofNat t &&& 0x07) = .varint set)
    (hw : 0 ≤ w.toInt) (n : ℕ) (result : Result m) : loop (n + 1) m body pre.length result =
      loop n m body (pre ++ encodeVarintField number w).length (set w result) := by
  obtain ⟨v, hv, rfl⟩ := exists_ofNat hw
  have hin : (pre.length : ℤ) < body.length := by
    have hfield : 0 < (encodeVarintField number (Int64.ofNat v)).length :=
      List.length_pos_iff.2 (List.append_ne_nil_of_left_ne_nil (writeVarintLoop_ne_nil 9 _) _)
    rw [hbody, List.length_append, List.length_append]
    omega
  have hread := readField_write h0 ht hv htag hbranch pre post
  rw [← hbody] at hread
  rw [loop, if_pos hin, hread]

/-- The sign of a 32-bit number, as a shift by 31 leaves it. -/
theorem sign_eq {x : Int64} (hlow : -2 ^ 31 ≤ x.toInt) (hhigh : x.toInt < 2 ^ 31) :
    0 ≤ x.toInt ∧ x >>> (31 : Int64) = 0 ∨ x.toInt < 0 ∧ x >>> (31 : Int64) = -1 := by
  have hshift := toInt_shiftRight x (k := 31) (n := 31) (by decide) (by decide)
  rcases Int.lt_or_le x.toInt 0 with hneg | hnonneg
  · refine .inr ⟨hneg, Int64.toInt_inj.1 (hshift.trans ?_)⟩
    show x.toInt / 2 ^ 31 = -1
    omega
  · refine .inl ⟨hnonneg, Int64.toInt_inj.1 (hshift.trans ?_)⟩
    show x.toInt / 2 ^ 31 = 0
    omega

theorem zigzag_nonneg {x : Int64} (hlow : -2 ^ 31 ≤ x.toInt) (hhigh : x.toInt < 2 ^ 31) :
    0 ≤ (zigzag x).toInt := by
  have hdouble := toInt_shiftLeft_one (x := x) (by omega) (by omega)
  unfold zigzag
  rcases sign_eq hlow hhigh with ⟨hx, hsign⟩ | ⟨hx, hsign⟩
  · rw [hsign, Int64.xor_zero, hdouble]
    omega
  · rw [hsign, Int64.xor_neg_one, Int64.toInt_not, hdouble, Int.bmod_def]
    split_ifs <;> omega

theorem and_one {x : Int64} {b : ℕ} (hb : b < 2) (h : x.toInt % 2 = b) :
    x &&& 1 = Int64.ofNat b := by
  have hword : x.toInt = if 2 * x.toBitVec.toNat < 2 ^ 64 then (x.toBitVec.toNat : ℤ)
      else x.toBitVec.toNat - (2 ^ 64 : ℕ) := BitVec.toInt_eq_toNat_cond _
  have hmod : x.toBitVec.toNat % 2 = b := by
    split_ifs at hword <;> omega
  rw [← Int64.toBitVec_inj, Int64.toBitVec_and]
  refine BitVec.eq_of_toNat_eq ?_
  show x.toBitVec.toNat &&& 1 = b % 2 ^ 64
  rw [Nat.and_one_is_mod, hmod]
  omega

theorem unzigzag_zigzag {x : Int64} (hlow : -2 ^ 31 ≤ x.toInt) (hhigh : x.toInt < 2 ^ 31) :
    unzigzag (zigzag x) = x := by
  have hdouble := toInt_shiftLeft_one (x := x) (by omega) (by omega)
  unfold unzigzag zigzag
  rcases sign_eq hlow hhigh with ⟨hx, hsign⟩ | ⟨hx, hsign⟩
  · have hback : (x <<< (1 : Int64)) >>> (1 : Int64) = x := by
      rw [← Int64.toInt_inj, toInt_shiftRight (n := 1) _ (by decide) (by decide), hdouble]
      omega
    rw [hsign, Int64.xor_zero, hback, @and_one _ 0 (by decide) (by omega)]
    exact Int64.xor_zero
  · have hnot : (~~~(x <<< (1 : Int64))).toInt = -(2 * x.toInt) - 1 := by
      rw [Int64.toInt_not, hdouble, Int.bmod_def]
      split_ifs <;> omega
    have hback : (~~~(x <<< (1 : Int64))) >>> (1 : Int64) = ~~~x := by
      rw [← Int64.toInt_inj, toInt_shiftRight (n := 1) _ (by decide) (by decide), hnot,
        Int64.toInt_not, Int.bmod_def]
      split_ifs <;> omega
    rw [hsign, Int64.xor_neg_one, hback, @and_one _ 1 (by decide) (by omega)]
    exact Int64.xor_neg_one.trans Int64.not_not

/-- The branches of `decode_voxel_edit`, by the tags that `encode_voxel_edit` writes. -/
theorem voxelEdit_branches :
    let tagged (t : ℕ) := branch .voxelEdit (Int64.ofNat t >>> (3 : Int64)) (Int64.ofNat t &&& 0x07)
    tagged 8 = .varint (fun value r => { r with x := unzigzag value }) ∧
    tagged 16 = .varint (fun value r => { r with y := unzigzag value }) ∧
    tagged 24 = .varint (fun value r => { r with z := unzigzag value }) ∧
    tagged 32 = .varint (fun value r => { r with action := value }) ∧
    tagged 40 = .varint (fun value r => { r with blockType := value }) :=
  ⟨rfl, rfl, rfl, rfl, rfl⟩

/-- `decode_voxel_edit` returns the edit that `encode_voxel_edit` wrote, after an iteration for each
of the five fields. -/
theorem decode_encodeVoxelEdit {e : VoxelEdit} (hx : -2 ^ 31 ≤ e.x.toInt ∧ e.x.toInt < 2 ^ 31)
    (hy : -2 ^ 31 ≤ e.y.toInt ∧ e.y.toInt < 2 ^ 31) (hz : -2 ^ 31 ≤ e.z.toInt ∧ e.z.toInt < 2 ^ 31)
    (haction : 0 ≤ e.action.toInt) (hblock : 0 ≤ e.blockType.toInt) {n : ℕ} (hn : 6 ≤ n) :
    decode n .voxelEdit (encodeVoxelEdit e) = .returned e := by
  obtain ⟨n, rfl⟩ := Nat.exists_eq_add_of_le' hn
  obtain ⟨bx, b_y, bz, ba, bb⟩ := voxelEdit_branches
  have h1 : encodeVoxelEdit e = [] ++ (encodeVarintField 1 (zigzag e.x) ++
      (encodeVarintField 2 (zigzag e.y) ++ encodeVarintField 3 (zigzag e.z) ++
        encodeVarintField 4 e.action ++ encodeVarintField 5 e.blockType)) := by
    simp only [encodeVoxelEdit, List.append_assoc, List.nil_append]
  have h2 : encodeVoxelEdit e = encodeVarintField 1 (zigzag e.x) ++
      (encodeVarintField 2 (zigzag e.y) ++ (encodeVarintField 3 (zigzag e.z) ++
        encodeVarintField 4 e.action ++ encodeVarintField 5 e.blockType)) := by
    simp only [encodeVoxelEdit, List.append_assoc]
  have h3 : encodeVoxelEdit e = encodeVarintField 1 (zigzag e.x) ++
      encodeVarintField 2 (zigzag e.y) ++ (encodeVarintField 3 (zigzag e.z) ++
        (encodeVarintField 4 e.action ++ encodeVarintField 5 e.blockType)) := by
    simp only [encodeVoxelEdit, List.append_assoc]
  have h4 : encodeVoxelEdit e = encodeVarintField 1 (zigzag e.x) ++
      encodeVarintField 2 (zigzag e.y) ++ encodeVarintField 3 (zigzag e.z) ++
        (encodeVarintField 4 e.action ++ encodeVarintField 5 e.blockType) := by
    simp only [encodeVoxelEdit, List.append_assoc]
  have h5 : encodeVoxelEdit e = encodeVarintField 1 (zigzag e.x) ++
      encodeVarintField 2 (zigzag e.y) ++ encodeVarintField 3 (zigzag e.z) ++
        encodeVarintField 4 e.action ++ (encodeVarintField 5 e.blockType ++ []) := by
    rw [List.append_nil, encodeVoxelEdit]
  have stepX := loop_write h1 (by decide) (by decide) (by decide) bx (zigzag_nonneg hx.1 hx.2)
  have stepY := loop_write h2 (by decide) (by decide) (by decide) b_y (zigzag_nonneg hy.1 hy.2)
  have stepZ := loop_write h3 (by decide) (by decide) (by decide) bz (zigzag_nonneg hz.1 hz.2)
  have stepAction := loop_write h4 (by decide) (by decide) (by decide) ba haction
  have stepBlock := loop_write h5 (by decide) (by decide) (by decide) bb hblock
  rw [List.nil_append] at stepX
  rw [← encodeVoxelEdit] at stepBlock
  show loop (n + 5 + 1) .voxelEdit (encodeVoxelEdit e) ([] : List UInt8).length {} = .returned e
  rw [stepX (n + 5), stepY (n + 4), stepZ (n + 3), stepAction (n + 2), stepBlock (n + 1), loop,
    if_neg (lt_irrefl _)]
  simp only [unzigzag_zigzag hx.1 hx.2, unzigzag_zigzag hy.1 hy.2, unzigzag_zigzag hz.1 hz.2]

/-- An edit at the lowest and the highest coordinates. -/
theorem decode_encodeVoxelEdit_far :
    decode 6 .voxelEdit (encodeVoxelEdit ⟨-2147483648, 2147483647, -1, 2, 4⟩) =
      .returned ⟨-2147483648, 2147483647, -1, 2, 4⟩ :=
  decode_encodeVoxelEdit (by decide) (by decide) (by decide) (by decide) (by decide) (by decide)

end TinRpc.ProtoBridge
