import TinRpc.Proofs.Corrections
import TinRpc.Reconcile

/-!
# Reconciliation

Where `float` arithmetic is exact, a round moves each of the server's players a part of the way to
where the server has him, and cuts off toward zero. A coordinate that is beyond the server's gets
there, another one only if it goes all the way at once.
-/

namespace TinRpc

open Interpolation

/-- Up to this size of coordinates no difference overflows and no `float` operation rounds. -/
structure ExactUpTo (alpha : ℚ) (bound : ℕ) : Prop where
  small : bound < 2 ^ 30
  whole : ∀ x : ℤ, x.natAbs ≤ bound → IsFloat x
  difference : ∀ a x : ℤ, a.natAbs ≤ bound → x.natAbs ≤ bound → IsFloat ((a - x : ℤ) : ℚ)
  step : ∀ a x : ℤ, a.natAbs ≤ bound → x.natAbs ≤ bound → IsFloat (((a - x : ℤ) : ℚ) * alpha)
  sum : ∀ a x : ℤ, a.natAbs ≤ bound → x.natAbs ≤ bound → IsFloat (x + ((a - x : ℤ) : ℚ) * alpha)

/-- A part that is a fraction of a power of two is exact for coordinates that leave room for it. -/
theorem exactUpTo_dyadic {k m bound : ℕ} (hk : k ≤ 2 ^ m) (hm : m ≤ 149)
    (hbound : 2 * bound * 2 ^ m < 2 ^ 24) : ExactUpTo ((k : ℚ) / 2 ^ m) bound := by
  have hpos : 0 < 2 ^ m := Nat.two_pow_pos m
  have hroom : ∀ n : ℕ, n ≤ 2 * bound * 2 ^ m → n < 2 ^ 24 := fun n h => by omega
  have htwice : 2 * bound ≤ 2 * bound * 2 ^ m := Nat.le_mul_of_pos_right _ hpos
  have hint : ∀ n : ℤ, n.natAbs ≤ 2 * bound → IsFloat n := fun n hn =>
    ⟨n, 0, hroom _ (hn.trans htwice), .inl ⟨by omega, by simp⟩⟩
  refine ⟨by omega, fun x hx => hint x (by omega), fun a x ha hx => hint _ (by omega),
    fun a x ha hx => ?_, fun a x ha hx => ?_⟩
  · have hstep : ((a - x) * k).natAbs ≤ 2 * bound * 2 ^ m := by
      rw [Int.natAbs_mul, Int.natAbs_natCast]
      exact Nat.mul_le_mul (by omega) hk
    refine ⟨(a - x) * k, m, hroom _ hstep, .inl ⟨hm, ?_⟩⟩
    push_cast
    ring
  · obtain ⟨j, hj⟩ : ∃ j, 2 ^ m = j + k := ⟨2 ^ m - k, by omega⟩
    have hsum : (x * j + a * k).natAbs ≤ bound * 2 ^ m := by
      rw [hj, Nat.mul_add]
      refine (Int.natAbs_add_le _ _).trans (Nat.add_le_add ?_ ?_) <;>
        rw [Int.natAbs_mul, Int.natAbs_natCast]
      · exact Nat.mul_le_mul_right j hx
      · exact Nat.mul_le_mul_right k ha
    have htotal : bound * 2 ^ m ≤ 2 * bound * 2 ^ m := Nat.mul_le_mul_right _ (by omega)
    refine ⟨x * j + a * k, m, hroom _ (hsum.trans htotal), .inl ⟨hm, ?_⟩⟩
    have hpow : (2 : ℚ) ^ m = j + k := by exact_mod_cast hj
    have hne : (2 : ℚ) ^ m ≠ 0 := by positivity
    rw [eq_div_iff hne, add_mul, mul_assoc, div_mul_cancel₀ _ hne, hpow]
    push_cast
    ring

/-- A coordinate of this size. -/
def Within (bound : ℕ) (x : Int32) : Prop := x.toInt.natAbs ≤ bound

instance (bound : ℕ) (x : Int32) : Decidable (Within bound x) :=
  inferInstanceAs (Decidable (_ ≤ _))

section Exact

variable [FloatRounding] {alpha : ℚ} {bound : ℕ} (hα : 0 < alpha) (hα' : alpha ≤ 1)
  (hexact : ExactUpTo alpha bound)

include hα hα' hexact

theorem interpolate_toInt {a x : Int32} (ha : Within bound a) (hx : Within bound x) :
    (interpolate alpha a x).toInt = approach alpha a.toInt x.toInt := by
  have hsmall := hexact.small
  unfold Within at ha hx
  have hsub : (a - x).toInt = a.toInt - x.toInt := by
    rw [Int32.toInt_sub]
    exact Int.bmod_eq_of_le (by omega) (by omega)
  unfold interpolate
  simp only [hsub]
  rw [FloatRounding.round_float _ (hexact.whole _ hx),
    FloatRounding.round_float _ (hexact.difference _ _ ha hx),
    FloatRounding.round_float _ (hexact.step _ _ ha hx),
    FloatRounding.round_float _ (hexact.sum _ _ ha hx)]
  obtain ⟨hlow, hhigh⟩ := approach_between hα hα' a.toInt x.toInt
  have hresult : truncate (x.toInt + ((a.toInt - x.toInt : ℤ) : ℚ) * alpha)
      = approach alpha a.toInt x.toInt := by
    unfold approach
    push_cast
    rfl
  have hsize : Int32.size = 2 ^ 32 := rfl
  rw [Int32.toInt_ofInt, hresult]
  exact Int.bmod_eq_of_le (by omega) (by omega)

/-- A coordinate that will get to the server's, and how far it is from there. -/
structure Closing (alpha : ℚ) (bound : ℕ) (a : Int32) (d : ℕ) (x : Int32) : Prop where
  within : Within bound x
  comes : alpha = 1 ∨ Beyond a.toInt x.toInt
  near : (x.toInt - a.toInt).natAbs ≤ d

/-- A coordinate that will not get to the server's. -/
structure Held (bound : ℕ) (a x : Int32) : Prop where
  within : Within bound x
  behind : ¬Beyond a.toInt x.toInt

theorem within_interpolate {a x : Int32} (ha : Within bound a) (hx : Within bound x) :
    Within bound (interpolate alpha a x) := by
  obtain ⟨hlow, hhigh⟩ := approach_between hα hα' a.toInt x.toInt
  unfold Within at *
  rw [interpolate_toInt hα hα' hexact ha hx]
  omega

theorem Closing.step {a x : Int32} {d : ℕ} (ha : Within bound a)
    (h : Closing alpha bound a d x) : Closing alpha bound a (d - 1) (interpolate alpha a x) := by
  have hstep := interpolate_toInt hα hα' hexact ha h.within
  have hnear := h.near
  refine ⟨within_interpolate hα hα' hexact ha h.within, ?_, ?_⟩ <;> rw [hstep]
  · exact h.comes.imp_right fun hb => (approach_closer hα hα' hb).1
  · rcases h.comes with rfl | hb
    · rw [approach_one]
      omega
    · rcases (approach_closer hα hα' hb).2 with hlt | ⟨-, heq⟩
      · omega
      · rw [heq]
        omega

theorem Held.step {a x : Int32} (hpart : alpha < 1) (ha : Within bound a) (h : Held bound a x) :
    Held bound a (interpolate alpha a x) := by
  refine ⟨within_interpolate hα hα' hexact ha h.within, ?_⟩
  rw [interpolate_toInt hα hα' hexact ha h.within]
  exact approach_behind hpart h.behind

end Exact

section Players

variable [FloatRounding] {alpha : ℚ} {bound : ℕ} {ap : PlayerPos} {id : String}
  {players : List PlayerPos}

/-- Where a player of the server is put. -/
def moved (alpha : ℚ) (ap : PlayerPos) : Option (Int32 × Int32) → Int32 × Int32
  | none => (ap.x, ap.y)
  | some (x, y) => (interpolate alpha ap.x x, interpolate alpha ap.y y)

/-- The place of the first of some players with an id. -/
def placeOf (players : List PlayerPos) (id : String) : Option (Int32 × Int32) :=
  (players.find? (·.playerId = id)).map fun p => (p.x, p.y)

theorem placeOf_reconcilePlayer (ap : PlayerPos) (id : String) : ∀ players : List PlayerPos,
    placeOf (reconcilePlayer alpha ap players) id =
      if id = ap.playerId then some (moved alpha ap (placeOf players id)) else placeOf players id
  | [] => by
    unfold reconcilePlayer placeOf
    by_cases hid : id = ap.playerId
    · simp [hid, moved]
    · simp [hid, Ne.symm hid]
  | p :: players => by
    have ih := placeOf_reconcilePlayer ap id players
    unfold reconcilePlayer
    unfold placeOf at ih ⊢
    by_cases hp : p.playerId = ap.playerId
    · rw [if_pos hp]
      by_cases hid : id = ap.playerId
      · simp [hid, hp, moved]
      · simp [hid, hp, Ne.symm hid]
    · rw [if_neg hp]
      by_cases hpid : p.playerId = id
      · have hid : id ≠ ap.playerId := fun he => hp (hpid.trans he)
        simp [hpid, hid]
      · rw [List.find?_cons_of_neg (by simpa using hpid), ih,
          List.find?_cons_of_neg (by simpa using hpid)]

variable {l : List PlayerPos} {P Q : Option (Int32 × Int32) → Prop}

/-- What the moves of a player keep, a round keeps. -/
theorem placeOf_round_keeps (hl : ∀ ap' ∈ l, ap'.playerId = ap.playerId → ap' = ap)
    (hP : ∀ place, P place → P (some (moved alpha ap place)))
    (h : P (placeOf players ap.playerId)) :
    P (placeOf (l.foldl (fun players ap => reconcilePlayer alpha ap players) players)
      ap.playerId) := by
  induction l generalizing players with
  | nil => exact h
  | cons ap' l ih =>
    obtain ⟨hfirst, hl⟩ := List.forall_mem_cons.1 hl
    refine ih hl ?_
    rw [placeOf_reconcilePlayer]
    split_ifs with hid
    · rw [hfirst hid.symm]
      exact hP _ h
    · exact h

/-- What a move of a player brings about, and further moves keep, a round brings about. -/
theorem placeOf_round (hl : ∀ ap' ∈ l, ap'.playerId = ap.playerId → ap' = ap) (hap : ap ∈ l)
    (hPQ : ∀ place, P place → Q (some (moved alpha ap place)))
    (hQ : ∀ place, Q place → Q (some (moved alpha ap place)))
    (h : P (placeOf players ap.playerId)) :
    Q (placeOf (l.foldl (fun players ap => reconcilePlayer alpha ap players) players)
      ap.playerId) := by
  induction l generalizing players with
  | nil => cases hap
  | cons ap' l ih =>
    obtain ⟨hfirst, hl⟩ := List.forall_mem_cons.1 hl
    rw [List.foldl_cons]
    by_cases hid : ap'.playerId = ap.playerId
    · refine placeOf_round_keeps hl hQ ?_
      rw [placeOf_reconcilePlayer, if_pos hid.symm, hfirst hid]
      exact hPQ _ h
    · refine ih hl (List.mem_of_ne_of_mem (fun he => hid (he ▸ rfl)) hap) ?_
      rwa [placeOf_reconcilePlayer, if_neg (Ne.symm hid)]

end Players

section Rounds

variable [FloatRounding] {alpha : ℚ} {bound : ℕ} {client authoritative : GameState}
  {ap : PlayerPos}

/-- From some round on the client has every player where the server has him. -/
def Settles (client authoritative : GameState) (alpha : ℚ) : Prop :=
  ∃ n, ∀ m, n ≤ m →
    (∀ ap ∈ authoritative.players, ap ∈ (reconciled client authoritative alpha m).players) ∧
      compareStates authoritative (reconciled client authoritative alpha m) = []

/-- A player that the client does not have, or has where it will get to the server's place, and how
far that is. -/
def Coming (alpha : ℚ) (bound : ℕ) (ap : PlayerPos) (d : ℕ) : Option (Int32 × Int32) → Prop
  | none => 0 < d
  | some (x, y) => Closing alpha bound ap.x d x ∧ Closing alpha bound ap.y d y

omit [FloatRounding] in
theorem Coming.mono {d : ℕ} {place : Option (Int32 × Int32)}
    (h : Coming alpha bound ap (d - 1) place) : Coming alpha bound ap d place := by
  have hmono : ∀ {a x : Int32}, Closing alpha bound a (d - 1) x → Closing alpha bound a d x :=
    fun h => ⟨h.within, h.comes, h.near.trans (Nat.sub_le d 1)⟩
  rcases place with _ | ⟨x, y⟩
  · exact Nat.lt_of_lt_of_le (show 0 < d - 1 from h) (Nat.sub_le d 1)
  · exact ⟨hmono h.1, hmono h.2⟩

/-- A player that the client has where it will not get to the server's place. -/
def Stuck (bound : ℕ) (ap : PlayerPos) (place : Option (Int32 × Int32)) : Prop :=
  ∃ x y, place = some (x, y) ∧ (Held bound ap.x x ∨ Held bound ap.y y)

/-- Only one of the server's players has his id. -/
def GameState.Alone (authoritative : GameState) (ap : PlayerPos) : Prop :=
  ∀ ap' ∈ authoritative.players, ap'.playerId = ap.playerId → ap' = ap

instance (authoritative : GameState) (ap : PlayerPos) : Decidable (authoritative.Alone ap) :=
  inferInstanceAs (Decidable (∀ ap' ∈ authoritative.players, _ → _))

variable (hα : 0 < alpha) (hα' : alpha ≤ 1) (hexact : ExactUpTo alpha bound)
  (hx : Within bound ap.x) (hy : Within bound ap.y)

include hα hα' hexact hx hy

theorem Coming.moved {d : ℕ} {place : Option (Int32 × Int32)}
    (h : Coming alpha bound ap d place) :
    Coming alpha bound ap (d - 1) (some (TinRpc.moved alpha ap place)) := by
  have hself : ∀ {a : Int32}, Within bound a → Closing alpha bound a (d - 1) a := by
    intro a ha
    exact ⟨ha, .inr ⟨fun _ => le_rfl, fun _ => le_rfl⟩, by rw [sub_self]; exact Nat.zero_le _⟩
  rcases place with _ | ⟨x, y⟩
  · exact ⟨hself hx, hself hy⟩
  · exact ⟨h.1.step hα hα' hexact hx, h.2.step hα hα' hexact hy⟩

theorem Stuck.moved (hpart : alpha < 1) {place : Option (Int32 × Int32)}
    (h : Stuck bound ap place) : Stuck bound ap (some (TinRpc.moved alpha ap place)) := by
  obtain ⟨x, y, rfl, h⟩ := h
  exact ⟨_, _, rfl, h.imp (·.step hα hα' hexact hpart hx) (·.step hα hα' hexact hpart hy)⟩

theorem reconciled_coming (hap : ap ∈ authoritative.players) (halone : authoritative.Alone ap)
    {d : ℕ} (h : Coming alpha bound ap d (placeOf client.players ap.playerId)) (n : ℕ) :
    Coming alpha bound ap (d - n)
      (placeOf (reconciled client authoritative alpha n).players ap.playerId) := by
  induction n with
  | zero => exact h
  | succ n ih =>
    have hnext := @placeOf_round _ alpha _ _ _ _ _ halone hap
      (fun _ h => Coming.moved hα hα' hexact hx hy h)
      (fun _ h => Coming.mono (Coming.moved hα hα' hexact hx hy h)) ih
    rw [Nat.sub_add_eq]
    exact hnext

theorem reconciled_stuck (hpart : alpha < 1) (halone : authoritative.Alone ap)
    (h : Stuck bound ap (placeOf client.players ap.playerId)) (n : ℕ) :
    Stuck bound ap (placeOf (reconciled client authoritative alpha n).players ap.playerId) := by
  induction n with
  | zero => exact h
  | succ n ih =>
    exact placeOf_round_keeps halone (fun _ h => Stuck.moved hα hα' hexact hx hy hpart h) ih

omit hα hα' hexact hx hy

omit [FloatRounding] in
theorem Coming.arrived {place : Option (Int32 × Int32)} (h : Coming alpha bound ap 0 place) :
    place = some (ap.x, ap.y) := by
  have hthere : ∀ {a x : Int32}, Closing alpha bound a 0 x → x = a := by
    intro a x h
    have := h.near
    exact Int32.toInt_inj.1 (by omega)
  rcases place with _ | ⟨x, y⟩
  · exact absurd h (Nat.lt_irrefl 0)
  · rw [hthere h.1, hthere h.2]

/-- No player can be at two places of the server's in the end. -/
theorem Settles.alone (h : Settles client authoritative alpha) (hap : ap ∈ authoritative.players) :
    authoritative.Alone ap := by
  obtain ⟨n, hn⟩ := h
  have hplace := compareStates_eq_nil.1 (hn n le_rfl).2
  intro ap' hap' hid
  have h' := hplace ap' hap'
  rw [hid, hplace ap hap] at h'
  obtain ⟨hx, hy⟩ := Prod.mk.inj (Option.some.inj h')
  obtain ⟨i, x, y⟩ := ap
  obtain ⟨i', x', y'⟩ := ap'
  simp only at hid hx hy
  rw [hid, hx, hy]

omit [FloatRounding] in
/-- A player who is short of his place in one coordinate is stuck there. -/
theorem stuck_of_short {p : PlayerPos} (hids : client.ids.Nodup) (hp : p ∈ client.players)
    (hid : p.playerId = ap.playerId) (hwithin : Within bound p.x ∧ Within bound p.y)
    (hshort : ¬(Beyond ap.x.toInt p.x.toInt ∧ Beyond ap.y.toInt p.y.toInt)) :
    Stuck bound ap (placeOf client.players ap.playerId) := by
  refine ⟨p.x, p.y, hid ▸ findPlayerPos_eq_some_of_mem hids hp, ?_⟩
  rcases not_and_or.1 hshort with h | h
  · exact .inl ⟨hwithin.1, h⟩
  · exact .inr ⟨hwithin.2, h⟩

omit [FloatRounding] in
/-- Any other player is coming, from no further than the bound allows. -/
theorem coming_of_beyond (hserver : Within bound ap.x ∧ Within bound ap.y)
    (hclient : ∀ p ∈ client.players, Within bound p.x ∧ Within bound p.y)
    (hway : alpha = 1 ∨ ∀ p ∈ client.players, p.playerId = ap.playerId →
      Beyond ap.x.toInt p.x.toInt ∧ Beyond ap.y.toInt p.y.toInt) :
    Coming alpha bound ap (2 * bound + 1) (placeOf client.players ap.playerId) := by
  rcases hplace : placeOf client.players ap.playerId with _ | ⟨x, y⟩
  · exact Nat.succ_pos _
  · obtain ⟨p, hfind, hp⟩ := Option.map_eq_some_iff.1 hplace
    have hid : p.playerId = ap.playerId := by simpa using List.find?_some hfind
    have hmem := List.mem_of_find?_eq_some hfind
    obtain ⟨rfl, rfl⟩ := Prod.mk.inj hp
    obtain ⟨hpx, hpy⟩ := hclient p hmem
    have hbeyond := hway.imp_right fun h => h p hmem hid
    unfold Within at *
    exact ⟨⟨hpx, hbeyond.imp_right And.left, by omega⟩,
      ⟨hpy, hbeyond.imp_right And.right, by omega⟩⟩

/-- In exact arithmetic the client comes to have every player where the server has him, and the
comparison is empty from then on, exactly where the server has no player at two places, and either a
round goes all the way or no coordinate of the client's is short of the server's: each is as far
from zero, on the same side. -/
theorem settles_iff (hα : 0 < alpha) (hα' : alpha ≤ 1) (hexact : ExactUpTo alpha bound)
    (hids : client.ids.Nodup)
    (hwithin : ∀ p ∈ authoritative.players ++ client.players,
      Within bound p.x ∧ Within bound p.y) :
    Settles client authoritative alpha ↔
      (∀ ap ∈ authoritative.players, authoritative.Alone ap) ∧
        (alpha = 1 ∨ ∀ ap ∈ authoritative.players, ∀ p ∈ client.players, p.playerId = ap.playerId →
          Beyond ap.x.toInt p.x.toInt ∧ Beyond ap.y.toInt p.y.toInt) := by
  have hserver : ∀ ap ∈ authoritative.players, Within bound ap.x ∧ Within bound ap.y :=
    fun ap h => hwithin ap (List.mem_append_left _ h)
  have hclient : ∀ p ∈ client.players, Within bound p.x ∧ Within bound p.y :=
    fun p h => hwithin p (List.mem_append_right _ h)
  constructor
  · intro hsettles
    have halone : ∀ ap ∈ authoritative.players, authoritative.Alone ap := fun _ => hsettles.alone
    refine ⟨halone, or_iff_not_imp_left.2 fun hne ap hap p hp hid => ?_⟩
    have hpart := lt_of_le_of_ne hα' hne
    by_contra hshort
    obtain ⟨n, hn⟩ := hsettles
    have hplace := compareStates_eq_nil.1 (hn n le_rfl).2
    obtain ⟨x, y, hxy, hheld⟩ := reconciled_stuck hα hα' hexact (hserver ap hap).1
      (hserver ap hap).2 hpart (halone ap hap) (stuck_of_short hids hp hid (hclient p hp) hshort) n
    obtain ⟨rfl, rfl⟩ := Prod.mk.inj (Option.some.inj (hxy.symm.trans (hplace ap hap)))
    have hself : ∀ a : ℤ, Beyond a a := fun a => ⟨fun _ => le_rfl, fun _ => le_rfl⟩
    rcases hheld with h | h
    · exact h.behind (hself _)
    · exact h.behind (hself _)
  · rintro ⟨halone, hway⟩
    have hthere : ∀ m, 2 * bound + 1 ≤ m → ∀ ap ∈ authoritative.players,
        findPlayerPos (reconciled client authoritative alpha m) ap.playerId
          = some (ap.x, ap.y) := by
      intro m hm ap hap
      obtain ⟨hx, hy⟩ := hserver ap hap
      have hcoming := coming_of_beyond ⟨hx, hy⟩ hclient (hway.imp_right fun h => h ap hap)
      have hend := reconciled_coming hα hα' hexact hx hy hap (halone ap hap) hcoming m
      rw [Nat.sub_eq_zero_of_le hm] at hend
      exact hend.arrived
    exact ⟨2 * bound + 1, fun m hm => ⟨fun ap hap => mem_of_findPlayerPos (hthere m hm ap hap),
      compareStates_eq_nil.2 (hthere m hm)⟩⟩

end Rounds

/-- Arithmetic that does not round. -/
instance exactRounding : FloatRounding := ⟨id, fun _ _ => rfl⟩

/-- A quarter of the way at a time, from 20 to 3 and from -9 to -5. -/
theorem settles_twenty :
    Settles ⟨0, [⟨"ann", 20, -9⟩]⟩ ⟨7, [⟨"bob", 4, 4⟩, ⟨"ann", 3, -5⟩]⟩ (1 / 4) := by
  have hexact : ExactUpTo (1 / 4) 20 := by
    have := @exactUpTo_dyadic 1 2 20 (by decide) (by decide) (by decide)
    norm_num at this ⊢
    exact this
  exact (settles_iff (by norm_num) (by norm_num) hexact (by decide) (by decide)).2
    ⟨by decide, .inr (by decide)⟩

/-- Half of the way from 0 to 1 is cut off to nothing. -/
theorem not_settles_one : ¬Settles ⟨7, [⟨"ann", 0, 0⟩]⟩ ⟨7, [⟨"ann", 1, 0⟩]⟩ (1 / 2) := by
  rintro ⟨n, hn⟩
  have hstays : ∀ n, reconciled ⟨7, [⟨"ann", 0, 0⟩]⟩ ⟨7, [⟨"ann", 1, 0⟩]⟩ (1 / 2) n
      = ⟨7, [⟨"ann", 0, 0⟩]⟩ := by
    intro n
    induction n with
    | zero => rfl
    | succ n ih =>
      rw [reconciled, ih]
      decide +kernel
  have hcompare := (hn n le_rfl).2
  rw [hstays] at hcompare
  exact absurd hcompare (by decide)

end TinRpc
