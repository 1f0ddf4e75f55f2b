import Mathlib.Data.Nat.Sqrt
import Mathlib.Data.Rat.Floor
import Mathlib.Tactic.Positivity
import Mathlib.Tactic.Ring
import TinRpc.Floats
import TinRpc.Proofs.Calls
import TinRpc.Proofs.Movement

/-!
# Where buildings are placed

A comparison with a NaN is false, so a request whose coordinates are not numbers passes the checks
of `TryPlaceBuilding`, and a building that got in that way is never in the way of another. Requests
whose coordinates are numbers, made where no building has a NaN, are placed within reach and clear
of the others.
-/

namespace TinRpc

open Platform

namespace Score

section Root

variable {q : ℚ} {n : ℕ}

theorem sqrt_floor_bounds {r : ℚ} (hr : 0 ≤ r) : ((r.floor.toNat.sqrt : ℕ) : ℚ) ^ 2 ≤ r ∧
    r < ((r.floor.toNat.sqrt + 1 : ℕ) : ℚ) ^ 2 := by
  have hfloor : (r.floor.toNat : ℤ) = ⌊r⌋ := Int.toNat_of_nonneg (Int.floor_nonneg.2 hr)
  constructor
  · have h : ((r.floor.toNat.sqrt : ℕ) : ℤ) ^ 2 ≤ ⌊r⌋ := by
      rw [← hfloor]
      exact_mod_cast Nat.sqrt_le' r.floor.toNat
    calc ((r.floor.toNat.sqrt : ℕ) : ℚ) ^ 2 ≤ (⌊r⌋ : ℤ) := by exact_mod_cast h
      _ ≤ r := Int.floor_le r
  · have h : ⌊r⌋ + 1 ≤ ((r.floor.toNat.sqrt + 1 : ℕ) : ℤ) ^ 2 := by
      rw [← hfloor]
      exact_mod_cast Nat.lt_succ_sqrt' r.floor.toNat
    calc r < ⌊r⌋ + 1 := Int.lt_floor_add_one r
      _ ≤ ((r.floor.toNat.sqrt + 1 : ℕ) : ℚ) ^ 2 := by exact_mod_cast h

theorem grid_pos : (0 : ℚ) < grid := by
  unfold grid
  norm_num

/-- A square root is a multiple of the grid's unit, or it is put between two neighbouring ones. -/
theorem root_cases (hq : 0 ≤ q) : ∃ k : ℕ,
    root q = k / grid ∧ q * grid ^ 2 = (k : ℚ) ^ 2 ∨
      root q = (k + 1 / 2) / grid ∧ (k : ℚ) ^ 2 < q * grid ^ 2 ∧
        q * grid ^ 2 < ((k + 1 : ℕ) : ℚ) ^ 2 := by
  obtain ⟨hlow, hhigh⟩ := sqrt_floor_bounds (mul_nonneg hq (sq_nonneg (grid : ℚ)))
  refine ⟨(q * grid ^ 2).floor.toNat.sqrt, ?_⟩
  unfold root
  simp only []
  split_ifs with hsq
  · exact .inl ⟨rfl, hsq.symm⟩
  · exact .inr ⟨rfl, lt_of_le_of_ne hlow hsq, hhigh⟩

theorem sq_lt_sq_iff {m n : ℕ} : (m : ℚ) ^ 2 < (n : ℚ) ^ 2 ↔ m < n := by
  norm_cast
  exact Nat.pow_lt_pow_iff_left two_ne_zero

theorem root_lt_iff (hq : 0 ≤ q) : root q < n / grid ↔ q < (n / grid) ^ 2 := by
  have hright : q < (n / grid : ℚ) ^ 2 ↔ q * grid ^ 2 < (n : ℚ) ^ 2 := by
    rw [div_pow, lt_div_iff₀ (by have := grid_pos; positivity)]
  rw [hright]
  obtain ⟨k, ⟨hroot, hsq⟩ | ⟨hroot, hlow, hhigh⟩⟩ := root_cases hq
  · rw [hroot, hsq, div_lt_div_iff_of_pos_right grid_pos, sq_lt_sq_iff, Nat.cast_lt]
  · rw [hroot, div_lt_div_iff_of_pos_right grid_pos]
    constructor
    · intro h
      have hkn : k + 1 ≤ n := by
        by_contra hlt
        have : (n : ℚ) ≤ k := by exact_mod_cast (by omega : n ≤ k)
        linarith
      exact hhigh.trans_le (by exact_mod_cast Nat.pow_le_pow_left hkn 2)
    · intro h
      have hkn : k < n := sq_lt_sq_iff.1 (hlow.trans h)
      have : (k : ℚ) + 1 ≤ n := by exact_mod_cast hkn
      linarith

theorem lt_root_iff (hq : 0 ≤ q) : n / grid < root q ↔ (n / grid) ^ 2 < q := by
  have hright : (n / grid : ℚ) ^ 2 < q ↔ (n : ℚ) ^ 2 < q * grid ^ 2 := by
    rw [div_pow, div_lt_iff₀ (by have := grid_pos; positivity)]
  rw [hright]
  obtain ⟨k, ⟨hroot, hsq⟩ | ⟨hroot, hlow, hhigh⟩⟩ := root_cases hq
  · rw [hroot, hsq, div_lt_div_iff_of_pos_right grid_pos, sq_lt_sq_iff, Nat.cast_lt]
  · rw [hroot, div_lt_div_iff_of_pos_right grid_pos]
    constructor
    · intro h
      have hkn : n ≤ k := by
        by_contra hlt
        have : (k : ℚ) + 1 ≤ n := by exact_mod_cast (by omega : k + 1 ≤ n)
        linarith
      have hle : (n : ℚ) ^ 2 ≤ (k : ℚ) ^ 2 := by exact_mod_cast Nat.pow_le_pow_left hkn 2
      exact hle.trans_lt hlow
    · intro h
      have hkn : n < k + 1 := sq_lt_sq_iff.1 (h.trans hhigh)
      have : (n : ℚ) ≤ k := by exact_mod_cast (by omega : n ≤ k)
      linarith

end Root

/-- Rounding keeps what is a number and what is not. -/
theorem round_eq_nan {a : Score} : round a = nan ↔ a = nan := by
  cases a <;> simp [round]

theorem round_eq_fin {a : Score} : (∃ q, round a = fin q) ↔ ∃ q, a = fin q := by
  cases a <;> simp [round]

end Score

open Score (nan inf fin grid root root_lt_iff lt_root_iff)

/-! ## Points -/

/-- A place in the world. -/
structure Point where
  x : Score
  y : Score
  z : Score

namespace Point

/-- The coordinates are numbers. -/
def Finite (a : Point) : Prop := (∃ q, a.x = fin q) ∧ (∃ q, a.y = fin q) ∧ ∃ q, a.z = fin q

/-- No coordinate is a NaN. -/
def NoNan (a : Point) : Prop := a.x ≠ nan ∧ a.y ≠ nan ∧ a.z ≠ nan

/-- The point with numbers for coordinates. -/
def ofRat (x y z : ℚ) : Point := ⟨fin x, fin y, fin z⟩

/-- The square of a distance. -/
def sqDist (ax ay az bx by' bz : ℚ) : ℚ := (ax - bx) ^ 2 + (ay - by') ^ 2 + (az - bz) ^ 2

/-- The points are in the world and no farther apart than `r`. -/
def Within (r : ℚ) (a b : Point) : Prop :=
  ∃ ax ay az bx by' bz, a = ofRat ax ay az ∧ b = ofRat bx by' bz ∧
    sqDist ax ay az bx by' bz ≤ r ^ 2

/-- A point is at least `r` away from one in the world; one with an infinite coordinate is. -/
def Apart (r : ℚ) (a b : Point) : Prop :=
  a.NoNan ∧ ∀ ax ay az bx by' bz, a = ofRat ax ay az → b = ofRat bx by' bz →
    r ^ 2 ≤ sqDist ax ay az bx by' bz

theorem Finite.exists_ofRat {a : Point} (h : a.Finite) : ∃ x y z, a = ofRat x y z := by
  obtain ⟨x, y, z⟩ := a
  obtain ⟨⟨qx, rfl⟩, ⟨qy, rfl⟩, ⟨qz, rfl⟩⟩ := h
  exact ⟨qx, qy, qz, rfl⟩

theorem finite_ofRat (x y z : ℚ) : (ofRat x y z).Finite := ⟨⟨x, rfl⟩, ⟨y, rfl⟩, ⟨z, rfl⟩⟩

theorem Finite.noNan {a : Point} (h : a.Finite) : a.NoNan := by
  obtain ⟨x, y, z, rfl⟩ := h.exists_ofRat
  exact ⟨by simp [ofRat], by simp [ofRat], by simp [ofRat]⟩

theorem sqDist_nonneg (ax ay az bx by' bz : ℚ) : 0 ≤ sqDist ax ay az bx by' bz := by
  unfold sqDist
  positivity

variable [Hashes]

/-- `Distance`. -/
def dist (a b : Point) : Score := distance a.x a.y a.z b.x b.y b.z

theorem dist_ofRat (ax ay az bx by' bz : ℚ) :
    dist (ofRat ax ay az) (ofRat bx by' bz) = fin (root (sqDist ax ay az bx by' bz)) := by
  have hsum : (ax + -bx) * (ax + -bx) + (ay + -by') * (ay + -by') + (az + -bz) * (az + -bz)
      = sqDist ax ay az bx by' bz := by
    unfold sqDist
    ring
  show Score.sqrt (fin (_ + _ + _)) = _
  rw [hsum, Score.sqrt, if_neg (not_lt.2 (sqDist_nonneg ..))]

theorem far_iff (ax ay az bx by' bz : ℚ) :
    (fin 8).lt (dist (ofRat ax ay az) (ofRat bx by' bz)) = true
      ↔ 8 ^ 2 < sqDist ax ay az bx by' bz := by
  have hgrid : (8 : ℚ) = (8 * grid : ℕ) / grid := by
    unfold grid
    norm_num
  rw [dist_ofRat]
  show decide (8 < root _) = true ↔ _
  rw [decide_eq_true_iff, hgrid]
  exact lt_root_iff (sqDist_nonneg ..)

theorem close_iff (ax ay az bx by' bz : ℚ) :
    (dist (ofRat ax ay az) (ofRat bx by' bz)).lt (fin (8 / 10)) = true
      ↔ sqDist ax ay az bx by' bz < (8 / 10) ^ 2 := by
  have hgrid : (8 / 10 : ℚ) = (8 * 2 ^ 20 : ℕ) / grid := by
    unfold grid
    norm_num
  rw [dist_ofRat]
  show decide (root _ < 8 / 10) = true ↔ _
  rw [decide_eq_true_iff, hgrid]
  exact root_lt_iff (sqDist_nonneg ..)

/-- The square of the difference of two coordinates. -/
theorem square_sub (a : ℚ) {b : Score} (hb : b ≠ nan) :
    (mul (sub (fin a) b) (sub (fin a) b) = inf false ∧ ¬∃ q, b = fin q) ∨
      (∃ q, mul (sub (fin a) b) (sub (fin a) b) = fin q) ∧ ∃ q, b = fin q := by
  cases b with
  | nan => exact absurd rfl hb
  | inf s => exact .inl ⟨by cases s <;> rfl, by simp⟩
  | fin q => exact .inr ⟨⟨_, rfl⟩, q, rfl⟩

/-- A point with an infinite coordinate is far from any in the world. -/
theorem far_of_infinite {a b : Point} (ha : a.Finite) (hb : b.NoNan) (hinf : ¬b.Finite) :
    (fin 8).lt (dist a b) = true := by
  obtain ⟨ax, ay, az, rfl⟩ := ha.exists_ofRat
  obtain ⟨hx, hy, hz⟩ := hb
  have hsum : add (add (mul (sub (fin ax) b.x) (sub (fin ax) b.x))
      (mul (sub (fin ay) b.y) (sub (fin ay) b.y)))
      (mul (sub (fin az) b.z) (sub (fin az) b.z)) = inf false := by
    rcases square_sub ax hx with ⟨ex, -⟩ | ⟨⟨qx, ex⟩, fx⟩ <;>
      rcases square_sub ay hy with ⟨ey, -⟩ | ⟨⟨qy, ey⟩, fy⟩ <;>
        rcases square_sub az hz with ⟨ez, -⟩ | ⟨⟨qz, ez⟩, fz⟩ <;> rw [ex, ey, ez]
    case inr.inr.inr => exact absurd ⟨fx, fy, fz⟩ hinf
    all_goals rfl
  have hdist : dist (ofRat ax ay az) b = inf false := congrArg Score.sqrt hsum
  rw [hdist]
  rfl

end Point

def Player.point (p : Player Score) : Point := ⟨p.x, p.y, p.z⟩

def BuildingState.point (b : BuildingState Score) : Point := ⟨b.x, b.y, b.z⟩

def BuildingApplyResult.point (r : BuildingApplyResult Score) : Point := ⟨r.x, r.y, r.z⟩

namespace WorldService

variable [Hashes]

/-- A place for a building: in the world, in reach of the player and clear of what stands there. -/
def ValidPlace (w : WorldService Score) (player : Player Score) (b : Point) : Prop :=
  b.Finite ∧ Point.Within 8 player.point b ∧
    ∀ e ∈ w.buildings, Point.Apart (8 / 10) e.point b

/-- The checks an accepted placement has passed. -/
structure Checked (w : WorldService Score) (player : Player Score) (request b : Point) : Prop where
  rounded : b = ⟨Score.round request.x, Score.round request.y, Score.round request.z⟩
  near : (fin 8).lt (player.point.dist b) = false
  clear : ∀ e ∈ w.buildings, (e.point.dist b).lt (fin (8 / 10)) = false

theorem tryPlaceBuilding_checked {w : WorldService Score} {p : String} {type : ℤ}
    {x y z yaw : Score} (hok : (w.tryPlaceBuilding p type x y z yaw).result.success = true) :
    ∃ player, w.players.lookup p = some player ∧
      Checked w player ⟨x, y, z⟩ (w.tryPlaceBuilding p type x y z yaw).result.point := by
  rcases hp : w.players.lookup p with _ | player
  · simp [tryPlaceBuilding, hp] at hok
  refine ⟨player, rfl, ?_⟩
  rcases hc : buildingCost type with _ | ⟨wood, stone⟩
  · simp [tryPlaceBuilding, hp, hc] at hok
  unfold tryPlaceBuilding at hok ⊢
  simp only [hp, hc] at hok ⊢
  split at hok
  · cases hok
  next hnear =>
  split at hok
  · cases hok
  next hmaterial =>
  split at hok
  · cases hok
  next hclear =>
  rw [if_neg hnear, if_neg hmaterial, if_neg hclear]
  refine ⟨rfl, Bool.eq_false_iff.2 hnear, fun e he => Bool.eq_false_iff.2 fun hlt => hclear ?_⟩
  exact List.any_eq_true.2 ⟨e, he, hlt⟩

/-- What was checked is a valid place exactly if the numbers compared were numbers. -/
theorem Checked.validPlace_iff {w : WorldService Score} {player : Player Score}
    {request b : Point} (h : Checked w player request b) : ValidPlace w player b ↔
      request.Finite ∧ player.point.Finite ∧ ∀ e ∈ w.buildings, e.point.NoNan := by
  have hfinite : b.Finite ↔ request.Finite := by
    rw [h.rounded]
    unfold Point.Finite
    simp only [Score.round_eq_fin]
  constructor
  · rintro ⟨hb, ⟨px, py, pz, bx, by', bz, hplayer, -⟩, hclear⟩
    exact ⟨hfinite.1 hb, hplayer ▸ Point.finite_ofRat .., fun e he => (hclear e he).1⟩
  · rintro ⟨hrequest, hplayer, hbuildings⟩
    obtain ⟨bx, by', bz, hb⟩ := (hfinite.2 hrequest).exists_ofRat
    obtain ⟨px, py, pz, hp⟩ := hplayer.exists_ofRat
    refine ⟨hfinite.2 hrequest, ⟨px, py, pz, bx, by', bz, hp, hb, ?_⟩, fun e he =>
      ⟨hbuildings e he, fun ex ey ez bx by' bz hex hb => ?_⟩⟩
    · have hnear := h.near
      rw [hp, hb] at hnear
      by_contra hfar
      rw [(Point.far_iff ..).2 (not_le.1 hfar)] at hnear
      cases hnear
    · have hclear := h.clear e he
      rw [hex, hb] at hclear
      by_contra hclose
      rw [(Point.close_iff ..).2 (not_le.1 hclose)] at hclear
      cases hclear

/-! ## Runs -/

/-- The players stand at numbers, and no building has a NaN. -/
structure Numbered (w : WorldService Score) : Prop where
  players : ∀ p player, w.players.lookup p = some player → player.point.Finite
  buildings : ∀ b ∈ w.buildings, b.point.NoNan

end WorldService

/-- The call has no NaN for a building's coordinate, and no player comes back to a place that is
not in the world. -/
def Call.Numbered : Call Score → Prop
  | .tryPlaceBuilding _ _ x y z _ => (Point.mk x y z).NoNan
  | .enterWithState _ _ _ x y z _ _ => (Point.mk x y z).Finite
  | _ => True

namespace WorldService

section Runs

variable [Hashes] {w : WorldService Score}

/-- Where a player is who has entered. -/
theorem motion_entered (p name : String) (now : ℤ) (x y z yaw : Score) (inv : Inventory)
    {m : Motion Score} (h : (w.enterWithState p name now x y z yaw inv).1.motion p = some m) :
    m.x = x ∧ m.y = y ∧ m.z = z := by
  unfold enterWithState at h
  simp only [] at h
  rw [motion_sendWorldStateTo, motion_setPlayer, if_pos rfl] at h
  rw [← Option.some.inj h]
  exact ⟨rfl, rfl, rfl⟩

theorem motion_selected (p room : String) (map now : ℤ) {m : Motion Score}
    (h : (w.selectRoom p room map now).world.motion p = some m) :
    w.motion p = some m ∨ (Point.mk m.x m.y m.z).Finite := by
  unfold selectRoom at h
  rcases hp : w.players.lookup p with _ | t
  · rw [hp] at h
    exact .inl h
  rw [hp] at h
  dsimp only at h
  split_ifs at h
  · exact .inl h
  · dsimp only at h
    rw [motion_sendWorldStateTo, motion_setPlayer, if_pos rfl] at h
    rw [← Option.some.inj h]
    exact .inr ⟨⟨_, rfl⟩, ⟨_, rfl⟩, _, rfl⟩

/-- What `std::clamp` gives back as it was is a number. -/
theorem clamp_finite {v lo hi : Score} (hlo : ∃ q, lo = fin q) (hhi : ∃ q, hi = fin q)
    (h : eq (clamp v lo hi) v = true) : ∃ q, clamp v lo hi = fin q := by
  obtain ⟨lo, rfl⟩ := hlo
  obtain ⟨hi, rfl⟩ := hhi
  unfold clamp at h ⊢
  split_ifs at h ⊢
  · exact ⟨_, rfl⟩
  · exact ⟨_, rfl⟩
  · next hl hh =>
    cases v with
    | nan => cases h
    | inf s => cases s <;> simp_all [Platform.lt, Score.lt]
    | fin q => exact ⟨q, rfl⟩

theorem motion_moved (p : String) (x y z yaw : Score) (now appearance : ℤ) {m : Motion Score}
    (h : (w.tryMove p x y z yaw now appearance).world.motion p = some m) :
    (∃ old, w.motion p = some old ∧ old.x = m.x ∧ old.y = m.y ∧ old.z = m.z) ∨
      (Point.mk m.x m.y m.z).Finite := by
  unfold tryMove at h
  rcases hp : w.players.lookup p with _ | t
  · rw [hp] at h
    exact .inl ⟨m, h, rfl, rfl, rfl⟩
  rw [hp] at h
  dsimp only at h
  split at h
  · rw [motion_setPlayer, if_pos rfl] at h
    rw [← Option.some.inj h]
    exact .inl ⟨t.motion, by simp [motion, hp], rfl, rfl, rfl⟩
  · next hok =>
    dsimp only at h
    rw [motion_broadcastPose, motion_setPlayer, if_pos rfl] at h
    rw [← Option.some.inj h]
    simp only [Bool.or_eq_true, Bool.not_eq_true', not_or, Bool.not_eq_false] at hok
    obtain ⟨⟨⟨hx, hy⟩, hz⟩, -⟩ := hok
    exact .inr ⟨clamp_finite ⟨_, rfl⟩ ⟨_, rfl⟩ hx, clamp_finite ⟨_, rfl⟩ ⟨_, rfl⟩ hy,
      clamp_finite ⟨_, rfl⟩ ⟨_, rfl⟩ hz⟩

/-- A request without a NaN, in a world without one, is placed at a valid place. -/
theorem Numbered.validPlace (hw : w.Numbered) {p : String} {type : ℤ} {x y z yaw : Score}
    (hrequest : (Point.mk x y z).NoNan)
    (hok : (w.tryPlaceBuilding p type x y z yaw).result.success = true) :
    ∃ player, w.players.lookup p = some player ∧
      ValidPlace w player (w.tryPlaceBuilding p type x y z yaw).result.point := by
  obtain ⟨player, hp, hchecked⟩ := tryPlaceBuilding_checked hok
  refine ⟨player, hp, hchecked.validPlace_iff.2 ⟨?_, hw.players p player hp, hw.buildings⟩⟩
  by_contra hinf
  have hrounded := hchecked.rounded
  have hnear := hchecked.near
  generalize (w.tryPlaceBuilding p type x y z yaw).result.point = b at hrounded hnear
  have hb : b.NoNan ∧ ¬b.Finite := by
    rw [hrounded]
    unfold Point.NoNan Point.Finite at *
    simp only [ne_eq, Score.round_eq_nan, Score.round_eq_fin]
    exact ⟨hrequest, hinf⟩
  rw [Point.far_of_infinite (hw.players p player hp) hb.1 hb.2] at hnear
  cases hnear

theorem Numbered.motion_enter (hw : w.Numbered) {q name : String} {now : ℤ} {m : Motion Score}
    (hm : (w.enter q name now).1.motion q = some m) : (Point.mk m.x m.y m.z).Finite := by
  unfold enter at hm
  rcases hq : w.players.lookup q with _ | t
  · rw [hq] at hm
    obtain ⟨hx, hy, hz⟩ := motion_entered _ _ _ _ _ _ _ _ hm
    rw [hx, hy, hz]
    exact ⟨⟨_, rfl⟩, ⟨_, rfl⟩, _, rfl⟩
  · rw [hq] at hm
    obtain ⟨hx, hy, hz⟩ := motion_entered _ _ _ _ _ _ _ _ hm
    rw [hx, hy, hz]
    exact hw.players q t hq

omit [Hashes] in
/-- Who has left has no place, unless he was not there. -/
theorem motion_leaving {q : String} {m : Motion Score} (hm : (w.leave q).1.motion q = some m) :
    w.motion q = some m := by
  unfold leave at hm
  rcases hq : w.players.lookup q with _ | t
  · rw [hq] at hm
    exact hm
  · rw [hq] at hm
    simp [motion] at hm

theorem Numbered.players_run (hw : w.Numbered) {k : Call Score} (hk : k.Numbered) (p : String)
    (player : Player Score) (hp : (k.run w).world.players.lookup p = some player) :
    player.point.Finite := by
  have hold : ∀ m, w.motion p = some m → (Point.mk m.x m.y m.z).Finite := by
    intro m hm
    obtain ⟨t, ht, rfl⟩ := Option.map_eq_some_iff.1 hm
    exact hw.players p t ht
  have hm : (k.run w).world.motion p = some player.motion := by
    unfold motion
    rw [hp]
    rfl
  show (Point.mk player.motion.x player.motion.y player.motion.z).Finite
  generalize player.motion = m at hm
  by_cases hstays : k.Stays p ∧ k.movedAt p = none
  · exact hold m (by rw [← Call.motion_run w hstays.1 hstays.2, hm])
  cases k with
  | enterWithState q name now x y z yaw inv =>
    obtain rfl : q = p := by
      by_contra hne
      exact hstays ⟨hne, rfl⟩
    obtain ⟨hx, hy, hz⟩ := motion_entered q name now x y z yaw inv hm
    rw [hx, hy, hz]
    exact hk
  | enter q name now =>
    obtain rfl : q = p := by
      by_contra hne
      exact hstays ⟨hne, rfl⟩
    exact hw.motion_enter hm
  | leave q =>
    obtain rfl : q = p := by
      by_contra hne
      exact hstays ⟨hne, rfl⟩
    exact hold m (motion_leaving hm)
  | selectRoom q room map now =>
    obtain rfl : q = p := by
      by_contra hne
      exact hstays ⟨hne, rfl⟩
    rcases motion_selected q room map now hm with h | h
    · exact hold m h
    · exact h
  | tryMove q x y z yaw now appearance =>
    obtain rfl : q = p := by
      by_contra hne
      exact hstays ⟨trivial, if_neg hne⟩
    rcases motion_moved q x y z yaw now appearance hm with ⟨old, hmo, hx, hy, hz⟩ | h
    · rw [← hx, ← hy, ← hz]
      exact hold old hmo
    · exact h
  | _ => exact absurd ⟨trivial, rfl⟩ hstays

/-- A building that is new was placed by the call. -/
theorem mem_buildings_run {k : Call Score} {b : BuildingState Score}
    (hb : b ∈ (k.run w).world.buildings) : b ∈ w.buildings ∨
      ∃ p type x y z yaw, k = .tryPlaceBuilding p type x y z yaw ∧
        (w.tryPlaceBuilding p type x y z yaw).result.success = true ∧
        b.point = (w.tryPlaceBuilding p type x y z yaw).result.point := by
  have hcontent := congrArg Content.buildings (Call.run_content w k)
  change (k.run w).world.buildings = _ at hcontent
  rw [hcontent] at hb
  rcases he : k.effect w with _ | e
  · rw [he] at hb
    exact .inl hb
  rw [he] at hb
  cases e with
  | built p' b' =>
    cases k with
    | tryPlaceBuilding p type x y z yaw =>
      simp only [Call.effect] at he
      split_ifs at he with hok
      simp only [Option.some.injEq, Effect.built.injEq] at he
      rcases List.mem_append.1 hb with hb | hb
      · exact .inl hb
      · refine .inr ⟨p, type, x, y, z, yaw, rfl, hok, ?_⟩
        rw [List.mem_singleton.1 hb, ← he.2]
        rfl
    | tryGather p node => exact absurd (Call.effect_gather w he) (by simp)
    | tryCraft p recipe => exact absurd (Call.effect_craft w he) (by simp)
    | applyVoxelEdit p x y z action type => exact absurd (Call.effect_edit w he) (by simp)
    | _ => cases he
  | _ => exact .inl hb

theorem Numbered.run (hw : w.Numbered) {k : Call Score} (hk : k.Numbered) :
    (k.run w).world.Numbered := by
  refine ⟨hw.players_run hk, fun b hb => ?_⟩
  rcases mem_buildings_run hb with hb | ⟨p, type, x, y, z, yaw, rfl, hok, hpoint⟩
  · exact hw.buildings b hb
  · obtain ⟨player, -, hvalid⟩ := hw.validPlace hk hok
    rw [hpoint]
    exact hvalid.1.noNan

theorem Numbered.runAll (ks : List (Call Score)) : ∀ {w : WorldService Score}, w.Numbered →
    (∀ k ∈ ks, k.Numbered) → (Call.runAll w ks).Numbered := by
  induction ks with
  | nil => exact fun hw _ => hw
  | cons k ks ih =>
    intro w hw hks
    obtain ⟨hk, hks⟩ := List.forall_mem_cons.1 hks
    exact ih (hw.run hk) hks

/-- An accepted placement is valid exactly if the coordinates asked for and those of the player are
numbers and no building has a NaN. So in a run from such a world in which no request has a NaN,
every accepted placement is valid. -/
theorem placement_valid_iff :
    (∀ (w : WorldService Score) (p : String) (type : ℤ) (x y z yaw : Score) (player : Player Score),
      w.players.lookup p = some player →
      (w.tryPlaceBuilding p type x y z yaw).result.success = true →
      (ValidPlace w player (w.tryPlaceBuilding p type x y z yaw).result.point ↔
        (Point.mk x y z).Finite ∧ player.point.Finite ∧ ∀ e ∈ w.buildings, e.point.NoNan)) ∧
    ∀ (w : WorldService Score) (ks : List (Call Score)), w.Numbered → (∀ k ∈ ks, k.Numbered) →
      ∀ (p : String) (type : ℤ) (x y z yaw : Score), (Point.mk x y z).NoNan →
        ((Call.runAll w ks).tryPlaceBuilding p type x y z yaw).result.success = true →
        ∃ player, (Call.runAll w ks).players.lookup p = some player ∧
          ValidPlace (Call.runAll w ks) player
            ((Call.runAll w ks).tryPlaceBuilding p type x y z yaw).result.point := by
  refine ⟨fun w p type x y z yaw player hp hok => ?_, fun w ks hw hks p type x y z yaw hxyz hok =>
    (Numbered.runAll ks hw hks).validPlace hxyz hok⟩
  obtain ⟨player', hp', hchecked⟩ := tryPlaceBuilding_checked hok
  rw [hp, Option.some_inj] at hp'
  exact hp' ▸ hchecked.validPlace_iff

end Runs

/-- Ann may build a floor nowhere. -/
theorem nan_placed :
    ((WorldService.fresh.enter "ann" "ann" 0).1.tryPlaceBuilding "ann" 1 nan (fin 0) (fin 0)
        (fin 0)).result.success = true ∧
      ∀ player : Player Score, ¬ValidPlace (WorldService.fresh.enter "ann" "ann" 0).1 player
        ((WorldService.fresh.enter "ann" "ann" 0).1.tryPlaceBuilding "ann" 1 nan (fin 0) (fin 0)
          (fin 0)).result.point := by
  constructor
  · decide +kernel
  · rintro player ⟨⟨⟨q, hq⟩, -⟩, -⟩
    cases hq

/-- A floor and another one beside it. -/
theorem placement_valid_ann :
    let w := Call.runAll (WorldService.fresh : WorldService Score)
      [.enter "ann" "ann" 0, .tryPlaceBuilding "ann" 1 (fin 1) (fin 0) (fin 0) (fin 0)]
    ∃ player, w.players.lookup "ann" = some player ∧ ValidPlace w player
      (w.tryPlaceBuilding "ann" 1 (fin 2) (fin 0) (fin 0) (fin 0)).result.point := by
  refine placement_valid_iff.2 WorldService.fresh _ ⟨fun p player h => ?_, fun b hb => ?_⟩ ?_
    "ann" 1 (fin 2) (fin 0) (fin 0) (fin 0) (Point.finite_ofRat 2 0 0).noNan (by decide +kernel)
  · cases h
  · cases hb
  · intro k hk
    rcases List.mem_cons.1 hk with rfl | hk
    · trivial
    · rw [List.mem_singleton.1 hk]
      exact (Point.finite_ofRat 1 0 0).noNan

end WorldService

end TinRpc
