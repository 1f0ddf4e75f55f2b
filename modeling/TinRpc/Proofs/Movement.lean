import TinRpc.Lib.Bucket
import TinRpc.Proofs.Operations

/-!
# How fast a player moves

`TryMove` keeps a token bucket in `move_allowance` and `last_move_ms`: it holds at most 15, fills by
15 in a second, and an accepted move takes its length out. No other call touches it before the
player enters again, leaves or selects a room.
-/

namespace TinRpc

open Platform

/-- Exact numbers, with square roots that are not negative. -/
class Exact (K : Type) [Field K] [LinearOrder K] [Platform K] : Prop where
  ofRat_eq (q : ℚ) : ofRat q = (q : K)
  add_eq (a b : K) : add a b = a + b
  sub_eq (a b : K) : sub a b = a - b
  mul_eq (a b : K) : mul a b = a * b
  div_eq (a b : K) : div a b = a / b
  lt_eq (a b : K) : lt a b = decide (a < b)
  eq_eq (a b : K) : eq a b = decide (a = b)
  sqrt_nonneg (a : K) : 0 ≤ sqrt a

instance : Exact ℚ where
  ofRat_eq _ := rfl
  add_eq _ _ := rfl
  sub_eq _ _ := rfl
  mul_eq _ _ := rfl
  div_eq _ _ := rfl
  lt_eq _ _ := rfl
  eq_eq _ _ := rfl
  sqrt_nonneg _ := div_nonneg (Nat.cast_nonneg _) (Nat.cast_nonneg _)

/-- Where a player is, what he may move and since when. -/
structure Motion (F : Type) where
  x : F
  y : F
  z : F
  allowance : F
  lastMs : ℤ

def Player.motion {F : Type} (p : Player F) : Motion F :=
  ⟨p.x, p.y, p.z, p.moveAllowance, p.lastMoveMs⟩

def WorldService.motion {F : Type} (w : WorldService F) (playerId : String) : Option (Motion F) :=
  (w.players.lookup playerId).map Player.motion

namespace Call

variable {F : Type}

/-- The call lets the player's motion alone, but for his moves. -/
def Stays (p : String) : Call F → Prop
  | .enter q .. | .enterWithState q .. | .leave q | .selectRoom q .. => q ≠ p
  | _ => True

/-- When a call asks for a move of the player. -/
def movedAt (p : String) : Call F → Option ℤ
  | .tryMove q _ _ _ _ now _ => if q = p then some now else none
  | _ => none

end Call

namespace WorldService

variable {F : Type} (w : WorldService F)

theorem motion_setPlayer (p : Player F) (id q : String) :
    (w.setPlayer p id).motion q = if q = id then some p.motion else w.motion q :=
  w.read_setPlayer Player.motion p id q

theorem motion_sendWorldStateTo (p q : String) :
    (w.sendWorldStateTo p).1.motion q = w.motion q := by
  unfold sendWorldStateTo
  rcases w.players.lookup p with _ | t <;> rfl

theorem motion_broadcastPose (player : Player F) (now : ℤ) (q : String) :
    (w.broadcastPose player now false).1.motion q = w.motion q :=
  w.read_broadcastPose Player.motion (fun _ _ => rfl) player now q

theorem motion_operation {w' : WorldService F} {p : String} (h : w.Recounted w' p) (q : String) :
    w'.motion q = w.motion q := h.read Player.motion (fun _ _ => rfl) q

theorem motion_leave {p q : String} (h : p ≠ q) : (w.leave p).1.motion q = w.motion q := by
  unfold leave
  rcases w.players.lookup p with _ | t
  · rfl
  · simp only [motion, AList.lookup_erase_if, if_neg (Ne.symm h)]

variable [Platform F]

theorem motion_enterWithState {p q : String} (h : p ≠ q) (name : String) (now : ℤ) (x y z yaw : F)
    (inv : Inventory) : (w.enterWithState p name now x y z yaw inv).1.motion q = w.motion q := by
  unfold enterWithState
  simp only []
  rw [motion_sendWorldStateTo, motion_setPlayer, if_neg (Ne.symm h)]

theorem motion_selectRoom {p q : String} (h : p ≠ q) (room : String) (map now : ℤ) :
    (w.selectRoom p room map now).world.motion q = w.motion q := by
  unfold selectRoom
  rcases w.players.lookup p with _ | t
  · rfl
  dsimp only
  split_ifs
  · rfl
  · dsimp only
    rw [motion_sendWorldStateTo, motion_setPlayer, if_neg (Ne.symm h)]

theorem motion_tryMove_of_ne {p q : String} (h : p ≠ q) (x y z yaw : F) (now appearance : ℤ) :
    (w.tryMove p x y z yaw now appearance).world.motion q = w.motion q := by
  unfold tryMove
  rcases w.players.lookup p with _ | t
  · rfl
  dsimp only
  split
  · rw [motion_setPlayer, if_neg (Ne.symm h)]
  · dsimp only
    rw [motion_broadcastPose, motion_setPlayer, if_neg (Ne.symm h)]

end WorldService

/-- A call that is no move of the player keeps his motion. -/
theorem Call.motion_run {F : Type} [Platform F] {k : Call F} {p : String} (w : WorldService F)
    (hk : k.Stays p) (hm : k.movedAt p = none) : (k.run w).world.motion p = w.motion p := by
  cases k with
  | enter q name now =>
    obtain ⟨x, y, z, yaw, he⟩ := w.enter_eq q name now
    show (w.enter q name now).1.motion p = _
    rw [he]
    exact w.motion_enterWithState hk name now x y z yaw _
  | enterWithState q name now x y z yaw inv =>
    exact w.motion_enterWithState hk name now x y z yaw inv
  | leave q => exact w.motion_leave hk
  | selectRoom q room map now => exact w.motion_selectRoom hk room map now
  | tryMove q x y z yaw now appearance =>
    refine w.motion_tryMove_of_ne (fun h => ?_) x y z yaw now appearance
    rw [Call.movedAt, if_pos h] at hm
    cases hm
  | tryGather q node => exact w.motion_operation (w.recounted_operation (.tryGather q node)) p
  | tryPlaceBuilding q type x y z yaw =>
    exact w.motion_operation (w.recounted_operation (.tryPlaceBuilding q type x y z yaw)) p
  | tryCraft q recipe => exact w.motion_operation (w.recounted_operation (.tryCraft q recipe)) p
  | applyVoxelEdit q x y z action type =>
    exact w.motion_operation (w.recounted_operation (.applyVoxelEdit q x y z action type)) p

section Exact

variable {K : Type} [Field K] [LinearOrder K] [Platform K] [Exact K]

theorem distance_nonneg (ax ay az bx by' bz : K) : 0 ≤ distance ax ay az bx by' bz :=
  Exact.sqrt_nonneg _

/-- `std::clamp` gives the number back just where it is between the bounds. -/
theorem clamp_eq_iff [IsStrictOrderedRing K] (v : K) :
    clamp v (ofRat (-500)) (ofRat 500) = v ↔ -500 ≤ v ∧ v ≤ 500 := by
  unfold clamp
  simp only [Exact.lt_eq, Exact.ofRat_eq, decide_eq_true_eq, Rat.cast_neg, Rat.cast_ofNat]
  split_ifs with hlo hhi
  · exact ⟨fun h => absurd h (ne_of_gt hlo), fun h => absurd hlo (not_lt.2 h.1)⟩
  · exact ⟨fun h => absurd h (ne_of_lt hhi), fun h => absurd hhi (not_lt.2 h.2)⟩
  · exact ⟨fun _ => ⟨not_lt.1 hlo, not_lt.1 hhi⟩, fun _ => rfl⟩

/-- The bucket of a player. -/
def Motion.bucket (m : Motion K) : Bucket K := ⟨m.allowance, m.lastMs⟩

/-- The part of the world a player can move in. -/
def InBounds (x y z : K) : Prop :=
  (-500 ≤ x ∧ x ≤ 500) ∧ (-500 ≤ y ∧ y ≤ 500) ∧ (-500 ≤ z ∧ z ≤ 500)

variable [IsStrictOrderedRing K] (w : WorldService K)

/-- A move is accepted, inside the bounds and paid for, or it is refused and tells the player where
he still is. The bucket is filled up either way. -/
theorem tryMove_cases {p : String} {m : Motion K} (hp : w.motion p = some m) (x y z yaw : K)
    {now : ℤ} (appearance : ℤ) (hnow : m.lastMs ≤ now) :
    let r := w.tryMove p x y z yaw now appearance
    let level := m.bucket.refilled 15 (15 / 1000) now
    (r.result.success = true ∧
        (r.result.correctedX, r.result.correctedY, r.result.correctedZ) = (x, y, z) ∧
        InBounds x y z ∧ distance x y z m.x m.y m.z ≤ level ∧
        r.world.motion p = some ⟨x, y, z, level - distance x y z m.x m.y m.z, now⟩) ∨
      (r.result.success = false ∧
        (r.result.correctedX, r.result.correctedY, r.result.correctedZ) = (m.x, m.y, m.z) ∧
        r.world.motion p = some { m with allowance := level, lastMs := now }) := by
  obtain ⟨pl, hpl, rfl⟩ := Option.map_eq_some_iff.1 hp
  have hlevel : fmin (ofRat 15) (add pl.moveAllowance
      (div (mul (ofRat 15) (ofRat (max (now - pl.lastMoveMs) 0 : ℤ))) (ofRat 1000)))
        = pl.motion.bucket.refilled 15 (15 / 1000) now := by
    have hmax : max (now - pl.lastMoveMs) 0 = now - pl.lastMoveMs :=
      max_eq_left (Int.sub_nonneg_of_le hnow)
    have hmin : ∀ a b : K, fmin a b = min a b := by
      intro a b
      unfold fmin
      rw [Exact.lt_eq, min_def]
      by_cases h : b < a
      · simp [h, not_le.2 h]
      · simp [h, not_lt.1 h]
    rw [hmax, hmin]
    simp only [Exact.ofRat_eq, Exact.add_eq, Exact.div_eq, Exact.mul_eq, Bucket.refilled,
      Motion.bucket, Player.motion, Rat.cast_ofNat, Rat.cast_intCast]
    congr 2
    ring
  unfold WorldService.tryMove
  simp only [hpl, hlevel]
  generalize pl.motion.bucket.refilled 15 (15 / 1000) now = level
  split
  · next hbad =>
    refine .inr ⟨rfl, rfl, ?_⟩
    rw [WorldService.motion_setPlayer, if_pos rfl]
    rfl
  · next hgood =>
    simp only [Bool.or_eq_true, Bool.not_eq_true', not_or, Exact.eq_eq, Exact.lt_eq,
      decide_eq_true_eq, decide_eq_false_iff_not, not_not, not_lt] at hgood
    obtain ⟨⟨⟨hx, hy⟩, hz⟩, hd⟩ := hgood
    rw [hx, hy, hz] at hd ⊢
    have hmax : fmax (ofRat 0) (sub level (distance x y z pl.x pl.y pl.z))
        = level - distance x y z pl.x pl.y pl.z := by
      have := sub_nonneg.2 hd
      unfold fmax
      rw [Exact.lt_eq, Exact.sub_eq, Exact.ofRat_eq, Rat.cast_zero]
      split_ifs with h
      · rfl
      · rw [decide_eq_true_eq, not_lt] at h
        exact le_antisymm this h
    refine .inl ⟨rfl, rfl,
      ⟨(clamp_eq_iff x).1 hx, (clamp_eq_iff y).1 hy, (clamp_eq_iff z).1 hz⟩, hd, ?_⟩
    simp only []
    rw [WorldService.motion_broadcastPose, WorldService.motion_setPlayer, if_pos rfl, hmax]
    rfl

namespace Call

/-- The world after some calls. -/
def runAll (w : WorldService K) (ks : List (Call K)) : WorldService K :=
  ks.foldl (fun w k => (k.run w).world) w

/-- A call for a move of the player: when, how far, and whether it was accepted. -/
def attempt (p : String) (w : WorldService K) : Call K → Option (Bucket.Request K)
  | .tryMove q x y z yaw now appearance =>
    if q = p then (w.motion p).map fun m =>
      ⟨now, distance x y z m.x m.y m.z,
        (w.tryMove q x y z yaw now appearance).result.success⟩
    else none
  | _ => none

/-- The moves of a player in a run of calls. -/
def attempts (p : String) : WorldService K → List (Call K) → List (Bucket.Request K)
  | _, [] => []
  | w, k :: ks => (k.attempt p w).toList ++ attempts p (k.run w).world ks

/-- A call that brings the player into the world, and when. -/
def Enters (p : String) (now : ℤ) : Call K → Prop
  | .enter q _ t => q = p ∧ t = now
  | .enterWithState q _ t _ _ _ _ _ => q = p ∧ t = now
  | _ => False

end Call

/-- The moves of a player are requests to his bucket. -/
theorem run_attempts {p : String} : ∀ (ks : List (Call K)) {w : WorldService K} {m : Motion K},
    w.motion p = some m → (∀ k ∈ ks, k.Stays p) →
    (m.lastMs :: ks.filterMap (Call.movedAt p)).Pairwise (· ≤ ·) →
    ∃ m', (Call.runAll w ks).motion p = some m' ∧
      Bucket.Run 15 (15 / 1000) m.bucket (Call.attempts p w ks) m'.bucket
  | [], w, m, hw, _, _ => ⟨m, hw, .nil _⟩
  | k :: ks, w, m, hw, hk, ht => by
    obtain ⟨hstays, hks⟩ := List.forall_mem_cons.1 hk
    rcases hm : k.movedAt p with _ | now
    · rw [List.filterMap_cons_none hm] at ht
      have hnone : k.attempt p w = none := by
        cases k with
        | tryMove q x y z yaw now appearance =>
          by_cases hq : q = p
          · simp [Call.movedAt, hq] at hm
          · simp only [Call.attempt, if_neg hq]
        | _ => rfl
      obtain ⟨m', hm', hrun⟩ := run_attempts ks ((Call.motion_run w hstays hm).trans hw) hks ht
      refine ⟨m', hm', ?_⟩
      rw [Call.attempts, hnone]
      exact hrun
    · rw [List.filterMap_cons_some hm] at ht
      obtain ⟨hle, ht⟩ := List.pairwise_cons.1 ht
      have hnow := hle now List.mem_cons_self
      obtain ⟨q, x, y, z, yaw, appearance, hk⟩ :
          ∃ q x y z yaw appearance, k = .tryMove q x y z yaw now appearance ∧ q = p := by
        cases k with
        | tryMove q x y z yaw t appearance =>
          by_cases hq : q = p
          · simp only [Call.movedAt, if_pos hq, Option.some.injEq] at hm
            exact ⟨q, x, y, z, yaw, appearance, by rw [hm], hq⟩
          · simp [Call.movedAt, hq] at hm
        | _ => simp [Call.movedAt] at hm
      obtain ⟨rfl, rfl⟩ := hk
      have hattempt : Call.attempts q w (.tryMove q x y z yaw now appearance :: ks) =
          ⟨now, distance x y z m.x m.y m.z, (w.tryMove q x y z yaw now appearance).result.success⟩
            :: Call.attempts q (w.tryMove q x y z yaw now appearance).world ks := by
        rw [Call.attempts, Call.attempt, if_pos rfl, hw]
        rfl
      rw [hattempt]
      rcases tryMove_cases w hw x y z yaw appearance hnow with
        ⟨hok, -, -, hpaid, hw'⟩ | ⟨hok, -, hw'⟩
      · obtain ⟨m', hm', hrun⟩ := run_attempts ks hw' hks ht
        refine ⟨m', hm', .cons hnow (distance_nonneg ..) (fun _ => hpaid) ?_⟩
        rw [hok]
        exact hrun
      · obtain ⟨m', hm', hrun⟩ := run_attempts ks hw' hks ht
        refine ⟨m', hm', .cons hnow (distance_nonneg ..) (fun h => ?_) ?_⟩
        · rw [hok] at h
          cases h
        · rw [hok]
          unfold Bucket.after
          simp only [Bool.false_eq_true, ↓reduceIte, sub_zero]
          exact hrun

omit [IsStrictOrderedRing K] in
/-- A player who has just entered may move one unit. -/
theorem enters_motion {k : Call K} {p : String} {now : ℤ} (h : k.Enters p now) :
    ∃ m, (k.run w).world.motion p = some m ∧ m.lastMs = now ∧ m.allowance = 1 := by
  have hstate : ∀ name x y z yaw inv, ∃ m,
      (w.enterWithState p name now x y z yaw inv).1.motion p = some m ∧ m.lastMs = now
        ∧ m.allowance = 1 := by
    intro name x y z yaw inv
    unfold WorldService.enterWithState
    simp only []
    rw [WorldService.motion_sendWorldStateTo, WorldService.motion_setPlayer, if_pos rfl]
    exact ⟨_, rfl, rfl, (Exact.ofRat_eq 1).trans Rat.cast_one⟩
  cases k with
  | enter q name t =>
    obtain ⟨rfl, rfl⟩ := h
    obtain ⟨x, y, z, yaw, he⟩ := w.enter_eq q name t
    show ∃ m, (w.enter q name t).1.motion q = some m ∧ _
    rw [he]
    exact hstate ..
  | enterWithState q name t x y z yaw inv =>
    obtain ⟨rfl, rfl⟩ := h
    exact hstate ..
  | _ => exact absurd h id

/-- After a player has entered, while he neither enters again, leaves nor selects a room and the
times of his moves do not decrease: his allowance stays between 0 and 15, the moves accepted from
one time to another are together no longer than 15 and 15 for each second between, a refused move
leaves him where he is and says so, and an accepted one puts him where he asked for, in the
world. -/
theorem move_speed_limit {entry : Call K} {p : String} {now : ℤ} (hentry : entry.Enters p now)
    {ks : List (Call K)} (hks : ∀ k ∈ ks, k.Stays p)
    (ht : (now :: ks.filterMap (Call.movedAt p)).Pairwise (· ≤ ·)) :
    let w₀ := (entry.run w).world
    let w₁ := Call.runAll w₀ ks
    ∃ m, w₁.motion p = some m ∧ (0 ≤ m.allowance ∧ m.allowance ≤ 15) ∧
      (∀ t₁ t₂ : ℤ, t₁ ≤ t₂ →
        Bucket.granted t₁ t₂ (Call.attempts p w₀ ks) ≤ 15 + 15 * ((t₂ - t₁ : ℤ) : K) / 1000) ∧
      ∀ x y z yaw : K, ∀ t appearance : ℤ, m.lastMs ≤ t →
        let r := w₁.tryMove p x y z yaw t appearance
        ∃ m', r.world.motion p = some m' ∧
          (r.result.correctedX, r.result.correctedY, r.result.correctedZ) = (m'.x, m'.y, m'.z) ∧
          (r.result.success = false → (m'.x, m'.y, m'.z) = (m.x, m.y, m.z)) ∧
          (r.result.success = true → (m'.x, m'.y, m'.z) = (x, y, z) ∧ InBounds x y z) := by
  obtain ⟨m₀, hw₀, hlast, hallow⟩ := enters_motion w hentry
  obtain ⟨m, hm, hrun⟩ := run_attempts ks hw₀ hks (by rwa [hlast])
  have hrate : (0 : K) ≤ 15 / 1000 := by norm_num
  have hfresh : 0 ≤ m₀.bucket.level ∧ m₀.bucket.level ≤ 15 := by
    rw [show m₀.bucket.level = 1 from hallow]
    norm_num
  refine ⟨m, hm, hrun.level (by norm_num) hrate hfresh.1 hfresh.2, fun t₁ t₂ ht => ?_, ?_⟩
  · calc
      _ ≤ 15 + 15 / 1000 * ((t₂ - t₁ : ℤ) : K) :=
        hrun.granted_le (by norm_num) hrate hfresh.1 ht
      _ = 15 + 15 * ((t₂ - t₁ : ℤ) : K) / 1000 := by ring
  · intro x y z yaw t appearance ht
    rcases tryMove_cases _ hm x y z yaw appearance ht with
      ⟨hok, hat, hin, -, hm'⟩ | ⟨hok, hat, hm'⟩
    · refine ⟨_, hm', hat, fun h => ?_, fun _ => ⟨rfl, hin⟩⟩
      rw [hok] at h
      cases h
    · refine ⟨_, hm', hat, fun _ => rfl, fun h => ?_⟩
      rw [hok] at h
      cases h

end Exact

/-- A player enters, moves one unit, then asks for thirty in the same millisecond. -/
theorem move_speed_limit_ann :
    let w := (Call.run (WorldService.fresh (F := ℚ)).seedDefaultScene (.enter "ann" "ann" 0)).world
    ∃ m, (Call.runAll w [.tryMove "ann" 1 0 0 0 0 0, .tryMove "ann" 30 0 0 0 0 0]).motion "ann" =
        some m ∧ (0 ≤ m.allowance ∧ m.allowance ≤ 15) := by
  have hentry : (Call.enter (F := ℚ) "ann" "ann" 0).Enters "ann" 0 := ⟨rfl, rfl⟩
  have hstays : ∀ k ∈ [Call.tryMove (F := ℚ) "ann" 1 0 0 0 0 0, .tryMove "ann" 30 0 0 0 0 0],
      k.Stays "ann" := by
    simp [Call.Stays]
  obtain ⟨m, hm, hlevel, -, -⟩ := move_speed_limit WorldService.fresh.seedDefaultScene hentry hstays
    (by simp [Call.movedAt])
  exact ⟨m, hm, hlevel⟩

end TinRpc
