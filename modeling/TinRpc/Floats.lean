import TinRpc.Basic
import TinRpc.Score

/-!
# Floats that are not numbers

`float` arithmetic on rationals, infinities and a NaN. Rationals do not round; a square root that is
not a multiple of `1 / grid` lies between the multiples its exact value lies between.
-/

namespace TinRpc

/-- `std::hash<std::string>` and `crypt_r`. -/
class Hashes where
  hash : String → ℕ
  crypt : String → String → Option String

instance : Hashes := ⟨fun _ => 2, fun password _ => some ("$2b$" ++ password)⟩

namespace Score

/-- The parts of a unit in which square roots are taken. -/
def grid : ℕ := 10 * 2 ^ 20

/-- The square root of a rational that is not negative. -/
def root (q : ℚ) : ℚ :=
  let square := q * grid ^ 2
  let k := square.floor.toNat.sqrt
  if (k : ℚ) ^ 2 = square then k / grid else (k + 1 / 2) / grid

/-- `std::sqrt`. -/
def sqrt : Score → Score
  | nan => nan
  | inf negative => if negative then nan else inf false
  | fin q => if q < 0 then nan else fin (root q)

/-- `std::hypot`. -/
def hypot : Score → Score → Score
  | inf _, _ => inf false
  | _, inf _ => inf false
  | nan, _ => nan
  | _, nan => nan
  | fin q, fin r => fin (root (q * q + r * r))

/-- `std::round`. -/
def round : Score → Score
  | nan => nan
  | inf negative => inf negative
  | fin q => fin (if 0 ≤ q then (q + 1 / 2).floor else (q - 1 / 2).ceil)

/-- `==`. -/
def eq : Score → Score → Bool
  | nan, _ => false
  | a, b => decide (a = b)

instance [Hashes] : Platform Score where
  ofRat := fin
  add := add
  sub a b := add a (neg b)
  mul := mul
  div := div
  sqrt := sqrt
  hypot := hypot
  round := round
  lt := lt
  eq := eq
  hash := Hashes.hash
  crypt := Hashes.crypt

end Score

end TinRpc
