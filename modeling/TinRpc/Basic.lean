import Mathlib.Data.Rat.Defs
import Mathlib.Algebra.Order.Ring.Unbundled.Rat
import Mathlib.Algebra.Group.Nat.Defs

/-!
# The platform and the counters

The model is generic in the type `F` of single-precision numbers: `Platform F` is the arithmetic
the source uses on them, with `std::hash` and libcrypt's `crypt_r`. A player's counters are exact
integers.
-/

namespace TinRpc

/-- What the C++ platform supplies: `float` arithmetic, `std::hash<std::string>` and libcrypt's
`crypt_r`. -/
class Platform (F : Type) where
  ofRat : ℚ → F
  add : F → F → F
  sub : F → F → F
  mul : F → F → F
  div : F → F → F
  sqrt : F → F
  hypot : F → F → F
  round : F → F
  lt : F → F → Bool
  eq : F → F → Bool
  hash : String → ℕ
  crypt : String → String → Option String

namespace Platform

variable {F : Type} [Platform F]

/-- `std::clamp`. -/
def clamp (v lo hi : F) : F := if lt v lo then lo else if lt hi v then hi else v

/-- `std::min`. -/
def fmin (a b : F) : F := if lt b a then b else a

/-- `std::max`. -/
def fmax (a b : F) : F := if lt a b then b else a

/-- `Distance`. -/
def distance (ax ay az bx by_ bz : F) : F :=
  let dx := sub ax bx
  let dy := sub ay by_
  let dz := sub az bz
  sqrt (add (add (mul dx dx) (mul dy dy)) (mul dz dz))

end Platform

/-- Rational numbers with a square root that is exact on squares, for evaluating the model where
the source's floats are small and exact. -/
instance exactPlatform : Platform ℚ where
  ofRat := id
  add := (· + ·)
  sub := (· - ·)
  mul := (· * ·)
  div := (· / ·)
  sqrt q := (q.num.toNat.sqrt : ℚ) / q.den.sqrt
  hypot a b := ((a * a + b * b).num.toNat.sqrt : ℚ) / (a * a + b * b).den.sqrt
  round q := if 0 ≤ q then ((q + 1 / 2).floor : ℚ) else ((q - 1 / 2).ceil : ℚ)
  lt a b := decide (a < b)
  eq a b := decide (a = b)
  hash _ := 2
  crypt password _ := some ("$2b$" ++ password)

/-- The materials a player carries. -/
inductive Material
  | wood | stone | dirt | copper
  deriving DecidableEq, Repr

instance (P : Material → Prop) [DecidablePred P] : Decidable (∀ m, P m) :=
  decidable_of_iff (P .wood ∧ P .stone ∧ P .dirt ∧ P .copper)
    ⟨fun h m => by cases m <;> simp [h], fun h => ⟨h _, h _, h _, h _⟩⟩

/-- A player's counters and tool. -/
structure Inventory where
  wood : ℤ := 6
  stone : ℤ := 3
  dirt : ℤ := 12
  copper : ℤ := 0
  toolLevel : ℤ := 0
  deriving DecidableEq, Repr

namespace Inventory

def count (v : Inventory) : Material → ℤ
  | .wood => v.wood
  | .stone => v.stone
  | .dirt => v.dirt
  | .copper => v.copper

def add (v : Inventory) (n : ℤ) : Material → Inventory
  | .wood => { v with wood := v.wood + n }
  | .stone => { v with stone := v.stone + n }
  | .dirt => { v with dirt := v.dirt + n }
  | .copper => { v with copper := v.copper + n }

end Inventory

end TinRpc
