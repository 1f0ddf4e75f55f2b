import TinRpc.GameState
import TinRpc.Lib.Interpolation

/-!
# Reconciliation

`ReconcileState` of `src/game/game_state.cpp`. A `float` is the rational it stands for, and every
operation rounds its exact result; a cast to `int32_t` cuts off toward zero.
-/

namespace TinRpc

open Interpolation (truncate)

/-- The rationals that are values of a `float`. -/
def IsFloat (q : ℚ) : Prop :=
  ∃ (n : ℤ) (k : ℕ), n.natAbs < 2 ^ 24 ∧ (k ≤ 149 ∧ q = n / 2 ^ k ∨ k ≤ 104 ∧ q = n * 2 ^ k)

/-- How the results of `float` operations are rounded: not at all where they are values of a
`float`. -/
class FloatRounding where
  round : ℚ → ℚ
  round_float : ∀ q, IsFloat q → round q = q

variable [FloatRounding]

/-- `static_cast<int32_t>(x + (ap - x) * alpha)`. -/
def interpolate (alpha : ℚ) (ap x : Int32) : Int32 :=
  let difference := FloatRounding.round (ap - x).toInt
  let step := FloatRounding.round (difference * alpha)
  Int32.ofInt (truncate (FloatRounding.round (FloatRounding.round x.toInt + step)))

/-- The loop of `ReconcileState`, for one player of the server: the first player with his id is
moved; if there is none, the player is put at the end. -/
def reconcilePlayer (alpha : ℚ) (ap : PlayerPos) : List PlayerPos → List PlayerPos
  | [] => [ap]
  | p :: players =>
    if p.playerId = ap.playerId then
      { p with x := interpolate alpha ap.x p.x, y := interpolate alpha ap.y p.y } :: players
    else p :: reconcilePlayer alpha ap players

/-- `ReconcileState`. -/
def reconcileState (clientState authoritative : GameState) (alpha : ℚ) : GameState :=
  { frameNo := authoritative.frameNo
    players := authoritative.players.foldl (fun players ap => reconcilePlayer alpha ap players)
      clientState.players }

/-- `ReconcileState` so many times, with one state of the server. -/
def reconciled (clientState authoritative : GameState) (alpha : ℚ) : ℕ → GameState
  | 0 => clientState
  | n + 1 => reconcileState (reconciled clientState authoritative alpha n) authoritative alpha

end TinRpc
