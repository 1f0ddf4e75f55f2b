import TinRpc.Economy

/-!
# The books of a world

A run of the world service from the default scene, with the books kept beside it: with which
counters each player entered, which of his operations succeeded since, and all that did.
-/

namespace TinRpc

variable {F : Type} [Platform F]

structure Books (F : Type) where
  world : WorldService F
  entry : String → Inventory := fun _ => {}
  own : String → List (Effect F) := fun _ => []
  all : List (Effect F) := []

/-- The amounts an `EnterWithState` brings are not negative. -/
def Call.NonNegative : Call F → Prop
  | .enterWithState _ _ _ _ _ _ _ inv => ∀ m, 0 ≤ inv.count m
  | _ => True

/-- The effect's player, and the successful gathers of a node. -/
def Effect.IsGather (node : String) : Effect F → Prop
  | .gathered _ n _ => n = node
  | _ => False

instance (node : String) : DecidablePred (Effect.IsGather (F := F) node) := fun e =>
  match e with
  | .gathered _ n _ => inferInstanceAs (Decidable (n = node))
  | .built .. | .crafted .. | .edited .. => .isFalse not_false

namespace Books

def opened : Books F := { world := WorldService.fresh.seedDefaultScene }

/-- A player who was not in the world, or whose counters are replaced, opens a new account. -/
def after (b : Books F) (k : Call F) : Books F where
  world := (k.run b.world).world
  entry := match k with
    | .enterWithState p _ _ _ _ _ _ inv => Function.update b.entry p inv
    | .enter p .. =>
      if (b.world.inventory p).isSome then b.entry else Function.update b.entry p {}
    | _ => b.entry
  own := match k with
    | .enterWithState p .. => Function.update b.own p []
    | .enter p .. => if (b.world.inventory p).isSome then b.own else Function.update b.own p []
    | _ => (k.effect b.world).elim b.own fun e =>
      Function.update b.own e.player (b.own e.player ++ [e])
  all := b.all ++ (k.effect b.world).toList

def run (ks : List (Call F)) : Books F := ks.foldl after opened

/-- The successful gathers of a node so far. -/
def gathers (b : Books F) (node : String) : ℤ := b.all.countP fun e => e.IsGather node

/-- What the books of a world have to show. -/
structure Balanced (b : Books F) : Prop where
  /-- No counter of a player and no node's rest is negative. -/
  counters : ∀ p v m, b.world.inventory p = some v → 0 ≤ v.count m
  remaining : ∀ node r, b.world.resources.lookup node = some r → 0 ≤ r.remaining
  /-- A call that returns failure changes no counter, no tool and nothing of the scene. -/
  failure : ∀ k : Call F, (k.run b.world).result = some false →
    (k.run b.world).world.content = b.world.content ∧
      ∀ p, (k.run b.world).world.inventory p = b.world.inventory p
  /-- A counter is its entry value with the credits of the player's operations, less their
  costs. -/
  account : ∀ p v m, b.world.inventory p = some v →
    v.count m = (b.entry p).count m + ((b.own p).map (·.credit m)).sum
      - ((b.own p).map (·.cost m)).sum
  /-- A successful gather moves one unit from the node to the gatherer. -/
  gather : ∀ p node, ((Call.tryGather p node).run b.world).result = some true →
    ∃ r v m, b.world.resources.lookup node = some r ∧
      ((Call.tryGather p node).run b.world).world.resources.lookup node
        = some { r with remaining := r.remaining - 1 } ∧
      b.world.inventory p = some v ∧
      ((Call.tryGather p node).run b.world).world.inventory p = some (v.add 1 m)
  /-- A node has lost one unit for each of its successful gathers. -/
  nodes : ∀ node, b.world.resources.lookup node =
    (WorldService.fresh.seedDefaultScene.resources.lookup node).map fun r : Resource F =>
      { r with remaining := r.remaining - b.gathers node }

end Books

end TinRpc
