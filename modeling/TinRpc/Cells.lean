import TinRpc.Economy

/-!
# The cells of a world

A run of the world service with its accepted voxel edits kept in order, each with what its cell
held before it. A cell is untouched, removed, or holds a placed block of some type.
-/

namespace TinRpc

/-- The type of the block that stands in a cell as placed. -/
def placedType : Option VoxelEditState → Option ℤ
  | some e => if e.action = 2 then some e.blockType else none
  | none => none

/-- An accepted edit and what its cell held. -/
structure CellEdit where
  player : String
  room : String
  edit : VoxelEditState
  previous : Option VoxelEditState

namespace CellEdit

def At (c : CellEdit) (room : String) (x y z : ℤ) : Prop :=
  c.room = room ∧ c.edit.x = x ∧ c.edit.y = y ∧ c.edit.z = z

instance (c : CellEdit) (room : String) (x y z : ℤ) : Decidable (c.At room x y z) :=
  inferInstanceAs (Decidable (_ ∧ _))

/-- A block of the type was placed. -/
def Placed (c : CellEdit) (type : ℤ) : Prop := c.edit.action = 2 ∧ c.edit.blockType = type

/-- A placed block of the type was removed. -/
def Took (c : CellEdit) (type : ℤ) : Prop := c.edit.action = 1 ∧ placedType c.previous = some type

/-- A block that nobody placed was removed. -/
def Natural (c : CellEdit) : Prop := c.edit.action = 1 ∧ placedType c.previous = none

instance (c : CellEdit) (type : ℤ) : Decidable (c.Placed type) :=
  inferInstanceAs (Decidable (_ ∧ _))

instance (c : CellEdit) (type : ℤ) : Decidable (c.Took type) :=
  inferInstanceAs (Decidable (_ ∧ _))

instance (c : CellEdit) : Decidable c.Natural := inferInstanceAs (Decidable (_ ∧ _))

end CellEdit

variable {F : Type} [Platform F]

/-- The last edit of a cell. -/
def WorldService.cell (w : WorldService F) (room : String) (x y z : ℤ) : Option VoxelEditState :=
  (w.roomEdits room).lookup (voxelKey x y z)

structure Cells (F : Type) where
  world : WorldService F
  edits : List CellEdit := []

namespace Cells

def after (c : Cells F) (k : Call F) : Cells F where
  world := (k.run c.world).world
  edits := c.edits ++ match k.effect c.world with
    | some (.edited p room e) => [⟨p, room, e, c.world.cell room e.x e.y e.z⟩]
    | _ => []

def run (w : WorldService F) (ks : List (Call F)) : Cells F := ks.foldl after { world := w }

/-- How many of the accepted edits of a cell are of a kind. -/
def count (c : Cells F) (room : String) (x y z : ℤ) (kind : CellEdit → Prop)
    [DecidablePred kind] : ℤ :=
  c.edits.countP fun e => e.At room x y z ∧ kind e

/-- What an accepted edit does. -/
structure Accepted (w : WorldService F) (p : String) (x y z action type : ℤ)
    (room : String) (w' : WorldService F) (sent : Sends F) : Prop where
  room_eq : w.room p = some room
  action_eq : action = 1 ∨ action = 2
  /-- A placed block costs its placer one unit of its material. -/
  place : action = 2 → ∃ m v, WorldService.placedMaterial type = some m ∧
    w.inventory p = some v ∧ 0 < v.count m ∧ placedType (w.cell room x y z) = none ∧
    w'.inventory p = some (v.add (-1) m) ∧ placedType (w'.cell room x y z) = some type
  /-- Removed, it gives one unit of that material, whatever type the remover claims. -/
  take : ∀ t, action = 1 → placedType (w.cell room x y z) = some t →
    ∃ m v, WorldService.placedMaterial t = some m ∧ w.inventory p = some v ∧
      w'.inventory p = some (v.add 1 m) ∧ placedType (w'.cell room x y z) = none
  /-- What nobody placed is taken from a cell without an edit, for at most one unit. -/
  take_natural : action = 1 → placedType (w.cell room x y z) = none →
    w.cell room x y z = none ∧ placedType (w'.cell room x y z) = none ∧
      ∃ v, w.inventory p = some v ∧
        w'.inventory p = some ((WorldService.minedMaterial type).elim v (v.add 1))
  others : ∀ q, q ≠ p → w'.inventory q = w.inventory q
  cells : ∀ room' x' y' z', (room', x', y', z') ≠ (room, x, y, z) →
    w'.cell room' x' y' z' = w.cell room' x' y' z'
  /-- The edit goes once to each player in the room and to no one else. -/
  sent_eq : ∃ e, w'.cell room x y z = some e ∧ ∀ q, sent.filter (fun m => m.1 = q) =
    if w.room q = some room then [(q, .voxelEdit e)] else []

/-- What a refused edit does: nothing. -/
structure Refused (w w' : WorldService F) (sent : Sends F) : Prop where
  inventory_eq : ∀ q, w'.inventory q = w.inventory q
  cell_eq : ∀ room x y z, w'.cell room x y z = w.cell room x y z
  sent_eq : sent = []

/-- The law of the cells. -/
structure Law (c : Cells F) : Prop where
  /-- The blocks standing as placed are the placements less the removals of placed blocks. -/
  standing : ∀ room x y z type,
    (if placedType (c.world.cell room x y z) = some type then 1 else 0) =
      c.count room x y z (·.Placed type) - c.count room x y z (·.Took type)
  /-- A cell gives what nobody placed at most once. -/
  natural : ∀ room x y z, c.count room x y z CellEdit.Natural ≤ 1
  accepted : ∀ p x y z action type,
    (c.world.applyVoxelEdit p x y z action type).result.success = true →
      ∃ room, Accepted c.world p x y z action type room
        (c.world.applyVoxelEdit p x y z action type).world
        (c.world.applyVoxelEdit p x y z action type).sent
  refused : ∀ p x y z action type,
    (c.world.applyVoxelEdit p x y z action type).result.success = false →
      Refused c.world (c.world.applyVoxelEdit p x y z action type).world
        (c.world.applyVoxelEdit p x y z action type).sent

end Cells

end TinRpc
