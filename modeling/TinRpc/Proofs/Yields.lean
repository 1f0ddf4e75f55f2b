import Mathlib.Data.Set.Card
import TinRpc.Client
import TinRpc.Proofs.Voxel

/-!
# What untouched cells yield

The server does not know the terrain: taking from a cell nobody edited credits the material of the
type the request names, once a cell. So in a room where only copper is taken as copper, no more of
it is credited than the terrain holds.
-/

namespace TinRpc

open WorldService VoxelWorld

variable {F : Type}

namespace CellEdit

/-- The cell of an edit. -/
def cell (c : CellEdit) : Cell := (c.edit.x, c.edit.y, c.edit.z)

theorem at_iff {c : CellEdit} {room : String} {x y z : ℤ} :
    c.At room x y z ↔ c.room = room ∧ c.cell = (x, y, z) := by
  simp only [At, cell, Prod.mk.injEq]

end CellEdit

namespace Cells

/-- Units of a material credited in a room. -/
def credited (c : Cells F) (room : String) (m : Material) : ℤ :=
  (c.edits.map fun e =>
    if e.room = room then (Effect.edited (F := F) e.player e.room e.edit).credit m else 0).sum

/-- What is taken from untouched cells of a room as copper is copper in the terrain. -/
def Truthful (c : Cells F) (room : String) : Prop :=
  ∀ e ∈ c.edits, e.room = room → e.Natural → e.edit.blockType = copper →
    generateBase e.cell = some copper

/-- What holds of a room that started without edits. -/
structure RoomInv (c : Cells F) (room : String) : Prop where
  shape : ∀ x y z, Shaped (c.world.cell room x y z)
  natural : ∀ x y z, c.count room x y z CellEdit.Natural
    ≤ if c.world.cell room x y z = none then 0 else 1
  edited : ∀ x y z, c.world.cell room x y z ≠ none → ∃ e ∈ c.edits, e.At room x y z
  /-- Other blocks that are taken were placed. -/
  taken : ∀ e ∈ c.edits, e.room = room → e.edit.action = 1 → ¬e.Natural →
    (placedMaterial e.edit.blockType).isSome

variable [Platform F] {c : Cells F} {room : String}

theorem RoomInv.after (h : RoomInv c room) (k : Call F) : RoomInv (c.after k) room := by
  by_cases hk : ∃ p room' e, k.effect c.world = some (.edited p room' e)
  swap
  · simp only [not_exists] at hk
    obtain ⟨hcell, hedits⟩ := after_other hk
    exact ⟨by simpa only [hcell] using h.shape, by simpa only [hcell, count, hedits] using h.natural,
      by simpa only [hcell, hedits] using h.edited, by simpa only [hedits] using h.taken⟩
  obtain ⟨p, room', e, hk⟩ := hk
  have hedits : (c.after k).edits
      = c.edits ++ [⟨p, room', e, c.world.cell room' e.x e.y e.z⟩] := by
    simp only [Cells.after, hk]
  by_cases hroom : room' = room
  · subst hroom
    have hown := h.shape e.x e.y e.z
    refine ⟨fun x y z => shaped_after_edited hk hown (h.shape x y z), fun x y z =>
      natural_after_edited hk hown (h.natural x y z), fun x y z hne => ?_, fun e' he' hr ha hn => ?_⟩
    · rw [hedits]
      rw [cell_after_edited hk] at hne
      split_ifs at hne with hat
      · simp only [Prod.mk.injEq, true_and] at hat
        exact ⟨_, List.mem_append_right _ (List.mem_singleton_self _), rfl, hat.1.symm,
          hat.2.1.symm, hat.2.2.symm⟩
      · obtain ⟨e', he', hat'⟩ := h.edited x y z hne
        exact ⟨e', List.mem_append_left _ he', hat'⟩
    · rw [hedits, List.mem_append, List.mem_singleton] at he'
      rcases he' with he' | rfl
      · exact h.taken e' he' hr ha hn
      · rcases moves_effect hown hk with ⟨ha', -⟩ | ⟨-, -, hm⟩ | ⟨-, hnone⟩
        · exact absurd (ha.symm.trans ha') (by decide)
        · exact hm
        · exact absurd ⟨ha, by rw [hnone]; rfl⟩ hn
  · have hcell : ∀ x y z, (c.after k).world.cell room x y z = c.world.cell room x y z := by
      intro x y z
      rw [cell_after_edited hk, if_neg]
      exact fun hat => hroom (Prod.ext_iff.1 hat).1.symm
    have hcount : ∀ x y z, (c.after k).count room x y z CellEdit.Natural
        = c.count room x y z CellEdit.Natural := by
      intro x y z
      rw [count_after_edited hk, if_neg, add_zero]
      exact fun hat => hroom (Prod.ext_iff.1 hat.1).1.symm
    refine ⟨by simpa only [hcell] using h.shape, by simpa only [hcell, hcount] using h.natural,
      fun x y z hne => ?_, fun e' he' hr ha hn => ?_⟩
    · rw [hcell] at hne
      obtain ⟨e', he', hat'⟩ := h.edited x y z hne
      exact ⟨e', hedits ▸ List.mem_append_left _ he', hat'⟩
    · rw [hedits, List.mem_append, List.mem_singleton] at he'
      rcases he' with he' | rfl
      · exact h.taken e' he' hr ha hn
      · exact absurd hr hroom

theorem roomInv_run {w : WorldService F} (hw : ∀ x y z, w.cell room x y z = none)
    (ks : List (Call F)) : RoomInv (run w ks) room := by
  unfold run
  induction ks using List.reverseRecOn with
  | nil =>
    exact ⟨fun x y z e he => by simp [hw] at he, fun x y z => by simp [hw, count],
      fun x y z hne => absurd (hw x y z) hne, fun e he => by cases he⟩
  | append_singleton ks k ih =>
    rw [List.foldl_append]
    exact ih.after k

omit [Platform F] in
theorem minedMaterial_copper {type : ℤ} : minedMaterial type = some .copper ↔ type = copper := by
  unfold minedMaterial copper
  split_ifs <;> simp <;> omega

omit [Platform F] in
/-- Copper comes out of untouched cells only. -/
theorem credit_copper (h : RoomInv c room) {e : CellEdit} (he : e ∈ c.edits) :
    (if e.room = room then (Effect.edited (F := F) e.player e.room e.edit).credit .copper else 0)
      = if e.room = room ∧ e.Natural ∧ e.edit.blockType = copper then 1 else 0 := by
  by_cases hr : e.room = room
  swap
  · rw [if_neg hr, if_neg fun h => hr h.1]
  rw [if_pos hr]
  unfold Effect.credit
  refine if_congr ?_ rfl rfl
  rw [minedMaterial_copper]
  constructor
  · rintro ⟨ha, htype⟩
    refine ⟨hr, ?_, htype⟩
    by_contra hn
    have hplaced := h.taken e he hr ha hn
    rw [htype] at hplaced
    exact absurd hplaced (by decide)
  · rintro ⟨-, hn, htype⟩
    exact ⟨hn.1, htype⟩

omit [Platform F] in
/-- The copper credited in a room is that of the untouched cells taken as copper. -/
theorem credited_copper (h : RoomInv c room) : c.credited room .copper
    = (c.edits.filter fun e => e.room = room ∧ e.Natural ∧ e.edit.blockType = copper).length := by
  have hsum : ∀ l : List CellEdit, (∀ e ∈ l, e ∈ c.edits) → (l.map fun e =>
      if e.room = room then (Effect.edited (F := F) e.player e.room e.edit).credit .copper
      else 0).sum
        = ((l.filter fun e => e.room = room ∧ e.Natural ∧ e.edit.blockType = copper).length : ℤ) := by
    intro l
    induction l with
    | nil => simp
    | cons e l ih =>
      intro hl
      obtain ⟨he, hl⟩ := List.forall_mem_cons.1 hl
      rw [List.map_cons, List.sum_cons, credit_copper h he, ih hl, List.filter_cons]
      simp only [decide_eq_true_eq]
      split_ifs
      · rw [List.length_cons]
        omega
      · omega
  exact hsum c.edits fun _ he => he

omit [Platform F] in
theorem natural_nodup (h : RoomInv c room) :
    ((c.edits.filter fun e => e.room = room ∧ e.Natural).map CellEdit.cell).Nodup := by
  rw [List.nodup_iff_count_le_one]
  rintro ⟨x, y, z⟩
  have hle : c.count room x y z CellEdit.Natural ≤ 1 :=
    (h.natural x y z).trans (by split_ifs <;> omega)
  rw [List.count, List.countP_map, List.countP_filter]
  unfold count at hle
  refine le_trans (List.countP_mono_left fun e _ he => ?_) (by exact_mod_cast hle)
  simp only [Function.comp_apply, Bool.and_eq_true, beq_iff_eq, decide_eq_true_eq] at he ⊢
  exact ⟨CellEdit.at_iff.2 ⟨he.2.1, he.1⟩, he.2.2⟩

/-- The copper cells of the terrain. -/
def copperCells : Set Cell := {cell | generateBase cell = some copper}

theorem copperCells_eq : copperCells = {(-5, 1, -3), (4, 1, 5), (6, 1, -4)} := by
  ext ⟨x, y, z⟩
  show generateBase (x, y, z) = some copper ↔ _
  unfold generateBase
  simp only [Set.mem_insert_iff, Set.mem_singleton_iff]
  split_ifs <;> simp_all [copper, dirt, grass, stone]

theorem ncard_copperCells : copperCells.ncard = 3 := by
  rw [copperCells_eq, Set.ncard_eq_three]
  exact ⟨_, _, _, by decide, by decide, by decide, rfl⟩

omit [Platform F] in
/-- Where only copper is taken as copper, no more than the terrain has. -/
theorem credited_copper_le (h : RoomInv c room) (htrue : c.Truthful room) :
    c.credited room .copper ≤ copperCells.ncard := by
  set taken := c.edits.filter fun e => e.room = room ∧ e.Natural ∧ e.edit.blockType = copper
    with htaken
  have hsub : taken.Sublist (c.edits.filter fun e => e.room = room ∧ e.Natural) := by
    refine List.monotone_filter_right _ fun e he => ?_
    simp only [decide_eq_true_eq] at he ⊢
    exact ⟨he.1, he.2.1⟩
  have hnodup : (taken.map CellEdit.cell).Nodup := (natural_nodup h).sublist (hsub.map _)
  have hcopper : ((taken.map CellEdit.cell).toFinset : Set Cell) ⊆ copperCells := by
    intro cell hcell
    rw [Finset.mem_coe, List.mem_toFinset, List.mem_map] at hcell
    obtain ⟨e, he, rfl⟩ := hcell
    obtain ⟨hmem, hkind⟩ := List.mem_filter.1 he
    obtain ⟨hr, hn, htype⟩ := of_decide_eq_true hkind
    exact htrue e hmem hr hn htype
  have hfinite : copperCells.Finite := by
    rw [copperCells_eq]
    exact Set.toFinite _
  have hcard := Set.ncard_le_ncard hcopper hfinite
  rw [Set.ncard_coe_finset, List.toFinset_card_of_nodup hnodup, List.length_map] at hcard
  rw [credited_copper h]
  exact_mod_cast hcard

/-- A cell nobody edited gives the material of the type the request names. -/
theorem inventory_untouched {w : WorldService F} {p room : String} {x y z type : ℤ}
    (hr : w.room p = some room) (hnone : w.cell room x y z = none)
    (hok : (w.applyVoxelEdit p x y z 1 type).result.success = true) :
    ∃ v, w.inventory p = some v ∧ (w.applyVoxelEdit p x y z 1 type).world.inventory p
      = some ((minedMaterial type).elim v (v.add 1)) := by
  rcases w.applyVoxelEdit_cases p x y z 1 type with ⟨hfail, -⟩ |
    ⟨player, e, hp, he, -, -, hw, -⟩
  · simp [hfail] at hok
  have hroom : player.roomId = room := by
    simpa [WorldService.room, hp] using hr
  have htaken : w.blockTaken room (voxelKey x y z) type = type := w.blockTaken_untouched type hnone
  have htype : e.blockType = type := by
    rw [he, hroom]
    simpa using htaken
  have hinv := (w.charged (w.edited p player e) (.edited p player.roomId e) hp rfl).1 p
  have hv : w.inventory p = some player.inv := by simp [WorldService.inventory, hp]
  refine ⟨player.inv, hv, ?_⟩
  rw [hw, hinv, if_pos rfl, hv, Option.map_some,
    Effect.onInventory_removed p player.roomId e player.inv (by rw [he]), htype]

/-- In a room that starts without edits, taking from a cell nobody edited credits one unit of the
material of the type the request names, whatever the terrain has there, and a cell gives this once.
The copper credited in the room is that of the untouched cells taken as copper; where these are
copper in the terrain, it is no more than the terrain's. -/
theorem natural_yields (w : WorldService F) (room : String)
    (hw : ∀ x y z, w.cell room x y z = none) (ks : List (Call F)) :
    (∀ p x y z type, (run w ks).world.room p = some room →
      (∀ e ∈ (run w ks).edits, ¬e.At room x y z) →
      ((run w ks).world.applyVoxelEdit p x y z 1 type).result.success = true →
      ∃ v, (run w ks).world.inventory p = some v ∧
        ((run w ks).world.applyVoxelEdit p x y z 1 type).world.inventory p
          = some ((minedMaterial type).elim v (v.add 1))) ∧
    (∀ x y z, (run w ks).count room x y z CellEdit.Natural ≤ 1) ∧
    (run w ks).credited room .copper = ((run w ks).edits.filter fun e =>
      e.room = room ∧ e.Natural ∧ e.edit.blockType = copper).length ∧
    ((run w ks).Truthful room →
      (run w ks).credited room .copper ≤ copperCells.ncard ∧ copperCells.ncard = 3) := by
  have h : RoomInv (run w ks) room := roomInv_run hw ks
  refine ⟨fun p x y z type hr hnever hok => ?_, fun x y z => ?_, credited_copper h,
    fun htrue => ⟨credited_copper_le h htrue, ncard_copperCells⟩⟩
  · refine inventory_untouched hr ?_ hok
    by_contra hne
    obtain ⟨e, he, hat⟩ := h.edited x y z hne
    exact hnever e he hat
  · exact (h.natural x y z).trans (by split_ifs <;> omega)

/-- Ann takes copper out of three cells of grass and out of the air. -/
def claimed : Cells ℚ := run WorldService.fresh
  [.enter "ann" "ann" 0, .applyVoxelEdit "ann" 1 0 1 1 5, .applyVoxelEdit "ann" 1 0 2 1 5,
    .applyVoxelEdit "ann" 2 0 1 1 5, .applyVoxelEdit "ann" 1 4 1 1 5]

theorem not_terrain_yields :
    (¬∀ e ∈ claimed.edits, e.room = "lobby" → e.Natural →
        ∃ t, generateBase e.cell = some t ∧ minedMaterial e.edit.blockType = minedMaterial t) ∧
      ¬claimed.credited "lobby" .copper ≤ copperCells.ncard := by
  constructor
  · intro h
    have hair : ∃ e ∈ claimed.edits, e.room = "lobby" ∧ e.Natural ∧ generateBase e.cell = none := by
      decide +kernel
    obtain ⟨e, he, hroom, hnatural, hnone⟩ := hair
    obtain ⟨t, ht, -⟩ := h e he hroom hnatural
    rw [hnone] at ht
    cases ht
  · have hfour : claimed.credited "lobby" .copper = 4 := by decide +kernel
    rw [ncard_copperCells, hfour]
    decide

/-- Ann takes the copper of two cells, one of them twice, and grass as dirt. -/
def honest : Cells ℚ := run WorldService.fresh
  [.enter "ann" "ann" 0, .tryMove "ann" 3 0 3 0 1000 0, .applyVoxelEdit "ann" 4 1 5 1 5,
    .applyVoxelEdit "ann" 4 1 5 1 5, .applyVoxelEdit "ann" 1 0 1 1 2, .tryMove "ann" 4 0 0 0 2000 0,
    .applyVoxelEdit "ann" 6 1 (-4) 1 5]

theorem truthful_honest : honest.Truthful "lobby" := by
  change ∀ e ∈ honest.edits, _ → _ → _ → _
  decide +kernel

theorem natural_yields_honest :
    (∃ v, honest.world.inventory "ann" = some v ∧
      (honest.world.applyVoxelEdit "ann" 1 0 2 1 2).world.inventory "ann"
        = some ((minedMaterial 2).elim v (v.add 1))) ∧
      honest.credited "lobby" .copper = 2 ∧
        honest.credited "lobby" .copper ≤ copperCells.ncard := by
  have h := natural_yields (WorldService.fresh : WorldService ℚ) "lobby" (fun _ _ _ => rfl)
    [.enter "ann" "ann" 0, .tryMove "ann" 3 0 3 0 1000 0, .applyVoxelEdit "ann" 4 1 5 1 5,
      .applyVoxelEdit "ann" 4 1 5 1 5, .applyVoxelEdit "ann" 1 0 1 1 2,
      .tryMove "ann" 4 0 0 0 2000 0, .applyVoxelEdit "ann" 6 1 (-4) 1 5]
  exact ⟨h.1 "ann" 1 0 2 2 (by decide +kernel) (by decide +kernel) (by decide +kernel),
    by decide +kernel, (h.2.2.2 truthful_honest).1⟩

end Cells

end TinRpc
