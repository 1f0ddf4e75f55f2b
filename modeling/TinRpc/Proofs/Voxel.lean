import TinRpc.Cells
import TinRpc.Proofs.Calls
import TinRpc.Proofs.Keys

/-!
# The voxel cell law

The cells of every run from a world without edits obey the law (`voxel_cell_law`). An accepted edit
moves its cell along untouched, removed, placed; the invariant counts the moves.
-/

namespace TinRpc

variable {F : Type}

namespace WorldService

variable (w : WorldService F)

theorem cell_content (room : String) (x y z : ℤ) :
    w.content.edits room (voxelKey x y z) = w.cell room x y z := rfl

/-- An edit is the last of its own cell and leaves the others. -/
theorem cell_onContent (p room : String) (e : VoxelEditState) (c : Content F) (room' : String)
    (x y z : ℤ) : ((Effect.edited p room e).onContent c).edits room' (voxelKey x y z) =
      if (room', x, y, z) = (room, e.x, e.y, e.z) then some e
      else c.edits room' (voxelKey x y z) := by
  simp only [Effect.onContent, Prod.mk.injEq]
  by_cases hr : room' = room
  · subst hr
    simp only [Function.update_self, Function.update_apply, voxelKey_inj, true_and]
  · simp [hr]

/-- A block is taken back into the counter it was placed from. -/
theorem minedMaterial_of_placed {type : ℤ} {m : Material} (h : placedMaterial type = some m) :
    minedMaterial type = some m := by
  unfold placedMaterial at h
  unfold minedMaterial
  split_ifs at h with h₂ h₃ h₄
  · simpa [h₂] using h
  · simpa [h₃] using h
  · simpa [h₄] using h

/-- A cell nobody edited is taken as the type the request names. -/
theorem blockTaken_untouched {room : String} {x y z : ℤ} (type : ℤ)
    (h : w.cell room x y z = none) : w.blockTaken room (voxelKey x y z) type = type := by
  unfold cell at h
  simp [blockTaken, h]

/-- A broadcast in a room goes once to each player in it. -/
theorem filter_broadcastVoxelEdit (room : String) (e : VoxelEditState) (q : String) :
    ((w.broadcastVoxelEdit room e).filter fun m => m.1 = q) =
      if w.room q = some room then [(q, .voxelEdit e)] else [] := by
  have h := AList.filter_key_map_entries w.players (fun e => decide (e.2.roomId = room))
    (Push.voxelEdit (F := F) e) q
  unfold broadcastVoxelEdit WorldService.room
  rw [h]
  rcases w.players.lookup q with _ | player <;> simp

end WorldService

theorem placedType_one {e : VoxelEditState} (h : e.action = 1) : placedType (some e) = none := by
  simp [placedType, h]

theorem placedType_two {e : VoxelEditState} (h : e.action = 2) :
    placedType (some e) = some e.blockType := by
  simp [placedType, h]

namespace Cells

/-- What holds of the cells of every run. -/
structure Inv (c : Cells F) : Prop where
  shape : ∀ room x y z e, c.world.cell room x y z = some e →
    e.action = 1 ∨ e.action = 2 ∧ (WorldService.placedMaterial e.blockType).isSome
  standing : ∀ room x y z type,
    (if placedType (c.world.cell room x y z) = some type then 1 else 0) =
      c.count room x y z (·.Placed type) - c.count room x y z (·.Took type)
  natural : ∀ room x y z, c.count room x y z CellEdit.Natural ≤
    if c.world.cell room x y z = none then 0 else 1

/-- What a cell can hold: it is removed, or holds a block of a type that can be placed. -/
def Shaped (held : Option VoxelEditState) : Prop :=
  ∀ e, held = some e →
    e.action = 1 ∨ e.action = 2 ∧ (WorldService.placedMaterial e.blockType).isSome

/-- An edit that was possible places a block where none stands, takes a placed block, or takes
what an untouched cell held. -/
theorem moves {c : Cells F} {p room : String} {e : VoxelEditState} {v : Inventory}
    (h : Shaped (c.world.cell room e.x e.y e.z))
    (henabled : (Effect.edited p room e).Enabled c.world.content v) :
    (e.action = 2 ∧ placedType (c.world.cell room e.x e.y e.z) = none ∧
        ∃ m, WorldService.placedMaterial e.blockType = some m ∧ 0 < v.count m) ∨
      (e.action = 1 ∧ placedType (c.world.cell room e.x e.y e.z) = some e.blockType ∧
        (WorldService.placedMaterial e.blockType).isSome) ∨
      (e.action = 1 ∧ c.world.cell room e.x e.y e.z = none) := by
  simp only [Effect.Enabled, WorldService.cell_content] at henabled
  rcases hcell : c.world.cell room e.x e.y e.z with _ | last
  · rcases henabled with ⟨haction, -⟩ | ⟨haction, -, hm⟩
    · exact .inr (.inr ⟨haction, rfl⟩)
    · exact .inl ⟨haction, rfl, hm⟩
  rcases henabled with ⟨haction, hlast⟩ | ⟨haction, hlast, hm⟩
  · obtain ⟨hne, htype⟩ := hlast last hcell
    rcases h last hcell with hshape | ⟨hshape, hmaterial⟩
    · exact absurd hshape hne
    · exact .inr (.inl ⟨haction, by simp [placedType, hshape, htype hshape],
        by rwa [htype hshape]⟩)
  · exact .inl ⟨haction, by simp [placedType, hlast last hcell], hm⟩

variable [Platform F]

theorem cell_after_edited {c : Cells F} {k : Call F} {p room : String} {e : VoxelEditState}
    (hk : k.effect c.world = some (.edited p room e)) (room' : String) (x y z : ℤ) :
    (c.after k).world.cell room' x y z =
      if (room', x, y, z) = (room, e.x, e.y, e.z) then some e
      else c.world.cell room' x y z := by
  change (k.run c.world).world.content.edits room' (voxelKey x y z) = _
  rw [Call.run_content, hk, Option.elim_some, WorldService.cell_onContent]
  rfl

theorem count_after_edited {c : Cells F} {k : Call F} {p room : String} {e : VoxelEditState}
    (hk : k.effect c.world = some (.edited p room e)) (room' : String) (x y z : ℤ)
    (kind : CellEdit → Prop) [DecidablePred kind] :
    (c.after k).count room' x y z kind = c.count room' x y z kind +
      if (room', x, y, z) = (room, e.x, e.y, e.z) ∧
        kind ⟨p, room, e, c.world.cell room e.x e.y e.z⟩ then 1 else 0 := by
  have hat : CellEdit.At ⟨p, room, e, c.world.cell room e.x e.y e.z⟩ room' x y z ↔
      (room', x, y, z) = (room, e.x, e.y, e.z) := by
    simp only [CellEdit.At, Prod.mk.injEq, eq_comm]
  simp only [count, after, hk, List.countP_append, List.countP_singleton, hat]
  split_ifs <;> simp_all

/-- Any other call leaves the cells and the count of edits. -/
theorem after_other {c : Cells F} {k : Call F}
    (hk : ∀ p room e, k.effect c.world ≠ some (.edited p room e)) :
    (∀ room x y z, (c.after k).world.cell room x y z = c.world.cell room x y z) ∧
      (c.after k).edits = c.edits := by
  refine ⟨fun room x y z => ?_, ?_⟩
  · change (k.run c.world).world.content.edits room (voxelKey x y z) = _
    rw [Call.run_content]
    rcases he : k.effect c.world with _ | e
    · rfl
    · cases e with
      | edited p room e => exact absurd he (hk p room e)
      | _ => rfl
  · unfold after
    rcases he : k.effect c.world with _ | e
    · simp
    · cases e with
      | edited p room e => exact absurd he (hk p room e)
      | _ => simp

section Edited

variable {c : Cells F} {k : Call F} {p room : String} {e : VoxelEditState}

/-- The moves of a call's edit. -/
theorem moves_effect (h : Shaped (c.world.cell room e.x e.y e.z))
    (hk : k.effect c.world = some (.edited p room e)) :
    (e.action = 2 ∧ placedType (c.world.cell room e.x e.y e.z) = none ∧
        (WorldService.placedMaterial e.blockType).isSome) ∨
      (e.action = 1 ∧ placedType (c.world.cell room e.x e.y e.z) = some e.blockType ∧
        (WorldService.placedMaterial e.blockType).isSome) ∨
      (e.action = 1 ∧ c.world.cell room e.x e.y e.z = none) := by
  obtain ⟨v, -, henabled⟩ := (Call.effect_performed c.world hk).enabled
  rcases moves h henabled with ⟨ha, hnone, m, hm, -⟩ | hrest
  · exact .inl ⟨ha, hnone, by simp [hm]⟩
  · exact .inr hrest

theorem shaped_after_edited (hk : k.effect c.world = some (.edited p room e))
    (hown : Shaped (c.world.cell room e.x e.y e.z)) {room' : String} {x y z : ℤ}
    (h : Shaped (c.world.cell room' x y z)) : Shaped ((c.after k).world.cell room' x y z) := by
  intro e' he'
  rw [cell_after_edited hk] at he'
  split_ifs at he'
  · simp only [Option.some.injEq] at he'
    subst he'
    rcases moves_effect hown hk with ⟨ha, -, hm⟩ | ⟨ha, -⟩ | ⟨ha, -⟩
    · exact .inr ⟨ha, hm⟩
    · exact .inl ha
    · exact .inl ha
  · exact h e' he'

/-- A cell that gave what nobody placed has been edited. -/
theorem natural_after_edited (hk : k.effect c.world = some (.edited p room e))
    (hown : Shaped (c.world.cell room e.x e.y e.z)) {room' : String} {x y z : ℤ}
    (hnatural : c.count room' x y z CellEdit.Natural
      ≤ if c.world.cell room' x y z = none then 0 else 1) :
    (c.after k).count room' x y z CellEdit.Natural
      ≤ if (c.after k).world.cell room' x y z = none then 0 else 1 := by
  rw [cell_after_edited hk, count_after_edited hk]
  generalize c.count room' x y z CellEdit.Natural = natural at hnatural ⊢
  by_cases hat : (room', x, y, z) = (room, e.x, e.y, e.z)
  · obtain ⟨rfl, rfl, rfl, rfl⟩ := by simpa only [Prod.mk.injEq] using hat
    simp only [↓reduceIte, true_and, CellEdit.Natural, reduceCtorEq]
    rcases moves_effect hown hk with ⟨ha, -⟩ | ⟨ha, hsome, -⟩ | ⟨ha, hnone⟩
    · simp only [ha]
      split_ifs at hnatural <;> simp <;> omega
    · simp only [ha, hsome]
      split_ifs at hnatural <;> simp <;> omega
    · simp only [ha, hnone, placedType, and_self, ↓reduceIte] at hnatural ⊢
      omega
  · simpa [hat] using hnatural

theorem inv_after_edited (h : Inv c) (hk : k.effect c.world = some (.edited p room e)) :
    Inv (c.after k) := by
  have hown : Shaped (c.world.cell room e.x e.y e.z) := h.shape _ _ _ _
  refine ⟨fun room' x y z => shaped_after_edited hk hown (h.shape room' x y z),
    fun room' x y z type => ?_, fun room' x y z =>
      natural_after_edited hk hown (h.natural room' x y z)⟩
  have hstanding := h.standing room' x y z type
  rw [cell_after_edited hk, count_after_edited hk, count_after_edited hk]
  generalize c.count room' x y z (·.Placed type) = placed at hstanding ⊢
  generalize c.count room' x y z (·.Took type) = took at hstanding ⊢
  by_cases hat : (room', x, y, z) = (room, e.x, e.y, e.z)
  · obtain ⟨rfl, rfl, rfl, rfl⟩ := by simpa only [Prod.mk.injEq] using hat
    simp only [↓reduceIte, true_and, CellEdit.Placed, CellEdit.Took]
    rcases moves_effect hown hk with ⟨ha, hnone, -⟩ | ⟨ha, hsome, -⟩ | ⟨ha, hnone⟩
    · simp only [hnone, ha, placedType_two] at hstanding ⊢
      by_cases ht : e.blockType = type <;> simp [ht] at hstanding ⊢ <;> omega
    · simp only [hsome, ha, placedType_one] at hstanding ⊢
      by_cases ht : e.blockType = type <;> simp [ht] at hstanding ⊢ <;> omega
    · simp only [hnone, ha, placedType] at hstanding ⊢
      simp at hstanding ⊢; omega
  · simpa [hat] using hstanding

end Edited

theorem inv_after {c : Cells F} (h : Inv c) (k : Call F) : Inv (c.after k) := by
  by_cases hk : ∃ p room e, k.effect c.world = some (.edited p room e)
  · obtain ⟨p, room, e, hk⟩ := hk
    exact inv_after_edited h hk
  · simp only [not_exists] at hk
    obtain ⟨hcell, hedits⟩ := after_other hk
    exact ⟨by simpa only [hcell] using h.shape,
      by simpa only [hcell, count, hedits] using h.standing,
      by simpa only [hcell, count, hedits] using h.natural⟩

theorem inv_run {w : WorldService F} (hw : ∀ room x y z, w.cell room x y z = none) :
    ∀ ks : List (Call F), Inv (run w ks) := by
  have h : ∀ (ks : List (Call F)) (c : Cells F), Inv c → Inv (ks.foldl after c) := by
    intro ks
    induction ks with
    | nil => exact fun c hc => hc
    | cons k ks ih => exact fun c hc => ih _ (inv_after hc k)
  refine fun ks => h ks _ ⟨fun room x y z e he => ?_, fun room x y z type => ?_,
    fun room x y z => ?_⟩
  · simp [hw] at he
  · simp [hw, placedType, count]
  · simp [hw, count]

theorem accepted {c : Cells F} (h : Inv c) {p : String} {x y z action type : ℤ}
    (hok : (c.world.applyVoxelEdit p x y z action type).result.success = true) :
    ∃ room, Accepted c.world p x y z action type room
      (c.world.applyVoxelEdit p x y z action type).world
      (c.world.applyVoxelEdit p x y z action type).sent := by
  rcases c.world.applyVoxelEdit_cases p x y z action type with ⟨hfail, -⟩ |
    ⟨player, e, hp, he, henabled, -, hw, hsent⟩
  · simp [hfail] at hok
  obtain ⟨hinv, hroom⟩ := c.world.charged (c.world.edited p player e)
    (.edited p player.roomId e) hp rfl
  have hx : e.x = x ∧ e.y = y ∧ e.z = z ∧ e.action = action := by simp [he]
  obtain ⟨rfl, rfl, rfl, rfl⟩ := hx
  have hv : c.world.inventory p = some player.inv := by simp [WorldService.inventory, hp]
  have hv' := hinv p
  rw [if_pos rfl, hv, Option.map_some] at hv'
  have hcell : ∀ room' x y z, (c.world.edited p player e).cell room' x y z =
      if (room', x, y, z) = (player.roomId, e.x, e.y, e.z) then some e
      else c.world.cell room' x y z := by
    intro room' x y z
    rw [← WorldService.cell_content, WorldService.edited, Scene.content_setEdit,
      Scene.content_touchRoom]
    exact WorldService.cell_onContent p player.roomId e c.world.content room' x y z
  have hmoves := moves (h.shape _ _ _ _) henabled
  have hself := hcell player.roomId e.x e.y e.z
  rw [if_pos rfl] at hself
  rw [hw] at hsent ⊢
  refine ⟨player.roomId, by simp [WorldService.room, hp], ?_, ?_, ?_, ?_, ?_, ?_, e, hself, ?_⟩
  · rcases hmoves with ⟨ha, -⟩ | ⟨ha, -⟩ | ⟨ha, -⟩
    · exact .inr ha
    · exact .inl ha
    · exact .inl ha
  · intro ha
    have htype : e.blockType = type := by rw [he]; simp [ha]
    rcases hmoves with ⟨-, hnone, m, hm, hpos⟩ | ⟨ha', -⟩ | ⟨ha', -⟩
    · refine ⟨m, player.inv, htype ▸ hm, hv, hpos, hnone, ?_, ?_⟩
      · rw [hv', Effect.onInventory_placed p player.roomId e player.inv m (by omega) hm]
      · rw [hself, placedType_two ha, htype]
    · omega
    · omega
  · intro t ha ht
    rcases hmoves with ⟨ha', -⟩ | ⟨-, hsome, hm⟩ | ⟨-, hnone⟩
    · omega
    · rw [ht, Option.some.injEq] at hsome
      obtain ⟨m, hm⟩ := Option.isSome_iff_exists.1 hm
      refine ⟨m, player.inv, hsome ▸ hm, hv, ?_, ?_⟩
      · rw [hv', Effect.onInventory_removed p player.roomId e player.inv ha,
          WorldService.minedMaterial_of_placed hm]
        rfl
      · rw [hself, placedType_one ha]
    · simp [hnone, placedType] at ht
  · intro ha hnone
    rcases hmoves with ⟨ha', -⟩ | ⟨-, hsome, -⟩ | ⟨-, hcell⟩
    · omega
    · exact absurd (hsome.symm.trans hnone) (Option.some_ne_none _)
    have htype : e.blockType = type := by
      have htaken : c.world.blockTaken player.roomId (voxelKey e.x e.y e.z) type = type :=
        c.world.blockTaken_untouched type hcell
      rw [he, if_pos ha, htaken]
    refine ⟨hcell, by rw [hself, placedType_one ha], player.inv, hv, ?_⟩
    rw [hv', Effect.onInventory_removed p player.roomId e player.inv ha, htype]
  · intro q hq
    rw [hinv q, if_neg hq]
  · intro room' x y z hne
    rw [hcell, if_neg hne]
  · intro q
    rw [hsent, WorldService.filter_broadcastVoxelEdit, hroom]

theorem refused (w : WorldService F) (p : String) (x y z action type : ℤ)
    (hfail : (w.applyVoxelEdit p x y z action type).result.success = false) :
    Refused w (w.applyVoxelEdit p x y z action type).world
      (w.applyVoxelEdit p x y z action type).sent := by
  obtain ⟨-, hkept, hinv, -⟩ := Call.unchanged_of_failure w
    (k := .applyVoxelEdit p x y z action type) (congrArg some hfail)
  refine ⟨hinv, fun room x' y' z' => ?_, ?_⟩
  · rw [← WorldService.cell_content, ← WorldService.cell_content]
    exact congrArg (·.edits room (voxelKey x' y' z')) hkept.content_eq
  · rcases w.applyVoxelEdit_cases p x y z action type with ⟨-, hsent, -⟩ | ⟨_, _, -, -, -, hok, -⟩
    · exact hsent
    · simp [hok] at hfail

/-- The cells of every run from a world without edits obey the law. -/
theorem voxel_cell_law (w : WorldService F) (hw : ∀ room x y z, w.cell room x y z = none)
    (ks : List (Call F)) : (run w ks).Law := by
  have h := inv_run hw ks
  exact {
    standing := h.standing
    natural := fun room x y z => (h.natural room x y z).trans (by split_ifs <;> omega)
    accepted := fun p x y z action type => accepted h
    refused := fun p x y z action type => refused _ p x y z action type }

/-- Mining and placing dirt in the seeded world. -/
theorem voxel_cell_law_seeded : (run (WorldService.fresh : WorldService ℚ).seedDefaultScene
    [.enter "ann" "ann" 0, .applyVoxelEdit "ann" 1 (-1) 1 1 2, .applyVoxelEdit "ann" 1 0 1 2 2]).Law :=
  voxel_cell_law _ (fun _ _ _ _ => rfl) _

end Cells

end TinRpc
