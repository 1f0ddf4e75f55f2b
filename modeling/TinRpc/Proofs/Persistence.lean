import TinRpc.Proofs.Scenes

/-!
# Storing the scene and loading it again

The scene of a run comes back from the store as it was exactly when no edit is in a room whose name
has a NUL and the building number has not wrapped to zero (`scene_round_trip`): the store writes
names as C strings, and a loaded building number is at least one.
-/

namespace TinRpc

open Transition
open Bson (NulFree cstr find getDocument)

variable {F D : Type} [Platform F]

namespace SceneStore

theorem read_writeResource {r : Resource F} (h : NulFree r.id) :
    (getDocument (writeResource r)).map readResource = some r := by
  simp only [writeResource, getDocument, Option.map_some, readResource, List.foldl_cons,
    List.foldl_nil, Bson.cstr_of_nulFree h]

theorem read_writeBuilding {b : BuildingState F} (h : NulFree b.id) (howner : NulFree b.ownerId) :
    (getDocument (writeBuilding b)).map readBuilding = some b := by
  simp only [writeBuilding, getDocument, Option.map_some, readBuilding, List.foldl_cons,
    List.foldl_nil, Bson.cstr_of_nulFree h, Bson.cstr_of_nulFree howner]

omit [Platform F] in
theorem read_writeVoxelEdit {v : SceneVoxelEdit} (h : NulFree v.roomId) :
    (getDocument (writeVoxelEdit (F := F) v)).map readVoxelEdit = some v := by
  simp only [writeVoxelEdit, getDocument, Option.map_some, readVoxelEdit, List.foldl_cons,
    List.foldl_nil, Bson.cstr_of_nulFree h]

omit [Platform F] in
/-- Items that are read as they were written, and have a name, are all read. -/
theorem readItems_write {β : Type} {write : β → Bson F} {read : Bson.Doc F → β}
    {name : β → String} : ∀ l : List β,
      (∀ b ∈ l, (getDocument (write b)).map read = some b ∧ name b ≠ "") →
      readItems read name (some (.array (l.map write))) = l
  | [], _ => rfl
  | b :: l, h => by
    have ih := readItems_write l fun b hb => h b (List.mem_cons_of_mem _ hb)
    obtain ⟨hread, hname⟩ := h b List.mem_cons_self
    simp only [readItems, Option.elim_some, Bson.getArray] at ih ⊢
    rw [List.map_cons, List.filterMap_cons]
    simp only [hread]
    rw [List.filter_cons, ih]
    simp [hname]

omit [Platform F] in
theorem toUInt64_toInt64 {n : ℕ} (h : n < 2 ^ 64) : toUInt64 (toInt64 n) = n := by
  unfold toUInt64 toInt64
  have hwidth : (2 : ℤ) ^ 64 = (2 ^ 64 : ℕ) := by norm_num
  rw [hwidth, Int.bmod_emod]
  omega

/-- What a store can keep of a snapshot: all of it. -/
structure Writable (snap : SceneSnapshot F) : Prop where
  resources : ∀ r ∈ snap.resources, NulFree r.id ∧ r.id ≠ ""
  buildings : ∀ b ∈ snap.buildings, NulFree b.id ∧ b.id ≠ "" ∧ NulFree b.ownerId
  voxelEdits : ∀ v ∈ snap.voxelEdits, NulFree v.roomId ∧ v.roomId ≠ ""
  number : snap.nextBuildingId < 2 ^ 64

theorem parse_document {snap : SceneSnapshot F} (h : Writable snap) (sceneId : String) (ms : ℤ) :
    parse sceneId (document snap ms) = { snap with sceneId, found := true } := by
  have hresources : readItems readResource Resource.id (find (document snap ms) "resources") =
      snap.resources := by
    simp only [document, Bson.find_cons, reduceIte, String.reduceEq]
    exact readItems_write _ fun r hr => ⟨read_writeResource (h.resources r hr).1,
      (h.resources r hr).2⟩
  have hbuildings : readItems readBuilding BuildingState.id
      (find (document snap ms) "buildings") = snap.buildings := by
    simp only [document, Bson.find_cons, reduceIte, String.reduceEq]
    exact readItems_write _ fun b hb => ⟨read_writeBuilding (h.buildings b hb).1
      (h.buildings b hb).2.2, (h.buildings b hb).2.1⟩
  have hedits : readItems readVoxelEdit SceneVoxelEdit.roomId
      (find (document snap ms) "voxel_edits") = snap.voxelEdits := by
    simp only [document, Bson.find_cons, reduceIte, String.reduceEq]
    exact readItems_write _ fun v hv => ⟨read_writeVoxelEdit (h.voxelEdits v hv).1,
      (h.voxelEdits v hv).2⟩
  have hnumber : find (document snap ms) "next_building_id" =
      some (.int64 (toInt64 snap.nextBuildingId)) := by
    simp only [document, Bson.find_cons, reduceIte, String.reduceEq]
  simp only [parse, hresources, hbuildings, hedits, hnumber, toUInt64_toInt64 h.number]

omit [Platform F] in
theorem writable_exportScene {w : WorldService F} (h : w.content.Storable)
    (hrooms : ∀ room key e, w.content.edits room key = some e → NulFree room) (sceneId : String) :
    Writable (w.exportScene sceneId) where
  resources r hr := by
    obtain ⟨e, he, rfl⟩ := List.mem_map.1 hr
    have hlookup : w.content.resources e.1 = some e.2 := AList.mem_entries_iff.1 he
    rw [h.resources e.1 e.2 hlookup]
    exact h.ids e.1 e.2 hlookup
  buildings b hb := h.buildings b hb
  voxelEdits v hv := by
    obtain ⟨room, hroom, hv⟩ := List.mem_flatMap.1 hv
    obtain ⟨cell, hcell, rfl⟩ := List.mem_map.1 hv
    have hlookup : w.voxelEdits.lookup room.1 = some room.2 := AList.mem_entries_iff.1 hroom
    have hedit : w.content.edits room.1 cell.1 = some cell.2 := by
      simpa [Scene.content, Scene.roomEdits, hlookup] using AList.mem_entries_iff.1 hcell
    exact ⟨hrooms _ _ _ hedit, h.rooms _ _ _ hedit⟩
  number := h.number

end SceneStore

/-- The scene stored in a collection at time `ms` and loaded into a fresh world. -/
def WorldService.restored (w : WorldService F) (scenes : String → Option (Bson.Doc F)) (ms : ℤ) :
    WorldService F :=
  fresh.loadScene (SceneStore.load true true
    (SceneStore.upsert true true scenes (w.exportScene "default") ms).1 "default")

theorem WorldService.restored_eq (w : WorldService F) (scenes : String → Option (Bson.Doc F))
    (ms : ℤ) : w.restored scenes ms =
      fresh.loadScene (SceneStore.parse "default"
        (SceneStore.document (w.exportScene "default") ms)) := by
  simp [restored, SceneStore.load, SceneStore.upsert, exportScene]

namespace GameService

variable [Lobby D] {s : GameService F D}

/-- In every run the scene stored and loaded again is the one there was exactly when its edits are
in rooms without NUL and its building number is not zero. -/
theorem scene_round_trip (h : Running anyEvent s) (scenes : String → Option (Bson.Doc F))
    (ms : ℤ) : (s.world.restored scenes ms).content = s.world.content ↔
      (∀ room key e, s.world.content.edits room key = some e → NulFree room) ∧
        s.world.nextBuildingId ≠ 0 := by
  have hs := storable_reach h
  rw [s.world.restored_eq, WorldService.content_loadScene]
  constructor
  · intro heq
    refine ⟨fun room key e he => ?_, fun hzero => ?_⟩
    · rw [← heq] at he
      dsimp only at he
      exact (SceneStore.rooms_parse he).1
    · have hnumber := congrArg Content.nextBuildingId heq
      dsimp only at hnumber
      split_ifs at hnumber with hpos
      · have hcurrent : s.world.content.nextBuildingId = s.world.nextBuildingId := rfl
        omega
      · have hcurrent : s.world.content.nextBuildingId = s.world.nextBuildingId := rfl
        omega
  · rintro ⟨hrooms, hnumber⟩
    have hwritable := SceneStore.writable_exportScene hs hrooms "default"
    have hpos : 0 < s.world.nextBuildingId := Nat.pos_of_ne_zero hnumber
    rw [SceneStore.parse_document hwritable]
    have hcontent := s.world.content_exportScene hs.toKeyed "default"
    rw [← hcontent]
    ext1
    · rfl
    · rfl
    · exact if_pos hpos
    · rfl

/-- A block dug in a room of its own. -/
theorem scene_round_trip_cave : ∃ s : GameService ℚ Unit, Running anyEvent s ∧
    (s.world.content.edits "cave" (voxelKey 0 0 0)).isSome ∧
    ((s.world.restored (fun _ => none) 0).content = s.world.content ↔
      (∀ room key e, s.world.content.edits room key = some e → NulFree room) ∧
        s.world.nextBuildingId ≠ 0) := by
  have hplay : (play anyEvent twoAccounts (List.flatten [[.accept 5], loginAnn 5,
      [.frame 5 2 (.selectMap (some ("cave", 0))) 0,
        .frame 5 3 (.voxelEdit (some ⟨0, 0, 0, 1, 1⟩)) 0]])).map
        (fun s => (s.world.content.edits "cave" (voxelKey 0 0 0)).isSome) = some true := by
    decide +kernel
  obtain ⟨s, hs, hedit⟩ := Option.map_eq_some_iff.1 hplay
  exact ⟨s, running_of_play hs, hedit, scene_round_trip (running_of_play hs) _ 0⟩

/-- A room named by a string with a NUL keeps its edits only until the scene is loaded. -/
theorem scene_round_trip_fails : ∃ s : GameService ℚ Unit, Running anyEvent s ∧
    s.world.content.edits "a\x00b" (voxelKey 0 0 0) = some ⟨0, 0, 0, 1, 1⟩ ∧
    (s.world.restored (fun _ => none) 0).content.edits "a\x00b" (voxelKey 0 0 0) = none ∧
    (s.world.restored (fun _ => none) 0).content.edits "a" (voxelKey 0 0 0) =
      some ⟨0, 0, 0, 1, 1⟩ ∧
    (s.world.restored (fun _ => none) 0).content ≠ s.world.content := by
  have hplay : (play anyEvent twoAccounts (List.flatten [[.accept 5], loginAnn 5,
      [.frame 5 2 (.selectMap (some ("a\x00b", 0))) 0,
        .frame 5 3 (.voxelEdit (some ⟨0, 0, 0, 1, 1⟩)) 0]])).map
        (fun s => (s.world.content.edits "a\x00b" (voxelKey 0 0 0),
          (s.world.restored (fun _ => none) 0).content.edits "a\x00b" (voxelKey 0 0 0),
          (s.world.restored (fun _ => none) 0).content.edits "a" (voxelKey 0 0 0))) =
      some (some ⟨0, 0, 0, 1, 1⟩, none, some ⟨0, 0, 0, 1, 1⟩) := by
    decide +kernel
  obtain ⟨s, hs, hedits⟩ := Option.map_eq_some_iff.1 hplay
  simp only [Prod.mk.injEq] at hedits
  refine ⟨s, running_of_play hs, hedits.1, hedits.2.1, hedits.2.2, fun heq => ?_⟩
  have hlost := hedits.2.1
  rw [heq, hedits.1] at hlost
  simp at hlost

end GameService

end TinRpc
