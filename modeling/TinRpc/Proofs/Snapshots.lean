import TinRpc.Proofs.Calls

/-!
# Snapshots and contents

A scene is exported with the content it has (`content_exportScene`) and loaded with the content its
snapshot describes (`content_loadScene`). The export goes by the names in the items and not by the
keys they are kept under; these are the same in every scene the operations make (`Keyed`).
-/

namespace TinRpc

variable {F : Type}

/-- A resource is kept under its id and an edit under the key of its cell. -/
structure Content.Keyed (c : Content F) : Prop where
  resources : ∀ id r, c.resources id = some r → r.id = id
  edits : ∀ room key e, c.edits room key = some e → key = voxelKey e.x e.y e.z

/-- What a saved edit says of its cell. -/
def SceneVoxelEdit.state (v : SceneVoxelEdit) : VoxelEditState :=
  ⟨v.x, v.y, v.z, v.action, v.blockType⟩

/-- An edit of a room as it is saved. -/
def VoxelEditState.saved (e : VoxelEditState) (room : String) : SceneVoxelEdit :=
  ⟨room, e.x, e.y, e.z, e.action, e.blockType⟩

/-- The saved edit is one of a cell in a room. -/
def SceneVoxelEdit.On (room key : String) (v : SceneVoxelEdit) : Prop :=
  v.roomId = room ∧ voxelKey v.x v.y v.z = key

instance (room key : String) : DecidablePred (SceneVoxelEdit.On room key) := fun v =>
  inferInstanceAs (Decidable (v.roomId = room ∧ voxelKey v.x v.y v.z = key))

namespace SceneSnapshot

/-- The last edit of each cell, over what there was. -/
def overlay (edits : String → String → Option VoxelEditState) (l : List SceneVoxelEdit) :
    String → String → Option VoxelEditState :=
  l.foldl (fun edits v => Function.update edits v.roomId
    (Function.update (edits v.roomId) (voxelKey v.x v.y v.z) (some v.state))) edits

theorem overlay_eq (room key : String) : ∀ (l : List SceneVoxelEdit)
    (edits : String → String → Option VoxelEditState), overlay edits l room key =
      ((l.filter (SceneVoxelEdit.On room key)).getLast?.map SceneVoxelEdit.state).or
        (edits room key)
  | [], edits => by simp [overlay]
  | v :: l, edits => by
    have ih := overlay_eq room key l (Function.update edits v.roomId
      (Function.update (edits v.roomId) (voxelKey v.x v.y v.z) (some v.state)))
    have hcell : Function.update edits v.roomId (Function.update (edits v.roomId)
        (voxelKey v.x v.y v.z) (some v.state)) room key =
          if v.On room key then some v.state else edits room key := by
      unfold SceneVoxelEdit.On
      by_cases hroom : v.roomId = room
      · subst hroom
        by_cases hkey : voxelKey v.x v.y v.z = key
        · subst hkey; simp
        · simp [hkey, Function.update_of_ne (Ne.symm hkey)]
      · simp [hroom, Function.update_of_ne (Ne.symm hroom)]
    rw [overlay, List.foldl_cons, ← overlay, ih, hcell, List.filter_cons]
    have hlast : ∀ o : Option SceneVoxelEdit, (o.map SceneVoxelEdit.state).or (some v.state) =
        ((some (o.getD v)).map SceneVoxelEdit.state).or (edits room key) := by
      rintro (_ | u) <;> rfl
    by_cases hv : v.On room key
    · simp only [hv, ↓reduceIte, decide_true, List.getLast?_cons]
      exact hlast _
    · simp [hv]

theorem content_edits (snap : SceneSnapshot F) (room key : String) :
    snap.content.edits room key =
      (snap.voxelEdits.filter (SceneVoxelEdit.On room key)).getLast?.map SceneVoxelEdit.state := by
  have h := overlay_eq room key snap.voxelEdits fun _ _ => none
  rw [Option.or_none] at h
  exact h

theorem content_keyed (snap : SceneSnapshot F) : snap.content.Keyed where
  resources id r h := by
    have := List.find?_some h
    simpa using this
  edits room key e h := by
    rw [content_edits, Option.map_eq_some_iff] at h
    obtain ⟨v, hv, rfl⟩ := h
    have hmem := List.mem_of_getLast? hv
    have hon : v.On room key := by simpa using (List.mem_filter.1 hmem).2
    exact hon.2.symm

end SceneSnapshot

namespace WorldService

variable (w : WorldService F)

/-- Loading a snapshot makes its content, with a building number from 1 on. -/
theorem content_loadScene (snap : SceneSnapshot F) : (w.loadScene snap).content =
    { snap.content with
      nextBuildingId := if 0 < snap.nextBuildingId then snap.nextBuildingId else 1 } := by
  have hedits : ∀ (l : List SceneVoxelEdit) (s : Scene F),
      (l.foldl (fun s v => s.setEdit v.roomId (voxelKey v.x v.y v.z) v.state) s).content.edits =
        SceneSnapshot.overlay s.content.edits l := by
    intro l
    induction l with
    | nil => exact fun s => rfl
    | cons v l ih =>
      intro s
      rw [List.foldl_cons, ih, Scene.content_setEdit]
      rfl
  ext1
  · funext id
    simp only [Scene.content, loadScene, lookup_foldl_emplace, SceneSnapshot.content]
    rfl
  · rfl
  · rfl
  · exact hedits snap.voxelEdits { w.toScene with voxelEdits := ∅ }

/-- The resources found by their ids are those kept under them. -/
theorem find_resources (h : w.content.Keyed) (id : String) :
    (w.resources.entries.map fun e => e.2).find? (fun r => r.id = id) = w.resources.lookup id := by
  have hkey : ∀ e ∈ w.resources.entries, e.2.id = e.1 := fun e he =>
    h.resources e.1 e.2 (AList.mem_entries_iff.1 he)
  have hfilter : (w.resources.entries.filter fun e => e.2.id = id) =
      w.resources.entries.filter fun e => e.1 = id := by
    refine List.filter_congr fun e he => ?_
    rw [hkey e he]
  rw [List.find?_map, ← List.head?_filter]
  change ((w.resources.entries.filter fun e => e.2.id = id).head?).map _ = _
  rw [hfilter, AList.filter_key_entries]
  rcases w.resources.lookup id with _ | r <;> rfl

/-- The edits of one cell in the exported list are the one the room's table has. -/
theorem filter_exported (h : w.content.Keyed) (sceneId room key : String) :
    (w.exportScene sceneId).voxelEdits.filter (SceneVoxelEdit.On room key) =
      ((w.content.edits room key).map (·.saved room)).toList := by
  have hroom : ∀ e ∈ w.voxelEdits.entries,
      ((e.2.entries.map fun c => c.2.saved e.1).filter (SceneVoxelEdit.On room key)) =
        if e.1 = room then ((e.2.lookup key).map (·.saved room)).toList else [] := by
    intro e he
    have hlookup : w.voxelEdits.lookup e.1 = some e.2 := AList.mem_entries_iff.1 he
    by_cases hr : e.1 = room
    · have hkey : (e.2.entries.filter fun c => voxelKey c.2.x c.2.y c.2.z = key) =
          e.2.entries.filter fun c => c.1 = key := by
        refine List.filter_congr fun c hc => ?_
        have := h.edits e.1 c.1 c.2 (by
          simpa [Scene.content, Scene.roomEdits, hlookup] using AList.mem_entries_iff.1 hc)
        rw [this]
      rw [if_pos hr, List.filter_map]
      simp only [Function.comp_def, SceneVoxelEdit.On, VoxelEditState.saved, hr, true_and]
      rw [hkey, AList.filter_key_entries]
      rcases e.2.lookup key with _ | c <;> rfl
    · rw [if_neg hr, List.filter_eq_nil_iff]
      intro v hv
      obtain ⟨c, -, rfl⟩ := List.mem_map.1 hv
      simp [SceneVoxelEdit.On, VoxelEditState.saved, hr]
  have hone : ∀ (l : List (Sigma fun _ : String => Table String VoxelEditState))
      (g : Table String VoxelEditState → List SceneVoxelEdit),
      (l.flatMap fun e => if e.1 = room then g e.2 else []) =
        (l.filter fun e => e.1 = room).flatMap fun e => g e.2 := by
    intro l g
    induction l with
    | nil => rfl
    | cons e l ih => by_cases hr : e.1 = room <;> simp [hr, ih]
  change (w.voxelEdits.entries.flatMap fun e => e.2.entries.map fun c => c.2.saved e.1).filter _ = _
  rw [List.filter_flatMap, List.flatMap_congr hroom,
    hone _ fun t => ((t.lookup key).map (·.saved room)).toList, AList.filter_key_entries]
  simp only [Scene.content, Scene.roomEdits]
  rcases w.voxelEdits.lookup room with _ | t <;> simp

/-- A scene is exported with its content. -/
theorem content_exportScene (h : w.content.Keyed) (sceneId : String) :
    (w.exportScene sceneId).content = w.content := by
  ext1
  · funext id
    exact w.find_resources h id
  · rfl
  · rfl
  · funext room key
    rw [SceneSnapshot.content_edits, w.filter_exported h]
    rcases w.content.edits room key with _ | e <;> rfl

end WorldService

end TinRpc
