import TinRpc.Client
import TinRpc.Floats
import TinRpc.Proofs.Movement
import TinRpc.Proofs.Scenes

/-!
# The ids of buildings

A building that is placed is called by the number of a counter, which is loaded with the scene and
is one where the scene has none. Ids stay distinct as long as the counter does not reach the number
of a building that was loaded with the scene.
-/

namespace TinRpc

/-- What the building with a number is called. -/
def buildingName (n : ℕ) : String := "building_" ++ toString n

theorem buildingName_inj {m n : ℕ} : buildingName m = buildingName n ↔ m = n := by
  refine ⟨fun h => toDigits_injective ?_, fun h => h ▸ rfl⟩
  have h := congrArg String.toList h
  unfold buildingName at h
  rw [String.toList_append, String.toList_append] at h
  have hdigits := List.append_cancel_left h
  rwa [← Nat.toList_repr, ← Nat.toList_repr]

/-- The names the counter gives next. -/
def nextNames (start count : ℕ) : List String :=
  (List.range count).map fun i => buildingName ((start + i) % 2 ^ 64)

theorem nextNames_succ {start : ℕ} (h : start < 2 ^ 64) (count : ℕ) :
    nextNames start (count + 1) = buildingName start :: nextNames ((start + 1) % 2 ^ 64) count := by
  unfold nextNames
  rw [List.range_succ_eq_map, List.map_cons, List.map_map, Nat.add_zero, Nat.mod_eq_of_lt h]
  refine congrArg _ (List.map_congr_left fun i _ => ?_)
  show buildingName ((start + (i + 1)) % 2 ^ 64) = _
  rw [Nat.mod_add_mod, show start + 1 + i = start + (i + 1) by omega]

/-- A counter gives a name again only after a full turn. -/
theorem nextNames_nodup (start count : ℕ) : (nextNames start count).Nodup ↔ count ≤ 2 ^ 64 := by
  unfold nextNames
  constructor
  · intro h
    by_contra hlong
    have := List.inj_on_of_nodup_map h (List.mem_range.2 (by omega : 0 < count))
      (List.mem_range.2 (by omega : 2 ^ 64 < count)) (by simp)
    omega
  · intro hshort
    refine List.Nodup.map_on (fun i hi j hj hij => ?_) List.nodup_range
    have hi := List.mem_range.1 hi
    have hj := List.mem_range.1 hj
    have := buildingName_inj.1 hij
    omega

namespace SurvivalWorld

variable {F : Type}

/-- A client shows the first building of each id it is told of. -/
theorem lookup_applyBuildings {id : String} (hid : id ≠ "") :
    ∀ (l : List (BuildingState F)) (t : Table String (BuildingState F)),
      (applyBuildings t l).lookup id = (t.lookup id).or (l.find? fun b => b.id = id)
  | [], t => by simp [applyBuildings]
  | b :: l, t => by
    refine (lookup_applyBuildings hid l (applyBuilding t b)).trans ?_
    unfold applyBuilding
    by_cases hb : b.id = id
    · subst hb
      rw [List.find?_cons_of_pos (by simp)]
      split_ifs with hknown
      · obtain ⟨b', hb'⟩ := Option.isSome_iff_exists.1
          (AList.lookup_isSome.2 (hknown.resolve_left hid))
        rw [hb', Option.some_or, Option.some_or]
      · have hnone : t.lookup b.id = none := AList.lookup_eq_none.2 fun h => hknown (.inr h)
        rw [AList.lookup_insert, hnone, Option.some_or, Option.none_or]
    · rw [List.find?_cons_of_neg (by simpa using hb)]
      split_ifs
      · rfl
      · rw [AList.lookup_insert_ne (Ne.symm hb)]

/-- Buildings whose ids are distinct are all shown. -/
theorem shown_of_nodup {l : List (BuildingState F)} (hids : (l.map BuildingState.id).Nodup)
    {b : BuildingState F} (hb : b ∈ l) (hname : b.id ≠ "") :
    (applyBuildings ∅ l).lookup b.id = some b := by
  rw [lookup_applyBuildings hname, AList.lookup_empty, Option.none_or]
  rcases hfind : l.find? fun b' => b'.id = b.id with _ | b'
  · have hmissed : b.id ≠ b.id := by simpa using List.find?_eq_none.1 hfind b hb
    exact absurd rfl hmissed
  · have hid : b'.id = b.id := by simpa using List.find?_some hfind
    exact hfind.trans
      (congrArg some (List.inj_on_of_nodup_map hids (List.mem_of_find?_eq_some hfind) hb hid))

end SurvivalWorld

namespace WorldService

variable {F : Type} [Platform F] {w : WorldService F}

/-- A call places a building with the counter's name, or none. -/
theorem buildings_run (k : Call F) :
    ((k.run w).world.buildings = w.buildings ∧
        (k.run w).world.nextBuildingId = w.nextBuildingId) ∨
      ∃ b, b.id = buildingName w.nextBuildingId ∧
        (k.run w).world.buildings = w.buildings ++ [b] ∧
        (k.run w).world.nextBuildingId = (w.nextBuildingId + 1) % 2 ^ 64 := by
  have hcontent := Call.run_content w k
  have hbuildings := congrArg Content.buildings hcontent
  have hnumber := congrArg Content.nextBuildingId hcontent
  change (k.run w).world.buildings = _ at hbuildings
  change (k.run w).world.nextBuildingId = _ at hnumber
  rcases he : k.effect w with _ | e
  · rw [he] at hbuildings hnumber
    exact .inl ⟨hbuildings, hnumber⟩
  rw [he] at hbuildings hnumber
  obtain ⟨v, -, henabled⟩ := (Call.effect_performed w he).enabled
  cases e with
  | built p b => exact .inr ⟨b, henabled.2.2.1, hbuildings, hnumber⟩
  | _ => exact .inl ⟨hbuildings, hnumber⟩

/-- How many buildings the calls place. -/
def placements (w : WorldService F) (ks : List (Call F)) : ℕ :=
  (Call.runAll w ks).buildings.length - w.buildings.length

/-- A run adds as many buildings, called by the counter one after the other. -/
theorem buildings_runAll : ∀ (ks : List (Call F)) {w : WorldService F},
    w.nextBuildingId < 2 ^ 64 → ∃ news, (Call.runAll w ks).buildings = w.buildings ++ news ∧
      news.map BuildingState.id = nextNames w.nextBuildingId news.length
  | [], w, _ => ⟨[], (List.append_nil _).symm, rfl⟩
  | k :: ks, w, hw => by
    rcases buildings_run (w := w) k with ⟨hsame, hnumber⟩ | ⟨b, hid, hmore, hnumber⟩
    · obtain ⟨news, hnews, hids⟩ := buildings_runAll ks (w := (k.run w).world) (hnumber ▸ hw)
      rw [hnumber] at hids
      exact ⟨news, hnews.trans (by rw [hsame]), hids⟩
    · obtain ⟨news, hnews, hids⟩ := buildings_runAll ks (w := (k.run w).world)
        (hnumber ▸ Nat.mod_lt _ (by decide))
      rw [hnumber] at hids
      refine ⟨b :: news, hnews.trans (by rw [hmore, List.append_assoc]; rfl), ?_⟩
      rw [List.map_cons, List.length_cons, nextNames_succ hw, hid, hids]

theorem map_id_runAll (ks : List (Call F)) (hw : w.nextBuildingId < 2 ^ 64) :
    (Call.runAll w ks).buildings.map BuildingState.id
      = w.buildings.map BuildingState.id ++ nextNames w.nextBuildingId (placements w ks) := by
  obtain ⟨news, hnews, hids⟩ := buildings_runAll ks hw
  have hcount : placements w ks = news.length := by
    unfold placements
    rw [hnews, List.length_append, Nat.add_sub_cancel_left]
  rw [hnews, List.map_append, hids, hcount]

/-- From distinct ids a run comes to distinct ids exactly if the counter does not come to a name in
use, nor round to where it started. -/
theorem nodup_runAll_iff (ks : List (Call F)) (hw : w.nextBuildingId < 2 ^ 64)
    (hids : (w.buildings.map BuildingState.id).Nodup) :
    ((Call.runAll w ks).buildings.map BuildingState.id).Nodup ↔
      placements w ks ≤ 2 ^ 64 ∧ ∀ i < placements w ks, ∀ b ∈ w.buildings,
        b.id ≠ buildingName ((w.nextBuildingId + i) % 2 ^ 64) := by
  rw [map_id_runAll ks hw, List.nodup_append, nextNames_nodup]
  constructor
  · rintro ⟨-, hcount, hapart⟩
    refine ⟨hcount, fun i hi b hb => hapart _ (List.mem_map_of_mem hb) _ ?_⟩
    exact List.mem_map.2 ⟨i, List.mem_range.2 hi, rfl⟩
  · rintro ⟨hcount, hapart⟩
    refine ⟨hids, hcount, fun a ha n hn => ?_⟩
    obtain ⟨b, hb, rfl⟩ := List.mem_map.1 ha
    obtain ⟨i, hi, rfl⟩ := List.mem_map.1 hn
    exact hapart i (List.mem_range.1 hi) b hb

/-- The buildings have distinct ids, and a client told of them all shows them all. -/
def Distinguished (w : WorldService F) : Prop :=
  (w.buildings.map BuildingState.id).Nodup ∧
    ∀ b ∈ w.buildings, (SurvivalWorld.applyBuildings ∅ w.buildings).lookup b.id = some b

omit [Platform F] in
theorem distinguished_iff (hnames : ∀ b ∈ w.buildings, b.id ≠ "") :
    w.Distinguished ↔ (w.buildings.map BuildingState.id).Nodup :=
  ⟨And.left, fun hids => ⟨hids, fun b hb => SurvivalWorld.shown_of_nodup hids hb (hnames b hb)⟩⟩

theorem buildingName_ne (n : ℕ) : buildingName n ≠ "" := (nulFree_building n).2

/-- What a store loads has a counter that fits and no building without a name. -/
theorem load_buildings (client readOk : Bool) (scenes : String → Option (Bson.Doc F))
    (sceneId : String) :
    let snap := SceneStore.load client readOk scenes sceneId
    snap.nextBuildingId < 2 ^ 64 ∧ ∀ b ∈ snap.buildings, b.id ≠ "" := by
  unfold SceneStore.load
  split_ifs
  · rcases scenes (Bson.cstr sceneId) with _ | doc
    · exact ⟨(by decide : 1 < 2 ^ 64), fun b hb => by cases hb⟩
    · refine ⟨SceneStore.number_parse sceneId doc, fun b hb => ?_⟩
      obtain ⟨fields, rfl, hname⟩ := SceneStore.mem_readItems hb
      exact hname
  · exact ⟨(by decide : 1 < 2 ^ 64), fun b hb => by cases hb⟩

theorem names_runAll (ks : List (Call F)) (hw : w.nextBuildingId < 2 ^ 64)
    (hnames : ∀ b ∈ w.buildings, b.id ≠ "") :
    ∀ b ∈ (Call.runAll w ks).buildings, b.id ≠ "" := by
  intro b hb
  have hid : b.id ∈ (Call.runAll w ks).buildings.map BuildingState.id := List.mem_map_of_mem hb
  rw [map_id_runAll ks hw, List.mem_append] at hid
  rcases hid with hid | hid
  · obtain ⟨b', hb', heq⟩ := List.mem_map.1 hid
    exact heq ▸ hnames b' hb'
  · obtain ⟨i, -, heq⟩ := List.mem_map.1 hid
    exact heq ▸ buildingName_ne _

/-- The number the first building placed in a loaded scene gets. -/
def firstNumber (snap : SceneSnapshot F) : ℕ :=
  if 0 < snap.nextBuildingId then snap.nextBuildingId else 1

/-- In a run from a scene a store loaded the buildings stay distinguished exactly if no loaded
building has the name of a number that is given out, and no number is given out twice. -/
theorem loaded_distinguished_iff (w : WorldService F) (client readOk : Bool)
    (scenes : String → Option (Bson.Doc F)) (sceneId : String) (ks : List (Call F))
    (hids : ((SceneStore.load client readOk scenes sceneId).buildings.map BuildingState.id).Nodup) :
    let snap := SceneStore.load client readOk scenes sceneId
    let placed := placements (w.loadScene snap) ks
    (Call.runAll (w.loadScene snap) ks).Distinguished ↔
      placed ≤ 2 ^ 64 ∧ ∀ i < placed, ∀ b ∈ snap.buildings,
        b.id ≠ buildingName ((firstNumber snap + i) % 2 ^ 64) := by
  obtain ⟨hnumber, hnames⟩ := load_buildings client readOk scenes sceneId
  have hfirst : (w.loadScene (SceneStore.load client readOk scenes sceneId)).nextBuildingId
      < 2 ^ 64 := by
    show (if _ then _ else 1) < 2 ^ 64
    split_ifs <;> omega
  exact (distinguished_iff (names_runAll ks hfirst hnames)).trans (nodup_runAll_iff ks hfirst hids)

section Runs

open Score (fin)

/-- A stored scene that has a building and no `next_building_id`. -/
def uncounted : Bson.Doc Score :=
  [("buildings", .array [.document [("id", .utf8 "building_1"), ("owner_id", .utf8 "bob")]])]

/-- Ann enters and builds a floor. -/
def annBuilds : List (Call Score) :=
  [.enter "ann" "ann" 0, .tryPlaceBuilding "ann" 1 (fin 2) (fin 0) (fin 0) (fin 0)]

/-- A floor in a scene with a building and the counter after it. -/
theorem loaded_distinguished_ann :
    (Call.runAll (fresh.loadScene (SceneStore.load true true
      (fun _ => some (("next_building_id", .int64 2) :: uncounted)) "default"))
      annBuilds).Distinguished := by
  refine (loaded_distinguished_iff fresh true true _ "default" annBuilds (by decide +kernel)).2 ?_
  have hplaced : placements (fresh.loadScene (SceneStore.load true true
      (fun _ => some (("next_building_id", .int64 2) :: uncounted)) "default")) annBuilds = 1 := by
    decide +kernel
  rw [hplaced]
  decide +kernel

/-- The first floor in a scene without a counter gets the name of the building that is there. -/
theorem not_loaded_distinguished :
    let snap := SceneStore.load true true (fun _ => some uncounted) "default"
    (snap.buildings.map BuildingState.id).Nodup ∧
      ¬(Call.runAll (fresh.loadScene snap) annBuilds).Distinguished := by
  refine ⟨by decide +kernel, fun h => absurd h.1 ?_⟩
  decide +kernel

end Runs

end WorldService

end TinRpc
