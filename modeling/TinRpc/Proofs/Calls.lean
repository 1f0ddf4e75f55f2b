import TinRpc.Proofs.Operations

/-!
# Calls and their effects

Every call is its effect: on the content of the scene (`run_content`) and on the players' counters
(`run_inventory`). A call that has one met the conditions the effect asks for
(`effect_performed`); one that returns failure changes nothing (`unchanged_of_failure`).
-/

namespace TinRpc

variable {F : Type} [Platform F]

/-- The scene is as it was, but for a room that now has an empty map of edits. -/
def Scene.Kept (s s' : Scene F) : Prop := s' = s ∨ ∃ room, s' = s.touchRoom room

omit [Platform F] in
theorem Scene.Kept.content_eq {s s' : Scene F} (h : s.Kept s') : s'.content = s.content := by
  rcases h with rfl | ⟨room, rfl⟩
  · rfl
  · exact s.content_touchRoom room

namespace Call

variable (w : WorldService F)

/-- A call that was a successful operation. -/
structure Performed (k : Call F) (e : Effect F) : Prop where
  player_eq : e.player = k.player
  result_eq : (k.run w).result = some true
  enabled : ∃ v, w.inventory e.player = some v ∧ e.Enabled w.content v
  content_eq : (k.run w).world.content = e.onContent w.content
  kept : ¬ e.OnScene → w.toScene.Kept (k.run w).world.toScene
  inventory_eq : ∀ q, (k.run w).world.inventory q =
    if q = e.player then (w.inventory q).map e.onInventory else w.inventory q
  room_eq : ∀ q, (k.run w).world.room q = w.room q

omit [Platform F] in
theorem content_gathered (p node : String) (n : Resource F) (hn : w.resources.lookup node = some n)
    (s : Scene F) (hs : s = { w.toScene with
      resources := w.resources.insert node { n with remaining := n.remaining - 1 } }) :
    s.content = (Effect.gathered p node n.type).onContent w.content := by
  subst hs
  ext1
  · funext id
    simp only [Scene.content, Effect.onContent, AList.lookup_insert_if, Function.update_apply, hn,
      Option.map_some]
  all_goals rfl

theorem gather_performed {p node : String} {e : Effect F}
    (h : (Call.tryGather p node).effect w = some e) : Performed w (.tryGather p node) e := by
  have hc := w.tryGather_cases p node
  change (if (w.tryGather p node).result.success then _ else none) = some e at h
  rcases hc with ⟨hfail, -⟩ | ⟨player, n, hp, hn, hrem, hok, htype, hw, -⟩
  · simp [hfail] at h
  simp only [hok, htype, ↓reduceIte, Option.some.injEq] at h
  subst h
  obtain ⟨hinv, hroom⟩ := w.charged (w.tryGather p node).world
    (.gathered p node n.type) hp (by rw [hw])
  exact {
    player_eq := rfl
    result_eq := congrArg some hok
    enabled := ⟨player.inv, by simp [WorldService.inventory, Effect.player, hp], n, hn, rfl, hrem⟩
    content_eq := content_gathered w p node n hn _ (by simp only [run, hw]; rfl)
    kept := fun h => absurd trivial h
    inventory_eq := hinv
    room_eq := hroom }

theorem build_performed {p : String} {type : ℤ} {x y z yaw : F} {e : Effect F}
    (h : (Call.tryPlaceBuilding p type x y z yaw).effect w = some e) :
    Performed w (.tryPlaceBuilding p type x y z yaw) e := by
  have hc := w.tryPlaceBuilding_cases p type x y z yaw
  change (if (w.tryPlaceBuilding p type x y z yaw).result.success then _ else none) = some e at h
  rcases hc with ⟨hfail, -⟩ | ⟨player, b, wood, stone, hp, hcost, hwood, hstone, howner, hid, hok,
    hb, hw, -⟩
  · simp [hfail] at h
  simp only [hok, hb, ↓reduceIte, Option.some.injEq] at h
  subst h
  obtain ⟨hinv, hroom⟩ := w.charged (w.tryPlaceBuilding p type x y z yaw).world
    (.built p b) hp (by rw [hw])
  exact {
    player_eq := rfl
    result_eq := congrArg some hok
    enabled := by
      refine ⟨player.inv, by simp [WorldService.inventory, Effect.player, hp], by simp [hcost],
        howner, hid, fun m => ?_⟩
      cases m <;> simp [Material.buildingCharge, hcost, Inventory.count, hwood, hstone]
    content_eq := by simp only [run, hw]; rfl
    kept := fun h => absurd trivial h
    inventory_eq := hinv
    room_eq := hroom }

theorem craft_performed {p : String} {recipe : ℤ} {e : Effect F}
    (h : (Call.tryCraft p recipe).effect w = some e) : Performed w (.tryCraft p recipe) e := by
  obtain ⟨-, hc⟩ := w.tryCraft_cases p recipe
  change (if (w.tryCraft p recipe).result.success then _ else none) = some e at h
  rcases hc with ⟨hfail, -⟩ | ⟨player, wood, stone, copper, level, hp, hcost, hnew, hwood, hstone,
    hcopper, hok, -, hw⟩
  · simp [hfail] at h
  simp only [hok, ↓reduceIte, Option.some.injEq] at h
  subst h
  obtain ⟨hinv, hroom⟩ := w.charged (w.tryCraft p recipe).world
    (.crafted p recipe) hp (by rw [hw])
  exact {
    player_eq := rfl
    result_eq := congrArg some hok
    enabled := by
      refine ⟨player.inv, by simp [WorldService.inventory, Effect.player, hp], by simp [hcost],
        hnew, fun m => ?_⟩
      cases m <;> simp [Material.recipeCharge, hcost, Inventory.count, hwood, hstone, hcopper]
    content_eq := by simp only [run, hw]; rfl
    kept := fun _ => .inl (by simp only [run, hw]; rfl)
    inventory_eq := hinv
    room_eq := hroom }

theorem edit_performed {p : String} {x y z action type : ℤ} {e : Effect F}
    (h : (Call.applyVoxelEdit p x y z action type).effect w = some e) :
    Performed w (.applyVoxelEdit p x y z action type) e := by
  have hc := w.applyVoxelEdit_cases p x y z action type
  change (if (w.applyVoxelEdit p x y z action type).result.success then _ else none) = some e at h
  rcases hc with ⟨hfail, -⟩ | ⟨player, edit, hp, hedit, henabled, hresult, hw, -⟩
  · simp [hfail] at h
  simp only [hresult, hp, ↓reduceIte, Option.map_some, ← hedit, Option.some.injEq] at h
  subst h
  obtain ⟨hinv, hroom⟩ := w.charged (w.applyVoxelEdit p x y z action type).world
    (.edited p player.roomId edit) hp (by rw [hw]; rfl)
  exact {
    player_eq := rfl
    result_eq := by simp [run, hresult]
    enabled := ⟨player.inv, by simp [WorldService.inventory, Effect.player, hp], henabled⟩
    content_eq := by
      simp only [run, hw, WorldService.edited, Scene.content_setEdit, Scene.content_touchRoom]
      rfl
    kept := fun h => absurd trivial h
    inventory_eq := hinv
    room_eq := hroom }

theorem effect_performed {k : Call F} {e : Effect F} (h : k.effect w = some e) :
    Performed w k e := by
  cases k
  case tryGather => exact gather_performed w h
  case tryPlaceBuilding => exact build_performed w h
  case tryCraft => exact craft_performed w h
  case applyVoxelEdit => exact edit_performed w h
  all_goals exact absurd h.symm (Option.some_ne_none _)

theorem effect_gather {p node : String} {e : Effect F} (h : (tryGather p node).effect w = some e) :
    ∃ type, e = .gathered p node type := by
  change (if (w.tryGather p node).result.success then _ else none) = some e at h
  split at h
  · exact ⟨_, (Option.some.inj h).symm⟩
  · simp at h

theorem effect_build {p : String} {type : ℤ} {x y z yaw : F} {e : Effect F}
    (h : (tryPlaceBuilding p type x y z yaw).effect w = some e) : ∃ b, e = .built p b := by
  change (if (w.tryPlaceBuilding p type x y z yaw).result.success then _ else none) = some e at h
  split at h
  · exact ⟨_, (Option.some.inj h).symm⟩
  · simp at h

theorem effect_craft {p : String} {recipe : ℤ} {e : Effect F}
    (h : (tryCraft p recipe).effect w = some e) : e = .crafted p recipe := by
  change (if (w.tryCraft p recipe).result.success then _ else none) = some e at h
  split at h
  · exact (Option.some.inj h).symm
  · simp at h

theorem effect_edit {p : String} {x y z action type : ℤ} {e : Effect F}
    (h : (applyVoxelEdit p x y z action type).effect w = some e) :
    ∃ room edit, e = .edited p room edit := by
  change (if (w.applyVoxelEdit p x y z action type).result.success then _ else none) = some e at h
  split at h
  · obtain ⟨player, -, rfl⟩ := Option.map_eq_some_iff.1 h
    exact ⟨_, _, rfl⟩
  · simp at h

/-- An edit is made in the room its player is in. -/
theorem edited_room {k : Call F} {p room : String} {edit : VoxelEditState}
    (h : k.effect w = some (.edited p room edit)) : w.room p = some room := by
  cases k
  case applyVoxelEdit q x y z action type =>
    change (if (w.applyVoxelEdit q x y z action type).result.success then _ else none) = _ at h
    split at h
    · obtain ⟨player, hplayer, heq⟩ := Option.map_eq_some_iff.1 h
      simp only [Effect.edited.injEq] at heq
      obtain ⟨rfl, rfl, -⟩ := heq
      simp [WorldService.room, hplayer]
    · simp at h
  case tryGather => obtain ⟨type, heq⟩ := effect_gather w h; simp at heq
  case tryPlaceBuilding => obtain ⟨b, heq⟩ := effect_build w h; simp at heq
  case tryCraft => exact absurd (effect_craft w h) (by simp)
  all_goals exact absurd h.symm (Option.some_ne_none _)

theorem gather_success (p node : String) :
    (w.tryGather p node).result.success = ((tryGather p node).effect w).isSome := by
  change _ = Option.isSome (if (w.tryGather p node).result.success then _ else none)
  split <;> simp_all

theorem build_success (p : String) (type : ℤ) (x y z yaw : F) :
    (w.tryPlaceBuilding p type x y z yaw).result.success =
      ((tryPlaceBuilding p type x y z yaw).effect w).isSome := by
  change _ = Option.isSome (if (w.tryPlaceBuilding p type x y z yaw).result.success then _ else none)
  split <;> simp_all

theorem craft_success (p : String) (recipe : ℤ) :
    (w.tryCraft p recipe).result.success = ((tryCraft p recipe).effect w).isSome := by
  change _ = Option.isSome (if (w.tryCraft p recipe).result.success then _ else none)
  split <;> simp_all

theorem edit_success (p : String) (x y z action type : ℤ) :
    (w.applyVoxelEdit p x y z action type).result.success =
      ((applyVoxelEdit p x y z action type).effect w).isSome := by
  change _ = Option.isSome (if (w.applyVoxelEdit p x y z action type).result.success then _ else none)
  split
  · next h =>
    rcases w.applyVoxelEdit_cases p x y z action type with ⟨hfail, -⟩ | ⟨player, _, hp, -⟩
    · simp [hfail] at h
    · simp [h, hp]
  · simp_all

/-- A call that returns failure changes no counter, no room and nothing of the scene. -/
theorem unchanged_of_failure {k : Call F} (h : (k.run w).result = some false) :
    k.effect w = none ∧ w.toScene.Kept (k.run w).world.toScene ∧
      (∀ q, (k.run w).world.inventory q = w.inventory q) ∧
      ∀ q, (k.run w).world.room q = w.room q := by
  have hnone : k.effect w = none := by
    by_contra he
    obtain ⟨e, he⟩ := Option.ne_none_iff_exists'.1 he
    simp [(effect_performed w he).result_eq] at h
  refine ⟨hnone, ?_⟩
  have hsame : ∀ w' : WorldService F, w' = w → w.toScene.Kept w'.toScene ∧
      (∀ q, w'.inventory q = w.inventory q) ∧ ∀ q, w'.room q = w.room q := by
    rintro w' rfl
    exact ⟨.inl rfl, fun _ => rfl, fun _ => rfl⟩
  cases k with
  | enter p name now => simp [run] at h
  | enterWithState p name now x y z yaw inv => simp [run] at h
  | leave p => simp [run] at h
  | selectRoom p room map now =>
    rcases w.selectRoom_cases p room map now with ⟨-, hw, -⟩ | ⟨_, _, _, hok, -⟩
    · exact hsame _ hw
    · simp [run, hok] at h
  | tryMove p x y z yaw now appearance =>
    obtain ⟨hscene, hinv, hroom, -⟩ := w.tryMove_spec p x y z yaw now appearance
    exact ⟨.inl hscene, hinv, hroom⟩
  | tryGather p node =>
    rcases w.tryGather_cases p node with ⟨-, hw, -⟩ | ⟨_, _, _, _, _, hok, -⟩
    · exact hsame _ hw
    · simp [run, hok] at h
  | tryPlaceBuilding p type x y z yaw =>
    rcases w.tryPlaceBuilding_cases p type x y z yaw with ⟨-, hw, -⟩ |
      ⟨_, _, _, _, _, _, _, _, _, _, hok, -⟩
    · exact hsame _ hw
    · simp [run, hok] at h
  | tryCraft p recipe =>
    rcases (w.tryCraft_cases p recipe).2 with ⟨-, hw⟩ | ⟨_, _, _, _, _, _, _, _, _, _, _, hok, -⟩
    · exact hsame _ hw
    · simp [run, hok] at h
  | applyVoxelEdit p x y z action type =>
    rcases w.applyVoxelEdit_cases p x y z action type with ⟨-, -, hw | ⟨room, hw⟩⟩ |
      ⟨_, _, _, _, _, hok, -⟩
    · exact hsame _ hw
    · refine ⟨.inr ⟨room, by simp only [run, hw]⟩, fun q => ?_, fun q => ?_⟩ <;>
        · simp only [run, hw]; rfl
    · simp [run, hok] at h

/-- One of the four operations that have an effect when they succeed. -/
theorem operation {k : Call F} (hr : (k.run w).result = some (k.effect w).isSome) :
    (k.effect w = none → w.toScene.Kept (k.run w).world.toScene) ∧
      ∀ q, (k.run w).world.inventory q = match k.effect w with
        | some e => if q = e.player then (w.inventory q).map e.onInventory else w.inventory q
        | none => w.inventory q := by
  rcases he : k.effect w with _ | e
  · obtain ⟨-, hkept, hinv, -⟩ := unchanged_of_failure w (by simpa [he] using hr)
    exact ⟨fun _ => hkept, hinv⟩
  · exact ⟨by simp, (effect_performed w he).inventory_eq⟩

/-- A call leaves the scene, or has an effect on it; and the counters after it. -/
theorem run_spec (k : Call F) :
    (k.effect w = none → w.toScene.Kept (k.run w).world.toScene) ∧
      ∀ q, (k.run w).world.inventory q = k.inventoryAfter w q := by
  cases k with
  | enter p name now =>
    obtain ⟨x, y, z, yaw, h⟩ := w.enter_eq p name now
    have hs := w.enterWithState_spec p name now x y z yaw ((w.inventory p).getD {})
    simp only [run, h]
    exact ⟨fun _ => .inr ⟨_, hs.scene_eq⟩, hs.inventory_eq⟩
  | enterWithState p name now x y z yaw inv =>
    have hs := w.enterWithState_spec p name now x y z yaw inv
    exact ⟨fun _ => .inr ⟨_, hs.scene_eq⟩, hs.inventory_eq⟩
  | leave p =>
    obtain ⟨hscene, hinv, -⟩ := w.leave_spec p
    exact ⟨fun _ => .inl hscene, hinv⟩
  | selectRoom p room map now =>
    rcases w.selectRoom_cases p room map now with ⟨-, hw, -⟩ | ⟨inv, hinv, -, -, hs⟩
    · exact ⟨fun _ => .inl (by simp only [run, hw]), fun q => by simp only [run, hw]; rfl⟩
    · refine ⟨fun _ => .inr ⟨_, hs.scene_eq⟩, fun q => (hs.inventory_eq q).trans ?_⟩
      split_ifs with hq
      · rw [hq, ← hinv]; rfl
      · rfl
  | tryMove p x y z yaw now appearance =>
    obtain ⟨hscene, hinv, -⟩ := w.tryMove_spec p x y z yaw now appearance
    exact ⟨fun _ => .inl hscene, hinv⟩
  | tryGather p node => exact operation w (congrArg some (gather_success w p node))
  | tryPlaceBuilding p type x y z yaw =>
    exact operation w (congrArg some (build_success w p type x y z yaw))
  | tryCraft p recipe => exact operation w (congrArg some (craft_success w p recipe))
  | applyVoxelEdit p x y z action type =>
    exact operation w (congrArg some (edit_success w p x y z action type))

theorem run_inventory (k : Call F) (q : String) :
    (k.run w).world.inventory q = k.inventoryAfter w q := (run_spec w k).2 q

/-- The room a call puts a player in. -/
theorem run_room (k : Call F) (q : String) : (k.run w).world.room q = match k with
    | .enter p .. | .enterWithState p .. =>
      if q = p then some ((w.room p).getD "lobby") else w.room q
    | .leave p => if q = p then none else w.room q
    | .selectRoom p room .. =>
      if (k.run w).result = some true ∧ q = p then some room else w.room q
    | _ => w.room q := by
  have hop : ∀ k : Call F, (k.run w).result = some (k.effect w).isSome →
      (k.run w).world.room q = w.room q := by
    intro k hr
    rcases he : k.effect w with _ | e
    · exact (unchanged_of_failure w (by simpa [he] using hr)).2.2.2 q
    · exact (effect_performed w he).room_eq q
  cases k with
  | enter p name now =>
    obtain ⟨x, y, z, yaw, h⟩ := w.enter_eq p name now
    simp only [run, h]
    exact (w.enterWithState_spec p name now x y z yaw ((w.inventory p).getD {})).room_eq q
  | enterWithState p name now x y z yaw inv =>
    exact (w.enterWithState_spec p name now x y z yaw inv).room_eq q
  | leave p => exact (w.leave_spec p).2.2.1 q
  | selectRoom p room map now =>
    rcases w.selectRoom_cases p room map now with ⟨hfail, hw, -⟩ | ⟨inv, -, -, hok, hs⟩
    · simp [run, hfail, hw]
    · simp only [run, hok, true_and]
      exact hs.room_eq q
  | tryMove p x y z yaw now appearance =>
    exact (w.tryMove_spec p x y z yaw now appearance).2.2.1 q
  | tryGather p node => exact hop _ (congrArg some (gather_success w p node))
  | tryPlaceBuilding p type x y z yaw =>
    exact hop _ (congrArg some (build_success w p type x y z yaw))
  | tryCraft p recipe => exact hop _ (congrArg some (craft_success w p recipe))
  | applyVoxelEdit p x y z action type =>
    exact hop _ (congrArg some (edit_success w p x y z action type))

theorem run_content (k : Call F) :
    (k.run w).world.content = (k.effect w).elim w.content (·.onContent w.content) := by
  rcases h : k.effect w with _ | e
  · exact ((run_spec w k).1 h).content_eq
  · exact (effect_performed w h).content_eq

end Call

end TinRpc
