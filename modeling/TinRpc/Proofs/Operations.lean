import TinRpc.Economy

/-!
# What the world's operations do

One lemma for each operation says all it can do: it fails and leaves the world as it was, or its
guards held, and then the world and the messages are these.
-/

namespace TinRpc

open Platform

variable {F : Type}

namespace WorldService

variable (w : WorldService F)

@[simp] theorem lookup_setPlayer (p : Player F) (id q : String) :
    (w.setPlayer p id).players.lookup q = if q = id then some p else w.players.lookup q :=
  AList.lookup_insert_if ..

@[simp] theorem setPlayer_toScene (p : Player F) (id : String) :
    (w.setPlayer p id).toScene = w.toScene := rfl

/-- What is read of a player is set with him. -/
theorem read_setPlayer {α : Type} (g : Player F → α) (p : Player F) (id q : String) :
    ((w.setPlayer p id).players.lookup q).map g
      = if q = id then some (g p) else (w.players.lookup q).map g := by
  rw [lookup_setPlayer]
  split_ifs <;> rfl

/-- Nothing is read of a player who is put back with it as it was. -/
theorem read_setPlayer_of {α : Type} (g : Player F → α) (p : Player F) (id q : String)
    (h : (w.players.lookup id).map g = some (g p)) :
    ((w.setPlayer p id).players.lookup q).map g = (w.players.lookup q).map g := by
  rw [read_setPlayer]
  split_ifs with hq
  · rw [hq, h]
  · rfl

theorem inventory_setPlayer (p : Player F) (id q : String) :
    (w.setPlayer p id).inventory q = if q = id then some p.inv else w.inventory q :=
  w.read_setPlayer Player.inv p id q

theorem room_setPlayer (p : Player F) (id q : String) :
    (w.setPlayer p id).room q = if q = id then some p.roomId else w.room q :=
  w.read_setPlayer Player.roomId p id q

theorem inventory_setPlayer_of (p : Player F) (id q : String) (h : w.inventory id = some p.inv) :
    (w.setPlayer p id).inventory q = w.inventory q := w.read_setPlayer_of Player.inv p id q h

theorem room_setPlayer_of (p : Player F) (id q : String) (h : w.room id = some p.roomId) :
    (w.setPlayer p id).room q = w.room q := w.read_setPlayer_of Player.roomId p id q h

/-- Of the resources emplaced, those already there and then the first of each id stay. -/
theorem lookup_foldl_emplace : ∀ (l : List (Resource F)) (t : Table String (Resource F))
    (id : String), (l.foldl emplaceResource t).lookup id
      = (t.lookup id).or (l.find? fun r => r.id = id)
  | [], t, id => by simp
  | r :: l, t, id => by
    rw [List.foldl_cons, lookup_foldl_emplace l, List.find?_cons]
    unfold emplaceResource
    rcases ht : t.lookup r.id with _ | a
    · dsimp only
      rw [AList.lookup_insert_if]
      by_cases hid : r.id = id
      · subst hid; simp [ht]
      · simp [hid, Ne.symm hid]
    · by_cases hid : r.id = id
      · subst hid; simp [ht]
      · simp [hid]

end WorldService

namespace Scene

variable (s : Scene F)

theorem roomEdits_touchRoom (room r : String) : (s.touchRoom room).roomEdits r = s.roomEdits r := by
  unfold touchRoom
  split
  · rfl
  · next h =>
    simp only [roomEdits, AList.lookup_insert_if]
    split_ifs with hr
    · subst hr; simp [h]
    · rfl

theorem roomEdits_setEdit (room key r : String) (e : VoxelEditState) :
    (s.setEdit room key e).roomEdits r =
      if r = room then (s.roomEdits room).insert key e else s.roomEdits r := by
  simp only [setEdit, roomEdits, AList.lookup_insert_if]
  split_ifs <;> rfl

theorem touchRoom_frame (room : String) : (s.touchRoom room).resources = s.resources ∧
    (s.touchRoom room).buildings = s.buildings ∧
    (s.touchRoom room).nextBuildingId = s.nextBuildingId := by
  unfold touchRoom
  split <;> exact ⟨rfl, rfl, rfl⟩

@[simp] theorem content_touchRoom (room : String) : (s.touchRoom room).content = s.content := by
  simp only [content, roomEdits_touchRoom, s.touchRoom_frame room]

theorem content_setEdit (room key : String) (e : VoxelEditState) :
    (s.setEdit room key e).content =
      { s.content with
        edits := Function.update s.content.edits room
          (Function.update (s.content.edits room) key (some e)) } := by
  ext1
  · rfl
  · rfl
  · rfl
  · funext r k
    simp only [content, roomEdits_setEdit]
    by_cases hr : r = room
    · subst hr
      simp only [↓reduceIte, Function.update_self, AList.lookup_insert_if]
      by_cases hk : k = key
      · subst hk; simp
      · simp [hk]
    · simp [hr]

end Scene

namespace Effect

theorem onInventory_gathered (p node : String) (type : ℤ) (v : Inventory) :
    (Effect.gathered (F := F) p node type).onInventory v =
      let v := if type = resourceWood then v.add 1 .wood else v
      if type = resourceStone then v.add 1 .stone else v := by
  simp only [onInventory, credit, cost, tool, Material.gathered, resourceWood, resourceStone]
  by_cases h₁ : type = 1
  · subst h₁; simp [Inventory.add]
  · by_cases h₂ : type = 2
    · subst h₂; simp [Inventory.add]
    · simp [h₁, h₂]

theorem onInventory_built (p : String) (b : BuildingState F) (v : Inventory) (wood stone : ℤ)
    (h : WorldService.buildingCost b.type = some (wood, stone)) :
    (Effect.built p b).onInventory v = { v with wood := v.wood - wood, stone := v.stone - stone } := by
  simp [onInventory, credit, cost, tool, Material.buildingCharge, h]

theorem onInventory_crafted (p : String) (recipe : ℤ) (v : Inventory) (wood stone copper level : ℤ)
    (h : WorldService.recipeCost recipe = some (wood, stone, copper, level)) :
    (Effect.crafted (F := F) p recipe).onInventory v =
      { v with
        wood := v.wood - wood, stone := v.stone - stone, copper := v.copper - copper
        toolLevel := recipe } := by
  simp [onInventory, credit, cost, tool, Material.recipeCharge, h]

theorem onInventory_removed (p room : String) (e : VoxelEditState) (v : Inventory)
    (h : e.action = 1) :
    (Effect.edited (F := F) p room e).onInventory v =
      (WorldService.minedMaterial e.blockType).elim v (v.add 1) := by
  simp only [onInventory, credit, cost, tool, h]
  rcases WorldService.minedMaterial e.blockType with _ | m
  · simp
  · cases m <;> simp [Inventory.add]

theorem onInventory_placed (p room : String) (e : VoxelEditState) (v : Inventory) (m : Material)
    (h : e.action ≠ 1) (hm : WorldService.placedMaterial e.blockType = some m) :
    (Effect.edited (F := F) p room e).onInventory v = v.add (-1) m := by
  simp only [onInventory, credit, cost, tool, h, hm]
  cases m <;> simp [Inventory.add] <;> omega

end Effect

/-! ## The operations, one by one -/

variable [Platform F]

namespace WorldService

variable (w : WorldService F)

theorem tryGather_cases (p node : String) :
    let r := w.tryGather p node
    (r.result.success = false ∧ r.world = w ∧ r.sent = []) ∨
    ∃ player n, w.players.lookup p = some player ∧ w.resources.lookup node = some n ∧
      0 < n.remaining ∧ r.result.success = true ∧ r.result.resourceType = n.type ∧
      r.world = { w.setPlayer
          { player with
            inv := (Effect.gathered (F := F) p node n.type).onInventory player.inv } p with
        resources := w.resources.insert node { n with remaining := n.remaining - 1 } } ∧
      r.sent = r.world.broadcastResource { n with remaining := n.remaining - 1 } ∧
      let v := (Effect.gathered (F := F) p node n.type).onInventory player.inv
      r.result.wood = v.wood ∧ r.result.stone = v.stone := by
  rcases hp : w.players.lookup p with _ | player
  · exact .inl (by simp [tryGather, hp])
  rcases hn : w.resources.lookup node with _ | n
  · exact .inl (by simp [tryGather, hp, hn])
  unfold tryGather
  simp only [hp, hn]
  split
  · exact .inl ⟨rfl, rfl, rfl⟩
  split
  · exact .inl ⟨rfl, rfl, rfl⟩
  · next hrem _ =>
    refine .inr ⟨player, n, rfl, rfl, by omega, rfl, rfl, ?_, rfl, ?_⟩
    · simp only [Effect.onInventory_gathered]
    · simp only [Effect.onInventory_gathered, and_self]

theorem tryPlaceBuilding_cases (p : String) (type : ℤ) (x y z yaw : F) :
    let r := w.tryPlaceBuilding p type x y z yaw
    (r.result.success = false ∧ r.world = w ∧ r.sent = []) ∨
    ∃ player b wood stone, w.players.lookup p = some player ∧
      buildingCost b.type = some (wood, stone) ∧ wood ≤ player.inv.wood ∧
      stone ≤ player.inv.stone ∧ b.ownerId = p ∧
      b.id = "building_" ++ toString w.nextBuildingId ∧ r.result.success = true ∧
      ⟨r.result.buildingId, r.result.ownerId, r.result.buildingType, r.result.x, r.result.y,
        r.result.z, r.result.yaw⟩ = b ∧
      r.world = { w.setPlayer
          { player with inv := (Effect.built p b).onInventory player.inv } p with
        buildings := w.buildings ++ [b]
        nextBuildingId := (w.nextBuildingId + 1) % 2 ^ 64 } ∧
      r.sent = r.world.broadcastBuilding b ∧
      let v := (Effect.built p b).onInventory player.inv
      r.result.wood = v.wood ∧ r.result.stone = v.stone := by
  rcases hp : w.players.lookup p with _ | player
  · exact .inl (by simp [tryPlaceBuilding, hp])
  rcases hc : buildingCost type with _ | ⟨wood, stone⟩
  · exact .inl (by simp [tryPlaceBuilding, hp, hc])
  unfold tryPlaceBuilding
  simp only [hp, hc]
  split
  · exact .inl ⟨rfl, rfl, rfl⟩
  split
  · exact .inl ⟨rfl, rfl, rfl⟩
  split
  · exact .inl ⟨rfl, rfl, rfl⟩
  · next _ hmaterial _ =>
    refine .inr ⟨player, _, wood, stone, rfl, hc, by omega, by omega, rfl, rfl, rfl, rfl, ?_, rfl,
      ?_⟩
    · rw [Effect.onInventory_built p _ player.inv wood stone hc]
    · rw [Effect.onInventory_built p _ player.inv wood stone hc]
      exact ⟨rfl, rfl⟩

omit [Platform F] in
theorem tryCraft_cases (p : String) (recipe : ℤ) :
    let r := w.tryCraft p recipe
    r.sent = [] ∧ ((r.result.success = false ∧ r.world = w) ∨
    ∃ player wood stone copper level, w.players.lookup p = some player ∧
      recipeCost recipe = some (wood, stone, copper, level) ∧ player.inv.toolLevel < recipe ∧
      wood ≤ player.inv.wood ∧ stone ≤ player.inv.stone ∧ copper ≤ player.inv.copper ∧
      r.result.success = true ∧
      r.result.inv = (Effect.crafted (F := F) p recipe).onInventory player.inv ∧
      r.world = w.setPlayer { player with
        inv := (Effect.crafted (F := F) p recipe).onInventory player.inv } p) := by
  rcases hp : w.players.lookup p with _ | player
  · exact ⟨by simp [tryCraft, hp], .inl (by simp [tryCraft, hp])⟩
  rcases hc : recipeCost recipe with _ | ⟨wood, stone, copper, level⟩
  · exact ⟨by simp [tryCraft, hp, hc], .inl (by simp [tryCraft, hp, hc])⟩
  unfold tryCraft
  simp only [hp, hc]
  split
  · exact ⟨rfl, .inl ⟨rfl, rfl⟩⟩
  split
  · exact ⟨rfl, .inl ⟨rfl, rfl⟩⟩
  split
  · exact ⟨rfl, .inl ⟨rfl, rfl⟩⟩
  · next hnew _ hmaterial =>
    refine ⟨rfl, .inr ⟨player, wood, stone, copper, level, rfl, rfl, by omega, by omega, by omega,
      by omega, rfl, ?_, ?_⟩⟩ <;>
      rw [Effect.onInventory_crafted p recipe player.inv wood stone copper level hc]

/-- The world of an accepted voxel edit. -/
def edited (p : String) (player : Player F) (e : VoxelEditState) : WorldService F :=
  { w.setPlayer
      { player with inv := (Effect.edited (F := F) p player.roomId e).onInventory player.inv } p with
    toScene := (w.touchRoom player.roomId).setEdit player.roomId (voxelKey e.x e.y e.z) e }

omit [Platform F] in
theorem commitVoxelEdit_eq (p : String) (player : Player F) (inv : Inventory) (e : VoxelEditState)
    (h : inv = (Effect.edited (F := F) p player.roomId e).onInventory player.inv) :
    let r := { w with toScene := w.touchRoom player.roomId }.commitVoxelEdit p player inv e
    let v := (Effect.edited (F := F) p player.roomId e).onInventory player.inv
    r.result = ⟨true, "", v.wood, v.stone, v.dirt, v.copper⟩ ∧ r.world = w.edited p player e ∧
      r.sent = r.world.broadcastVoxelEdit player.roomId e := by
  subst h
  exact ⟨rfl, rfl, rfl⟩

theorem applyVoxelEdit_cases (p : String) (x y z action type : ℤ) :
    let r := w.applyVoxelEdit p x y z action type
    (r.result.success = false ∧ r.sent = [] ∧ (r.world = w ∨
      ∃ room, r.world = { w with toScene := w.touchRoom room })) ∨
    ∃ player e, w.players.lookup p = some player ∧
      e = ⟨x, y, z, action, if action = 1 then
        w.blockTaken player.roomId (voxelKey x y z) type else type⟩ ∧
      (Effect.edited p player.roomId e).Enabled w.content player.inv ∧
      (let v := (Effect.edited (F := F) p player.roomId e).onInventory player.inv;
        r.result = ⟨true, "", v.wood, v.stone, v.dirt, v.copper⟩) ∧
      r.world = w.edited p player e ∧
      r.sent = r.world.broadcastVoxelEdit player.roomId e := by
  rcases hp : w.players.lookup p with _ | player
  · exact .inl (by simp [applyVoxelEdit, hp])
  have hcell : w.content.edits player.roomId (voxelKey x y z) =
      (w.roomEdits player.roomId).lookup (voxelKey x y z) := rfl
  unfold applyVoxelEdit
  simp only [hp, Scene.roomEdits_touchRoom]
  split
  · exact .inl ⟨rfl, rfl, .inl rfl⟩
  split
  · exact .inl ⟨rfl, rfl, .inl rfl⟩
  next hvalid =>
  split
  · exact .inl ⟨rfl, rfl, .inr ⟨_, rfl⟩⟩
  next hremoved =>
  split
  · exact .inl ⟨rfl, rfl, .inr ⟨_, rfl⟩⟩
  next hplaced =>
  split
  · next haction =>
    subst haction
    set e : VoxelEditState := ⟨x, y, z, 1, w.blockTaken player.roomId (voxelKey x y z) type⟩
    refine .inr ⟨player, e, rfl, rfl, ?_, w.commitVoxelEdit_eq p player _ e
      (Effect.onInventory_removed p player.roomId e player.inv rfl).symm⟩
    refine .inl ⟨rfl, fun last hlast => ?_⟩
    rw [hcell] at hlast
    refine ⟨fun h => hremoved (by simp [hlast, h]), fun h => ?_⟩
    simp [e, blockTaken, hlast, h]
  · next haction =>
    rcases hm : placedMaterial type with _ | m
    · exact .inl ⟨rfl, rfl, .inr ⟨_, rfl⟩⟩
    dsimp only
    split
    · exact .inl ⟨rfl, rfl, .inr ⟨_, rfl⟩⟩
    · next hhas =>
      set e : VoxelEditState := ⟨x, y, z, action, type⟩ with he
      refine .inr ⟨player, e, rfl, by simp [he], ?_, w.commitVoxelEdit_eq p player _ e
        (Effect.onInventory_placed p player.roomId e player.inv m haction hm).symm⟩
      refine .inr ⟨by simp only [he]; omega, fun last hlast h => ?_, m, hm, by omega⟩
      rw [hcell] at hlast
      exact hplaced (by simp only [hlast, Option.any_some, h]; exact ⟨by omega, rfl⟩)

omit [Platform F] in
/-- A pose that is sent changes nothing of a player but when it was. -/
theorem read_broadcastPose {α : Type} (g : Player F → α)
    (hg : ∀ (player : Player F) now, g { player with lastBroadcastMs := now } = g player)
    (player : Player F) (now : ℤ) (q : String) :
    ((w.broadcastPose player now false).1.players.lookup q).map g
      = (w.players.lookup q).map g := by
  unfold broadcastPose
  rcases hit : w.players.lookup player.playerId with _ | it
  · rfl
  dsimp only
  split_ifs
  · rfl
  · exact w.read_setPlayer_of g _ _ q (by rw [hit, Option.map_some, hg it now])

omit [Platform F] in
/-- A pose changes no counter and no room; it goes to the others in the room, and no sooner than
50 ms after the last one. -/
theorem broadcastPose_spec (player : Player F) (now : ℤ) :
    let r := w.broadcastPose player now false
    r.1.toScene = w.toScene ∧ (∀ q, r.1.inventory q = w.inventory q) ∧
      (∀ q, r.1.room q = w.room q) ∧
      ∀ m ∈ r.2, m.2 = .worldState { players := [transform player] } ∧ m.1 ≠ player.playerId ∧
        w.room m.1 = some player.roomId ∧ ∃ it, w.players.lookup player.playerId = some it ∧
          kMinBroadcastIntervalMs ≤ now - it.lastBroadcastMs := by
  intro r
  refine ⟨?_, w.read_broadcastPose Player.inv (fun _ _ => rfl) player now,
    w.read_broadcastPose Player.roomId (fun _ _ => rfl) player now, ?_⟩
  · unfold r broadcastPose
    rcases w.players.lookup player.playerId with _ | it
    · rfl
    dsimp only
    split_ifs <;> rfl
  unfold r broadcastPose
  rcases hit : w.players.lookup player.playerId with _ | it
  · simp
  dsimp only
  split
  · simp
  · next hdue =>
    intro m hm
    obtain ⟨e, he, rfl⟩ := List.mem_map.1 hm
    obtain ⟨he, hne⟩ := List.mem_filter.1 he
    simp only [ne_eq, decide_eq_true_eq] at hne
    rw [AList.mem_entries_iff] at he
    have hlate : ¬ now - it.lastBroadcastMs < kMinBroadcastIntervalMs := fun h => hdue ⟨rfl, h⟩
    exact ⟨rfl, hne.1, by simp [room, he, hne.2], it, rfl, not_lt.1 hlate⟩

/-- A move changes no counter, no room and nothing of the scene. All it may send, and only when it
succeeds, is one player's pose. -/
theorem tryMove_spec (p : String) (x y z yaw : F) (now appearance : ℤ) :
    let r := w.tryMove p x y z yaw now appearance
    r.world.toScene = w.toScene ∧ (∀ q, r.world.inventory q = w.inventory q) ∧
      (∀ q, r.world.room q = w.room q) ∧
      ∀ m ∈ r.sent, (∃ t, m.2 = .worldState { players := [t] }) ∧ r.result.success = true ∧
        ∃ player it, w.players.lookup p = some player ∧ m.1 ≠ player.playerId ∧
          w.room m.1 = some player.roomId ∧ w.players.lookup player.playerId = some it ∧
          kMinBroadcastIntervalMs ≤ now - it.lastBroadcastMs := by
  rcases hp : w.players.lookup p with _ | player
  · unfold tryMove
    rw [hp]
    exact ⟨rfl, fun _ => rfl, fun _ => rfl, by simp⟩
  have hinv : w.inventory p = some player.inv := by simp [inventory, hp]
  have hroom : w.room p = some player.roomId := by simp [room, hp]
  unfold tryMove
  simp only [hp]
  split
  · exact ⟨rfl, fun q => inventory_setPlayer_of w _ _ q hinv,
      fun q => room_setPlayer_of w _ _ q hroom, by simp⟩
  · obtain ⟨hscene, hinventory, hrooms, hsent⟩ := broadcastPose_spec (w.setPlayer _ p) _ now
    refine ⟨hscene, fun q => (hinventory q).trans (inventory_setPlayer_of w _ _ q hinv),
      fun q => (hrooms q).trans (room_setPlayer_of w _ _ q hroom), fun m hm => ?_⟩
    obtain ⟨hpose, hne, hin, it, hit, hdue⟩ := hsent m hm
    rw [room_setPlayer_of w _ p _ (by exact hroom)] at hin
    rw [lookup_setPlayer] at hit
    refine ⟨⟨_, hpose⟩, rfl, player, ?_⟩
    split_ifs at hit with hid
    · obtain rfl := Option.some.inj hit
      exact ⟨player, rfl, hne, hin, hid ▸ hp, hdue⟩
    · exact ⟨it, rfl, hne, hin, hit, hdue⟩

/-! ## Entering, leaving and changing rooms -/

omit [Platform F] in
theorem sendWorldStateTo_players (p : String) : (w.sendWorldStateTo p).1.players = w.players := by
  unfold sendWorldStateTo
  rcases w.players.lookup p with _ | player <;> rfl

omit [Platform F] in
theorem sendWorldStateTo_spec (p : String) (player : Player F)
    (hp : w.players.lookup p = some player) :
    ∃ st, w.sendWorldStateTo p =
        ({ w with toScene := w.touchRoom player.roomId }, [(p, .worldState st)]) ∧
      st.inventory = some player.inv ∧
      st.voxelEdits = (w.roomEdits player.roomId).entries.map fun e => e.2 := by
  refine ⟨w.worldStateFor p, by simp [sendWorldStateTo, hp], ?_, ?_⟩ <;>
    simp [worldStateFor, hp]

/-- What entering, or entering a room, comes to: the player is in the room with these counters and
is sent its snapshot. -/
structure Entered (p room : String) (inv : Inventory) (w' : WorldService F)
    (sent : Sends F) : Prop where
  scene_eq : w'.toScene = w.touchRoom room
  inventory_eq : ∀ q, w'.inventory q = if q = p then some inv else w.inventory q
  room_eq : ∀ q, w'.room q = if q = p then some room else w.room q
  sent_eq : ∃ before st after, sent = before ++ (p, .worldState st) :: after ∧
    (∀ m ∈ before, ∃ id, m.2 = .playerLeave id) ∧ st.inventory = some inv ∧
    st.voxelEdits = ((w.roomEdits room).entries.map fun e => e.2) ∧
    ∀ m ∈ after, ∃ t, m.2 = .playerEnter t

omit [Platform F] in
theorem entered (p : String) (player : Player F) (left : Sends F)
    (hleft : ∀ m ∈ left, ∃ id, m.2 = .playerLeave id) :
    let r := (w.setPlayer player p).sendWorldStateTo p
    w.Entered p player.roomId player.inv r.1 (left ++ r.2 ++ r.1.broadcastEnter player) := by
  obtain ⟨st, hr, hinv, hedits⟩ :=
    (w.setPlayer player p).sendWorldStateTo_spec p player (by simp)
  rw [hr]
  refine ⟨rfl, inventory_setPlayer w player p, room_setPlayer w player p, left, st, _,
    List.append_assoc .., hleft, hinv, hedits, ?_⟩
  intro m hm
  obtain ⟨e, -, rfl⟩ := List.mem_map.1 hm
  exact ⟨_, rfl⟩

theorem enterWithState_spec (p name : String) (now : ℤ) (x y z yaw : F) (inv : Inventory) :
    let r := w.enterWithState p name now x y z yaw inv
    w.Entered p ((w.room p).getD "lobby") inv r.1 r.2 := by
  have h := w.entered p { (w.players.lookup p).getD
    { playerId := "", name := "", x := ofRat 0, y := ofRat 0, z := ofRat 0, yaw := ofRat 0,
      moveAllowance := ofRat 1 } with
    playerId := p, name, x, y, z, yaw, inv, lastMoveMs := now, moveAllowance := ofRat 1
    lastBroadcastMs := now - kMinBroadcastIntervalMs } [] (by simp)
  have hroom : ((w.players.lookup p).getD
      { playerId := "", name := "", x := ofRat 0, y := ofRat 0, z := ofRat 0, yaw := ofRat 0,
        moveAllowance := ofRat 1 }).roomId = (w.room p).getD "lobby" := by
    rcases hp : w.players.lookup p with _ | player <;> simp [room, hp]
  rw [← hroom]
  exact h

/-- Entering keeps the counters of a player who is there and gives a new one the first ones. -/
theorem enter_eq (p name : String) (now : ℤ) : ∃ x y z yaw,
    w.enter p name now = w.enterWithState p name now x y z yaw ((w.inventory p).getD {}) := by
  unfold enter
  rcases hp : w.players.lookup p with _ | player
  · exact ⟨_, _, _, _, by simp only [inventory, hp]; rfl⟩
  · exact ⟨_, _, _, _, by simp only [inventory, hp]; rfl⟩

theorem selectRoom_cases (p room : String) (map now : ℤ) :
    let r := w.selectRoom p room map now
    (r.result = false ∧ r.world = w ∧ r.sent = []) ∨
    ∃ inv, w.inventory p = some inv ∧ room ≠ "" ∧ r.result = true ∧
      w.Entered p room inv r.world r.sent := by
  rcases hp : w.players.lookup p with _ | player
  · exact .inl (by simp [selectRoom, hp])
  unfold selectRoom
  simp only [hp]
  split
  · exact .inl ⟨rfl, rfl, rfl⟩
  · next hvalid =>
    refine .inr ⟨player.inv, by simp [inventory, hp], by tauto, rfl, ?_⟩
    refine w.entered p (Player.mk player.playerId player.name room map _ _ _ player.yaw
      player.appearance player.inv now _ player.lastBroadcastMs) _ fun m hm => ?_
    obtain ⟨e, -, rfl⟩ := List.mem_map.1 hm
    exact ⟨_, rfl⟩

omit [Platform F] in
theorem leave_spec (p : String) :
    let r := w.leave p
    r.1.toScene = w.toScene ∧
      (∀ q, r.1.inventory q = if q = p then none else w.inventory q) ∧
      (∀ q, r.1.room q = if q = p then none else w.room q) ∧
      ∀ m ∈ r.2, ∃ id, m.2 = .playerLeave id := by
  unfold leave
  rcases hp : w.players.lookup p with _ | player
  · refine ⟨rfl, fun q => ?_, fun q => ?_, by simp⟩
    · split_ifs with hq
      · subst hq; simp [inventory, hp]
      · rfl
    · split_ifs with hq
      · subst hq; simp [room, hp]
      · rfl
  · refine ⟨rfl, fun q => ?_, fun q => ?_, fun m hm => ?_⟩
    · simp only [inventory, AList.lookup_erase_if]
      split_ifs <;> rfl
    · simp only [room, AList.lookup_erase_if]
      split_ifs <;> rfl
    · obtain ⟨e, -, rfl⟩ := List.mem_map.1 hm
      exact ⟨_, rfl⟩

omit [Platform F] in
/-- Only the counters of one player change. -/
theorem charged (w' : WorldService F) {p : String} {player : Player F} (e : Effect F)
    (hp : w.players.lookup p = some player)
    (hw : w'.players = (w.setPlayer { player with inv := e.onInventory player.inv } p).players) :
    (∀ q, w'.inventory q = if q = p then (w.inventory q).map e.onInventory else w.inventory q) ∧
      ∀ q, w'.room q = w.room q := by
  refine ⟨fun q => ?_, fun q => ?_⟩
  · simp only [inventory, hw, lookup_setPlayer]
    split_ifs with hq
    · subst hq; simp [hp]
    · rfl
  · simp only [room, hw, lookup_setPlayer]
    split_ifs with hq
    · subst hq; simp [hp]
    · rfl

/-- The players are as they were, but for one's counters. -/
def Recounted (w' : WorldService F) (p : String) : Prop :=
  w'.players = w.players ∨ ∃ player inv, w.players.lookup p = some player ∧
    w'.players = (w.setPlayer { player with inv } p).players

variable {w} in
omit [Platform F] in
/-- What does not depend on the counters is as it was. -/
theorem Recounted.read {w' : WorldService F} {p : String} (h : w.Recounted w' p) {α : Type}
    (g : Player F → α) (hg : ∀ (player : Player F) inv, g { player with inv } = g player)
    (q : String) : (w'.players.lookup q).map g = (w.players.lookup q).map g := by
  rcases h with hw | ⟨player, inv, hp, hw⟩
  · rw [hw]
  · rw [hw]
    exact w.read_setPlayer_of g _ p q (by rw [hp, Option.map_some, hg player inv])

/-- Who gathers, builds, crafts or edits stays as he is but for his counters. -/
theorem recounted_operation (k : Call F) : match k with
    | .tryGather p _ | .tryPlaceBuilding p .. | .tryCraft p _ | .applyVoxelEdit p .. =>
      w.Recounted (k.run w).world p
    | _ => True := by
  cases k with
  | tryGather p node =>
    rcases w.tryGather_cases p node with ⟨-, hw, -⟩ | ⟨player, n, hp, -, -, -, -, hw, -⟩
    · exact .inl (congrArg (·.players) hw)
    · exact .inr ⟨player, _, hp, congrArg (·.players) hw⟩
  | tryPlaceBuilding p type x y z yaw =>
    rcases w.tryPlaceBuilding_cases p type x y z yaw with ⟨-, hw, -⟩ |
      ⟨player, b, wood, stone, hp, -, -, -, -, -, -, -, hw, -⟩
    · exact .inl (congrArg (·.players) hw)
    · exact .inr ⟨player, _, hp, congrArg (·.players) hw⟩
  | tryCraft p recipe =>
    rcases (w.tryCraft_cases p recipe).2 with ⟨-, hw⟩ |
      ⟨player, wood, stone, copper, level, hp, -, -, -, -, -, -, -, hw⟩
    · exact .inl (congrArg (·.players) hw)
    · exact .inr ⟨player, _, hp, congrArg (·.players) hw⟩
  | applyVoxelEdit p x y z action type =>
    rcases w.applyVoxelEdit_cases p x y z action type with ⟨-, -, hw | ⟨room, hw⟩⟩ |
      ⟨player, e, hp, -, -, -, hw, -⟩
    · exact .inl (congrArg (·.players) hw)
    · exact .inl (congrArg (·.players) hw)
    · exact .inr ⟨player, _, hp, congrArg (·.players) hw⟩
  | enter | enterWithState | leave | selectRoom | tryMove => trivial

end WorldService

end TinRpc
