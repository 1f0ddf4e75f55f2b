import TinRpc.Proofs.Names
import TinRpc.Proofs.Snapshots

/-!
# The scene of a run

A step changes the content of the scene by one effect or not at all (`content_step`). What the
content's names are like follows by induction (`storable_reach`): those a store read are C strings
and not empty, those the operations made are numbers and player ids; only a room has whatever name
its client chose.
-/

namespace TinRpc

open Transition
open Bson (NulFree cstr nul)

variable {F D : Type}

/-- Every name but the rooms' can be stored. -/
structure Content.Storable (c : Content F) : Prop extends c.Keyed where
  ids : ∀ id r, c.resources id = some r → NulFree id ∧ id ≠ ""
  buildings : ∀ b ∈ c.buildings, NulFree b.id ∧ b.id ≠ "" ∧ NulFree b.ownerId
  rooms : ∀ room key e, c.edits room key = some e → room ≠ ""
  number : c.nextBuildingId < 2 ^ 64

theorem nulFree_building (n : ℕ) :
    NulFree ("building_" ++ toString n) ∧ "building_" ++ toString n ≠ "" := by
  have hnat : (toString n).toList = (toString (n : ℤ)).toList := by
    rw [toList_toString_int, if_pos (Int.natCast_nonneg n), Int.toNat_natCast]
    exact Nat.toList_repr
  constructor
  · unfold NulFree
    rw [String.toList_append, List.mem_append, hnat]
    rintro (h | h)
    · exact absurd h (by decide)
    · exact nul_notMem n h
  · intro h
    have := congrArg (fun s => s.toList.length) h
    simp at this

theorem Effect.storable_onContent {e : Effect F} {c : Content F} {v : Inventory}
    (hc : c.Storable) (he : e.Enabled c v) (hp : NulFree e.player)
    (hroom : ∀ p room edit, e = .edited p room edit → room ≠ "") : (e.onContent c).Storable := by
  cases e with
  | gathered p node type =>
    have hres : ∀ id r, ((Effect.gathered p node type).onContent c).resources id = some r →
        ∃ r', c.resources id = some r' ∧ r.id = r'.id := by
      intro id r h
      simp only [onContent, Function.update_apply] at h
      split_ifs at h with hid
      · obtain ⟨r', hr', rfl⟩ := Option.map_eq_some_iff.1 h
        exact ⟨r', hid ▸ hr', rfl⟩
      · exact ⟨r, h, rfl⟩
    refine ⟨⟨fun id r h => ?_, hc.edits⟩, fun id r h => ?_, hc.buildings, hc.rooms, hc.number⟩
    · obtain ⟨r', hr', hid⟩ := hres id r h
      exact hid.trans (hc.resources id r' hr')
    · obtain ⟨r', hr', -⟩ := hres id r h
      exact hc.ids id r' hr'
  | built p b =>
    obtain ⟨-, howner, hid, -⟩ := he
    refine ⟨⟨hc.resources, hc.edits⟩, hc.ids, fun b' hb' => ?_, hc.rooms, ?_⟩
    · rcases List.mem_append.1 hb' with hb' | hb'
      · exact hc.buildings b' hb'
      · rw [List.mem_singleton.1 hb', howner, hid]
        exact ⟨(nulFree_building _).1, (nulFree_building _).2, hp⟩
    · exact Nat.mod_lt _ (by decide)
  | crafted p recipe => exact hc
  | edited p room edit =>
    have hedits : ∀ r k e, ((Effect.edited p room edit).onContent c).edits r k = some e →
        c.edits r k = some e ∨ r = room ∧ k = voxelKey e.x e.y e.z := by
      intro r k e h
      simp only [onContent] at h
      by_cases hr : r = room
      · subst hr
        rw [Function.update_self, Function.update_apply] at h
        split_ifs at h with hk
        · obtain rfl := Option.some.inj h
          exact .inr ⟨rfl, hk⟩
        · exact .inl h
      · rw [Function.update_of_ne hr] at h
        exact .inl h
    refine ⟨⟨hc.resources, fun r k e h => ?_⟩, hc.ids, hc.buildings, fun r k e h => ?_, hc.number⟩
    · rcases hedits r k e h with h | ⟨-, hk⟩
      · exact hc.edits r k e h
      · exact hk
    · rcases hedits r k e h with h | ⟨rfl, -⟩
      · exact hc.rooms r k e h
      · exact hroom p r edit rfl

namespace SceneStore

variable [Platform F]

omit [Platform F] in
/-- A read item's name is what it started with or a C string. -/
theorem nulFree_foldl {β : Type*} (name : β → String) {read : β → String × Bson F → β}
    (hread : ∀ b f, name (read b f) = name b ∨ ∃ s, name (read b f) = cstr s) :
    ∀ (fields : Bson.Doc F) (b : β), NulFree (name b) → NulFree (name (fields.foldl read b))
  | [], _, hb => hb
  | f :: fields, b, hb => by
    refine nulFree_foldl name hread fields (read b f) ?_
    rcases hread b f with h | ⟨s, h⟩
    · rw [h]; exact hb
    · rw [h]; exact Bson.nulFree_cstr s

theorem nulFree_readResource (fields : Bson.Doc F) : NulFree (readResource fields).id := by
  refine nulFree_foldl Resource.id (fun r f => ?_) fields _ (by simp [NulFree])
  split <;> first | exact .inl rfl | exact .inr ⟨_, rfl⟩

theorem nulFree_readBuilding (fields : Bson.Doc F) :
    NulFree (readBuilding fields).id ∧ NulFree (readBuilding fields).ownerId := by
  constructor
  · refine nulFree_foldl BuildingState.id (fun b f => ?_) fields _ (by simp [NulFree])
    split <;> first | exact .inl rfl | exact .inr ⟨_, rfl⟩
  · refine nulFree_foldl BuildingState.ownerId (fun b f => ?_) fields _ (by simp [NulFree])
    split <;> first | exact .inl rfl | exact .inr ⟨_, rfl⟩

omit [Platform F] in
theorem nulFree_readVoxelEdit (fields : Bson.Doc F) : NulFree (readVoxelEdit fields).roomId := by
  refine nulFree_foldl SceneVoxelEdit.roomId (fun e f => ?_) fields _ (by simp [NulFree])
  split <;> first | exact .inl rfl | exact .inr ⟨_, rfl⟩

omit [Platform F] in
theorem mem_readItems {β : Type} {read : Bson.Doc F → β} {name : β → String}
    {v : Option (Bson F)} {b : β} (h : b ∈ readItems read name v) :
    ∃ fields, b = read fields ∧ name b ≠ "" := by
  obtain ⟨hmem, hname⟩ := List.mem_filter.1 h
  obtain ⟨item, -, hitem⟩ := List.mem_filterMap.1 hmem
  obtain ⟨fields, -, rfl⟩ := Option.map_eq_some_iff.1 hitem
  exact ⟨fields, rfl, by simpa using hname⟩

omit [Platform F] in
theorem toUInt64_lt (n : ℤ) : toUInt64 n < 2 ^ 64 := by
  unfold toUInt64
  omega

theorem number_parse (sceneId : String) (doc : Bson.Doc F) :
    (parse sceneId doc).nextBuildingId < 2 ^ 64 := by
  simp only [parse]
  split
  · exact toUInt64_lt _
  · exact toUInt64_lt _
  · decide

/-- Rooms are read as C strings. -/
theorem rooms_parse {sceneId : String} {doc : Bson.Doc F} {room key : String} {e : VoxelEditState}
    (h : (parse sceneId doc).content.edits room key = some e) : NulFree room ∧ room ≠ "" := by
  rw [SceneSnapshot.content_edits, Option.map_eq_some_iff] at h
  obtain ⟨v, hv, -⟩ := h
  obtain ⟨hmem, hon⟩ := List.mem_filter.1 (List.mem_of_getLast? hv)
  obtain ⟨fields, rfl, hname⟩ := mem_readItems hmem
  have hroom : (readVoxelEdit fields).roomId = room := (of_decide_eq_true hon).1
  rw [← hroom]
  exact ⟨nulFree_readVoxelEdit fields, hname⟩

/-- A scene loaded from any document can be stored. -/
theorem storable_loaded (w : WorldService F) (sceneId : String) (doc : Bson.Doc F) :
    (w.loadScene (parse sceneId doc)).content.Storable := by
  have hkeyed := (parse sceneId doc).content_keyed
  rw [w.content_loadScene]
  refine ⟨⟨hkeyed.resources, hkeyed.edits⟩, fun id r h => ?_, fun b hb => ?_,
    fun room key e h => (rooms_parse h).2, ?_⟩
  · have hid := hkeyed.resources id r h
    obtain ⟨fields, rfl, hname⟩ := mem_readItems (List.mem_of_find?_eq_some h)
    rw [← hid]
    exact ⟨nulFree_readResource fields, hname⟩
  · obtain ⟨fields, rfl, hname⟩ := mem_readItems hb
    exact ⟨(nulFree_readBuilding fields).1, hname, (nulFree_readBuilding fields).2⟩
  · have := number_parse sceneId doc
    dsimp only
    split_ifs <;> omega

end SceneStore

theorem WorldService.storable_seeded [Platform F] :
    (fresh.seedDefaultScene : WorldService F).content.Storable := by
  have hfind : ∀ id, (fresh.seedDefaultScene : WorldService F).content.resources id =
      (seeded (F := F)).find? fun r => r.id = id := by
    intro id
    simp [seedDefaultScene, Scene.content, lookup_foldl_emplace]
  refine ⟨⟨fun id r h => ?_, by simp [seedDefaultScene, fresh, Scene.fresh, Scene.content,
    Scene.roomEdits]⟩, fun id r h => ?_, by simp [seedDefaultScene, Scene.content],
    by simp [seedDefaultScene, fresh, Scene.fresh, Scene.content, Scene.roomEdits], ?_⟩
  · rw [hfind] at h
    simpa using List.find?_some h
  · rw [hfind] at h
    have hid : r.id = id := by simpa using List.find?_some h
    have hids : (seeded (F := F)).map Resource.id =
        ["tree_1", "tree_2", "tree_3", "tree_4", "rock_1", "rock_2", "rock_3"] := rfl
    have hmem : id ∈ (seeded (F := F)).map Resource.id :=
      hid ▸ List.mem_map_of_mem (List.mem_of_find?_eq_some h)
    have hnames : ∀ id ∈ ["tree_1", "tree_2", "tree_3", "tree_4", "rock_1", "rock_2", "rock_3"],
        NulFree id ∧ id ≠ "" := by decide
    exact hnames id (hids ▸ hmem)
  · exact (by decide : 1 < 2 ^ 64)

namespace GameService

variable [Platform F] {s s' : GameService F D}

omit [Platform F] in
theorem content_removed {p : String} (h : Removed s p s') :
    s'.world.content = s.world.content := by
  rw [h.world]
  exact congrArg Scene.content (s.world.leave_spec p).1

theorem content_switched (s : GameService F D) (fd : ℤ) (p : String) :
    (s.switchAccount fd p).world.content = s.world.content ∧
      (s.switchAccount fd p).log.effects = s.log.effects := by
  rcases s.switchAccount_cases fd p with ⟨heq, -⟩ | ⟨old, -, -, hr, -⟩
  · rw [heq]
    exact ⟨rfl, rfl⟩
  · exact ⟨content_removed hr, hr.same.effects⟩

theorem content_joined {conn : Connection} {p : String} {saved : PlayerState F} {now : ℤ} {rid : ℕ}
    (h : Joined s conn p saved now rid s') : s'.world.content = s.world.content := by
  rw [h.world]
  have hentered := s.world.enterWithState_spec p p now saved.x saved.y saved.z saved.yaw saved.inv
  exact (congrArg Scene.content hentered.scene_eq).trans (Scene.content_touchRoom _ _)

theorem content_framed {rid : ℕ} {conn : Connection} {now : ℤ} {request : Request F}
    (h : Framed s rid conn now request s') :
    (s'.log.effects = s.log.effects ∧ s'.world.content = s.world.content) ∨
      ∃ k e, s.frameCall conn now request = some k ∧ k.effect s.world = some e ∧
        s'.log.effects = s.log.effects ++ [e] ∧
        s'.world.content = e.onContent s.world.content := by
  rw [h.effects, h.world]
  rcases hk : s.frameCall conn now request with _ | k
  · exact .inl ⟨List.append_nil _, rfl⟩
  rcases he : k.effect s.world with _ | e
  · refine .inl ⟨?_, ?_⟩
    · rw [Option.elim_some, he]
      exact List.append_nil _
    · rw [Option.elim_some, Call.run_content, he]
      rfl
  · refine .inr ⟨k, e, rfl, he, ?_, ?_⟩
    · rw [Option.elim_some, he]
      rfl
    · rw [Option.elim_some, Call.run_content, he]
      rfl

/-- A room has a name. -/
def Roomed (s : GameService F D) : Prop := ∀ p room, s.world.room p = some room → room ≠ ""

omit [Platform F] in
theorem roomed_removed {p : String} (hr : Roomed s) (h : Removed s p s') : Roomed s' := by
  intro q room hroom
  rw [h.world, (s.world.leave_spec p).2.2.1] at hroom
  split_ifs at hroom
  exact hr q room hroom

theorem roomed_framed {rid : ℕ} {conn : Connection} {now : ℤ} {request : Request F}
    (hr : Roomed s) (h : Framed s rid conn now request s') : Roomed s' := by
  intro q room hroom
  rw [h.world] at hroom
  rcases hk : s.frameCall conn now request with _ | k
  · rw [hk] at hroom
    exact hr q room hroom
  rw [hk, Option.elim_some, Call.run_room] at hroom
  unfold frameCall at hk
  split at hk
  case h_1 roomId mapId =>
    obtain ⟨p, -, rfl⟩ := Option.map_eq_some_iff.1 hk
    dsimp only at hroom
    split_ifs at hroom with hsel
    · obtain rfl := Option.some.inj hroom
      rcases s.world.selectRoom_cases p roomId mapId now with ⟨hfail, -⟩ | ⟨_, -, hne, -⟩
      · simp [Call.run, hfail] at hsel
      · exact hne
    · exact hr q room hroom
  case h_7 => simp at hk
  all_goals
    obtain ⟨p, -, rfl⟩ := Option.map_eq_some_iff.1 hk
    exact hr q room hroom

theorem roomed_joined {conn : Connection} {p : String} {saved : PlayerState F} {now : ℤ} {rid : ℕ}
    (hr : Roomed s) (h : Joined s conn p saved now rid s') : Roomed s' := by
  intro q room hroom
  rw [h.world, (s.world.enterWithState_spec p p now saved.x saved.y saved.z saved.yaw
    saved.inv).room_eq] at hroom
  split_ifs at hroom
  · rw [Option.some.injEq] at hroom
    rcases hp : s.world.room p with _ | r
    · rw [← hroom, hp]
      decide
    · rw [← hroom, hp]
      exact hr p r hp
  · exact hr q room hroom

variable [Lobby D]

/-- A step performs one effect on the scene, or leaves it. -/
theorem content_step {e : Event F} (h : step s e = some s') :
    (s'.log.effects = s.log.effects ∧ s'.world.content = s.world.content) ∨
      ∃ k ef, (∃ conn now request, s.frameCall conn now request = some k) ∧
        k.effect s.world = some ef ∧ s'.log.effects = s.log.effects ++ [ef] ∧
        s'.world.content = ef.onContent s.world.content := by
  cases e with
  | accept fd =>
    obtain ⟨-, rfl⟩ := Step.accept h
    exact .inl ⟨rfl, rfl⟩
  | frame fd rid request now =>
    obtain ⟨conn, -, hf⟩ := Step.frame h
    rcases content_framed hf with hsame | ⟨k, ef, hk, hef, heffects, hcontent⟩
    · exact .inl hsame
    · exact .inr ⟨k, ef, ⟨conn, now, request, hk⟩, hef, heffects, hcontent⟩
  | close fd now =>
    obtain ⟨conn, s₁, -, -, rfl, ⟨-, rfl⟩ | ⟨p, -, hr⟩⟩ := Step.close_cases h
    · exact .inl ⟨rfl, rfl⟩
    · have hcontent : s₁.world.content = s.world.content := content_removed hr
      exact .inl ⟨hr.same.effects, hcontent⟩
  | work o =>
    obtain ⟨task, queue, -, rfl⟩ := Step.work h
    cases task <;> exact .inl ⟨rfl, rfl⟩
  | loop now =>
    obtain ⟨callback, callbacks, -, ⟨rest, metrics, rfl, -⟩ | ⟨t, result, saved, conn, -, -, -, hj⟩⟩ :=
      Step.loop_cases h
    · exact .inl ⟨rfl, rfl⟩
    · obtain ⟨hcontent, heffects⟩ :=
        content_switched { s with callbacks } t.fd result.playerId
      exact .inl ⟨hj.same.effects.trans heffects, (content_joined hj).trans hcontent⟩

theorem roomed_step {e : Event F} (hr : Roomed s) (h : step s e = some s') : Roomed s' := by
  cases e with
  | accept fd =>
    obtain ⟨-, rfl⟩ := Step.accept h
    exact hr
  | frame fd rid request now =>
    obtain ⟨conn, -, hf⟩ := Step.frame h
    exact roomed_framed hr hf
  | close fd now =>
    obtain ⟨conn, s₁, -, -, rfl, ⟨-, rfl⟩ | ⟨p, -, hremoved⟩⟩ := Step.close_cases h
    · exact hr
    · have hr₁ : Roomed s₁ := roomed_removed hr hremoved
      exact hr₁
  | work o =>
    obtain ⟨task, queue, -, rfl⟩ := Step.work h
    cases task <;> exact hr
  | loop now =>
    obtain ⟨callback, callbacks, -, ⟨rest, metrics, rfl, -⟩ | ⟨t, result, saved, conn, -, -, -, hj⟩⟩ :=
      Step.loop_cases h
    · exact hr
    · refine roomed_joined ?_ hj
      rcases switchAccount_cases { s with callbacks } t.fd result.playerId with ⟨heq, -⟩ |
        ⟨old, -, -, hremoved, -⟩
      · rw [heq]
        exact hr
      · exact roomed_removed (s := { s with callbacks }) hr hremoved

theorem storable_step {e : Event F} (hn : Named s) (hr : Roomed s) (hc : s.world.content.Storable)
    (h : step s e = some s') : s'.world.content.Storable := by
  rcases content_step h with ⟨-, hcontent⟩ | ⟨k, ef, -, hef, -, hcontent⟩
  · rw [hcontent]
    exact hc
  rw [hcontent]
  obtain ⟨v, hv, henabled⟩ := (Call.effect_performed s.world hef).enabled
  refine Effect.storable_onContent hc henabled (hn.world _ (by simp [hv])) ?_
  rintro p room edit rfl
  exact hr p room (Call.edited_room s.world hef)

omit [Lobby D] in
theorem storable_start (lobby : D) (db : Database F) (accounts players scenes : Bool)
    (o : DbOutcome) : (start lobby db accounts players scenes o).world.content.Storable := by
  unfold start loadOrSeedScene
  dsimp only
  split
  · next hfound =>
    unfold SceneStore.load at hfound ⊢
    split_ifs at hfound ⊢ with hread
    · rcases hdoc : db.scenes (cstr "default") with _ | doc
      · simp [hdoc] at hfound
      · exact SceneStore.storable_loaded _ _ _
    · simp at hfound
  · exact WorldService.storable_seeded

/-- In every run all names in the scene but the rooms' can be stored. -/
theorem storable_reach {ok : GameService F D → Event F → Prop} (h : Running ok s) :
    s.world.content.Storable := by
  obtain ⟨lobby, db, accounts, players, scenes, o, h⟩ := h
  have hinv : Roomed s ∧ s.world.content.Storable := by
    refine h.invariant_of (P := fun s => Roomed s ∧ s.world.content.Storable)
      (fun s hs => named_reach ⟨lobby, db, accounts, players, scenes, o, hs⟩) ⟨?_, ?_⟩
      fun s e s' hn hinv _ he => ⟨roomed_step hinv.1 he, storable_step hn hinv.1 hinv.2 he⟩
    · intro p room hroom
      have hnone := (start_eq lobby db accounts players scenes o).2.2.2.2.2.2.2.1 p
      have hsame : ∀ w : WorldService F, w.inventory p = none → w.room p = none := by
        intro w hw
        simpa [WorldService.inventory, WorldService.room] using hw
      rw [hsame _ hnone] at hroom
      simp at hroom
    · exact storable_start lobby db accounts players scenes o
  exact hinv.2

end GameService

end TinRpc
