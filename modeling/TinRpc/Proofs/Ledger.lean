import TinRpc.Books
import TinRpc.Proofs.Calls

/-!
# The economy ledger

The books of every run balance (`economy_ledger`). What one effect does to a counter and to a node
is arithmetic; the invariant is that a player's counters are those he entered with, replayed with
his own operations, and that a node is the one seeded less its gathers.
-/

namespace TinRpc

variable {F : Type}

namespace Inventory

@[simp] theorem replay_nil (v : Inventory) : v.replay ([] : List (Effect F)) = v := rfl

theorem replay_append (v : Inventory) (l l' : List (Effect F)) :
    v.replay (l ++ l') = (v.replay l).replay l' := List.foldl_append ..

theorem count_onInventory (v : Inventory) (e : Effect F) (m : Material) :
    (e.onInventory v).count m = v.count m + e.credit m - e.cost m := by
  cases m <;> rfl

theorem count_replay (m : Material) : ∀ (l : List (Effect F)) (v : Inventory),
    (v.replay l).count m = v.count m + (l.map (·.credit m)).sum - (l.map (·.cost m)).sum
  | [], v => by simp
  | e :: l, v => by
    have ih := count_replay m l (e.onInventory v)
    rw [count_onInventory] at ih
    simp only [replay, List.foldl_cons, List.map_cons, List.sum_cons] at ih ⊢
    omega

end Inventory

namespace Effect

theorem credit_nonneg (e : Effect F) (m : Material) : 0 ≤ e.credit m := by
  cases e <;> simp only [credit, le_refl] <;> split_ifs <;> decide

/-- An effect that was possible costs no more than there is. -/
theorem cost_le {e : Effect F} {c : Content F} {v : Inventory} (h : e.Enabled c v)
    (hv : ∀ m, 0 ≤ v.count m) (m : Material) : e.cost m ≤ v.count m := by
  have hm := hv m
  cases e with
  | gathered p node type => exact hm
  | built p b =>
    by_cases h0 : Material.buildingCharge b.type m = 0
    · simpa [cost, h0] using hm
    · exact h.2.2.2 m h0
  | crafted p recipe =>
    by_cases h0 : Material.recipeCharge recipe m = 0
    · simpa [cost, h0] using hm
    · exact h.2.2 m h0
  | edited p room e =>
    simp only [cost]
    split_ifs with hcost
    · obtain ⟨hne, hplaced⟩ := hcost
      rcases h with ⟨h, -⟩ | ⟨-, -, m', hm', hpos⟩
      · exact absurd h hne
      · rw [hplaced, Option.some.injEq] at hm'
        subst hm'; omega
    · exact hm

theorem onInventory_nonneg {e : Effect F} {c : Content F} {v : Inventory} (h : e.Enabled c v)
    (hv : ∀ m, 0 ≤ v.count m) (m : Material) : 0 ≤ (e.onInventory v).count m := by
  have := cost_le h hv m
  have := e.credit_nonneg m
  rw [Inventory.count_onInventory]
  omega

theorem resources_onContent (e : Effect F) (c : Content F) (node : String) :
    (e.onContent c).resources node = (c.resources node).map fun r =>
      { r with remaining := r.remaining - if e.IsGather node then 1 else 0 } := by
  cases e with
  | gathered p n type =>
    by_cases hn : n = node
    · subst hn; simp [onContent, IsGather]
    · simp [onContent, IsGather, hn, Function.update_of_ne (Ne.symm hn)]
  | _ => simp [onContent, IsGather]

end Effect

namespace Books

variable [Platform F]

/-- What holds of the books of every run. -/
structure Inv (b : Books F) : Prop where
  counters : ∀ p v m, b.world.inventory p = some v → 0 ≤ v.count m
  account : ∀ p v, b.world.inventory p = some v → v = (b.entry p).replay (b.own p)
  nodes : ∀ node, b.world.content.resources node =
    (WorldService.fresh.seedDefaultScene.content.resources node).map fun r : Resource F =>
      { r with remaining := r.remaining - b.gathers node }
  remaining : ∀ node r, b.world.content.resources node = some r → 0 ≤ r.remaining

theorem gathers_after (b : Books F) (k : Call F) (node : String) :
    (b.after k).gathers node = b.gathers node +
      (k.effect b.world).elim 0 fun e => if e.IsGather node then 1 else 0 := by
  simp only [gathers, after, List.countP_append]
  rcases k.effect b.world with _ | e
  · simp
  · by_cases h : e.IsGather node <;> simp [h]

/-- A seeded node is a tree or a rock, and not empty. -/
theorem seeded_resources {node : String} {r : Resource F}
    (h : WorldService.fresh.seedDefaultScene.content.resources node = some r) :
    (r.type = resourceWood ∨ r.type = resourceStone) ∧ 0 ≤ r.remaining := by
  have hr : r ∈ WorldService.seeded := by
    refine List.mem_of_find?_eq_some (p := fun r => r.id = node) ?_
    simpa [WorldService.seedDefaultScene, Scene.content, WorldService.lookup_foldl_emplace] using h
  simp only [WorldService.seeded, List.mem_cons, List.not_mem_nil, or_false] at hr
  rcases hr with rfl | rfl | rfl | rfl | rfl | rfl | rfl <;> simp

theorem inv_opened : Inv (opened : Books F) where
  counters p v m h := by simp [opened, WorldService.inventory, WorldService.seedDefaultScene,
    WorldService.fresh] at h
  account p v h := by simp [opened, WorldService.inventory, WorldService.seedDefaultScene,
    WorldService.fresh] at h
  nodes node := by simp [opened, gathers]
  remaining node r h := (seeded_resources h).2

/-- The counters an operation leaves are still those its players entered with, replayed. -/
theorem account_operation {b : Books F} (k : Call F) (h : Inv b) (p : String) (v : Inventory)
    (hv : (match k.effect b.world with
      | some e => if p = e.player then (b.world.inventory p).map e.onInventory
        else b.world.inventory p
      | none => b.world.inventory p) = some v) :
    v = (b.entry p).replay ((k.effect b.world).elim b.own (fun e =>
      Function.update b.own e.player (b.own e.player ++ [e])) p) := by
  rcases he : k.effect b.world with _ | e
  · rw [he] at hv
    exact h.account p v hv
  rw [he] at hv
  dsimp only [Option.elim_some] at hv ⊢
  split_ifs at hv with hp
  · obtain ⟨u, hu, rfl⟩ := Option.map_eq_some_iff.1 hv
    rw [hp] at hu ⊢
    rw [Function.update_self, Inventory.replay_append, ← h.account _ u hu]
    rfl
  · rw [Function.update_of_ne hp]
    exact h.account p v hv

/-- An operation leaves no counter negative. -/
theorem counters_operation {b : Books F} (k : Call F) (h : Inv b) (p : String) (v : Inventory)
    (m : Material) (hv : (match k.effect b.world with
      | some e => if p = e.player then (b.world.inventory p).map e.onInventory
        else b.world.inventory p
      | none => b.world.inventory p) = some v) : 0 ≤ v.count m := by
  rcases he : k.effect b.world with _ | e
  · rw [he] at hv
    exact h.counters p v m hv
  rw [he] at hv
  dsimp only at hv
  split_ifs at hv with hp
  · obtain ⟨u, hu, rfl⟩ := Option.map_eq_some_iff.1 hv
    obtain ⟨u', hu', henabled⟩ := (Call.effect_performed b.world he).enabled
    rw [hp, hu', Option.some.injEq] at hu
    subst hu
    exact Effect.onInventory_nonneg henabled (fun m => h.counters _ u' m hu') m
  · exact h.counters p v m hv

theorem account_after {b : Books F} (k : Call F) (h : Inv b) (p : String) (v : Inventory)
    (hv : k.inventoryAfter b.world p = some v) :
    v = ((b.after k).entry p).replay ((b.after k).own p) := by
  cases k with
  | enter q name now =>
    simp only [Call.inventoryAfter] at hv
    simp only [after]
    split_ifs at hv with hp
    · subst hp
      rcases hq : b.world.inventory p with _ | u
      · simp only [hq, Option.getD_none, Option.some.injEq] at hv
        simp [← hv]
      · simp only [hq, Option.getD_some, Option.some.injEq] at hv
        simpa [← hv] using h.account p u hq
    · have := h.account p v hv
      split_ifs <;> simpa [Function.update_of_ne hp] using this
  | enterWithState q name now x y z yaw inv =>
    simp only [Call.inventoryAfter] at hv
    split_ifs at hv with hp
    · subst hp
      simp only [Option.some.injEq] at hv
      simp [after, hv]
    · simpa [after, Function.update_of_ne hp] using h.account p v hv
  | leave q =>
    simp only [Call.inventoryAfter] at hv
    split_ifs at hv
    exact h.account p v hv
  | selectRoom q room map now => exact account_operation (.selectRoom q room map now) h p v hv
  | tryMove q x y z yaw now appearance =>
    exact account_operation (.tryMove q x y z yaw now appearance) h p v hv
  | _ => exact account_operation _ h p v hv

theorem counters_after {b : Books F} {k : Call F} (h : Inv b) (hk : k.NonNegative) (p : String)
    (v : Inventory) (m : Material) (hv : k.inventoryAfter b.world p = some v) : 0 ≤ v.count m := by
  cases k with
  | enter q name now =>
    simp only [Call.inventoryAfter] at hv
    split_ifs at hv with hp
    · rcases hq : b.world.inventory q with _ | u
      · simp only [hq, Option.getD_none, Option.some.injEq] at hv
        subst hv; cases m <;> simp [Inventory.count]
      · simp only [hq, Option.getD_some, Option.some.injEq] at hv
        exact hv ▸ h.counters q u m hq
    · exact h.counters p v m hv
  | enterWithState q name now x y z yaw inv =>
    simp only [Call.inventoryAfter] at hv
    split_ifs at hv
    · simp only [Option.some.injEq] at hv
      exact hv ▸ hk m
    · exact h.counters p v m hv
  | leave q =>
    simp only [Call.inventoryAfter] at hv
    split_ifs at hv
    exact h.counters p v m hv
  | selectRoom q room map now => exact counters_operation (.selectRoom q room map now) h p v m hv
  | tryMove q x y z yaw now appearance =>
    exact counters_operation (.tryMove q x y z yaw now appearance) h p v m hv
  | _ => exact counters_operation _ h p v m hv

theorem nodes_after {b : Books F} (k : Call F) (h : Inv b) (node : String) :
    (b.after k).world.content.resources node =
      (WorldService.fresh.seedDefaultScene.content.resources node).map fun r : Resource F =>
        { r with remaining := r.remaining - (b.after k).gathers node } := by
  simp only [gathers_after]
  change (k.run b.world).world.content.resources node = _
  rw [Call.run_content]
  rcases k.effect b.world with _ | e
  · simpa using h.nodes node
  · simp only [Option.elim_some, Effect.resources_onContent, h.nodes node, Option.map_map]
    congr 1
    funext r
    simp only [Function.comp_apply, sub_sub]

theorem remaining_after {b : Books F} (k : Call F) (h : Inv b) (node : String) (r : Resource F)
    (hr : (k.run b.world).world.content.resources node = some r) : 0 ≤ r.remaining := by
  rw [Call.run_content] at hr
  rcases he : k.effect b.world with _ | e
  · rw [he] at hr; exact h.remaining node r hr
  rw [he, Option.elim_some, Effect.resources_onContent, Option.map_eq_some_iff] at hr
  obtain ⟨r, hr, rfl⟩ := hr
  have hrem := h.remaining node r hr
  dsimp only
  split_ifs with hg
  · obtain ⟨v, -, henabled⟩ := (Call.effect_performed b.world he).enabled
    cases e with
    | gathered p n type =>
      obtain ⟨r', hr', -, hpos⟩ := henabled
      simp only [Effect.IsGather] at hg
      rw [hg, hr, Option.some.injEq] at hr'
      subst hr'; omega
    | _ => exact absurd hg id
  · omega

theorem inv_after {b : Books F} {k : Call F} (h : Inv b) (hk : k.NonNegative) :
    Inv (b.after k) where
  counters p v m hv := counters_after h hk p v m ((Call.run_inventory b.world k p).symm.trans hv)
  account p v hv := account_after k h p v ((Call.run_inventory b.world k p).symm.trans hv)
  nodes := nodes_after k h
  remaining := remaining_after k h

theorem inv_run (ks : List (Call F)) (hks : ∀ k ∈ ks, k.NonNegative) : Inv (run ks) := by
  have h : ∀ (ks : List (Call F)) (b : Books F), (∀ k ∈ ks, k.NonNegative) → Inv b →
      Inv (ks.foldl after b) := by
    intro ks
    induction ks with
    | nil => exact fun b _ hb => hb
    | cons k ks ih =>
      intro b hks hb
      exact ih _ (fun k hk => hks k (List.mem_cons_of_mem _ hk))
        (inv_after hb (hks k List.mem_cons_self))
  exact h ks opened hks inv_opened

/-- A successful gather takes a unit from the node and gives it to the gatherer. -/
theorem gather_moves {b : Books F} (h : Inv b) {p node : String}
    (hok : ((Call.tryGather p node).run b.world).result = some true) :
    ∃ r v m, b.world.resources.lookup node = some r ∧
      ((Call.tryGather p node).run b.world).world.resources.lookup node
        = some { r with remaining := r.remaining - 1 } ∧
      b.world.inventory p = some v ∧
      ((Call.tryGather p node).run b.world).world.inventory p = some (v.add 1 m) := by
  simp only [Call.run, Option.some.injEq] at hok ⊢
  rcases b.world.tryGather_cases p node with ⟨hfail, -⟩ | ⟨player, r, hp, hr, -, -, -, hw, -⟩
  · simp [hfail] at hok
  have htype : r.type = resourceWood ∨ r.type = resourceStone := by
    have hn := h.nodes node
    rw [show b.world.content.resources node = some r from hr, eq_comm,
      Option.map_eq_some_iff] at hn
    obtain ⟨r₀, hr₀, rfl⟩ := hn
    exact (seeded_resources hr₀).1
  obtain ⟨hinv, -⟩ := b.world.charged (b.world.tryGather p node).world
    (.gathered p node r.type) hp (by rw [hw])
  have hv : b.world.inventory p = some player.inv := by simp [WorldService.inventory, hp]
  have hinv := hinv p
  rw [if_pos rfl, hv, Option.map_some, Effect.onInventory_gathered] at hinv
  rcases htype with ht | ht
  · refine ⟨r, player.inv, .wood, hr, by rw [hw]; simp, hv, ?_⟩
    simpa [ht, resourceWood, resourceStone] using hinv
  · refine ⟨r, player.inv, .stone, hr, by rw [hw]; simp, hv, ?_⟩
    simpa [ht, resourceWood, resourceStone] using hinv

omit [Platform F] in
theorem content_resources (s : Scene F) (node : String) :
    s.content.resources node = s.resources.lookup node := rfl

/-- The books of every run from the default scene balance. -/
theorem economy_ledger (ks : List (Call F)) (hks : ∀ k ∈ ks, k.NonNegative) :
    (run ks).Balanced := by
  have h := inv_run ks hks
  exact {
    counters := h.counters
    remaining := h.remaining
    failure := fun k hk =>
      have hsame := Call.unchanged_of_failure (run ks).world hk
      ⟨hsame.2.1.content_eq, hsame.2.2.1⟩
    account := fun p v m hv => by
      rw [h.account p v hv]
      exact Inventory.count_replay m _ _
    gather := fun p node hok => gather_moves h hok
    nodes := fun node => by
      rw [← content_resources, h.nodes node, content_resources] }

/-- The first tool, crafted by a player who came back with a saved state. -/
theorem economy_ledger_craft : (run (F := ℚ)
    [.enterWithState "ann" "ann" 0 0 0 0 0 ⟨6, 3, 12, 0, 0⟩, .tryCraft "ann" 1]).Balanced :=
  economy_ledger _ (by
    simp only [List.mem_cons, List.not_mem_nil, or_false, forall_eq_or_imp, forall_eq]
    exact ⟨fun m => by cases m <;> decide, trivial⟩)

end Books

end TinRpc
