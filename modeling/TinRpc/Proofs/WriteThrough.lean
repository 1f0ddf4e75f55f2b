import TinRpc.Proofs.Sessions

/-!
# Write-through persistence

Between two events, the last scene posted to the worker is the scene of the world, once an operation
has changed it, and the last state posted for a player has his counters, once an operation of his
has succeeded since he entered (`write_through`). Every handler posts after the call it makes.
-/

namespace TinRpc

open Transition

variable {F D : Type}

def Task.scene? : Task F → Option (SceneSnapshot F)
  | .saveScene snap => some snap
  | _ => none

def Task.save? (playerId : String) : Task F → Option (PlayerState F)
  | .savePlayer st => if st.playerId = playerId then some st else none
  | _ => none

namespace GameService

/-- The last scene posted. -/
def lastScene (tasks : List (Task F)) : Option (SceneSnapshot F) :=
  (tasks.filterMap Task.scene?).getLast?

/-- The last state posted for a player. -/
def lastSave (tasks : List (Task F)) (playerId : String) : Option (PlayerState F) :=
  (tasks.filterMap (Task.save? playerId)).getLast?

/-- The last snapshots posted are those of the world. -/
structure WrittenThrough (s : GameService F D) : Prop where
  scene : (∃ e ∈ s.log.effects, e.OnScene) →
    lastScene s.log.posted = some (s.world.exportScene "default")
  players : ∀ p v, s.world.inventory p = some v → s.log.since p ≠ [] →
    ∃ st, lastSave s.log.posted p = some st ∧ st.inv = v

theorem lastScene_append (l l' : List (Task F)) :
    lastScene (l ++ l') = (lastScene l').or (lastScene l) := by
  simp [lastScene]

theorem lastSave_append (l l' : List (Task F)) (p : String) :
    lastSave (l ++ l') p = (lastSave l' p).or (lastSave l p) := by
  simp [lastSave]

theorem lastScene_playerSave (w : WorldService F) (p : String) :
    lastScene (playerSave w p) = none := by
  unfold playerSave
  rcases w.getSnapshot p with _ | st <;> rfl

theorem lastSave_playerSave (w : WorldService F) (p q : String) :
    lastSave (playerSave w p) q = if q = p then w.getSnapshot p else none := by
  unfold playerSave lastSave WorldService.getSnapshot
  rcases w.players.lookup p with _ | player
  · simp
  · by_cases h : q = p
    · subst h; simp [Task.save?]
    · simp [Task.save?, h, Ne.symm h]

@[simp] theorem lastScene_sceneSave (w : WorldService F) :
    lastScene (sceneSave w) = some (w.exportScene "default") := rfl

@[simp] theorem lastSave_sceneSave (w : WorldService F) (p : String) :
    lastSave (sceneSave w) p = none := rfl

theorem lastScene_effectTasks (w : WorldService F) (e : Effect F) :
    lastScene (effectTasks w e) =
      if e.OnScene then some (w.exportScene "default") else none := by
  cases e <;> simp [effectTasks, lastScene_append, lastScene_playerSave, Effect.OnScene]

theorem lastSave_effectTasks (w : WorldService F) (e : Effect F) (p : String) :
    lastSave (effectTasks w e) p = if p = e.player then w.getSnapshot p else none := by
  cases e <;> simp only [effectTasks, lastSave_append, lastSave_playerSave, lastSave_sceneSave,
    Option.or_none, Option.none_or, Effect.player] <;> split_ifs with h <;> simp [h]

theorem getSnapshot_inv (w : WorldService F) (p : String) :
    (w.getSnapshot p).map PlayerState.inv = w.inventory p := by
  simp only [WorldService.getSnapshot, WorldService.inventory, Option.map_map]
  rfl

/-- An empty map of edits adds nothing to the export. -/
theorem exportScene_kept {w w' : WorldService F} (h : w.toScene.Kept w'.toScene) (id : String) :
    w'.exportScene id = w.exportScene id := by
  rcases h with h | ⟨room, h⟩
  · simp only [WorldService.exportScene, h]
  · simp only [WorldService.exportScene, h, Scene.touchRoom]
    split
    · rfl
    · next hroom =>
      rw [AList.entries_insert_of_notMem (AList.lookup_eq_none.1 hroom)]
      simp

variable {s s' : GameService F D}

theorem written_removed {p : String} (hw : WrittenThrough s) (h : Removed s p s') :
    WrittenThrough s' where
  scene he := by
    rw [h.same.effects] at he
    rw [h.posted, lastScene_append, lastScene_playerSave, Option.none_or, hw.scene he, h.world,
      exportScene_kept (.inl (s.world.leave_spec p).1)]
  players q v hv hsince := by
    rw [h.since] at hsince
    rw [h.world, (s.world.leave_spec p).2.1] at hv
    split_ifs at hv with hqp
    rw [h.posted, lastSave_append, lastSave_playerSave, if_neg hqp, Option.none_or]
    exact hw.players q v hv hsince

variable [Platform F]

section Frames

variable {rid : ℕ} {conn : Connection} {now : ℤ} {request : Request F}

/-- A request of its own is no save. -/
theorem last_frameTasks_quiet (rid : ℕ) (hk : s.frameCall conn now request = none) :
    lastScene (s.frameTasks rid conn now request) = none ∧
      ∀ p, lastSave (s.frameTasks rid conn now request) p = none := by
  have hno : ∀ task ∈ s.frameTasks rid conn now request,
      task.scene? = none ∧ ∀ p, task.save? p = none := by
    intro task htask
    rcases mem_frameTasks htask with ⟨_, _, rfl⟩ | ⟨_, _, rfl⟩ | ⟨k, hk', -⟩
    · exact ⟨rfl, fun _ => rfl⟩
    · exact ⟨rfl, fun _ => rfl⟩
    · simp [hk] at hk'
  refine ⟨?_, fun p => ?_⟩
  · rw [lastScene, List.filterMap_eq_nil_iff.2 fun task htask => (hno task htask).1]
    rfl
  · rw [lastSave, List.filterMap_eq_nil_iff.2 fun task htask => (hno task htask).2 p]
    rfl

theorem written_quiet (hw : WrittenThrough s) (h : Framed s rid conn now request s')
    (hk : s.frameCall conn now request = none) : WrittenThrough s' := by
  obtain ⟨hscene, hsave⟩ := last_frameTasks_quiet rid hk
  refine ⟨fun he => ?_, fun p v hv hsince => ?_⟩
  · rw [h.effects, hk, Option.elim_none, List.append_nil] at he
    rw [h.posted, lastScene_append, hscene, Option.none_or, h.world, hk]
    exact hw.scene he
  · rw [h.since, hk] at hsince
    rw [h.world, hk] at hv
    rw [h.posted, lastSave_append, hsave, Option.none_or]
    exact hw.players p v hv hsince

theorem written_failed {k : Call F} (hw : WrittenThrough s) (h : Framed s rid conn now request s')
    (hk : s.frameCall conn now request = some k) (he : k.effect s.world = none) :
    WrittenThrough s' := by
  have htasks : s.frameTasks rid conn now request = [] := by
    rw [frameTasks_of_some hk, callTasks, he]; rfl
  refine ⟨fun hon => ?_, fun p v hv hsince => ?_⟩
  · rw [h.effects, hk, Option.elim_some, he, Option.toList_none, List.append_nil] at hon
    rw [h.posted, htasks, List.append_nil, h.world, hk, Option.elim_some,
      exportScene_kept ((Call.run_spec s.world k).1 he)]
    exact hw.scene hon
  · rw [h.since, hk, Option.elim_some, he] at hsince
    rw [h.world, hk, Option.elim_some, Call.run_inventory, (frameCall_some hk).2, he] at hv
    rw [h.posted, htasks, List.append_nil]
    exact hw.players p v hv hsince

theorem written_effect {k : Call F} {e : Effect F} (hw : WrittenThrough s)
    (h : Framed s rid conn now request s') (hk : s.frameCall conn now request = some k)
    (he : k.effect s.world = some e) : WrittenThrough s' := by
  have hperformed := Call.effect_performed s.world he
  have hworld : s'.world = (k.run s.world).world := by rw [h.world, hk]; rfl
  have hposted : s'.log.posted = s.log.posted ++ effectTasks s'.world e := by
    rw [h.posted, frameTasks_of_some hk, callTasks, he, hworld]; rfl
  refine ⟨fun hon => ?_, fun p v hv hsince => ?_⟩
  · rw [hposted, lastScene_append, lastScene_effectTasks]
    split_ifs with hscene
    · rfl
    · rw [Option.none_or, hworld, exportScene_kept (hperformed.kept hscene)]
      rw [h.effects, hk, Option.elim_some, he] at hon
      refine hw.scene ?_
      obtain ⟨e', he', hon⟩ := hon
      rcases List.mem_append.1 he' with he' | he'
      · exact ⟨e', he', hon⟩
      · exact absurd (List.mem_singleton.1 he' ▸ hon) hscene
  · rw [hposted, lastSave_append, lastSave_effectTasks]
    split_ifs with hp
    · obtain ⟨st, hst, rfl⟩ := Option.map_eq_some_iff.1 ((getSnapshot_inv s'.world p).trans hv)
      exact ⟨st, by rw [hst]; rfl, rfl⟩
    · rw [Option.none_or]
      rw [hworld, hperformed.inventory_eq, if_neg hp] at hv
      rw [h.since, hk, Option.elim_some, he, Option.elim_some, Function.update_of_ne hp] at hsince
      exact hw.players p v hv hsince

end Frames

theorem written_framed {rid : ℕ} {conn : Connection} {now : ℤ} {request : Request F}
    (hw : WrittenThrough s) (h : Framed s rid conn now request s') : WrittenThrough s' := by
  rcases hk : s.frameCall conn now request with _ | k
  · exact written_quiet hw h hk
  rcases he : k.effect s.world with _ | e
  · exact written_failed hw h hk he
  · exact written_effect hw h hk he

theorem written_joined {conn : Connection} {p : String} {saved : PlayerState F} {now : ℤ} {rid : ℕ}
    (hw : WrittenThrough s) (h : Joined s conn p saved now rid s') : WrittenThrough s' where
  scene he := by
    rw [h.same.effects] at he
    rw [h.posted, hw.scene he, h.world, exportScene_kept (.inr ⟨_, (s.world.enterWithState_spec
      p p now saved.x saved.y saved.z saved.yaw saved.inv).scene_eq⟩)]
  players q v hv hsince := by
    rw [h.since, Function.update_apply] at hsince
    rw [h.world, (s.world.enterWithState_spec p p now saved.x saved.y saved.z saved.yaw
      saved.inv).inventory_eq] at hv
    split_ifs at hv hsince with hqp
    · exact absurd rfl hsince
    · rw [h.posted]
      exact hw.players q v hv hsince

theorem written_work {o : DbOutcome} {task : Task F} {queue : List (Task F)}
    (hw : WrittenThrough s) : WrittenThrough (runTask { s with queue } o task) := by
  cases task <;> exact ⟨hw.scene, hw.players⟩

theorem written_switched (hw : WrittenThrough s) (fd : ℤ) (p : String) :
    WrittenThrough (s.switchAccount fd p) := by
  rcases s.switchAccount_cases fd p with ⟨heq, -⟩ | ⟨old, -, -, hr, -⟩
  · rw [heq]; exact hw
  · exact written_removed hw hr

variable [Lobby D]

theorem written_step {e : Event F} (hw : WrittenThrough s) (h : step s e = some s') :
    WrittenThrough s' := by
  cases e with
  | accept fd =>
    obtain ⟨-, rfl⟩ := Step.accept h
    exact ⟨hw.scene, hw.players⟩
  | frame fd rid request now =>
    obtain ⟨conn, -, hf⟩ := Step.frame h
    exact written_framed hw hf
  | close fd now =>
    obtain ⟨conn, s₁, -, -, rfl, ⟨-, rfl⟩ | ⟨p, -, hr⟩⟩ := Step.close_cases h
    · exact ⟨hw.scene, hw.players⟩
    · have := written_removed hw hr
      exact ⟨this.scene, this.players⟩
  | work o =>
    obtain ⟨task, queue, -, rfl⟩ := Step.work h
    exact written_work hw
  | loop now =>
    obtain ⟨callback, callbacks, -, ⟨rest, metrics, rfl, -⟩ |
      ⟨t, result, saved, conn, -, -, -, hj⟩⟩ := Step.loop_cases h
    · exact ⟨hw.scene, hw.players⟩
    · have hw' : WrittenThrough { s with callbacks } := ⟨hw.scene, hw.players⟩
      exact written_joined (written_switched hw' t.fd result.playerId) hj

omit [Platform F] [Lobby D] in
theorem saved_removed {p q : String} {v : Inventory} (hr : Removed s q s')
    (hv : s.world.inventory p = some v) (hgone : s'.world.inventory p = none) :
    lastSave s'.log.posted p = s.world.getSnapshot p := by
  rw [hr.world, (s.world.leave_spec q).2.1] at hgone
  split_ifs at hgone with hpq
  · obtain ⟨st, hst, -⟩ := Option.map_eq_some_iff.1 ((getSnapshot_inv s.world p).trans hv)
    rw [hr.posted, lastSave_append, lastSave_playerSave, if_pos hpq, ← hpq, hst]
    rfl
  · simp [hv] at hgone

/-- Whoever leaves the world in a step was saved in it as he was. -/
theorem saved_before_leaving {e : Event F} {p : String} {v : Inventory} (h : step s e = some s')
    (hv : s.world.inventory p = some v) (hgone : s'.world.inventory p = none) :
    lastSave s'.log.posted p = s.world.getSnapshot p := by
  cases e with
  | accept fd =>
    obtain ⟨-, rfl⟩ := Step.accept h
    exact absurd (hv.symm.trans hgone) (by simp)
  | frame fd rid request now =>
    obtain ⟨conn, -, hf⟩ := Step.frame h
    rw [hf.world] at hgone
    rcases hk : s.frameCall conn now request with _ | k
    · rw [hk] at hgone
      exact absurd (hv.symm.trans hgone) (by simp)
    · have := inventory_isSome hk s.world p
      rw [hk, Option.elim_some] at hgone
      simp [hgone, hv] at this
  | close fd now =>
    obtain ⟨conn, s₁, -, -, rfl, ⟨-, rfl⟩ | ⟨q, -, hr⟩⟩ := Step.close_cases h
    · exact absurd (hv.symm.trans hgone) (by simp)
    · have hsaved : lastSave s₁.log.posted p = s.world.getSnapshot p := saved_removed hr hv hgone
      exact hsaved
  | work o =>
    obtain ⟨task, queue, -, rfl⟩ := Step.work h
    cases task <;> exact absurd (hv.symm.trans hgone) (by simp)
  | loop now =>
    obtain ⟨callback, callbacks, -, ⟨rest, metrics, rfl, -⟩ |
      ⟨t, result, saved, conn, -, -, -, hj⟩⟩ := Step.loop_cases h
    · exact absurd (hv.symm.trans hgone) (by simp)
    · rw [hj.world, (WorldService.enterWithState_spec _ result.playerId result.playerId now
        saved.x saved.y saved.z saved.yaw saved.inv).inventory_eq] at hgone
      split_ifs at hgone with hp
      rw [hj.posted]
      rcases switchAccount_cases { s with callbacks } t.fd result.playerId with ⟨heq, -⟩ |
        ⟨old, -, -, hr, -⟩
      · rw [heq] at hgone
        exact absurd (hv.symm.trans hgone) (by simp)
      · exact saved_removed (s := { s with callbacks }) hr hv hgone

/-- Between any two events the last snapshots posted are those of the world, and whoever leaves was
saved first. -/
theorem write_through (h : Running anyEvent s) : WrittenThrough s ∧
    ∀ e s' p v, step s e = some s' → s.world.inventory p = some v →
      s'.world.inventory p = none →
        ∃ st, lastSave s'.log.posted p = some st ∧ s.world.getSnapshot p = some st ∧
          st.inv = v := by
  obtain ⟨lobby, db, accounts, players, scenes, o, h⟩ := h
  refine ⟨h.invariant ?_ fun s e s' hw _ he => written_step hw he, fun e s' p v he hv hgone => ?_⟩
  · obtain ⟨-, -, -, -, -, -, -, hworld, -, -, heffects, -⟩ :=
      start_eq lobby db accounts players scenes o
    exact ⟨by simp [heffects], by simp [hworld]⟩
  · obtain ⟨st, hst, hinv⟩ := Option.map_eq_some_iff.1 ((getSnapshot_inv s.world p).trans hv)
    exact ⟨st, (saved_before_leaving he hv hgone).trans hst, hst, hinv⟩

/-- A player crafts and mines a block, and disconnects. -/
theorem write_through_mine : ∃ s s' : GameService ℚ Unit, Running anyEvent s ∧
    s.log.effects.length = 2 ∧ step s (.close 5 0) = some s' ∧
    lastScene s.log.posted = some (s.world.exportScene "default") ∧
    (∃ st, lastSave s.log.posted "ann" = some st ∧ st.inv = ⟨4, 4, 12, 0, 1⟩) ∧
    ∃ st, lastSave s'.log.posted "ann" = some st ∧ st.inv = ⟨4, 4, 12, 0, 1⟩ := by
  have hplay : (play anyEvent twoAccounts (List.flatten [[.accept 5], loginAnn 5,
      [.frame 5 2 (.craft (some 1)) 0, .frame 5 3 (.selectMap (some ("map_0", 0))) 0,
        .frame 5 4 (.voxelEdit (some ⟨0, 0, 0, 1, 3⟩)) 0]])).bind (fun s =>
      (step s (.close 5 0)).map fun s' => (s.log.effects.length,
        s.log.effects.any (fun e => decide e.OnScene), s.world.inventory "ann",
        (s.log.since "ann").length, s'.world.inventory "ann")) =
      some (2, true, some ⟨4, 4, 12, 0, 1⟩, 2, none) := by
    decide +kernel
  obtain ⟨s, hs, hrest⟩ := Option.bind_eq_some_iff.1 hplay
  obtain ⟨s', hs', hstate⟩ := Option.map_eq_some_iff.1 hrest
  simp only [Prod.mk.injEq, List.any_eq_true, decide_eq_true_eq] at hstate
  obtain ⟨heffects, hscene, hinv, hsince, hgone⟩ := hstate
  obtain ⟨hwritten, hleaving⟩ := write_through (running_of_play hs)
  have hplayer := hwritten.players "ann" _ hinv (List.ne_nil_of_length_pos (by omega))
  obtain ⟨st, hst, -, hstinv⟩ := hleaving (.close 5 0) s' "ann" _ hs' hinv hgone
  exact ⟨s, s', running_of_play hs, heffects, hs', hwritten.scene hscene, hplayer, st, hst, hstinv⟩

end GameService

end TinRpc
