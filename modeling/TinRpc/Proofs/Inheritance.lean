import TinRpc.Lib.Lineage
import TinRpc.Proofs.Queue
import TinRpc.Proofs.Rollback
import TinRpc.Proofs.Scenes

/-!
# What a stored document is replaced by

A scene document and a player document are only replaced by what successful operations made of
them, in every run that starts with the stored scene read and in which no read of a stored player
fails and no login completes after a later save (`stored_inherited`). What was stored, what is
queued and what the world has form one lineage. A read that fails is taken for a document that is
not there, and the default is stored over it (`stored_inherited_fails`).
-/

namespace TinRpc

open Transition
open Bson (NulFree cstr)
open List (Lineage Derived)

variable {F D : Type}

namespace GameService

/-- The contents of the scenes in the queue. -/
def queuedScenes (tasks : List (Task F)) : List (Content F) :=
  (tasks.filterMap Task.scene?).map SceneSnapshot.content

/-- The counters of a player's saves in the queue. -/
def queuedSaves (p : String) (tasks : List (Task F)) : List Inventory :=
  (tasks.filterMap (Task.save? p)).map PlayerState.inv

/-- What has been stored of the scene, is queued and is in the world. -/
def sceneLine (s : GameService F D) : List (Content F) :=
  s.log.scenes ++ queuedScenes s.queue ++ [s.world.content]

/-- What has been stored of a player, is queued and is in the world. -/
def playerLine (s : GameService F D) (p : String) : List Inventory :=
  s.log.saves p ++ queuedSaves p s.queue ++ (s.world.inventory p).toList

theorem queuedScenes_append (l l' : List (Task F)) :
    queuedScenes (l ++ l') = queuedScenes l ++ queuedScenes l' := by simp [queuedScenes]

theorem queuedSaves_append (p : String) (l l' : List (Task F)) :
    queuedSaves p (l ++ l') = queuedSaves p l ++ queuedSaves p l' := by simp [queuedSaves]

@[simp] theorem queuedScenes_playerSave (w : WorldService F) (p : String) :
    queuedScenes (playerSave w p) = [] := by
  unfold playerSave
  rcases w.getSnapshot p with _ | st <;> rfl

theorem queuedSaves_playerSave (w : WorldService F) (p q : String) :
    queuedSaves q (playerSave w p) = if q = p then (w.inventory q).toList else [] := by
  unfold playerSave queuedSaves
  rw [← getSnapshot_inv]
  unfold WorldService.getSnapshot
  by_cases h : q = p
  · subst h
    rcases w.players.lookup q with _ | player <;> simp [Task.save?]
  · rcases w.players.lookup p with _ | player <;> simp [Task.save?, h, Ne.symm h]

theorem queuedScenes_effectTasks {w : WorldService F} (hw : w.content.Keyed) (e : Effect F) :
    queuedScenes (effectTasks w e) = if e.OnScene then [w.content] else [] := by
  have hscene : queuedScenes (sceneSave w) = [w.content] := by
    rw [← w.content_exportScene hw "default"]
    rfl
  cases e <;> simp [effectTasks, queuedScenes_append, hscene, Effect.OnScene]

theorem queuedSaves_effectTasks (w : WorldService F) (e : Effect F) (p : String) :
    queuedSaves p (effectTasks w e) = if p = e.player then (w.inventory p).toList else [] := by
  have hscene : queuedSaves p (sceneSave w) = [] := rfl
  cases e <;> simp only [effectTasks, queuedSaves_append, hscene, queuedSaves_playerSave,
    List.append_nil, List.nil_append, Effect.player] <;> rfl

/-- Nothing is saved of a player when no save of his is found. -/
theorem queuedSaves_of_lastSave {p : String} {tasks : List (Task F)}
    (h : lastSave tasks p = none) : queuedSaves p tasks = [] := by
  rw [lastSave, List.getLast?_eq_none_iff] at h
  rw [queuedSaves, h]
  rfl

theorem ne_of_lastSave {p : String} {tasks : List (Task F)} {st : PlayerState F}
    (h : lastSave tasks p = none) (hst : .savePlayer st ∈ tasks) : st.playerId ≠ p := by
  rintro rfl
  rw [lastSave, List.getLast?_eq_none_iff, List.filterMap_eq_nil_iff] at h
  simpa [Task.save?] using h _ hst

variable [Platform F]

/-- A scene that can be stored over is read, and something is in it. -/
def SceneRead (db : Database F) (scenes : Bool) (o : DbOutcome) : Prop :=
  scenes = true → ∀ doc, db.scenes "default" = some doc → o.readOk = true ∧
    ((SceneStore.parse "default" doc).resources ≠ [] ∨
      (SceneStore.parse "default" doc).buildings ≠ [])

/-- The read of a player who is stored does not fail, and a login completes before any later save
of its player is posted. -/
def KnownReads (s : GameService F D) : Event F → Prop
  | .work o => match s.queue with
    | .verifyLogin _ username password :: _ =>
      let result := AccountStore.verifyCredentials s.accounts o.readOk s.db.accounts username password
      result.ok = true → s.players = true → s.db.players result.playerId ≠ none → o.loadOk = true
    | _ => True
  | .loop _ => match s.callbacks with
    | .loggedIn t result _ :: _ => result.ok = true → s.activeConns t.fd ≠ none →
      s.players = true → lastSave (s.log.posted.drop t.posted) result.playerId = none
    | _ => True
  | _ => True

instance (s : GameService F D) (e : Event F) : Decidable (KnownReads s e) :=
  match e with
  | .work _ => by
    unfold KnownReads
    exact match s.queue with
      | .verifyLogin .. :: _ => inferInstanceAs (Decidable (_ → _ → _ → _))
      | [] | .createAccount .. :: _ | .savePlayer _ :: _ | .saveScene _ :: _ => .isTrue trivial
  | .loop _ => by
    unfold KnownReads
    exact match s.callbacks with
      | .loggedIn .. :: _ => inferInstanceAs (Decidable (_ → _ → _ → _))
      | [] | .registered .. :: _ => .isTrue trivial
  | .accept _ | .frame .. | .close .. => .isTrue trivial

/-- The scene's lineage, where its store has a client; else nothing is ever stored. -/
structure SceneInherited (s : GameService F D) : Prop where
  line : s.scenes = true → Lineage (fun c e => Effect.onContent e c) s.log.effects s.sceneLine
  off : s.scenes = false → s.log.scenes.length ≤ 1

variable {s s' : GameService F D}

omit [Platform F] in
/-- Nothing happens to the scene. -/
theorem sceneInherited_same (h : SceneInherited s) (hstores : SameStores s s')
    (heffects : s'.log.effects = s.log.effects) (hcontent : s'.world.content = s.world.content)
    (hqueue : queuedScenes s'.queue = queuedScenes s.queue) : SceneInherited s' := by
  refine ⟨fun hon => ?_, fun hoff => ?_⟩
  · rw [hstores.scenes] at hon
    rw [sceneLine, heffects, hcontent, hqueue, hstores.storedScenes]
    exact h.line hon
  · rw [hstores.scenes] at hoff
    rw [hstores.storedScenes]
    exact h.off hoff

/-- An operation makes a new scene, which is saved where it is another one. -/
theorem sceneInherited_effect {rid : ℕ} {conn : Connection} {now : ℤ} {request : Request F}
    {k : Call F} {e : Effect F} (h : SceneInherited s) (hf : Framed s rid conn now request s')
    (hk : s.frameCall conn now request = some k) (he : k.effect s.world = some e)
    (hkeyed : s'.world.content.Keyed) : SceneInherited s' := by
  have hworld : s'.world = (k.run s.world).world := by rw [hf.world, hk]; rfl
  have hcontent : s'.world.content = e.onContent s.world.content := by
    rw [hworld, Call.run_content, he]; rfl
  have heffects : s'.log.effects = s.log.effects ++ [e] := by
    rw [hf.effects, hk, Option.elim_some, he]; rfl
  have hqueue : queuedScenes s'.queue = queuedScenes s.queue ++
      if e.OnScene then [s'.world.content] else [] := by
    rw [hf.queue, frameTasks_of_some hk, callTasks, he, ← hworld, queuedScenes_append,
      Option.elim_some, queuedScenes_effectTasks hkeyed]
  refine ⟨fun hon => ?_, fun hoff => ?_⟩
  · rw [hf.stores.scenes] at hon
    have hpush := (h.line hon).push e
    rw [sceneLine, heffects, hqueue, hf.stores.storedScenes]
    split_ifs with hscene
    · have := hpush.repeated
      rw [← hcontent] at this
      simpa only [List.append_assoc] using this
    · rw [hcontent]
      simpa only [List.append_assoc, List.nil_append] using hpush
  · rw [hf.stores.scenes] at hoff
    rw [hf.stores.storedScenes]
    exact h.off hoff

theorem sceneInherited_framed {rid : ℕ} {conn : Connection} {now : ℤ} {request : Request F}
    (h : SceneInherited s) (hf : Framed s rid conn now request s')
    (hkeyed : s'.world.content.Keyed) : SceneInherited s' := by
  have hquiet : (∀ k, s.frameCall conn now request = some k → k.effect s.world = none) →
      queuedScenes (s.frameTasks rid conn now request) = [] := by
    intro hnone
    rcases hk : s.frameCall conn now request with _ | k
    · rcases frameTasks_of_none rid hk with htasks | ⟨u, w, htasks⟩ | ⟨u, w, htasks⟩ <;>
        rw [htasks] <;> rfl
    · rw [frameTasks_of_some hk, callTasks, hnone k hk]
      rfl
  rcases content_framed hf with ⟨heffects, hcontent⟩ | ⟨k, e, hk, he, -, -⟩
  · refine sceneInherited_same h hf.stores heffects hcontent ?_
    rw [hf.queue, queuedScenes_append, hquiet, List.append_nil]
    intro k hk
    by_contra he
    obtain ⟨e, he⟩ := Option.ne_none_iff_exists'.1 he
    have hlength := congrArg List.length heffects
    rw [hf.effects, hk, Option.elim_some, he] at hlength
    simp at hlength
  · exact sceneInherited_effect h hf hk he hkeyed

theorem sceneInherited_work {o : DbOutcome} {task : Task F} {queue : List (Task F)}
    (h : SceneInherited s) (hq : s.queue = task :: queue) :
    SceneInherited (runTask { s with queue } o task) := by
  have hline : s.scenes = true → Lineage (fun c e => Effect.onContent e c) s.log.effects
      (s.log.scenes ++ (queuedScenes [task] ++ queuedScenes queue) ++ [s.world.content]) := by
    intro hon
    have := h.line hon
    rwa [sceneLine, hq, ← List.singleton_append, queuedScenes_append] at this
  cases task with
  | createAccount t username password => exact ⟨hline, h.off⟩
  | verifyLogin t username password => exact ⟨hline, h.off⟩
  | savePlayer st => exact ⟨hline, h.off⟩
  | saveScene snap =>
    refine ⟨fun hon => ?_, fun hoff => ?_⟩
    · have hline := hline hon
      simp only [runTask, SceneStore.upsert, sceneLine] at hon ⊢
      rcases o.writeOk with _ | _
      · refine hline.sublist ?_
        simp [hon, queuedScenes, Task.scene?]
      · simpa [hon, queuedScenes, Task.scene?] using hline
    · simp only [runTask, SceneStore.upsert] at hoff ⊢
      simpa [hoff] using h.off hoff

/-! ## The players' lineages -/

/-- Each player's lineage, where the players' store has a client. -/
structure PlayersInherited (s : GameService F D) : Prop where
  line : s.players = true → ∀ p, NulFree p →
    Lineage (fun v e => Effect.onInventory e v) (effectsOf p s.log.effects) (s.playerLine p)
  stored : s.players = true → ∀ p, NulFree p →
    (s.log.saves p).getLast? = (s.db.players p).map fun doc => (PlayerStore.parse p doc).inv
  loaded : ∀ t result saved, .loggedIn t result saved ∈ s.callbacks → result.ok = true →
    s.players = true → lastSave (s.log.posted.drop t.posted) result.playerId = none →
    ∀ v, (s.log.saves result.playerId).getLast? = some v → saved.inv = v
  off : ∀ p, s.players = false ∨ ¬ NulFree p → (s.log.saves p).length ≤ 1

omit [Platform F] in
/-- What was posted since has no save, if what was posted since and then has none. -/
theorem lastSave_drop_append {l l' : List (Task F)} {n : ℕ} {p : String}
    (h : lastSave ((l ++ l').drop n) p = none) : lastSave (l.drop n) p = none := by
  rw [List.drop_append, lastSave_append, Option.or_eq_none_iff] at h
  exact h.2

/-- Tasks are posted and players change, each with his line. -/
theorem playersInherited_posted {tasks : List (Task F)} (h : PlayersInherited s)
    (hstores : SameStores s s') (hcallbacks : s'.callbacks = s.callbacks)
    (hposted : s'.log.posted = s.log.posted ++ tasks)
    (hline : s.players = true → ∀ p, NulFree p →
      Lineage (fun v e => Effect.onInventory e v) (effectsOf p s'.log.effects) (s'.playerLine p)) :
    PlayersInherited s' := by
  refine ⟨fun hon => ?_, fun hon p hp => ?_, fun t result saved ht hok hon hnone => ?_,
    fun p hp => ?_⟩
  · rw [hstores.players] at hon
    exact hline hon
  · rw [hstores.players] at hon
    rw [hstores.storedSaves, hstores.db]
    exact h.stored hon p hp
  · rw [hcallbacks] at ht
    rw [hstores.players] at hon
    rw [hposted] at hnone
    rw [hstores.storedSaves]
    exact h.loaded t result saved ht hok hon (lastSave_drop_append hnone)
  · rw [hstores.players] at hp
    rw [hstores.storedSaves]
    exact h.off p hp

theorem playersInherited_effect {rid : ℕ} {conn : Connection} {now : ℤ} {request : Request F}
    {k : Call F} {e : Effect F} (h : PlayersInherited s) (hf : Framed s rid conn now request s')
    (hk : s.frameCall conn now request = some k) (he : k.effect s.world = some e) :
    PlayersInherited s' := by
  have hperformed := Call.effect_performed s.world he
  have hworld : s'.world = (k.run s.world).world := by rw [hf.world, hk]; rfl
  have heffects : s'.log.effects = s.log.effects ++ [e] := by
    rw [hf.effects, hk, Option.elim_some, he]; rfl
  have hqueue : ∀ p, queuedSaves p s'.queue = queuedSaves p s.queue ++
      if p = e.player then (s'.world.inventory p).toList else [] := by
    intro p
    rw [hf.queue, frameTasks_of_some hk, callTasks, he, ← hworld, queuedSaves_append,
      Option.elim_some, queuedSaves_effectTasks]
  refine playersInherited_posted h hf.stores hf.callbacks hf.posted fun hon p hp => ?_
  have hline := h.line hon p hp
  rw [playerLine, hqueue, hf.stores.storedSaves, heffects, effectsOf_append]
  by_cases hpe : p = e.player
  · obtain ⟨v, hv, -⟩ := hperformed.enabled
    have hv' : s'.world.inventory p = some (e.onInventory v) := by
      rw [hworld, hperformed.inventory_eq, if_pos hpe, hpe, hv]
      rfl
    have hown : effectsOf p [e] = [e] := by simp [effectsOf, hpe]
    rw [playerLine, hpe, hv, Option.toList_some, ← hpe] at hline
    have hpush := (hline.push e).repeated
    rw [if_pos hpe, hv', hown, Option.toList_some]
    simpa only [List.append_assoc] using hpush
  · have hv' : s'.world.inventory p = s.world.inventory p := by
      rw [hworld, hperformed.inventory_eq, if_neg hpe]
    have hother : effectsOf p [e] = [] := by simp [effectsOf, Ne.symm hpe]
    rw [if_neg hpe, hv', hother, List.append_nil, List.append_nil]
    exact hline

theorem playersInherited_framed {rid : ℕ} {conn : Connection} {now : ℤ} {request : Request F}
    (h : PlayersInherited s) (hf : Framed s rid conn now request s') : PlayersInherited s' := by
  rcases hk : s.frameCall conn now request with _ | k
  · refine playersInherited_posted h hf.stores hf.callbacks hf.posted fun hon p hp => ?_
    have hqueue : queuedSaves p s'.queue = queuedSaves p s.queue := by
      rw [hf.queue, queuedSaves_append]
      rcases frameTasks_of_none rid hk with htasks | ⟨u, w, htasks⟩ | ⟨u, w, htasks⟩ <;>
        rw [htasks] <;> exact List.append_nil _
    rw [playerLine, hqueue, hf.stores.storedSaves, hf.effects, hf.world, hk, Option.elim_none,
      Option.elim_none, List.append_nil]
    exact h.line hon p hp
  rcases he : k.effect s.world with _ | e
  · refine playersInherited_posted h hf.stores hf.callbacks hf.posted fun hon p hp => ?_
    have hinv : s'.world.inventory p = s.world.inventory p := by
      rw [hf.world, hk, Option.elim_some, Call.run_inventory, (frameCall_some hk).2, he]
    have htasks : s.frameTasks rid conn now request = [] := by
      rw [frameTasks_of_some hk, callTasks, he]; rfl
    rw [playerLine, hf.queue, htasks, List.append_nil, hf.stores.storedSaves, hinv, hf.effects, hk,
      Option.elim_some, he, Option.toList_none, List.append_nil]
    exact h.line hon p hp
  · exact playersInherited_effect h hf hk he

omit [Platform F] in
/-- Removing a player moves what the world has of him into the queue. -/
theorem playerLine_removed {q : String} (hr : Removed s q s') (p : String) :
    s'.playerLine p = s.playerLine p := by
  rw [playerLine, playerLine, hr.queue, queuedSaves_append, queuedSaves_playerSave, hr.world,
    (s.world.leave_spec q).2.1, hr.same.stores.storedSaves]
  split_ifs <;> simp

theorem playersInherited_removed {q : String} (h : PlayersInherited s) (hr : Removed s q s') :
    PlayersInherited s' := by
  refine playersInherited_posted h hr.same.stores hr.same.callbacks hr.posted fun hon p hp => ?_
  rw [playerLine_removed hr, hr.same.effects]
  exact h.line hon p hp

/-- A player enters with what was stored of him last, nothing of him being queued. -/
theorem playersInherited_joined {conn : Connection} {q : String} {saved : PlayerState F} {now : ℤ}
    {rid : ℕ} (h : PlayersInherited s) (hj : Joined s conn q saved now rid s')
    (hqueue : s.players = true → queuedSaves q s.queue = [])
    (hlast : s.players = true → ∀ v, (s.log.saves q).getLast? = some v → saved.inv = v) :
    PlayersInherited s' := by
  have hposted : s'.log.posted = s.log.posted ++ [] := by rw [hj.posted, List.append_nil]
  refine playersInherited_posted h hj.same.stores hj.same.callbacks hposted fun hon p hp => ?_
  have hline := h.line hon p hp
  rw [playerLine, hj.queue, hj.same.stores.storedSaves, hj.same.effects, hj.world,
    (s.world.enterWithState_spec q q now saved.x saved.y saved.z saved.yaw saved.inv).inventory_eq]
  split_ifs with hpq
  · subst hpq
    rw [hqueue hon, List.append_nil, Option.toList_some]
    have hstored : Lineage (fun v e => Effect.onInventory e v) (effectsOf p s.log.effects)
        (s.log.saves p) := hline.sublist (by simp [playerLine])
    rcases List.eq_nil_or_concat (s.log.saves p) with hnil | ⟨older, v, hv⟩
    · rw [hnil]
      exact Lineage.singleton _
    · rw [List.concat_eq_append] at hv
      rw [hlast hon v (by rw [hv, List.getLast?_concat]), hv]
      rw [hv] at hstored
      exact hstored.repeated
  · exact hline

/-- The player's save at the head of the queue is written. -/
theorem playersInherited_save {o : DbOutcome} {st : PlayerState F} {queue : List (Task F)}
    (hpos : Positions s) (h : PlayersInherited s) (hq : s.queue = .savePlayer st :: queue)
    (hst : NulFree st.playerId) (hwritten : (s.players && o.writeOk) = true)
    (hline : s.players = true → ∀ p, NulFree p → Lineage (fun v e => Effect.onInventory e v)
      (effectsOf p s.log.effects) (s.log.saves p ++
        (queuedSaves p [.savePlayer st] ++ queuedSaves p queue) ++
          (s.world.inventory p).toList)) :
    PlayersInherited (runTask { s with queue } o (.savePlayer st)) := by
  have hon : s.players = true := (Bool.and_eq_true_iff.1 hwritten).1
  have hsaves : ∀ p, (runTask { s with queue } o (.savePlayer st)).log.saves p =
      s.log.saves p ++ queuedSaves p [.savePlayer st] := by
    intro p
    simp only [runTask, PlayerStore.upsert, hwritten, ↓reduceIte, Bson.cstr_of_nulFree hst]
    by_cases hp : p = st.playerId
    · subst hp
      simp [queuedSaves, Task.save?]
    · simp [Function.update_of_ne hp, queuedSaves, Task.save?, Ne.symm hp]
  have hdocs : ∀ p, (runTask { s with queue } o (.savePlayer st)).db.players p =
      if p = st.playerId then some (PlayerStore.document st o.ms) else s.db.players p := by
    intro p
    simp only [runTask, PlayerStore.upsert, hwritten, ↓reduceIte, Bson.cstr_of_nulFree hst,
      Function.update_apply]
  have hone : ∀ p, queuedSaves p [Task.savePlayer st] =
      if p = st.playerId then [st.inv] else [] := by
    intro p
    by_cases hp : p = st.playerId
    · subst hp
      simp [queuedSaves, Task.save?]
    · simp [queuedSaves, Task.save?, hp, Ne.symm hp]
  refine ⟨fun _ p hp => ?_, fun _ p hp => ?_, fun t result saved ht hok _ hnone v hv => ?_,
    fun p hp => ?_⟩
  · rw [playerLine, hsaves, List.append_assoc (s.log.saves p)]
    exact hline hon p hp
  · rw [hsaves, hdocs, hone]
    split_ifs with hpst
    · rw [List.getLast?_concat, Option.map_some, PlayerStore.inv_parse_document]
    · rw [List.append_nil]
      exact h.stored hon p hp
  · have hmem : Task.savePlayer st ∈ s.log.posted.drop t.posted :=
      mem_posted hpos ht (hq ▸ List.mem_cons_self)
    have hne : st.playerId ≠ result.playerId := ne_of_lastSave hnone hmem
    rw [hsaves, hone, if_neg (Ne.symm hne), List.append_nil] at hv
    exact h.loaded t result saved ht hok hon hnone v hv
  · rcases hp with hoff | hp
    · exact absurd hon (by rw [show s.players = false from hoff]; decide)
    · have hne : p ≠ st.playerId := by
        rintro rfl
        exact hp hst
      rw [hsaves, hone, if_neg hne, List.append_nil]
      exact h.off p (.inr hp)

theorem playersInherited_work {o : DbOutcome} {task : Task F} {queue : List (Task F)}
    (hn : Named s) (hpos : Positions s) (h : PlayersInherited s) (hq : s.queue = task :: queue)
    (hreads : KnownReads s (.work o)) : PlayersInherited (runTask { s with queue } o task) := by
  have hline : s.players = true → ∀ p, NulFree p → Lineage (fun v e => Effect.onInventory e v)
      (effectsOf p s.log.effects) (s.log.saves p ++ (queuedSaves p [task] ++ queuedSaves p queue) ++
        (s.world.inventory p).toList) := by
    intro hon p hp
    have := h.line hon p hp
    rwa [playerLine, hq, ← List.singleton_append, queuedSaves_append] at this
  cases task with
  | createAccount t username password =>
    refine ⟨hline, h.stored, fun u result saved hu => ?_, h.off⟩
    rcases List.mem_append.1 hu with hu | hu
    · exact h.loaded u result saved hu
    · simp at hu
  | verifyLogin t username password =>
    refine ⟨hline, h.stored, fun u result saved hu hok hon hnone v hv => ?_, h.off⟩
    rcases List.mem_append.1 hu with hu | hu
    · exact h.loaded u result saved hu hok hon hnone v hv
    obtain ⟨rfl, rfl, rfl⟩ := by simpa using hu
    have hp := AccountStore.nulFree_verified hok
    have hdoc := (h.stored hon _ hp).symm.trans hv
    obtain ⟨doc, hfound, rfl⟩ := Option.map_eq_some_iff.1 hdoc
    simp only [KnownReads, hq] at hreads
    have hload : o.loadOk = true := hreads hok hon (by rw [hfound]; simp)
    rw [if_pos hok, loadPlayer_inv]
    simp only [PlayerStore.load, Bson.cstr_of_nulFree hp]
    rw [show s.players = true from hon, hload, hfound]
    rfl
  | saveScene snap => exact ⟨hline, h.stored, h.loaded, h.off⟩
  | savePlayer st =>
    have hst : NulFree st.playerId := hn.queue st (hq ▸ List.mem_cons_self)
    rcases hwritten : (s.players && o.writeOk) with _ | _
    · -- nothing is written, and the save is gone
      have hsame : runTask { s with queue } o (.savePlayer st) = { s with queue } := by
        simp [runTask, PlayerStore.upsert, hwritten]
      rw [hsame]
      refine ⟨fun hon p hp => (hline hon p hp).sublist ?_, h.stored, h.loaded, h.off⟩
      exact ((List.Sublist.refl _).append (List.sublist_append_right _ _)).append (.refl _)
    · exact playersInherited_save hpos h hq hst hwritten hline

/-! ## Every step -/

/-- Both lineages, and where the tickets are in the queue. -/
structure Inherited (s : GameService F D) : Prop where
  scene : SceneInherited s
  players : PlayersInherited s
  positions : Positions s

theorem inherited_removed {q : String} (h : Inherited s) (hr : Removed s q s') :
    Inherited s' where
  scene := by
    refine sceneInherited_same h.scene hr.same.stores hr.same.effects (content_removed hr) ?_
    rw [hr.queue, queuedScenes_append, queuedScenes_playerSave, List.append_nil]
  players := playersInherited_removed h.players hr
  positions := positions_removed h.positions hr

/-- A login that completes before any later save of its player. -/
theorem inherited_joined {t : Ticket} {result : AccountResult} {saved : PlayerState F}
    {callbacks : List (Callback F)} {conn : Connection} {now : ℤ} (h : Inherited s)
    (hq : s.callbacks = .loggedIn t result saved :: callbacks) (hok : result.ok = true)
    (hnone : s.players = true →
      lastSave (s.log.posted.drop t.posted) result.playerId = none)
    (hj : Joined (switchAccount { s with callbacks } t.fd result.playerId) conn result.playerId
      saved now t.requestId s') (hpos : Positions s') : Inherited s' := by
  have hhead : Callback.loggedIn t result saved ∈ s.callbacks := hq ▸ List.mem_cons_self
  have hsaves : s.players = true → queuedSaves result.playerId s.queue = [] := fun hon => by
    refine queuedSaves_of_lastSave (Option.eq_none_iff_forall_not_mem.2 fun st hst => ?_)
    obtain ⟨task, htask, hsave⟩ := List.mem_filterMap.1 (List.mem_of_getLast? hst)
    cases task with
    | savePlayer st' =>
      have hne := ne_of_lastSave (hnone hon) (mem_posted h.positions hhead htask)
      rw [Task.save?, if_neg hne] at hsave
      simp at hsave
    | _ => simp [Task.save?] at hsave
  have hlast : s.players = true → ∀ v, (s.log.saves result.playerId).getLast? = some v →
      saved.inv = v := fun hon =>
    h.players.loaded t result saved hhead hok hon (hnone hon)
  have htaken : Inherited { s with callbacks } := by
    refine ⟨⟨h.scene.line, h.scene.off⟩, ⟨h.players.line, h.players.stored,
      fun u r saved hu => h.players.loaded u r saved (hq ▸ List.mem_cons_of_mem _ hu),
      h.players.off⟩, h.positions.suffix, h.positions.queued, fun callback hcallback =>
        h.positions.pending callback (hq ▸ List.mem_cons_of_mem _ hcallback)⟩
  have hscene : ∀ s₁ : GameService F D, Inherited s₁ →
      Joined s₁ conn result.playerId saved now t.requestId s' → SceneInherited s' := by
    intro s₁ h₁ hj
    refine sceneInherited_same h₁.scene hj.same.stores hj.same.effects (content_joined hj) ?_
    rw [hj.queue]
  rcases switchAccount_cases { s with callbacks } t.fd result.playerId with ⟨heq, -⟩ |
    ⟨old, -, hne, hr, -⟩
  · rw [heq] at hj
    exact ⟨hscene _ htaken hj, playersInherited_joined htaken.players hj hsaves hlast, hpos⟩
  · have hremoved := inherited_removed htaken hr
    refine ⟨hscene _ hremoved hj, playersInherited_joined hremoved.players hj ?_ ?_, hpos⟩
    · rw [hr.same.stores.players, hr.queue]
      intro hon
      rw [queuedSaves_append, queuedSaves_playerSave, if_neg (Ne.symm hne), List.append_nil]
      exact hsaves hon
    · rw [hr.same.stores.players, hr.same.stores.storedSaves]
      exact hlast

variable [Lobby D]

theorem inherited_step {e : Event F} (hn : Named s) (hkeyed : s'.world.content.Keyed)
    (h : Inherited s) (hreads : KnownReads s e) (he : step s e = some s') : Inherited s' := by
  have hpos : Positions s' := positions_step h.positions he
  cases e with
  | accept fd =>
    obtain ⟨-, rfl⟩ := Step.accept he
    exact ⟨⟨h.scene.line, h.scene.off⟩,
      ⟨h.players.line, h.players.stored, h.players.loaded, h.players.off⟩, hpos⟩
  | frame fd rid request now =>
    obtain ⟨conn, -, hf⟩ := Step.frame he
    exact ⟨sceneInherited_framed h.scene hf hkeyed, playersInherited_framed h.players hf, hpos⟩
  | close fd now =>
    obtain ⟨conn, s₁, -, -, rfl, ⟨-, rfl⟩ | ⟨p, -, hr⟩⟩ := Step.close_cases he
    · exact ⟨⟨h.scene.line, h.scene.off⟩,
        ⟨h.players.line, h.players.stored, h.players.loaded, h.players.off⟩, hpos⟩
    · have h₁ := inherited_removed h hr
      exact ⟨⟨h₁.scene.line, h₁.scene.off⟩,
        ⟨h₁.players.line, h₁.players.stored, h₁.players.loaded, h₁.players.off⟩, hpos⟩
  | work o =>
    obtain ⟨task, queue, hq, rfl⟩ := Step.work he
    exact ⟨sceneInherited_work h.scene hq,
      playersInherited_work hn h.positions h.players hq hreads, hpos⟩
  | loop now =>
    obtain ⟨callback, callbacks, hq, ⟨rest, metrics, rfl, -⟩ |
      ⟨t, result, saved, conn, rfl, hok, hconn, hj⟩⟩ := Step.loop_cases he
    · exact ⟨⟨h.scene.line, h.scene.off⟩, ⟨h.players.line, h.players.stored,
        fun u r saved hu => h.players.loaded u r saved (hq ▸ List.mem_cons_of_mem _ hu),
        h.players.off⟩, hpos⟩
    · simp only [KnownReads, hq] at hreads
      exact inherited_joined h hq hok (hreads hok (by simp [hconn])) hj hpos

omit [Lobby D] in
/-- The scene at the start and what has been stored of it: the scene read, or the one seeded over
no document or without a client. -/
theorem sceneLine_start (lobby : D) (db : Database F) (accounts players scenes : Bool)
    (o : DbOutcome) (hread : SceneRead db scenes o) :
    let s := start lobby db accounts players scenes o
    (scenes = true → s.log.scenes = [] ∨ s.log.scenes = [s.world.content]) ∧
      (scenes = false → s.log.scenes.length ≤ 1) := by
  have hname : cstr "default" = "default" := by decide
  have hseeded : ((WorldService.fresh.seedDefaultScene : WorldService F).exportScene
      "default").content = (WorldService.fresh.seedDefaultScene : WorldService F).content :=
    WorldService.content_exportScene _ WorldService.storable_seeded.toKeyed _
  unfold start loadOrSeedScene
  dsimp only
  rcases hdoc : db.scenes "default" with _ | doc
  · have hload : SceneStore.load scenes o.readOk db.scenes "default" = {} := by
      simp [SceneStore.load, hname, hdoc]
    rw [hload, if_neg (by simp)]
    simp only [SceneStore.upsert, Option.map_none, Option.toList_none, List.nil_append, hseeded]
    rcases scenes && o.writeOk with _ | _ <;> simp
  · refine ⟨fun hon => ?_, fun hoff => ?_⟩
    · obtain ⟨hok, hnonempty⟩ := hread hon doc hdoc
      have hload : SceneStore.load scenes o.readOk db.scenes "default" =
          SceneStore.parse "default" doc := by
        simp [SceneStore.load, hname, hdoc, hon, hok]
      rw [hload, if_pos ⟨rfl, hnonempty⟩]
      exact .inr rfl
    · have hload : SceneStore.load scenes o.readOk db.scenes "default" = {} := by
        simp [SceneStore.load, hoff]
      rw [hload, if_neg (by simp)]
      simp [SceneStore.upsert, hoff]

omit [Lobby D] in
theorem inherited_start (lobby : D) (db : Database F) (accounts players scenes : Bool)
    (o : DbOutcome) (hread : SceneRead db scenes o) :
    Inherited (start lobby db accounts players scenes o) := by
  obtain ⟨-, -, -, -, hqueue, hcallbacks, -, hworld, -, -, heffects, hposted, -⟩ :=
    start_eq lobby db accounts players scenes o
  obtain ⟨hon, hoff⟩ := sceneLine_start lobby db accounts players scenes o hread
  have hclients : (start lobby db accounts players scenes o).scenes = scenes ∧
      (start lobby db accounts players scenes o).db.players = db.players ∧
      ∀ p, (start lobby db accounts players scenes o).log.saves p =
        ((db.players p).map fun doc => (PlayerStore.parse p doc).inv).toList := by
    unfold start loadOrSeedScene
    dsimp only
    split <;> exact ⟨rfl, rfl, fun _ => rfl⟩
  obtain ⟨hscenes, hplayers, hsaves⟩ := hclients
  refine ⟨⟨fun h => ?_, fun h => ?_⟩, ⟨fun _ p _ => ?_, fun _ p _ => ?_, ?_, fun p _ => ?_⟩,
    ⟨⟨[], ?_⟩, ?_, ?_⟩⟩
  · rw [sceneLine, hqueue]
    rcases hon (hscenes.symm.trans h) with hnil | hone
    · rw [hnil]
      exact Lineage.singleton _
    · rw [hone]
      have hline : Lineage (fun c e => Effect.onContent e c)
          (start lobby db accounts players scenes o).log.effects
          ([] ++ [(start lobby db accounts players scenes o).world.content]) :=
        Lineage.singleton _
      exact hline.repeated
  · exact hoff (hscenes.symm.trans h)
  · rw [playerLine, hqueue, hworld, hsaves]
    rcases db.players p with _ | doc
    · exact (Lineage.singleton (S := Inventory) {}).sublist (List.nil_sublist _)
    · exact Lineage.singleton _
  · rw [hsaves, hplayers]
    rcases db.players p with _ | doc <;> rfl
  · simp [hcallbacks]
  · rw [hsaves]
    rcases db.players p with _ | doc <;> simp
  · rw [hqueue, hposted]
    rfl
  · simp [hqueue]
  · simp [hcallbacks]

/-- In a run whose reads of what is stored succeed, and whose logins complete before any later save
of their player, a stored document is only replaced by one that derives from it. -/
theorem stored_inherited {lobby : D} {db : Database F} {accounts players scenes : Bool}
    {o : DbOutcome} (hread : SceneRead db scenes o)
    (h : Reach step KnownReads (start lobby db accounts players scenes o) s) :
    s.log.scenes.IsChain (Derived (fun c e => Effect.onContent e c) s.log.effects) ∧
      ∀ p, (s.log.saves p).IsChain
        (Derived (fun v e => Effect.onInventory e v) (effectsOf p s.log.effects)) := by
  have hinv : Inherited s := by
    refine h.invariant_of (fun s hs => hs) (inherited_start lobby db accounts players scenes o hread)
      fun s e s' hs hinv hreads he => ?_
    have hs' := hs.next hreads he
    exact inherited_step (named_reach ⟨lobby, db, accounts, players, scenes, o, hs⟩)
      (storable_reach ⟨lobby, db, accounts, players, scenes, o, hs'⟩).toKeyed hinv hreads he
  have hshort : ∀ {S : Type} (R : S → S → Prop) (l : List S), l.length ≤ 1 → l.IsChain R := by
    intro S R l hl
    match l with
    | [] => exact .nil
    | [a] => exact .singleton a
    | a :: b :: l => simp at hl
  refine ⟨?_, fun p => ?_⟩
  · rcases hon : s.scenes with _ | _
    · exact hshort _ _ (hinv.scene.off hon)
    · refine ((hinv.scene.line hon).sublist ?_).derived
      rw [sceneLine, List.append_assoc]
      exact List.sublist_append_left _ _
  · by_cases hp : s.players = true ∧ NulFree p
    · refine ((hinv.players.line hp.1 p hp.2).sublist ?_).derived
      rw [playerLine, List.append_assoc]
      exact List.sublist_append_left _ _
    · refine hshort _ _ (hinv.players.off p ?_)
      rcases hon : s.players with _ | _
      · exact .inl rfl
      · exact .inr fun hnul => hp ⟨hon, hnul⟩

/-- A database with a scene of one tree and a player with wood. -/
def grove : Database ℚ :=
  { twoAccounts with
    players := fun name => if name = "ann" then some (PlayerStore.document
      ⟨"ann", 0, 0, 0, 0, ⟨100, 3, 12, 0, 0⟩, true⟩ 0) else none
    scenes := fun id => if id = "default" then some (SceneStore.document
      { resources := [⟨"oak", 1, 1, 0, 0, 5⟩], nextBuildingId := 4 } 0) else none }

theorem sceneRead_grove : SceneRead grove true {} := by
  intro _ doc hdoc
  have hsome : (grove.scenes "default").map
      (fun doc => (SceneStore.parse "default" doc).resources.length) = some 1 := by
    decide +kernel
  rw [hdoc, Option.map_some, Option.some.injEq] at hsome
  exact ⟨rfl, .inl (List.ne_nil_of_length_pos (by omega))⟩

/-- A player who crafts and gathers, all of it saved. -/
theorem stored_inherited_grove : ∃ s : GameService ℚ Unit,
    Reach step KnownReads (start () grove true true true {}) s ∧
    s.log.saves "ann" = [⟨100, 3, 12, 0, 0⟩, ⟨98, 3, 12, 0, 1⟩, ⟨99, 3, 12, 0, 1⟩] ∧
    s.log.scenes.length = 2 ∧
    s.log.scenes.IsChain (Derived (fun c e => Effect.onContent e c) s.log.effects) ∧
      ∀ p, (s.log.saves p).IsChain
        (Derived (fun v e => Effect.onInventory e v) (effectsOf p s.log.effects)) := by
  have hplay : (play KnownReads grove (List.flatten [[.accept 5], loginAnn 5,
      [.frame 5 2 (.craft (some 1)) 0, .frame 5 3 (.gather (some "oak")) 0, .work {}, .work {},
        .work {}]])).map (fun s => (s.log.saves "ann", s.log.scenes.length)) =
      some ([⟨100, 3, 12, 0, 0⟩, ⟨98, 3, 12, 0, 1⟩, ⟨99, 3, 12, 0, 1⟩], 2) := by
    decide +kernel
  obtain ⟨s, hs, hstored⟩ := Option.map_eq_some_iff.1 hplay
  rw [Prod.mk.injEq] at hstored
  have hreach : Reach step KnownReads (start () grove true true true {}) s :=
    Reach.of_foldlM _ hs
  exact ⟨s, hreach, hstored.1, hstored.2, stored_inherited sceneRead_grove hreach⟩

/-- The default scene stored over a scene that could not be read, and a player made anew over one
who could not be loaded. -/
theorem stored_inherited_fails :
    (∃ s : GameService ℚ Unit, Running anyEvent s ∧ s.log.scenes.length = 2 ∧
      ¬ s.log.scenes.IsChain (Derived (fun c e => Effect.onContent e c) s.log.effects)) ∧
    ∃ s : GameService ℚ Unit, Running anyEvent s ∧
      s.log.saves "ann" = [⟨100, 3, 12, 0, 0⟩, ⟨4, 3, 12, 0, 1⟩] ∧
      ¬ (s.log.saves "ann").IsChain
        (Derived (fun v e => Effect.onInventory e v) (effectsOf "ann" s.log.effects)) := by
  constructor
  · have hnumbers : (start () grove true true true { readOk := false }).log.scenes.map
        Content.nextBuildingId = [4, 1] := by
      decide +kernel
    have heffects : (start () grove true true true { readOk := false }).log.effects = [] := by
      rfl
    refine ⟨start () grove true true true { readOk := false },
      ⟨(), grove, true, true, true, _, .start⟩, ?_, fun hchain => ?_⟩
    · have := congrArg List.length hnumbers
      simpa using this
    · obtain ⟨c, scenes, hscenes, hc, hrest⟩ := List.map_eq_cons_iff.1 hnumbers
      obtain ⟨c', rfl, hc'⟩ := List.map_eq_singleton_iff.1 hrest
      rw [hscenes, heffects] at hchain
      obtain ⟨l, hl, rfl⟩ := (List.isChain_cons_cons.1 hchain).1
      rw [List.sublist_nil.1 hl] at hc'
      simp only [List.foldl_nil] at hc'
      omega
  · have hplay : (play anyEvent grove [.accept 5,
        .frame 5 1 (.login (some ("ann", "secret"))) 0, .work { loadOk := false }, .loop 0,
        .frame 5 2 (.craft (some 1)) 0, .work {}]).map
          (fun s => (s.log.saves "ann", (effectsOf "ann" s.log.effects).length,
            (⟨100, 3, 12, 0, 0⟩ : Inventory).replay (effectsOf "ann" s.log.effects))) =
        some ([⟨100, 3, 12, 0, 0⟩, ⟨4, 3, 12, 0, 1⟩], 1, ⟨98, 3, 12, 0, 1⟩) := by
      decide +kernel
    obtain ⟨s, hs, hstored⟩ := Option.map_eq_some_iff.1 hplay
    simp only [Prod.mk.injEq] at hstored
    obtain ⟨hsaves, hlength, hreplay⟩ := hstored
    refine ⟨s, running_of_play hs, hsaves, fun hchain => ?_⟩
    rw [hsaves] at hchain
    obtain ⟨l, hl, heq⟩ := (List.isChain_cons_cons.1 hchain).1
    have hle := hl.length_le
    rcases Nat.eq_zero_or_pos l.length with hzero | hpos
    · rw [List.length_eq_zero_iff.1 hzero] at heq
      exact absurd heq (by decide)
    · have hall := hl.eq_of_length (by omega)
      rw [hall] at heq
      exact absurd (heq.trans hreplay) (by decide)

end GameService

end TinRpc
