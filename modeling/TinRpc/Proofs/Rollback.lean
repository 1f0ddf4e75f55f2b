import TinRpc.Proofs.Ledger
import TinRpc.Proofs.Names
import TinRpc.Proofs.WriteThrough

/-!
# Logins and what was done meanwhile

A login task reads the player's document, and its completion puts what it read over the player,
whatever he has done since. So his counters are what he had stored at the start, replayed with all
his operations, in every run in which what he did between the request and its completion comes to
nothing (`no_rollback`); and one craft in between is lost (`no_rollback_fails`).
-/

namespace TinRpc

open Transition
open Bson (NulFree)

variable {F D : Type}

/-- The operations of a player. -/
def effectsOf (p : String) (l : List (Effect F)) : List (Effect F) := l.filter fun e => e.player = p

def Effect.IsCraft : Effect F → Prop
  | .crafted .. => True
  | _ => False

instance : DecidablePred (Effect.IsCraft (F := F)) := fun e =>
  match e with
  | .crafted .. => .isTrue trivial
  | .gathered .. | .built .. | .edited .. => .isFalse not_false

/-- Operations that come to nothing: of each material as much is credited as charged, and no tool
is crafted. -/
def Neutral (l : List (Effect F)) : Prop :=
  (∀ m, (l.map (·.credit m)).sum = (l.map (·.cost m)).sum) ∧ ∀ e ∈ l, ¬ e.IsCraft

instance (l : List (Effect F)) : Decidable (Neutral l) := inferInstanceAs (Decidable (_ ∧ _))

theorem Inventory.ext_count {v v' : Inventory} (hcount : ∀ m, v.count m = v'.count m)
    (htool : v.toolLevel = v'.toolLevel) : v = v' := by
  obtain ⟨wood, stone, dirt, copper, tool⟩ := v
  obtain ⟨wood', stone', dirt', copper', tool'⟩ := v'
  have hwood := hcount .wood
  have hstone := hcount .stone
  have hdirt := hcount .dirt
  have hcopper := hcount .copper
  simp only [Inventory.count] at hwood hstone hdirt hcopper htool
  subst hwood hstone hdirt hcopper htool
  rfl

theorem toolLevel_replay : ∀ (l : List (Effect F)) (v : Inventory), (∀ e ∈ l, ¬ e.IsCraft) →
    (v.replay l).toolLevel = v.toolLevel
  | [], _, _ => rfl
  | e :: l, v, h => by
    have htail := toolLevel_replay l (e.onInventory v) fun e he => h e (List.mem_cons_of_mem _ he)
    have hhead := h e List.mem_cons_self
    refine htail.trans ?_
    cases e with
    | crafted p recipe => exact absurd trivial hhead
    | _ => rfl

theorem replay_neutral {l : List (Effect F)} (h : Neutral l) (v : Inventory) : v.replay l = v := by
  refine Inventory.ext_count (fun m => ?_) (toolLevel_replay l v h.2)
  have hm := h.1 m
  rw [Inventory.count_replay]
  omega

theorem effectsOf_append (p : String) (l l' : List (Effect F)) :
    effectsOf p (l ++ l') = effectsOf p l ++ effectsOf p l' := List.filter_append ..

/-- What a player had stored, replayed with his operations. -/
def ledger (v : Inventory) (p : String) (l : List (Effect F)) : Inventory :=
  v.replay (effectsOf p l)

theorem ledger_append (v : Inventory) (p : String) (l l' : List (Effect F)) :
    ledger v p (l ++ l') = (ledger v p l).replay (effectsOf p l') := by
  unfold ledger
  rw [effectsOf_append, Inventory.replay_append]

theorem ledger_effect (v : Inventory) (p : String) (l : List (Effect F)) (e : Effect F) :
    ledger v p (l ++ [e]) = if p = e.player then e.onInventory (ledger v p l)
      else ledger v p l := by
  rw [ledger_append]
  by_cases h : p = e.player
  · simp [effectsOf, h, Inventory.replay]
  · simp [effectsOf, h, Ne.symm h]

namespace GameService

/-- The database answers: players are read and everything is written. -/
def Answering (_ : GameService F D) : Event F → Prop
  | .work o => o.loadOk = true ∧ o.writeOk = true
  | _ => True

/-- The database answers, and of what the player did since he sent a login nothing is left when it
completes. -/
def FreshLogin (s : GameService F D) (e : Event F) : Prop :=
  Answering s e ∧ match e with
    | .loop _ => match s.callbacks with
      | .loggedIn t result _ :: _ => result.ok = true → s.activeConns t.fd ≠ none →
        Neutral (effectsOf result.playerId (s.log.effects.drop t.done))
      | _ => True
    | _ => True

instance (s : GameService F D) (e : Event F) : Decidable (Answering s e) :=
  match e with
  | .work o => inferInstanceAs (Decidable (o.loadOk = true ∧ o.writeOk = true))
  | .accept _ | .frame .. | .close .. | .loop _ => .isTrue trivial

instance (s : GameService F D) (e : Event F) : Decidable (FreshLogin s e) :=
  match e with
  | .loop _ => by
    unfold FreshLogin
    exact match s.callbacks with
      | .loggedIn .. :: _ => inferInstanceAs (Decidable (_ ∧ (_ → _ → _)))
      | [] | .registered .. :: _ => inferInstanceAs (Decidable (_ ∧ True))
  | .accept _ | .frame .. | .close .. | .work _ => inferInstanceAs (Decidable (_ ∧ True))

/-- A player's document while the worker goes through its queue: at a login it says what the ledger
said when the request came, and in the end what the ledger says `now`. -/
def Settled (ledger : ℕ → Inventory) (now : Inventory) (p : String) :
    Inventory → List (Task F) → Prop
  | v, [] => v = now
  | v, .verifyLogin t _ _ :: tasks => v = ledger t.done ∧ Settled ledger now p v tasks
  | v, .savePlayer st :: tasks =>
    Settled ledger now p (if st.playerId = p then st.inv else v) tasks
  | v, .createAccount .. :: tasks => Settled ledger now p v tasks
  | v, .saveScene _ :: tasks => Settled ledger now p v tasks

theorem settled_append (l : ℕ → Inventory) (now : Inventory) (p : String) :
    ∀ (v : Inventory) (tasks tasks' : List (Task F)),
      Settled l now p v (tasks ++ tasks') ↔
        ∃ u, Settled l u p v tasks ∧ Settled l now p u tasks'
  | v, [], tasks' => by simp [Settled]
  | v, task :: tasks, tasks' => by
    have ih := fun v => settled_append l now p v tasks tasks'
    cases task with
    | verifyLogin t username password =>
      simp only [List.cons_append, Settled, ih]
      constructor
      · rintro ⟨hv, u, hu, hnow⟩
        exact ⟨u, ⟨hv, hu⟩, hnow⟩
      · rintro ⟨u, ⟨hv, hu⟩, hnow⟩
        exact ⟨hv, u, hu, hnow⟩
    | savePlayer st => exact ih _
    | createAccount t username password => exact ih _
    | saveScene snap => exact ih _

/-- Only the ledger at the logins in the queue matters. -/
theorem settled_congr {l l' : ℕ → Inventory} {now : Inventory} {p : String} :
    ∀ (v : Inventory) (tasks : List (Task F)),
      (∀ task ∈ tasks, ∀ t, task.ticket = some t → l' t.done = l t.done) →
      Settled l now p v tasks → Settled l' now p v tasks
  | v, [], _, h => h
  | v, task :: tasks, heq, h => by
    have ih : ∀ v, Settled l now p v tasks → Settled l' now p v tasks := fun v =>
      settled_congr v tasks fun task htask => heq task (List.mem_cons_of_mem _ htask)
    cases task with
    | verifyLogin t username password =>
      have ht : l' t.done = l t.done := heq _ List.mem_cons_self t rfl
      obtain ⟨hv, htasks⟩ := h
      exact ⟨by rw [ht]; exact hv, ih v htasks⟩
    | savePlayer st => exact ih _ h
    | createAccount t username password => exact ih _ h
    | saveScene snap => exact ih _ h

/-- Tasks without a login leave in the document the last save posted. -/
theorem settled_saves (l : ℕ → Inventory) (now : Inventory) (p : String) :
    ∀ (v : Inventory) (tasks : List (Task F)),
      (∀ task ∈ tasks, task.ticket = none) →
      (((lastSave tasks p).map PlayerState.inv).getD v = now ↔ Settled l now p v tasks)
  | v, [], _ => Iff.rfl
  | v, task :: tasks, hno => by
    have ih := fun v => settled_saves l now p v tasks
      fun task htask => hno task (List.mem_cons_of_mem _ htask)
    have hcons : lastSave (task :: tasks) p = (lastSave tasks p).or (task.save? p) := by
      rw [show task :: tasks = [task] ++ tasks from rfl, lastSave_append]
      congr 1
      unfold lastSave
      rcases hsave : task.save? p with _ | st <;> simp [hsave]
    rw [hcons]
    cases task with
    | verifyLogin t username password => simp [Task.ticket] at hno
    | createAccount t username password => simp [Task.ticket] at hno
    | saveScene snap => simpa [Settled, Task.save?] using ih v
    | savePlayer st =>
      simp only [Settled, Task.save?, ← ih]
      rcases lastSave tasks p with _ | st'
      · by_cases hst : st.playerId = p <;> simp [hst]
      · simp

/-! ## The ledger kept -/

variable [Platform F]

/-- In the world, in the queue and in the callbacks a player's counters are those of the ledger of
their time. -/
structure Accounted (v₀ : String → Inventory) (s : GameService F D) : Prop where
  client : s.players = true
  tickets : ∀ t, s.Holds t → t.done ≤ s.log.effects.length
  world : ∀ p v, s.world.inventory p = some v → v = ledger (v₀ p) p s.log.effects
  queue : ∀ p, NulFree p → Settled (fun n => ledger (v₀ p) p (s.log.effects.take n))
    (ledger (v₀ p) p s.log.effects) p (PlayerStore.stored s.db.players p) s.queue
  callbacks : ∀ t result saved, .loggedIn t result saved ∈ s.callbacks → result.ok = true →
    saved.inv = ledger (v₀ result.playerId) result.playerId (s.log.effects.take t.done)

variable {v₀ : String → Inventory} {s s' : GameService F D}

/-- The queue after saves that say what the ledger says. -/
theorem queue_saved {p : String} (ha : Accounted v₀ s) (hp : NulFree p)
    (es : List (Effect F)) (tasks : List (Task F)) (hno : ∀ task ∈ tasks, task.ticket = none)
    (hsaved : ((lastSave tasks p).map PlayerState.inv).getD (ledger (v₀ p) p s.log.effects) =
      ledger (v₀ p) p (s.log.effects ++ es)) :
    Settled (fun n => ledger (v₀ p) p ((s.log.effects ++ es).take n))
      (ledger (v₀ p) p (s.log.effects ++ es)) p (PlayerStore.stored s.db.players p)
      (s.queue ++ tasks) := by
  rw [settled_append]
  refine ⟨ledger (v₀ p) p s.log.effects, settled_congr _ _ (fun task htask t ht => ?_)
    (ha.queue p hp), (settled_saves _ _ _ _ _ hno).1 hsaved⟩
  have hle : t.done ≤ s.log.effects.length := ha.tickets t (.inl ⟨task, htask, ht⟩)
  simp only [List.take_append_of_le_length hle]

theorem accounted_quiet {rid : ℕ} {conn : Connection} {now : ℤ} {request : Request F}
    (ha : Accounted v₀ s) (h : Framed s rid conn now request s')
    (hk : s.frameCall conn now request = none) : Accounted v₀ s' := by
  have heffects : s'.log.effects = s.log.effects := by rw [h.effects, hk]; simp
  refine ⟨h.stores.players ▸ ha.client, fun t ht => ?_, fun p v hv => ?_, fun p hp => ?_,
    fun t result saved ht hok => ?_⟩
  · rw [heffects]
    rcases holds_framed h ht with ht | rfl
    · exact ha.tickets t ht
    · exact le_rfl
  · rw [h.world, hk] at hv
    rw [heffects]
    exact ha.world p v hv
  · rw [heffects, h.stores.db, h.queue]
    have happend := settled_append (fun n => ledger (v₀ p) p (s.log.effects.take n))
      (ledger (v₀ p) p s.log.effects) p (PlayerStore.stored s.db.players p) s.queue
    rcases frameTasks_of_none rid hk with htasks | ⟨u, w, htasks⟩ | ⟨u, w, htasks⟩
    · rw [htasks, List.append_nil]
      exact ha.queue p hp
    · rw [htasks, happend]
      exact ⟨_, ha.queue p hp, rfl⟩
    · rw [htasks, happend]
      refine ⟨_, ha.queue p hp, ?_, rfl⟩
      simp [ticket]
  · rw [h.callbacks] at ht
    rw [heffects]
    exact ha.callbacks t result saved ht hok

/-- What a call has done to the ledgers it has done to the players. -/
theorem world_called {k : Call F} (ha : Accounted v₀ s)
    (hop : ∀ (w : WorldService F) (q : String), k.inventoryAfter w q = match k.effect w with
      | some e => if q = e.player then (w.inventory q).map e.onInventory else w.inventory q
      | none => w.inventory q) {p : String} {v : Inventory}
    (hv : (k.run s.world).world.inventory p = some v) :
    v = ledger (v₀ p) p (s.log.effects ++ (k.effect s.world).toList) := by
  rw [Call.run_inventory, hop] at hv
  rcases he : k.effect s.world with _ | e
  · rw [he] at hv
    rw [Option.toList_none, List.append_nil]
    exact ha.world p v hv
  · rw [he] at hv
    dsimp only at hv
    rw [Option.toList_some, ledger_effect]
    split_ifs at hv ⊢ with hp
    · obtain ⟨u, hu, rfl⟩ := Option.map_eq_some_iff.1 hv
      rw [ha.world p u hu]
    · exact ha.world p v hv

/-- The save that follows from an effect says what the ledger says. -/
theorem saved_called {k : Call F} {e : Effect F} (he : k.effect s.world = some e)
    (hworld : ∀ p v, (k.run s.world).world.inventory p = some v →
      v = ledger (v₀ p) p (s.log.effects ++ [e])) (p : String) :
    ((lastSave (effectTasks (k.run s.world).world e) p).map PlayerState.inv).getD
        (ledger (v₀ p) p s.log.effects) = ledger (v₀ p) p (s.log.effects ++ [e]) := by
  have hperformed := Call.effect_performed s.world he
  rw [lastSave_effectTasks]
  by_cases hp : p = e.player
  · obtain ⟨u, hu, -⟩ := hperformed.enabled
    have hv : (k.run s.world).world.inventory p = some (e.onInventory u) := by
      rw [hperformed.inventory_eq, if_pos hp, hp, hu]
      rfl
    rw [if_pos hp, getSnapshot_inv, hv, ← hworld p _ hv]
    rfl
  · rw [if_neg hp, ledger_effect, if_neg hp]
    rfl

theorem accounted_called {rid : ℕ} {conn : Connection} {now : ℤ} {request : Request F} {k : Call F}
    (ha : Accounted v₀ s) (h : Framed s rid conn now request s')
    (hk : s.frameCall conn now request = some k) : Accounted v₀ s' := by
  have heffects : s'.log.effects = s.log.effects ++ (k.effect s.world).toList := by
    rw [h.effects, hk]; rfl
  have hworld : s'.world = (k.run s.world).world := by rw [h.world, hk]; rfl
  have hinv : ∀ p v, s'.world.inventory p = some v → v = ledger (v₀ p) p s'.log.effects := by
    intro p v hv
    rw [hworld] at hv
    rw [heffects]
    exact world_called ha (frameCall_some hk).2 hv
  have htasks : s'.queue = s.queue ++ callTasks s.world k := by
    rw [h.queue, frameTasks_of_some hk]
  have hlater : ∀ n, n ≤ s.log.effects.length →
      s'.log.effects.take n = s.log.effects.take n := fun n hn => by
    rw [heffects, List.take_append_of_le_length hn]
  have hheld : ∀ t, s'.Holds t → s.Holds t := by
    rintro t (⟨task, htask, ht⟩ | ⟨callback, hcallback, ht⟩)
    · rw [htasks, List.mem_append] at htask
      rcases htask with htask | htask
      · exact .inl ⟨task, htask, ht⟩
      · rcases mem_callTasks htask with ⟨_, rfl⟩ | ⟨_, rfl⟩ <;> simp [Task.ticket] at ht
    · rw [h.callbacks] at hcallback
      exact .inr ⟨callback, hcallback, ht⟩
  refine ⟨h.stores.players ▸ ha.client, fun t ht => ?_, hinv, fun p hp => ?_,
    fun t result saved ht hok => ?_⟩
  · have hle := ha.tickets t (hheld t ht)
    rw [heffects, List.length_append]
    omega
  · rw [heffects, h.stores.db, htasks]
    refine queue_saved ha hp _ _ (fun task htask => ?_) ?_
    · rcases mem_callTasks htask with ⟨_, rfl⟩ | ⟨_, rfl⟩ <;> rfl
    · unfold callTasks
      rcases he : k.effect s.world with _ | e
      · simp [lastSave]
      · rw [hworld, heffects, he] at hinv
        exact saved_called he hinv p
  · rw [h.callbacks] at ht
    have hle := ha.tickets t (.inr ⟨_, ht, rfl⟩)
    rw [hlater t.done hle]
    exact ha.callbacks t result saved ht hok

theorem accounted_removed {p : String} (ha : Accounted v₀ s) (h : Removed s p s') :
    Accounted v₀ s' := by
  refine ⟨h.same.stores.players ▸ ha.client, fun t ht => ?_, fun q v hv => ?_, fun q hq => ?_,
    fun t result saved ht hok => ?_⟩
  · rw [h.same.effects]
    exact ha.tickets t (holds_removed h ht)
  · rw [h.world, (s.world.leave_spec p).2.1] at hv
    split_ifs at hv
    rw [h.same.effects]
    exact ha.world q v hv
  · rw [h.same.effects, h.same.stores.db, h.queue]
    have hsaved := queue_saved ha hq [] (playerSave s.world p)
    rw [List.append_nil] at hsaved
    refine hsaved (fun task htask => ?_) ?_
    · obtain ⟨st, -, rfl⟩ := mem_playerSave.1 htask
      rfl
    · rw [lastSave_playerSave]
      split_ifs with hqp
      · rw [getSnapshot_inv, ← hqp]
        rcases hv : s.world.inventory q with _ | v
        · rfl
        · exact ha.world q v hv
      · rfl
  · rw [h.same.callbacks] at ht
    rw [h.same.effects]
    exact ha.callbacks t result saved ht hok

theorem accounted_switched (ha : Accounted v₀ s) (fd : ℤ) (p : String) :
    Accounted v₀ (s.switchAccount fd p) ∧
      (s.switchAccount fd p).log.effects = s.log.effects := by
  rcases s.switchAccount_cases fd p with ⟨heq, -⟩ | ⟨old, -, -, hr, -⟩
  · rw [heq]
    exact ⟨ha, rfl⟩
  · exact ⟨accounted_removed ha hr, hr.same.effects⟩

/-- A login that joins with what the ledger says. -/
theorem accounted_joined {conn : Connection} {p : String} {saved : PlayerState F} {now : ℤ}
    {rid : ℕ} (ha : Accounted v₀ s) (hsaved : saved.inv = ledger (v₀ p) p s.log.effects)
    (h : Joined s conn p saved now rid s') : Accounted v₀ s' := by
  have hholds : ∀ t, s'.Holds t → s.Holds t := by
    rintro t (⟨task, htask, ht⟩ | ⟨callback, hcallback, ht⟩)
    · rw [h.queue] at htask
      exact .inl ⟨task, htask, ht⟩
    · rw [h.same.callbacks] at hcallback
      exact .inr ⟨callback, hcallback, ht⟩
  refine ⟨h.same.stores.players ▸ ha.client, fun t ht => ?_, fun q v hv => ?_, fun q hq => ?_,
    fun t result saved ht hok => ?_⟩
  · rw [h.same.effects]
    exact ha.tickets t (hholds t ht)
  · rw [h.world, (s.world.enterWithState_spec p p now saved.x saved.y saved.z saved.yaw
      saved.inv).inventory_eq] at hv
    rw [h.same.effects]
    split_ifs at hv with hqp
    · rw [hqp, ← hsaved]
      exact (Option.some.inj hv).symm
    · exact ha.world q v hv
  · rw [h.same.effects, h.same.stores.db, h.queue]
    exact ha.queue q hq
  · rw [h.same.callbacks] at ht
    rw [h.same.effects]
    exact ha.callbacks t result saved ht hok

/-- A task done, where the database answers. -/
theorem accounted_work {o : DbOutcome} {task : Task F} {queue : List (Task F)}
    (hn : Named s) (ha : Accounted v₀ s) (hq : s.queue = task :: queue)
    (ho : Answering s (.work o)) : Accounted v₀ (runTask { s with queue } o task) := by
  have htickets := fun t ht => ha.tickets t (holds_runTask (o := o) hq ht)
  have hqueue := ha.queue
  rw [hq] at hqueue
  cases task with
  | createAccount t username password =>
    refine ⟨ha.client, htickets, ha.world, hqueue, fun u result saved hu hok => ?_⟩
    rcases List.mem_append.1 hu with hu | hu
    · exact ha.callbacks u result saved hu hok
    · simp at hu
  | verifyLogin t username password =>
    refine ⟨ha.client, htickets, ha.world, fun p hp => (hqueue p hp).2,
      fun u result saved hu hok => ?_⟩
    rcases List.mem_append.1 hu with hu | hu
    · exact ha.callbacks u result saved hu hok
    · obtain ⟨rfl, rfl, rfl⟩ := by simpa using hu
      have hp := AccountStore.nulFree_verified hok
      rw [if_pos hok, loadPlayer_inv]
      simp only [ha.client, ho.1]
      exact (hqueue _ hp).1
  | savePlayer st =>
    have hst : NulFree st.playerId := hn.queue st (hq ▸ List.mem_cons_self)
    refine ⟨ha.client, htickets, ha.world, fun p hp => ?_, ha.callbacks⟩
    simp only [runTask, ha.client, ho.2, PlayerStore.stored_upsert hst hp]
    exact hqueue p hp
  | saveScene snap => exact ⟨ha.client, htickets, ha.world, hqueue, ha.callbacks⟩

variable [Lobby D]

theorem accounted_loop {now : ℤ} (ha : Accounted v₀ s) (hfresh : FreshLogin s (.loop now))
    (h : step s (.loop now) = some s') : Accounted v₀ s' := by
  obtain ⟨callback, callbacks, hq, hcases⟩ := Step.loop_cases h
  have ha' : Accounted v₀ { s with callbacks } := by
    refine ⟨ha.client, fun t ht => ha.tickets t ?_, ha.world, ha.queue,
      fun t result saved ht hok =>
        ha.callbacks t result saved (hq ▸ List.mem_cons_of_mem _ ht) hok⟩
    rcases ht with ht | ⟨callback, hcallback, ht⟩
    · exact .inl ht
    · exact .inr ⟨callback, hq ▸ List.mem_cons_of_mem _ hcallback, ht⟩
  rcases hcases with ⟨rest, metrics, rfl, -⟩ | ⟨t, result, saved, conn, rfl, hok, hconn, hj⟩
  · exact ⟨ha'.client, ha'.tickets, ha'.world, ha'.queue, ha'.callbacks⟩
  obtain ⟨hswitched, heffects⟩ := accounted_switched ha' t.fd result.playerId
  refine accounted_joined hswitched ?_ hj
  simp only [FreshLogin, hq] at hfresh
  have hneutral := hfresh.2 hok (by simp [hconn])
  have hsplit : s.log.effects = s.log.effects.take t.done ++ s.log.effects.drop t.done :=
    (List.take_append_drop ..).symm
  rw [heffects, ha.callbacks t result saved (hq ▸ List.mem_cons_self) hok]
  calc ledger (v₀ result.playerId) result.playerId (s.log.effects.take t.done)
      = (ledger (v₀ result.playerId) result.playerId (s.log.effects.take t.done)).replay
          (effectsOf result.playerId (s.log.effects.drop t.done)) :=
        (replay_neutral hneutral _).symm
    _ = ledger (v₀ result.playerId) result.playerId
          (s.log.effects.take t.done ++ s.log.effects.drop t.done) := (ledger_append ..).symm
    _ = ledger (v₀ result.playerId) result.playerId s.log.effects := by rw [← hsplit]

theorem accounted_step {e : Event F} (hn : Named s) (ha : Accounted v₀ s) (hfresh : FreshLogin s e)
    (h : step s e = some s') : Accounted v₀ s' := by
  cases e with
  | accept fd =>
    obtain ⟨-, rfl⟩ := Step.accept h
    exact ⟨ha.client, ha.tickets, ha.world, ha.queue, ha.callbacks⟩
  | frame fd rid request now =>
    obtain ⟨conn, -, hf⟩ := Step.frame h
    rcases hk : s.frameCall conn now request with _ | k
    · exact accounted_quiet ha hf hk
    · exact accounted_called ha hf hk
  | close fd now =>
    obtain ⟨conn, s₁, -, -, rfl, ⟨-, rfl⟩ | ⟨p, -, hr⟩⟩ := Step.close_cases h
    · exact ⟨ha.client, ha.tickets, ha.world, ha.queue, ha.callbacks⟩
    · have := accounted_removed ha hr
      exact ⟨this.client, this.tickets, this.world, this.queue, this.callbacks⟩
  | work o =>
    obtain ⟨task, queue, hq, rfl⟩ := Step.work h
    exact accounted_work hn ha hq hfresh.1
  | loop now => exact accounted_loop ha hfresh h

/-- In a run whose logins are fresh, a player's counters are what he had stored at the start,
replayed with everything he did. -/
theorem no_rollback {lobby : D} {db : Database F} {accounts scenes : Bool} {o : DbOutcome}
    (h : Reach step FreshLogin (start lobby db accounts true scenes o) s) {p : String}
    {v : Inventory} (hv : s.world.inventory p = some v) :
    v = (PlayerStore.stored db.players p).replay (effectsOf p s.log.effects) := by
  have ha : Accounted (PlayerStore.stored db.players) s := by
    refine h.invariant_of
      (fun s hs => named_reach ⟨lobby, db, accounts, true, scenes, o, hs⟩) ?_
      fun s e s' hn ha hfresh he => accounted_step hn ha hfresh he
    obtain ⟨-, -, -, -, hqueue, hcallbacks, -, hworld, -, -, heffects, -⟩ :=
      start_eq lobby db accounts true scenes o
    have hplayers : (start lobby db accounts true scenes o).players = true ∧
        (start lobby db accounts true scenes o).db.players = db.players := by
      unfold start loadOrSeedScene
      dsimp only
      split <;> exact ⟨rfl, rfl⟩
    refine ⟨hplayers.1, ?_, by simp [hworld], fun p _ => ?_, by simp [hcallbacks]⟩
    · rintro t (⟨task, htask, -⟩ | ⟨callback, hcallback, -⟩)
      · simp [hqueue] at htask
      · simp [hcallbacks] at hcallback
    · rw [hqueue, heffects, hplayers.2]
      rfl
  exact ha.world p v hv

/-- A craft between two logins of the same player. -/
theorem no_rollback_craft : ∃ s : GameService ℚ Unit,
    Reach step FreshLogin (start () twoAccounts true true true {}) s ∧
      s.world.inventory "ann" = some ⟨4, 3, 12, 0, 1⟩ ∧
      (⟨4, 3, 12, 0, 1⟩ : Inventory) =
        (PlayerStore.stored twoAccounts.players "ann").replay (effectsOf "ann" s.log.effects) := by
  have hplay : (play FreshLogin twoAccounts (List.flatten [[.accept 5], loginAnn 5,
      [.frame 5 2 (.craft (some 1)) 0, .work {}], loginAnn 5])).map
        (fun s => s.world.inventory "ann") = some (some ⟨4, 3, 12, 0, 1⟩) := by
    decide +kernel
  obtain ⟨s, hs, hv⟩ := Option.map_eq_some_iff.1 hplay
  have hreach : Reach step FreshLogin (start () twoAccounts true true true {}) s :=
    Reach.of_foldlM _ hs
  exact ⟨s, hreach, hv, no_rollback hreach hv⟩

/-- A craft between a login's read and its completion is lost. -/
theorem no_rollback_fails : ∃ s : GameService ℚ Unit,
    Reach step Answering (start () twoAccounts true true true {}) s ∧
      s.world.inventory "ann" = some ⟨6, 3, 12, 0, 0⟩ ∧
      (PlayerStore.stored twoAccounts.players "ann").replay (effectsOf "ann" s.log.effects) =
        ⟨4, 3, 12, 0, 1⟩ := by
  have hplay : (play Answering twoAccounts (List.flatten [[.accept 5], loginAnn 5,
      [.frame 5 2 (.login (some ("ann", "secret"))) 0, .work {}, .frame 5 3 (.craft (some 1)) 0,
        .loop 0]])).map (fun s => (s.world.inventory "ann",
          (PlayerStore.stored twoAccounts.players "ann").replay
            (effectsOf "ann" s.log.effects))) =
      some (some ⟨6, 3, 12, 0, 0⟩, ⟨4, 3, 12, 0, 1⟩) := by
    decide +kernel
  obtain ⟨s, hs, hv⟩ := Option.map_eq_some_iff.1 hplay
  rw [Prod.mk.injEq] at hv
  exact ⟨s, Reach.of_foldlM _ hs, hv.1, hv.2⟩

end GameService

end TinRpc
