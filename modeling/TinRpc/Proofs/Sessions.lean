import TinRpc.Proofs.Steps
import TinRpc.Lib.Reach

/-!
# Sessions

In every run the connection maps only name open connections, a player's connection is the one his
fd gives back, and a player is in the world when he has a connection (`sessions_reach`). A ticket's
connection is older than the next accept, so it is open just when the fd still has it.
-/

namespace TinRpc

open Transition

variable {F D : Type}

/-- A state the service reaches from its start, by steps allowed by `ok`. -/
def Running [Platform F] [Lobby D] (ok : GameService F D → Event F → Prop) (s : GameService F D) :
    Prop :=
  ∃ lobby db accounts players scenes o,
    Reach step ok (GameService.start lobby db accounts players scenes o) s

def Task.ticket : Task F → Option Ticket
  | .createAccount t .. | .verifyLogin t .. => some t
  | _ => none

def Callback.ticket : Callback F → Ticket
  | .registered t _ | .loggedIn t .. => t

namespace GameService

/-- A ticket is held by a task or by a callback. -/
def Holds (s : GameService F D) (t : Ticket) : Prop :=
  (∃ task ∈ s.queue, task.ticket = some t) ∨ ∃ callback ∈ s.callbacks, callback.ticket = t

structure Sessions (s : GameService F D) : Prop where
  handlers : ∀ fd conn, s.handlers fd = some conn → conn.fd = fd ∧ conn.accept < s.accepted
  active : ∀ fd conn, s.activeConns fd = some conn → s.handlers fd = some conn
  conns : ∀ p conn, s.playerConns p = some conn →
    s.handlers conn.fd = some conn ∧ s.fdToPlayer conn.fd = some p
  tickets : ∀ t, s.Holds t → t.conn.accept < s.accepted ∧
    (s.handlers t.fd = some t.conn → s.activeConns t.fd = some t.conn)
  present : ∀ p, (s.world.inventory p).isSome = (s.playerConns p).isSome

variable {s s' : GameService F D}

/-- No two players share a connection. -/
theorem conns_unique (hs : Sessions s) {p q : String} {conn : Connection}
    (hp : s.playerConns p = some conn) (hq : s.playerConns q = some conn) : p = q := by
  have h := (hs.conns p conn hp).2
  rw [(hs.conns q conn hq).2, Option.some.injEq] at h
  exact h.symm

theorem holds_removed {p : String} (h : Removed s p s') {t : Ticket} (ht : s'.Holds t) :
    s.Holds t := by
  rcases ht with ⟨task, htask, ht⟩ | ⟨callback, hcallback, ht⟩
  · rw [h.queue, List.mem_append, mem_playerSave] at htask
    rcases htask with htask | ⟨st, -, rfl⟩
    · exact .inl ⟨task, htask, ht⟩
    · simp [Task.ticket] at ht
  · rw [h.same.callbacks] at hcallback
    exact .inr ⟨callback, hcallback, ht⟩

/-- What the fds know after a removal they knew before. -/
theorem fdToPlayer_removed {p : String} (h : Removed s p s') {fd : ℤ} {q : String}
    (hq : s'.fdToPlayer fd = some q) : s.fdToPlayer fd = some q := by
  rw [h.fdToPlayer] at hq
  split at hq
  · rw [Function.update_apply] at hq
    split_ifs at hq
    exact hq
  · exact hq

/-- The other players keep their connections, and their fds know them. -/
theorem conns_removed {p q : String} {conn : Connection} (hs : Sessions s) (h : Removed s p s')
    (hq : s'.playerConns q = some conn) : q ≠ p ∧ s.playerConns q = some conn ∧
      s'.fdToPlayer conn.fd = some q := by
  rw [h.playerConns, Function.update_apply] at hq
  split_ifs at hq with hqp
  refine ⟨hqp, hq, ?_⟩
  have hfd := (hs.conns q conn hq).2
  rw [h.fdToPlayer]
  split
  · next c hc =>
    have hne : conn.fd ≠ c.fd := by
      intro heq
      rw [heq, (hs.conns p c hc).2, Option.some.injEq] at hfd
      exact hqp hfd.symm
    rw [Function.update_of_ne hne, hfd]
  · exact hfd

/-- Who is removed is not in the world. -/
theorem removed_gone {p : String} (h : Removed s p s') : s'.world.players.lookup p = none := by
  have hgone := (s.world.leave_spec p).2.1 p
  rw [if_pos rfl] at hgone
  rw [h.world]
  exact Option.map_eq_none_iff.1 hgone

theorem present_removed {p : String} (hs : Sessions s) (h : Removed s p s') (q : String) :
    (s'.world.inventory q).isSome = (s'.playerConns q).isSome := by
  rw [h.world, h.playerConns, Function.update_apply, (s.world.leave_spec p).2.1 q]
  split_ifs
  · rfl
  · exact hs.present q

/-- The connections open after a disconnect, and those the maps name. -/
theorem sessions_closed {fd : ℤ} {s₁ : GameService F D} (hs : Sessions s)
    (hh : s₁.handlers = s.handlers) (ha : s₁.accepted = s.accepted)
    (hactive : s₁.activeConns = Function.update s.activeConns fd none)
    (hconns : ∀ q c, s₁.playerConns q = some c →
      c.fd ≠ fd ∧ s.playerConns q = some c ∧ s₁.fdToPlayer c.fd = some q)
    (hholds : ∀ t, s₁.Holds t → s.Holds t)
    (hpresent : ∀ q, (s₁.world.inventory q).isSome = (s₁.playerConns q).isSome) :
    Sessions { s₁ with handlers := Function.update s₁.handlers fd none } where
  handlers fd' c hc := by
    simp only [Function.update_apply, hh] at hc
    split_ifs at hc
    rw [ha]
    exact hs.handlers fd' c hc
  active fd' c hc := by
    simp only [Function.update_apply, hh, hactive] at hc ⊢
    split_ifs at hc ⊢
    exact hs.active fd' c hc
  conns q c hc := by
    obtain ⟨hne, hq, hfd⟩ := hconns q c hc
    simp only [Function.update_of_ne hne, hh]
    exact ⟨(hs.conns q c hq).1, hfd⟩
  tickets t ht := by
    have ht := hs.tickets t (hholds t ht)
    simp only [Function.update_apply, hh, ha, hactive]
    refine ⟨ht.1, fun hopen => ?_⟩
    split_ifs at hopen ⊢
    exact ht.2 hopen
  present := hpresent

theorem sessions_taken {callback : Callback F} {callbacks : List (Callback F)} (hs : Sessions s)
    (hq : s.callbacks = callback :: callbacks) : Sessions { s with callbacks } where
  handlers := hs.handlers
  active := hs.active
  conns := hs.conns
  tickets t ht := by
    refine hs.tickets t ?_
    rcases ht with ht | ⟨callback, hcallback, ht⟩
    · exact .inl ht
    · exact .inr ⟨callback, by rw [hq]; exact List.mem_cons_of_mem _ hcallback, ht⟩
  present := hs.present

variable [Platform F]

theorem holds_framed {rid : ℕ} {conn : Connection} {now : ℤ} {request : Request F}
    (h : Framed s rid conn now request s') {t : Ticket} (ht : s'.Holds t) :
    s.Holds t ∨ t = s.ticket rid conn := by
  rcases ht with ⟨task, htask, ht⟩ | ⟨callback, hcallback, ht⟩
  · rw [h.queue, List.mem_append] at htask
    rcases htask with htask | htask
    · exact .inl (.inl ⟨task, htask, ht⟩)
    · rcases mem_frameTasks htask with ⟨_, _, rfl⟩ | ⟨_, _, rfl⟩ | ⟨k, -, hk⟩
      · exact .inr (Option.some.inj ht).symm
      · exact .inr (Option.some.inj ht).symm
      · rcases mem_callTasks hk with ⟨_, rfl⟩ | ⟨_, rfl⟩ <;> simp [Task.ticket] at ht
  · rw [h.callbacks] at hcallback
    exact .inl (.inr ⟨callback, hcallback, ht⟩)

theorem sessions_framed {rid : ℕ} {conn : Connection} {now : ℤ} {request : Request F}
    (hs : Sessions s) (hconn : s.handlers conn.fd = some conn)
    (h : Framed s rid conn now request s') : Sessions s' where
  handlers fd c hc := by
    rw [h.sessions.handlers] at hc
    rw [h.sessions.accepted]
    exact hs.handlers fd c hc
  active fd c hc := by
    rw [h.activeConns, Function.update_apply] at hc
    rw [h.sessions.handlers]
    split_ifs at hc with hfd
    · rw [hfd, hconn, ← hc]
    · exact hs.active fd c hc
  conns p c hc := by
    rw [h.sessions.playerConns] at hc
    rw [h.sessions.handlers, h.sessions.fdToPlayer]
    exact hs.conns p c hc
  tickets t ht := by
    rw [h.sessions.handlers, h.sessions.accepted, h.activeConns, Function.update_apply]
    rcases holds_framed h ht with ht | rfl
    · refine ⟨(hs.tickets t ht).1, fun hopen => ?_⟩
      split_ifs with hfd
      · rw [hfd, hconn] at hopen; exact hopen
      · exact (hs.tickets t ht).2 hopen
    · exact ⟨(hs.handlers _ _ hconn).2, fun _ => if_pos rfl⟩
  present p := by
    rw [h.sessions.playerConns, h.world, ← hs.present p]
    rcases hk : s.frameCall conn now request with _ | k
    · rfl
    · exact inventory_isSome hk s.world p

theorem holds_runTask {o : DbOutcome} {task : Task F} {queue : List (Task F)}
    (hq : s.queue = task :: queue) {t : Ticket}
    (ht : (runTask { s with queue } o task).Holds t) : s.Holds t := by
  have hqueue : (runTask { s with queue } o task).queue = queue := by
    cases task <;> rfl
  rcases ht with ⟨task', htask, ht⟩ | ⟨callback, hcallback, ht⟩
  · rw [hqueue] at htask
    exact .inl ⟨task', by rw [hq]; exact List.mem_cons_of_mem _ htask, ht⟩
  · cases task with
    | createAccount u username password =>
      rcases List.mem_append.1 hcallback with hcallback | hcallback
      · exact .inr ⟨callback, hcallback, ht⟩
      · rw [List.mem_singleton.1 hcallback] at ht
        exact .inl ⟨_, by rw [hq]; exact List.mem_cons_self, by rw [← ht]; rfl⟩
    | verifyLogin u username password =>
      rcases List.mem_append.1 hcallback with hcallback | hcallback
      · exact .inr ⟨callback, hcallback, ht⟩
      · rw [List.mem_singleton.1 hcallback] at ht
        exact .inl ⟨_, by rw [hq]; exact List.mem_cons_self, by rw [← ht]; rfl⟩
    | savePlayer st => exact .inr ⟨callback, hcallback, ht⟩
    | saveScene snap => exact .inr ⟨callback, hcallback, ht⟩

/-- After the account switch the fd's player is the one who logs in, or has no connection. -/
theorem conns_switched {fd : ℤ} {p q : String} {conn : Connection} (hs : Sessions s)
    (hq : (s.switchAccount fd p).playerConns q = some conn) (hqp : q ≠ p) : conn.fd ≠ fd ∧
      s.handlers conn.fd = some conn ∧ (s.switchAccount fd p).fdToPlayer conn.fd = some q := by
  rcases s.switchAccount_cases fd p with ⟨heq, hold⟩ | ⟨old, hold, -, hr, -⟩
  · rw [heq] at hq ⊢
    obtain ⟨hopen, hfd⟩ := hs.conns q conn hq
    refine ⟨?_, hopen, hfd⟩
    rintro rfl
    exact hqp (hold q hfd)
  · obtain ⟨hne, hq', hfd⟩ := conns_removed hs hr hq
    refine ⟨?_, (hs.conns q conn hq').1, hfd⟩
    rintro rfl
    rw [(hs.conns q conn hq').2, Option.some.injEq] at hold
    exact hne hold

/-- What the account switch keeps. -/
theorem switched (fd : ℤ) (p : String) (hs : Sessions s) :
    (s.switchAccount fd p).handlers = s.handlers ∧
      (s.switchAccount fd p).accepted = s.accepted ∧
      (s.switchAccount fd p).activeConns = s.activeConns ∧
      (∀ t, (s.switchAccount fd p).Holds t → s.Holds t) ∧
      ∀ q, ((s.switchAccount fd p).world.inventory q).isSome =
        ((s.switchAccount fd p).playerConns q).isSome := by
  rcases s.switchAccount_cases fd p with ⟨heq, -⟩ | ⟨old, -, -, hr, hactive⟩
  · rw [heq]
    exact ⟨rfl, rfl, rfl, fun _ h => h, hs.present⟩
  · exact ⟨hr.same.handlers, hr.same.accepted, hactive, fun t => holds_removed hr,
      present_removed hs hr⟩

theorem sessions_joined {t : Ticket} {p : String} {conn : Connection} {saved : PlayerState F}
    {now : ℤ} {rid : ℕ} (hs : Sessions s) (hconn : s.activeConns t.fd = some conn)
    (h : Joined (s.switchAccount t.fd p) conn p saved now rid s') : Sessions s' := by
  obtain ⟨hhandlers, haccepted, hactive, hholds, hpresent⟩ := switched t.fd p hs
  have hopen := hs.active _ _ hconn
  have hfd := (hs.handlers _ _ hopen).1
  refine ⟨fun fd c hc => ?_, fun fd c hc => ?_, fun q c hc => ?_, fun u hu => ?_, fun q => ?_⟩
  · rw [h.same.handlers, hhandlers] at hc
    rw [h.same.accepted, haccepted]
    exact hs.handlers fd c hc
  · rw [h.activeConns, hactive] at hc
    rw [h.same.handlers, hhandlers]
    exact hs.active fd c hc
  · rw [h.playerConns, Function.update_apply] at hc
    rw [h.same.handlers, hhandlers, h.fdToPlayer]
    split_ifs at hc with hqp
    · obtain rfl := Option.some.inj hc
      rw [hqp, Function.update_self, hfd]
      exact ⟨hopen, rfl⟩
    · obtain ⟨hne, hcopen, hcfd⟩ := conns_switched hs hc hqp
      rw [Function.update_of_ne (hfd ▸ hne)]
      exact ⟨hcopen, hcfd⟩
  · have hu' : s.Holds u := by
      refine hholds u ?_
      rcases hu with hu | hu
      · exact .inl (by rwa [h.queue] at hu)
      · exact .inr (by rwa [h.same.callbacks] at hu)
    rw [h.same.handlers, h.same.accepted, h.activeConns, hhandlers, haccepted, hactive]
    exact hs.tickets u hu'
  · rw [h.world, h.playerConns, Function.update_apply,
      ((s.switchAccount t.fd p).world.enterWithState_spec p p now saved.x saved.y saved.z saved.yaw
        saved.inv).inventory_eq]
    split_ifs
    · rfl
    · exact hpresent q

/-- The service starts with nobody, whatever it loads. -/
theorem start_eq (lobby : D) (db : Database F) (accounts players scenes : Bool) (o : DbOutcome) :
    let s := start lobby db accounts players scenes o
    s.playerConns = (fun _ => none) ∧ s.fdToPlayer = (fun _ => none) ∧
      s.activeConns = (fun _ => none) ∧ s.handlers = (fun _ => none) ∧ s.queue = [] ∧
      s.callbacks = [] ∧ s.wire = [] ∧ (∀ p, s.world.inventory p = none) ∧
      s.log.verified = [] ∧ s.log.acts = [] ∧ s.log.effects = [] ∧ s.log.posted = [] ∧
      (s.log.since = fun _ => []) := by
  unfold start loadOrSeedScene
  dsimp only
  split <;> exact ⟨rfl, rfl, rfl, rfl, rfl, rfl, rfl, fun _ => rfl, rfl, rfl, rfl, rfl, rfl⟩

variable [Lobby D]

theorem sessions_close {fd now : ℤ} (hs : Sessions s) (h : step s (.close fd now) = some s') :
    Sessions s' := by
  obtain ⟨conn, s₁, hconn, hactive, rfl, hcases⟩ := Step.close_cases h
  have hfd : ∀ q c, s.playerConns q = some c → c.fd = conn.fd → s.fdToPlayer conn.fd = some q := by
    intro q c hc hfd
    exact hfd ▸ (hs.conns q c hc).2
  rcases hcases with ⟨hnone, rfl⟩ | ⟨p, hp, hr⟩
  · refine sessions_closed hs rfl rfl hactive (fun q c hc => ?_) (fun t ht => ht) hs.present
    refine ⟨fun h => ?_, hc, (hs.conns q c hc).2⟩
    simp [hfd q c hc h] at hnone
  · refine sessions_closed hs hr.same.handlers hr.same.accepted hactive (fun q c hc => ?_)
      (fun t ht => holds_removed hr ht) (present_removed hs hr)
    obtain ⟨hqp, hq, hq'⟩ := conns_removed hs hr hc
    refine ⟨fun h => ?_, hq, hq'⟩
    rw [hfd q c hq h, Option.some.injEq] at hp
    exact hqp hp

theorem sessions_accept {fd : ℤ} (hs : Sessions s) (h : step s (.accept fd) = some s') :
    Sessions s' := by
  obtain ⟨hfree, rfl⟩ := Step.accept h
  refine ⟨fun fd' c hc => ?_, fun fd' c hc => ?_, fun p c hc => ?_, fun t ht => ?_, hs.present⟩
  · simp only [Function.update_apply] at hc ⊢
    split_ifs at hc with hfd
    · obtain rfl := Option.some.inj hc
      exact ⟨hfd.symm, Nat.lt_succ_self _⟩
    · exact ⟨(hs.handlers fd' c hc).1, Nat.lt_succ_of_lt (hs.handlers fd' c hc).2⟩
  · have hopen := hs.active fd' c hc
    have hne : fd' ≠ fd := by rintro rfl; simp [hfree] at hopen
    simpa only [Function.update_of_ne hne] using hopen
  · obtain ⟨hopen, hfd⟩ := hs.conns p c hc
    have hne : c.fd ≠ fd := by rintro heq; simp [heq, hfree] at hopen
    simpa only [Function.update_of_ne hne] using ⟨hopen, hfd⟩
  · obtain ⟨hlt, hactive⟩ := hs.tickets t ht
    refine ⟨Nat.lt_succ_of_lt hlt, fun hopen => ?_⟩
    simp only [Function.update_apply] at hopen
    split_ifs at hopen with hfd
    · have := congrArg Connection.accept (Option.some.inj hopen)
      simp only at this
      omega
    · exact hactive hopen

theorem sessions_work {o : DbOutcome} (hs : Sessions s) (h : step s (.work o) = some s') :
    Sessions s' := by
  obtain ⟨task, queue, hq, rfl⟩ := Step.work h
  have htickets := fun t ht => hs.tickets t (holds_runTask (o := o) hq ht)
  cases task <;> exact ⟨hs.handlers, hs.active, hs.conns, htickets, hs.present⟩

theorem sessions_loop {now : ℤ} (hs : Sessions s) (h : step s (.loop now) = some s') :
    Sessions s' := by
  obtain ⟨callback, callbacks, hq, hcases⟩ := Step.loop_cases h
  have hs := sessions_taken hs hq
  rcases hcases with ⟨rest, metrics, rfl, -⟩ | ⟨t, result, saved, conn, -, -, hconn, hj⟩
  · exact ⟨hs.handlers, hs.active, hs.conns, hs.tickets, hs.present⟩
  · exact sessions_joined hs hconn hj

theorem sessions_step {e : Event F} (hs : Sessions s) (h : step s e = some s') : Sessions s' := by
  cases e with
  | accept fd => exact sessions_accept hs h
  | frame fd rid request now =>
    obtain ⟨conn, hconn, hf⟩ := Step.frame h
    exact sessions_framed hs ((hs.handlers _ _ hconn).1 ▸ hconn) hf
  | close fd now => exact sessions_close hs h
  | work o => exact sessions_work hs h
  | loop now => exact sessions_loop hs h

/-- The session invariants hold in every run. -/
theorem sessions_reach {ok : GameService F D → Event F → Prop} (h : Running ok s) :
    Sessions s := by
  obtain ⟨lobby, db, accounts, players, scenes, o, h⟩ := h
  refine h.invariant ?_ fun s e s' hs _ he => sessions_step hs he
  obtain ⟨hconns, -, hactive, hhandlers, hqueue, hcallbacks, -, hworld, -⟩ :=
    start_eq lobby db accounts players scenes o
  refine ⟨?_, ?_, ?_, ?_, ?_⟩
  · simp [hhandlers]
  · simp [hactive]
  · simp [hconns]
  · rintro t (⟨task, htask, -⟩ | ⟨callback, hcallback, -⟩)
    · simp [hqueue] at htask
    · simp [hcallbacks] at hcallback
  · simp [hworld, hconns]

end GameService

/-! ## A small service

The service on exact numbers and without rooms, for runs that are evaluated. -/

/-- No rooms and no matches: every method is unknown. -/
instance noLobby : Lobby Unit where
  call _ _ _ _ _ := ((), none, [])
  drop _ _ _ := ((), [])

/-- An account whose hash is the platform's for its password. -/
def account (username password : String) : Bson.Doc ℚ :=
  [("username", .utf8 username), ("password_hash", .utf8 ("$2b$" ++ password)),
    ("player_id", .utf8 username)]

/-- A database with the accounts of two players and nothing else. -/
def twoAccounts : Database ℚ where
  accounts name := if name = "ann" then some (account "ann" "secret")
    else if name = "bob" then some (account "bob" "secret") else none
  players _ := none
  scenes _ := none

/-- The run of a list of events from the start on a database, while they are allowed. -/
def play (ok : GameService ℚ Unit → Event ℚ → Prop) [∀ s e, Decidable (ok s e)]
    (db : Database ℚ) (es : List (Event ℚ)) : Option (GameService ℚ Unit) :=
  es.foldlM (fun s e => if ok s e then step s e else none)
    (GameService.start () db true true true {})

theorem running_of_play {ok : GameService ℚ Unit → Event ℚ → Prop} [∀ s e, Decidable (ok s e)]
    {db : Database ℚ} {es : List (Event ℚ)} {s : GameService ℚ Unit}
    (h : play ok db es = some s) : Running ok s :=
  ⟨(), db, true, true, true, {}, Reach.of_foldlM es h⟩

/-- The events of a login of `ann` on the connection of an fd, up to its completion. -/
def loginAnn (fd : ℤ) : List (Event ℚ) :=
  [.frame fd 1 (.login (some ("ann", "secret"))) 0, .work {}, .loop 0]

end TinRpc
