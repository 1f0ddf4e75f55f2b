import Mathlib.Data.Finset.Card
import TinRpc.Proofs.Bindings

/-!
# The number of active connections

The metric goes up with each login that succeeds and down with each disconnect of an fd that has a
player. It is the number of open connections on which a login has succeeded as long as these two
come in pairs (`metric_iff`): no connection logs in twice, and one that closes has a player just
where a login has succeeded on it.
-/

namespace TinRpc

open Transition

variable {F D : Type}

namespace GameService

/-- The answer to a login that succeeded. -/
def welcome : Message F → Bool
  | .response _ (.login success ..) => success
  | _ => false

/-- The connections on which a login has succeeded, once for each. -/
def welcomed (s : GameService F D) : List Connection :=
  (s.wire.filter fun m => welcome m.2).map Prod.fst

/-- The open connections on which a login has succeeded. -/
def liveLogins (s : GameService F D) : Finset Connection :=
  s.welcomed.toFinset.filter fun conn => s.handlers conn.fd = some conn

/-- The metric is the number of open connections on which a login has succeeded. -/
def Balanced (s : GameService F D) : Prop :=
  s.metrics.activeConnections = s.liveLogins.card

instance (s : GameService F D) : Decidable s.Balanced := inferInstanceAs (Decidable (_ = _))

/-- The connection that an event closes. -/
def closes (s : GameService F D) : Event F → Option Connection
  | .close fd _ => s.handlers fd
  | _ => none

/-- A login completes on a connection that has none so far, and a connection that closes has a
player in `fd_to_player_` just where a login has succeeded on it. -/
def Paired (s : GameService F D) (e : Event F) : Prop :=
  (∀ login ∈ s.completes e, login.1 ∉ s.liveLogins) ∧
    ∀ conn ∈ s.closes e, (s.fdToPlayer conn.fd).isSome = decide (conn ∈ s.liveLogins)

instance (s : GameService F D) (e : Event F) : Decidable (Paired s e) :=
  inferInstanceAs (Decidable ((∀ login ∈ s.completes e, _) ∧ ∀ conn ∈ s.closes e, _))

variable {s s' : GameService F D}

theorem mem_liveLogins {conn : Connection} :
    conn ∈ s.liveLogins ↔ conn ∈ s.welcomed ∧ s.handlers conn.fd = some conn := by
  unfold liveLogins
  rw [Finset.mem_filter, List.mem_toFinset]

/-- Nobody is welcomed and the metric stays. -/
structure Uncounted (s s' : GameService F D) : Prop where
  welcomed : s'.welcomed = s.welcomed
  metric : s'.metrics.activeConnections = s.metrics.activeConnections

theorem Uncounted.trans {s₁ : GameService F D} (h : Uncounted s s₁) (h' : Uncounted s₁ s') :
    Uncounted s s' :=
  ⟨h'.welcomed.trans h.welcomed, h'.metric.trans h.metric⟩

theorem welcomed_append {rest : List (Connection × Message F)} (h : s'.wire = s.wire ++ rest) :
    s'.welcomed = s.welcomed ++ (rest.filter fun m => welcome m.2).map Prod.fst := by
  unfold welcomed
  rw [h, List.filter_append, List.map_append]

theorem welcomed_quiet {rest : List (Connection × Message F)} (h : s'.wire = s.wire ++ rest)
    (hrest : ∀ m ∈ rest, welcome m.2 = false) : s'.welcomed = s.welcomed := by
  rw [welcomed_append h, List.filter_eq_nil_iff.2 (by simpa using hrest), List.map_nil,
    List.append_nil]

theorem Uncounted.send (h : Uncounted s s') (conn : Connection) {m : Message F}
    (hm : welcome m = false) : Uncounted s (s'.send conn m) :=
  h.trans ⟨welcomed_quiet rfl (by simpa using hm), rfl⟩

theorem Uncounted.sendToPlayers {M : Type} {msg : M → Message F} (h : Uncounted s s')
    (hmsg : ∀ a, welcome (msg a) = false) (sent : List (String × M)) :
    Uncounted s (s'.sendToPlayers msg sent) := by
  refine h.trans ⟨welcomed_quiet rfl fun m hm => ?_, rfl⟩
  obtain ⟨e, -, he⟩ := List.mem_filterMap.1 hm
  obtain ⟨conn, -, rfl⟩ := Option.map_eq_some_iff.1 he
  exact hmsg e.2

theorem Uncounted.onError (h : Uncounted s s') : Uncounted s s'.onError :=
  h.trans ⟨rfl, rfl⟩

theorem Uncounted.savePlayerAsync (h : Uncounted s s') (p : String) :
    Uncounted s (s'.savePlayerAsync p) := by
  unfold GameService.savePlayerAsync
  split
  · exact h
  · exact h.trans ⟨rfl, rfl⟩

theorem Uncounted.saveSceneAsync (h : Uncounted s s') : Uncounted s s'.saveSceneAsync :=
  h.trans ⟨rfl, rfl⟩

variable [Platform F]

theorem Uncounted.run (h : Uncounted s s') (call : Call F) : Uncounted s (s'.run call) := by
  have hcalled : Uncounted s { s' with
      world := (call.run s'.world).world
      log := s'.log.record call (call.effect s'.world) } := h.trans ⟨rfl, rfl⟩
  exact hcalled.sendToPlayers (fun _ => rfl) _

theorem Uncounted.act (h : Uncounted s s') (conn : Connection) (call : Call F) :
    Uncounted s (s'.act conn call) := by
  have hlogged : Uncounted s { s' with
      log := { s'.log with acts := s'.log.acts ++ [(conn, call.player)] } } := h.trans ⟨rfl, rfl⟩
  exact hlogged.run call

variable [Lobby D]

theorem uncounted_frame (rid : ℕ) (conn : Connection) (now : ℤ) (request : Request F) :
    Uncounted s (s.onServerFrame rid conn now request) := by
  have h : Uncounted s
      { s with activeConns := Function.update s.activeConns conn.fd (some conn) } := ⟨rfl, rfl⟩
  cases request with
  | register req =>
    simp only [onServerFrame, handleRegister]
    split
    · exact h.onError.send conn rfl
    · exact h.trans ⟨rfl, rfl⟩
  | login req =>
    simp only [onServerFrame, handleLogin]
    split
    · exact h.onError.send conn rfl
    · exact h.trans ⟨rfl, rfl⟩
  | selectMap req =>
    simp only [onServerFrame, handleSelectMap]
    split
    · exact (h.act conn _).send conn rfl
    · exact h.send conn rfl
  | move req =>
    simp only [onServerFrame, handleMove]
    split
    · exact h.send conn rfl
    · exact h.onError.send conn rfl
    · exact (h.act conn _).send conn rfl
  | voxelEdit req =>
    simp only [onServerFrame, handleVoxelEdit]
    split
    · split
      · exact ((h.act conn _).saveSceneAsync.savePlayerAsync _).send conn rfl
      · exact (h.act conn _).send conn rfl
    · exact h.send conn rfl
  | craft recipeId =>
    simp only [onServerFrame, handleCraft]
    split
    · exact h.send conn rfl
    · exact h.send conn rfl
    · split
      · exact ((h.act conn _).savePlayerAsync _).send conn rfl
      · exact (h.act conn _).send conn rfl
  | gather resourceId =>
    simp only [onServerFrame, handleGather]
    split
    · split
      · exact ((h.act conn _).savePlayerAsync _).saveSceneAsync.send conn rfl
      · exact (h.act conn _).send conn rfl
    · exact h.send conn rfl
  | placeBuilding req =>
    simp only [onServerFrame, handlePlaceBuilding]
    split
    · split
      · exact ((h.act conn _).savePlayerAsync _).saveSceneAsync.send conn rfl
      · exact (h.act conn _).send conn rfl
    · exact h.send conn rfl
  | other method body =>
    rcases hcall : Lobby.call s.lobby s.metrics now method body with ⟨lobby, rsp, events⟩
    simp only [onServerFrame, dispatch, hcall]
    have hcalled : Uncounted s { s with
        activeConns := Function.update s.activeConns conn.fd (some conn), lobby } := ⟨rfl, rfl⟩
    have hsent : Uncounted s (GameService.sendToPlayers _ Message.roomEvent events) :=
      hcalled.sendToPlayers (fun _ => rfl) events
    cases rsp with
    | none => exact (hsent.onError.send conn rfl).trans ⟨rfl, rfl⟩
    | some body => exact (hsent.send conn rfl).trans ⟨rfl, rfl⟩

/-! ## What a step counts -/

omit [Lobby D] in
theorem uncounted_switched (fd : ℤ) (p : String) : Uncounted s (s.switchAccount fd p) := by
  have h : Uncounted s s := ⟨rfl, rfl⟩
  unfold switchAccount
  split
  · exact h
  · split_ifs
    · exact h
    · exact ((h.savePlayerAsync _).run _).trans ⟨rfl, rfl⟩

/-- A disconnect counts where its fd has a player. -/
theorem disconnected_counts (fd now : ℤ) : (s.onPlayerDisconnected fd now).welcomed = s.welcomed
    ∧ (s.onPlayerDisconnected fd now).metrics.activeConnections
      = s.metrics.activeConnections - if (s.fdToPlayer fd).isSome then 1 else 0 := by
  rcases hp : s.fdToPlayer fd with _ | p
  · simp only [onPlayerDisconnected, hp, Option.isSome_none, Bool.false_eq_true, ↓reduceIte,
      Int.sub_zero]
    exact ⟨rfl, trivial⟩
  · have hdropped : Uncounted s { posted
        { s with activeConns := Function.update s.activeConns fd none } (playerSave s.world p) with
          lobby := (Lobby.drop s.lobby now p).1 } := ⟨rfl, rfl⟩
    have hsent : Uncounted s (GameService.sendToPlayers _ Message.roomEvent
      (Lobby.drop s.lobby now p).2) := hdropped.sendToPlayers (fun _ => rfl) _
    have hleft := hsent.run (.leave p)
    simp only [onPlayerDisconnected, hp, savePlayerAsync_eq]
    exact ⟨hleft.welcomed, congrArg (· - 1) hleft.metric⟩

omit [Lobby D] in
/-- A login that succeeds counts. -/
theorem loggedIn_counts {t : Ticket} {result : AccountResult} {conn : Connection}
    (saved : PlayerState F) (now : ℤ) (hconn : s.activeConns t.fd = some conn)
    (hok : result.ok = true) : (s.loggedIn t result saved now).welcomed = s.welcomed ++ [conn]
      ∧ (s.loggedIn t result saved now).metrics.activeConnections
        = s.metrics.activeConnections + 1 := by
  have hswitched := uncounted_switched (s := s) t.fd result.playerId
  have hentered : Uncounted _ (GameService.run
      ((s.switchAccount t.fd result.playerId).registerPlayerConn result.playerId conn).onConnect
      (.enterWithState result.playerId result.playerId now saved.x saved.y saved.z saved.yaw
        saved.inv)) := Uncounted.run ⟨rfl, rfl⟩ _
  unfold loggedIn
  simp only [hconn, hok, ↓reduceIte]
  constructor
  · refine (welcomed_append rfl).trans ?_
    rw [hentered.welcomed]
    exact congrArg (· ++ [conn]) hswitched.welcomed
  · exact hentered.metric.trans (congrArg (· + 1) hswitched.metric)

theorem step_counts {e : Event F} (h : step s e = some s') :
    s'.welcomed = s.welcomed ++ ((s.completes e).map Prod.fst).toList
      ∧ s'.metrics.activeConnections = s.metrics.activeConnections
        + (if (s.completes e).isSome then 1 else 0)
        - if (s.closes e).any fun conn => (s.fdToPlayer conn.fd).isSome then 1 else 0 := by
  have huncounted : s.completes e = none → s.closes e = none → Uncounted s s' →
      s'.welcomed = s.welcomed ++ ((s.completes e).map Prod.fst).toList
        ∧ s'.metrics.activeConnections = s.metrics.activeConnections
          + (if (s.completes e).isSome then 1 else 0)
          - if (s.closes e).any fun conn => (s.fdToPlayer conn.fd).isSome then 1 else 0 := by
    intro hc hcl hu
    rw [hc, hcl]
    exact ⟨hu.welcomed.trans (List.append_nil _).symm, by simpa using hu.metric⟩
  cases e with
  | accept fd =>
    obtain ⟨-, rfl⟩ := Step.accept h
    exact huncounted rfl rfl ⟨rfl, rfl⟩
  | frame fd rid request now =>
    simp only [step, Option.map_eq_some_iff] at h
    obtain ⟨conn, -, rfl⟩ := h
    exact huncounted rfl rfl (uncounted_frame rid conn now request)
  | close fd now =>
    obtain ⟨conn, hconn, rfl⟩ := Step.close h
    obtain ⟨hwelcomed, hmetric⟩ := disconnected_counts (s := s) conn.fd now
    have hcloses : s.closes (.close fd now) = some conn := hconn
    rw [hcloses]
    refine ⟨hwelcomed.trans (List.append_nil _).symm, hmetric.trans ?_⟩
    simp [completes]
  | work o =>
    obtain ⟨task, queue, -, rfl⟩ := Step.work h
    refine huncounted rfl rfl ?_
    cases task <;> exact ⟨rfl, rfl⟩
  | loop now =>
    obtain ⟨callback, callbacks, hq, rfl⟩ := Step.loop h
    have htaken : Uncounted s { s with callbacks } := ⟨rfl, rfl⟩
    cases callback with
    | registered t result =>
      refine huncounted (completes_registered hq) rfl ?_
      rcases registered_cases { s with callbacks } t result with ⟨-, heq⟩ | ⟨conn, msg, -, heq⟩
      · rwa [runCallback, heq]
      · rw [runCallback, heq]
        exact htaken.send conn rfl
    | loggedIn t result saved =>
      rcases hconn : s.activeConns t.fd with _ | conn
      · refine huncounted (by simp [completes_loggedIn hq, hconn]) rfl ?_
        simpa only [runCallback, loggedIn, hconn] using htaken
      · rcases hok : result.ok with _ | _
        · refine huncounted (by simp [completes_loggedIn hq, hok]) rfl ?_
          simp only [runCallback, loggedIn, hconn, hok, Bool.false_eq_true, ↓reduceIte]
          exact (htaken.send conn rfl).onError
        · have hcompletes : s.completes (.loop now) = some (conn, result.playerId) := by
            simp [completes_loggedIn hq, hok, hconn]
          have hcounts := loggedIn_counts (s := { s with callbacks }) saved now hconn hok
          rw [hcompletes]
          exact ⟨hcounts.1, hcounts.2.trans (Int.sub_zero _).symm⟩

theorem step_handlers {e : Event F} (hs : Sessions s) (h : step s e = some s') {conn : Connection}
    (hconn : conn.accept < s.accepted) : s'.handlers conn.fd = some conn
      ↔ s.handlers conn.fd = some conn ∧ s.closes e ≠ some conn := by
  cases e with
  | accept fd =>
    obtain ⟨hfree, rfl⟩ := Step.accept h
    simp only [Function.update_apply]
    split_ifs with hfd
    · rw [hfd, hfree]
      refine iff_of_false (fun heq => ?_) (by simp)
      have := congrArg Connection.accept (Option.some.inj heq)
      simp only at this
      omega
    · simp [closes]
  | frame fd rid request now =>
    obtain ⟨c, -, hf⟩ := Step.frame h
    rw [hf.sessions.handlers]
    simp [closes]
  | close fd now =>
    obtain ⟨c, s₁, hc, -, rfl, hcases⟩ := Step.close_cases h
    have hfd := (hs.handlers _ _ hc).1
    have hhandlers : s₁.handlers = s.handlers := by
      rcases hcases with ⟨-, rfl⟩ | ⟨p, -, hr⟩
      · rfl
      · exact hr.same.handlers
    have hcloses : s.closes (.close fd now) = some c := hc
    simp only [hhandlers, hcloses, Function.update_apply]
    split_ifs with heq
    · rw [heq, hfd, hc]
      exact iff_of_false (by simp) fun hne => hne.2 hne.1
    · refine (and_iff_left fun hsame => heq ?_).symm
      rw [Option.some.inj hsame]
  | work o =>
    obtain ⟨task, queue, -, rfl⟩ := Step.work h
    cases task <;> simp [closes, runTask]
  | loop now =>
    obtain ⟨callback, callbacks, hq, hcases⟩ := Step.loop_cases h
    have hhandlers : s'.handlers = s.handlers := by
      rcases hcases with ⟨rest, metrics, rfl, -⟩ | ⟨t, result, saved, c, -, -, -, hj⟩
      · rfl
      · rw [hj.same.handlers]
        exact (switched t.fd result.playerId (sessions_taken hs hq)).1
    rw [hhandlers]
    simp [closes]

/-- Whoever is welcomed was accepted. -/
def Accepted (s : GameService F D) : Prop := ∀ conn ∈ s.welcomed, conn.accept < s.accepted

theorem accepted_mono {e : Event F} (hs : Sessions s) (h : step s e = some s') :
    s.accepted ≤ s'.accepted := by
  cases e with
  | accept fd =>
    obtain ⟨-, rfl⟩ := Step.accept h
    exact Nat.le_succ _
  | frame fd rid request now =>
    obtain ⟨c, -, hf⟩ := Step.frame h
    exact hf.sessions.accepted.ge
  | close fd now =>
    obtain ⟨c, s₁, -, -, rfl, ⟨-, rfl⟩ | ⟨p, -, hr⟩⟩ := Step.close_cases h
    · exact le_rfl
    · exact hr.same.accepted.ge
  | work o =>
    obtain ⟨task, queue, -, rfl⟩ := Step.work h
    cases task <;> exact le_rfl
  | loop now =>
    obtain ⟨callback, callbacks, hq, ⟨rest, metrics, rfl, -⟩ |
      ⟨t, result, saved, c, -, -, -, hj⟩⟩ := Step.loop_cases h
    · exact le_rfl
    · rw [hj.same.accepted, (switched t.fd result.playerId (sessions_taken hs hq)).2.1]

omit [Platform F] [Lobby D] in
/-- A login completes on an open connection. -/
theorem completes_open {e : Event F} (hs : Sessions s) {login : Connection × String}
    (h : s.completes e = some login) : s.handlers login.1.fd = some login.1 := by
  unfold completes at h
  split at h
  · split at h
    · split_ifs at h
      obtain ⟨conn, hconn, rfl⟩ := Option.map_eq_some_iff.1 h
      have hopen := hs.active _ _ hconn
      exact (hs.handlers _ _ hopen).1.symm ▸ hopen
    · cases h
  · cases h

theorem accepted_step {e : Event F} (hs : Sessions s) (ha : Accepted s) (h : step s e = some s') :
    Accepted s' := by
  intro conn hconn
  refine lt_of_lt_of_le ?_ (accepted_mono hs h)
  rw [(step_counts h).1, List.mem_append, Option.mem_toList, Option.map_eq_some_iff] at hconn
  rcases hconn with hconn | ⟨login, hlogin, rfl⟩
  · exact ha conn hconn
  · exact (hs.handlers _ _ (completes_open hs hlogin)).2

theorem mem_liveLogins_step {e : Event F} (hs : Sessions s) (ha : Accepted s)
    (h : step s e = some s') (conn : Connection) : conn ∈ s'.liveLogins
      ↔ (conn ∈ s.liveLogins ∨ (s.completes e).map Prod.fst = some conn)
        ∧ s.closes e ≠ some conn := by
  rw [mem_liveLogins, mem_liveLogins, (step_counts h).1, List.mem_append, Option.mem_toList]
  constructor
  · rintro ⟨hin, hopen⟩
    have hlt : conn.accept < s.accepted := by
      rcases hin with hin | hin
      · exact ha conn hin
      · obtain ⟨login, hlogin, rfl⟩ := Option.map_eq_some_iff.1 hin
        exact (hs.handlers _ _ (completes_open hs hlogin)).2
    obtain ⟨hopen, hcloses⟩ := (step_handlers hs h hlt).1 hopen
    exact ⟨hin.imp_left fun hin => ⟨hin, hopen⟩, hcloses⟩
  · rintro ⟨⟨hin, hopen⟩ | hin, hcloses⟩
    · exact ⟨.inl hin, (step_handlers hs h (ha conn hin)).2 ⟨hopen, hcloses⟩⟩
    · obtain ⟨login, hlogin, rfl⟩ := Option.map_eq_some_iff.1 hin
      have hopen := completes_open hs hlogin
      exact ⟨.inr hin, (step_handlers hs h (hs.handlers _ _ hopen).2).2 ⟨hopen, hcloses⟩⟩

/-- From a balanced state a step leads to a balanced one just where its login or its close is
paired. -/
theorem balanced_step {e : Event F} (hs : Sessions s) (ha : Accepted s) (hb : Balanced s)
    (h : step s e = some s') : Balanced s' ↔ Paired s e := by
  have hmem := mem_liveLogins_step hs ha h
  have hmetric := (step_counts h).2
  unfold Balanced at hb ⊢
  unfold Paired
  rw [hmetric, hb]
  rcases hlogin : s.completes e with _ | login
  · rcases hclose : s.closes e with _ | conn
    · have hlive : s'.liveLogins = s.liveLogins := by
        ext conn
        rw [hmem, hlogin, hclose]
        simp
      simp [hlive]
    · have hlive : s'.liveLogins = s.liveLogins.erase conn := by
        ext c
        rw [hmem, hlogin, hclose, Finset.mem_erase]
        simp only [Option.map_none, reduceCtorEq, or_false, ne_eq, Option.some.injEq,
          eq_comm (a := conn), and_comm]
      rw [hlive]
      simp only [Option.isSome_none, Option.any_some, Option.mem_def, Option.some.injEq,
        Bool.false_eq_true, ↓reduceIte, reduceCtorEq, false_imp_iff, implies_true, true_and,
        forall_eq']
      by_cases hin : conn ∈ s.liveLogins
      · have hpos := Finset.card_pos.2 ⟨conn, hin⟩
        rw [Finset.card_erase_of_mem hin]
        rw [decide_eq_true hin]
        split_ifs with hfd
        · rw [hfd, iff_true_intro rfl, iff_true]
          omega
        · rw [Bool.not_eq_true] at hfd
          rw [hfd]
          simp only [Bool.false_eq_true, iff_false]
          omega
      · rw [Finset.erase_eq_of_notMem hin]
        rw [decide_eq_false hin]
        split_ifs with hfd
        · simp [hfd]
        · simpa using hfd
  · have hclose : s.closes e = none := by
      cases e with
      | close fd now => cases hlogin
      | _ => rfl
    have hlive : s'.liveLogins = insert login.1 s.liveLogins := by
      ext c
      rw [hmem, hlogin, hclose, Finset.mem_insert]
      simp only [Option.map_some, Option.some.injEq, ne_eq, reduceCtorEq, not_false_eq_true,
        and_true, or_comm, eq_comm (a := c)]
    rw [hlive, hclose, Finset.card_insert_eq_ite]
    by_cases hin : login.1 ∈ s.liveLogins <;> simp [hin]

theorem accepted_reach {ok : GameService F D → Event F → Prop} (h : Running ok s) :
    Accepted s := by
  obtain ⟨lobby, db, accounts, players, scenes, o, h⟩ := h
  refine h.invariant_of (fun s hs => sessions_reach ⟨lobby, db, accounts, players, scenes, o, hs⟩)
    (fun conn hconn => ?_) fun s e s' hs ha _ he => accepted_step hs ha he
  obtain ⟨-, -, -, -, -, -, hwire, -⟩ := start_eq lobby db accounts players scenes o
  rw [welcomed, hwire] at hconn
  cases hconn

omit [Lobby D] in
theorem balanced_start (lobby : D) (db : Database F) (accounts players scenes : Bool)
    (o : DbOutcome) : Balanced (start lobby db accounts players scenes o) := by
  obtain ⟨-, -, -, -, -, -, hwire, -⟩ := start_eq lobby db accounts players scenes o
  have hmetric : (start lobby db accounts players scenes o).metrics.activeConnections = 0 := by
    unfold start loadOrSeedScene
    dsimp only
    split <;> rfl
  rw [Balanced, hmetric, liveLogins, welcomed, hwire]
  rfl

theorem balanced_reach (h : Running Paired s) : Balanced s := by
  obtain ⟨lobby, db, accounts, players, scenes, o, h⟩ := h
  refine h.invariant_of (Q := fun s => Sessions s ∧ Accepted s) (fun s hs => ?_)
    (balanced_start lobby db accounts players scenes o) fun s e s' hs hb hp he =>
      (balanced_step hs.1 hs.2 hb he).2 hp
  exact ⟨sessions_reach ⟨lobby, db, accounts, players, scenes, o, hs⟩,
    accepted_reach ⟨lobby, db, accounts, players, scenes, o, hs⟩⟩

/-! ## One login a connection, one connection a player -/

/-- No login completes on a connection that has had one, or of a player who has another
connection. -/
def FirstLogin (s : GameService F D) (e : Event F) : Prop :=
  (∀ login ∈ s.completes e, login.1 ∉ s.liveLogins) ∧ OneConnection s e

instance (s : GameService F D) (e : Event F) : Decidable (FirstLogin s e) :=
  inferInstanceAs (Decidable ((∀ login ∈ s.completes e, _) ∧ OneConnection s e))

/-- The connections of players are those on which a login has succeeded. -/
def Bound (s : GameService F D) : Prop :=
  ∀ conn, (∃ p, s.playerConns p = some conn) ↔ conn ∈ s.liveLogins

omit [Platform F] [Lobby D] in
theorem bound_known (hs : Sessions s) (hi : Inverse s) (hb : Bound s) {conn : Connection}
    (hopen : s.handlers conn.fd = some conn) :
    (s.fdToPlayer conn.fd).isSome = decide (conn ∈ s.liveLogins) := by
  rw [Bool.eq_iff_iff, decide_eq_true_iff, ← hb conn, Option.isSome_iff_exists]
  exact ⟨fun ⟨p, hp⟩ => ⟨p, hi.bound hs hopen hp⟩, fun ⟨p, hp⟩ => ⟨p, (hs.conns p conn hp).2⟩⟩

omit [Platform F] [Lobby D] in
theorem paired_of_firstLogin {e : Event F} (hs : Sessions s) (hi : Inverse s) (hb : Bound s)
    (hfirst : FirstLogin s e) : Paired s e := by
  refine ⟨hfirst.1, fun conn hconn => bound_known hs hi hb ?_⟩
  cases e with
  | close fd now =>
    have hopen : s.handlers fd = some conn := hconn
    exact (hs.handlers fd conn hopen).1.symm ▸ hopen
  | _ => cases hconn

theorem bound_first {e : Event F} (hs : Sessions s) (ha : Accepted s) (hi : Inverse s)
    (hb : Bound s) (hfirst : FirstLogin s e) (h : step s e = some s') : Bound s' := by
  have hs' := sessions_step hs h
  intro conn
  rw [mem_liveLogins_step hs ha h, ← hb conn]
  rcases step_bindings h with ⟨hnone, hp, -⟩ | ⟨fd, now, c, p, s₁, rfl, hc, hfd, hr, hp, -⟩ |
    ⟨t, result, saved, c, callbacks, now, hlogin, hc, hq, hj⟩
  · rw [hp, hnone]
    simp only [Option.map_none, reduceCtorEq, or_false]
    refine (and_iff_left_of_imp ?_).symm
    rintro ⟨p, hconn⟩ hclose
    obtain ⟨hopen, -⟩ := hs.conns p conn hconn
    have hopen' := (hs'.conns p conn (hp ▸ hconn)).1
    exact ((step_handlers hs h (hs.handlers _ _ hopen).2).1 hopen').2 hclose
  · obtain rfl : c.fd = fd := (hs.handlers _ _ hc).1
    have hclose : s.closes (.close c.fd now) = some c := hc
    have hbound := hi.bound hs hc hfd
    rw [hp, hr.playerConns, hclose]
    simp only [completes, Option.map_none, reduceCtorEq, or_false, ne_eq, Option.some.injEq]
    constructor
    · rintro ⟨q, hq⟩
      rw [Function.update_apply] at hq
      split_ifs at hq with hqp
      refine ⟨⟨q, hq⟩, ?_⟩
      rintro rfl
      exact hqp (conns_unique hs hq hbound)
    · rintro ⟨⟨q, hq⟩, hne⟩
      refine ⟨q, ?_⟩
      rw [Function.update_of_ne, hq]
      rintro rfl
      exact hne (Option.some.inj (hbound.symm.trans hq))
  · obtain ⟨hnew, hone⟩ := hfirst
    have hopen := hs.active _ _ hc
    have hnone : s.closes e = none := by
      cases e with
      | close fd now => cases hlogin
      | _ => rfl
    have hunswitched : switchAccount { s with callbacks } t.fd result.playerId
        = { s with callbacks } := by
      rcases switchAccount_cases { s with callbacks } t.fd result.playerId with
        ⟨heq, -⟩ | ⟨old, hold, -⟩
      · exact heq
      · exact absurd ((hb c).1 ⟨old, hi.bound hs hopen hold⟩) (hnew _ hlogin)
    rw [hunswitched] at hj
    rw [hj.playerConns, hlogin, hnone]
    simp only [Option.map_some, Option.some.injEq, ne_eq, reduceCtorEq, not_false_eq_true, and_true]
    constructor
    · rintro ⟨q, hq⟩
      rw [Function.update_apply] at hq
      split_ifs at hq
      · exact .inr (Option.some.inj hq)
      · exact .inl ⟨q, hq⟩
    · rintro (⟨q, hq⟩ | rfl)
      · refine ⟨q, ?_⟩
        rw [Function.update_apply]
        split_ifs with hqp
        · rw [hone _ hlogin conn (hqp ▸ hq)]
        · exact hq
      · exact ⟨result.playerId, Function.update_self ..⟩

theorem bound_reach (h : Running FirstLogin s) : Bound s := by
  obtain ⟨lobby, db, accounts, players, scenes, o, h⟩ := h
  have hall : ∀ s, Reach step FirstLogin (start lobby db accounts players scenes o) s →
      Sessions s ∧ Accepted s ∧ Inverse s := fun s hs =>
    ⟨sessions_reach ⟨lobby, db, accounts, players, scenes, o, hs⟩,
      accepted_reach ⟨lobby, db, accounts, players, scenes, o, hs⟩,
      inverse_reach ⟨lobby, db, accounts, players, scenes, o, hs.mono fun _ _ h => h.2⟩⟩
  refine h.invariant_of hall (fun conn => ?_) fun s e s' ⟨hs, ha, hi⟩ hb hfirst he =>
    bound_first hs ha hi hb hfirst he
  obtain ⟨hconns, -, -, -, -, -, hwire, -⟩ := start_eq lobby db accounts players scenes o
  rw [hconns, liveLogins, welcomed, hwire]
  simp

/-- In every run of paired events the metric is the number of open connections on which a login has
succeeded, so it is never negative and back at 0 when all are closed; and from a state of any run
where it is that number, just a paired event leads to another. All events are paired in a run in
which no connection logs in twice and no player while another connection is his. -/
theorem metric_iff :
    (∀ s : GameService F D, Running Paired s →
      s.metrics.activeConnections = s.liveLogins.card ∧ 0 ≤ s.metrics.activeConnections
        ∧ ((∀ fd, s.handlers fd = none) → s.metrics.activeConnections = 0)) ∧
    (∀ (s : GameService F D) e s', Running anyEvent s → step s e = some s' →
      s.metrics.activeConnections = s.liveLogins.card →
        (s'.metrics.activeConnections = s'.liveLogins.card ↔ Paired s e)) ∧
    ∀ (s : GameService F D) e, Running FirstLogin s → FirstLogin s e → Paired s e := by
  refine ⟨fun s h => ?_, fun s e s' h he hb => ?_, fun s e h hfirst => ?_⟩
  · have hb := balanced_reach h
    refine ⟨hb, hb ▸ Int.natCast_nonneg _, fun hclosed => ?_⟩
    have hempty : s.liveLogins = ∅ := by
      rw [Finset.eq_empty_iff_forall_notMem]
      intro conn hconn
      have hopen := (mem_liveLogins.1 hconn).2
      rw [hclosed] at hopen
      cases hopen
    rw [hb, hempty]
    rfl
  · exact balanced_step (sessions_reach h) (accepted_reach h) hb he
  · obtain ⟨lobby, db, accounts, players, scenes, o, hr⟩ := h
    exact paired_of_firstLogin (sessions_reach ⟨lobby, db, accounts, players, scenes, o, hr⟩)
      (inverse_reach ⟨lobby, db, accounts, players, scenes, o, hr.mono fun _ _ h => h.2⟩)
      (bound_reach ⟨lobby, db, accounts, players, scenes, o, hr⟩) hfirst

/-- Two connections, one of which has logged in. -/
theorem metric_iff_ann : ∃ s : GameService ℚ Unit, s.handlers 6 = some ⟨1, 6⟩ ∧
    s.liveLogins = {⟨0, 5⟩} ∧ s.metrics.activeConnections = 1 := by
  have hplay : (play Paired twoAccounts (List.flatten [[.accept 5, .accept 6], loginAnn 5])).map
      (fun s => (s.handlers 6, s.liveLogins)) = some (some ⟨1, 6⟩, {⟨0, 5⟩}) := by
    decide +kernel
  obtain ⟨s, hs, hstate⟩ := Option.map_eq_some_iff.1 hplay
  obtain ⟨hopen, hlive⟩ := Prod.mk.inj hstate
  refine ⟨s, hopen, hlive, ?_⟩
  rw [(metric_iff.1 s (running_of_play hs)).1, hlive]
  rfl

/-- A second login on a connection is counted again, and its close takes away one. -/
theorem metric_drifts : ¬∀ s : GameService ℚ Unit, Running anyEvent s →
    s.metrics.activeConnections = s.liveLogins.card := by
  intro h
  have hplay : (play anyEvent twoAccounts
      (List.flatten [[.accept 5], loginAnn 5, loginAnn 5, [.close 5 0]])).map
        (fun s => (s.metrics.activeConnections, s.liveLogins)) = some (1, ∅) := by
    decide +kernel
  obtain ⟨s, hs, hstate⟩ := Option.map_eq_some_iff.1 hplay
  obtain ⟨hmetric, hlive⟩ := Prod.mk.inj hstate
  have hb := h s (running_of_play hs)
  rw [hmetric, hlive] at hb
  exact absurd hb (by decide)

end GameService

end TinRpc
