import TinRpc.Proofs.Routing

/-!
# Services that differ in what is sent

What is on the wire and in the metrics is read by no step that changes anything else, and
`active_conns_` only by the completion of a login. So two services that agree on everything else,
and on the connections that pending logins will be completed on, still do after an event they both
handle (`alike_step`).
-/

namespace TinRpc

/-- The descriptor of the connection that a login came from. -/
def Task.login {F : Type} : Task F → Option ℤ
  | .verifyLogin t .. => some t.fd
  | _ => none

def Callback.login {F : Type} : Callback F → Option ℤ
  | .loggedIn t .. => some t.fd
  | _ => none

namespace GameService

section Same

variable {F D : Type} {s s' t t' : GameService F D}

theorem SameSessions.symm (h : SameSessions s t) : SameSessions t s :=
  ⟨h.playerConns.symm, h.fdToPlayer.symm, h.handlers.symm, h.accepted.symm⟩

theorem SameSessions.trans (h : SameSessions s t) (h' : SameSessions t t') : SameSessions s t' :=
  ⟨h'.playerConns.trans h.playerConns, h'.fdToPlayer.trans h.fdToPlayer,
    h'.handlers.trans h.handlers, h'.accepted.trans h.accepted⟩

theorem SameStores.symm (h : SameStores s t) : SameStores t s :=
  ⟨h.db.symm, h.accounts.symm, h.players.symm, h.scenes.symm, h.verified.symm,
    h.storedScenes.symm, h.storedSaves.symm⟩

theorem SameStores.trans (h : SameStores s t) (h' : SameStores t t') : SameStores s t' :=
  ⟨h'.db.trans h.db, h'.accounts.trans h.accounts, h'.players.trans h.players,
    h'.scenes.trans h.scenes, h'.verified.trans h.verified, h'.storedScenes.trans h.storedScenes,
    h'.storedSaves.trans h.storedSaves⟩

/-- The services agree but for their lobbies, `active_conns_`, and what clients see of them. -/
structure Same (s t : GameService F D) : Prop where
  sessions : SameSessions s t
  stores : SameStores s t
  world : t.world = s.world
  queue : t.queue = s.queue
  callbacks : t.callbacks = s.callbacks
  posted : t.log.posted = s.log.posted
  acts : t.log.acts = s.log.acts
  effects : t.log.effects = s.log.effects
  since : t.log.since = s.log.since

theorem Same.refl (s : GameService F D) : Same s s :=
  ⟨⟨rfl, rfl, rfl, rfl⟩, ⟨rfl, rfl, rfl, rfl, rfl, rfl, rfl⟩, rfl, rfl, rfl, rfl, rfl, rfl, rfl⟩

theorem same_view (s : GameService F D) (lobby lobby' : D)
    (activeConns activeConns' : ℤ → Option Connection) (wire wire' : List (Connection × Message F))
    (metrics metrics' : Metrics) :
    Same { s with lobby, activeConns, wire, metrics }
      { s with lobby := lobby', activeConns := activeConns', wire := wire', metrics := metrics' } :=
  ⟨⟨rfl, rfl, rfl, rfl⟩, ⟨rfl, rfl, rfl, rfl, rfl, rfl, rfl⟩, rfl, rfl, rfl, rfl, rfl, rfl, rfl⟩

theorem Same.symm (h : Same s t) : Same t s :=
  ⟨h.sessions.symm, h.stores.symm, h.world.symm, h.queue.symm, h.callbacks.symm, h.posted.symm,
    h.acts.symm, h.effects.symm, h.since.symm⟩

theorem Same.trans (h : Same s t) (h' : Same t t') : Same s t' :=
  ⟨h.sessions.trans h'.sessions, h.stores.trans h'.stores, h'.world.trans h.world,
    h'.queue.trans h.queue, h'.callbacks.trans h.callbacks, h'.posted.trans h.posted,
    h'.acts.trans h.acts, h'.effects.trans h.effects, h'.since.trans h.since⟩

/-- One service is the other with another lobby, other connections in `active_conns_`, and another
view of its clients. -/
theorem Same.eq (h : Same s t) : ∃ lobby activeConns wire metrics,
    t = { s with lobby, activeConns, wire, metrics } := by
  obtain ⟨⟨hp, hf, hh, ha⟩, ⟨hd, hacc, hpl, hsc, hv, hss, hsv⟩, hw, hq, hc, hpo, hac, he, hsi⟩ := h
  refine ⟨t.lobby, t.activeConns, t.wire, t.metrics, ?_⟩
  obtain ⟨_, _, _, _, _, _, _, _, _, _, _, _, _, _, _, ⟨_, _, _, _, _, _, _⟩⟩ := s
  obtain ⟨_, _, _, _, _, _, _, _, _, _, _, _, _, _, _, ⟨_, _, _, _, _, _, _⟩⟩ := t
  simp only at *
  subst_vars
  rfl

end Same

variable {F D : Type} [Platform F] {s s' t t' : GameService F D}

theorem same_framed {rid : ℕ} {conn : Connection} {now : ℤ} {request : Request F} (h : Same s t)
    (hs : Framed s rid conn now request s') (ht : Framed t rid conn now request t') :
    Same s' t' := by
  have hsessions := hs.sessions.symm.trans (h.sessions.trans ht.sessions)
  have hstores := hs.stores.symm.trans (h.stores.trans ht.stores)
  obtain ⟨lobby, activeConns, wire, metrics, rfl⟩ := h.eq
  have hcall : frameCall { s with lobby, activeConns, wire, metrics } conn now request =
      s.frameCall conn now request := rfl
  have htasks : frameTasks { s with lobby, activeConns, wire, metrics } rid conn now request =
      s.frameTasks rid conn now request := rfl
  exact {
    sessions := hsessions
    stores := hstores
    world := by rw [ht.world, hcall, hs.world]
    queue := by rw [ht.queue, htasks, hs.queue]
    callbacks := ht.callbacks.trans hs.callbacks.symm
    posted := by rw [ht.posted, htasks, hs.posted]
    acts := by rw [ht.acts, hcall, hs.acts]
    effects := by rw [ht.effects, hcall, hs.effects]
    since := by rw [ht.since, hcall, hs.since] }

omit [Platform F] in
/-- Changes of the sessions and the world that are the same in both. -/
theorem same_of_books (h : Same s t) (hs : SameBooks s s') (ht : SameBooks t t')
    (hconns : t'.playerConns = s'.playerConns) (hfds : t'.fdToPlayer = s'.fdToPlayer)
    (hworld : t'.world = s'.world) (hqueue : t'.queue = s'.queue)
    (hposted : t'.log.posted = s'.log.posted) (hsince : t'.log.since = s'.log.since) :
    Same s' t' where
  sessions := ⟨hconns, hfds, by rw [ht.handlers, h.sessions.handlers, hs.handlers],
    by rw [ht.accepted, h.sessions.accepted, hs.accepted]⟩
  stores := hs.stores.symm.trans (h.stores.trans ht.stores)
  world := hworld
  queue := hqueue
  callbacks := by rw [ht.callbacks, h.callbacks, hs.callbacks]
  posted := hposted
  acts := by rw [ht.acts, h.acts, hs.acts]
  effects := by rw [ht.effects, h.effects, hs.effects]
  since := hsince

omit [Platform F] in
theorem same_removed {p : String} (h : Same s t) (hs : Removed s p s') (ht : Removed t p t') :
    Same s' t' := by
  refine same_of_books h hs.same ht.same ?_ ?_ ?_ ?_ ?_ ?_
  · rw [ht.playerConns, h.sessions.playerConns, hs.playerConns]
  · rw [ht.fdToPlayer, h.sessions.playerConns, h.sessions.fdToPlayer, hs.fdToPlayer]
  · rw [ht.world, h.world, hs.world]
  · rw [ht.queue, h.queue, h.world, hs.queue]
  · rw [ht.posted, h.posted, h.world, hs.posted]
  · rw [ht.since, h.since, hs.since]

theorem same_joined {conn : Connection} {p : String} {saved : PlayerState F} {now : ℤ} {rid : ℕ}
    (h : Same s t) (hs : Joined s conn p saved now rid s') (ht : Joined t conn p saved now rid t') :
    Same s' t' := by
  refine same_of_books h hs.same ht.same ?_ ?_ ?_ ?_ ?_ ?_
  · rw [ht.playerConns, h.sessions.playerConns, hs.playerConns]
  · rw [ht.fdToPlayer, h.sessions.fdToPlayer, hs.fdToPlayer]
  · rw [ht.world, h.world, hs.world]
  · rw [ht.queue, h.queue, hs.queue]
  · rw [ht.posted, h.posted, hs.posted]
  · rw [ht.since, h.since, hs.since]

theorem same_switched {fd : ℤ} {p : String} (h : Same s t) :
    Same (s.switchAccount fd p) (t.switchAccount fd p) := by
  have hfd : t.fdToPlayer fd = s.fdToPlayer fd := congrFun h.sessions.fdToPlayer fd
  rcases s.switchAccount_cases fd p with ⟨hs, hp⟩ | ⟨old, hold, hne, hs, -⟩
  · rcases t.switchAccount_cases fd p with ⟨ht, -⟩ | ⟨old, hold, hne, -, -⟩
    · rw [hs, ht]
      exact h
    · rw [hfd] at hold
      exact absurd (hp old hold) hne
  · rcases t.switchAccount_cases fd p with ⟨-, hp⟩ | ⟨old', hold', -, ht, -⟩
    · exact absurd (hp old (hfd.trans hold)) hne
    · rw [hfd, hold, Option.some.injEq] at hold'
      exact same_removed h hs (hold' ▸ ht)

theorem same_runTask {o : DbOutcome} {task : Task F} (h : Same s t) :
    Same (s.runTask o task) (t.runTask o task) := by
  obtain ⟨lobby, activeConns, wire, metrics, rfl⟩ := h.eq
  cases task
  all_goals exact ⟨⟨rfl, rfl, rfl, rfl⟩, ⟨rfl, rfl, rfl, rfl, rfl, rfl, rfl⟩, rfl, rfl, rfl, rfl,
    rfl, rfl, rfl⟩

/-- A callback that finds the same connection for a login does the same. -/
theorem same_runCallback {callback : Callback F} {now : ℤ} (h : Same s t)
    (hconn : ∀ fd ∈ callback.login, t.activeConns fd = s.activeConns fd) :
    Same (s.runCallback now callback) (t.runCallback now callback) := by
  cases callback with
  | registered tk result =>
    obtain ⟨lobby, activeConns, wire, metrics, rfl⟩ := h.eq
    simp only [runCallback]
    rcases s.registered_cases tk result with ⟨-, hs⟩ | ⟨conn, msg, -, hs⟩
    all_goals
      rcases registered_cases { s with lobby, activeConns, wire, metrics } tk result with
        ⟨-, ht⟩ | ⟨conn, msg, -, ht⟩
      all_goals
        rw [hs, ht]
        exact same_view s ..
  | loggedIn tk result saved =>
    have hc : t.activeConns tk.fd = s.activeConns tk.fd := hconn _ rfl
    simp only [runCallback]
    rcases s.loggedIn_cases tk result saved now with ⟨hnone, hs⟩ |
      ⟨conn, hsome, ⟨hok, msg, metrics, hs⟩ | ⟨hok, hs⟩⟩
    · rcases t.loggedIn_cases tk result saved now with ⟨-, ht⟩ | ⟨conn, hsome, -⟩
      · rw [hs, ht]
        exact h
      · rw [hc, hnone] at hsome
        cases hsome
    · rcases t.loggedIn_cases tk result saved now with ⟨hnone, -⟩ |
        ⟨conn', -, ⟨-, msg', metrics', ht⟩ | ⟨hok', -⟩⟩
      · rw [hc, hsome] at hnone
        cases hnone
      · rw [hs, ht]
        obtain ⟨lobby, activeConns, wire, metrics, rfl⟩ := h.eq
        exact same_view s ..
      · rw [hok] at hok'
        cases hok'
    · rcases t.loggedIn_cases tk result saved now with ⟨hnone, -⟩ |
        ⟨conn', hsome', ⟨hok', -⟩ | ⟨-, ht⟩⟩
      · rw [hc, hsome] at hnone
        cases hnone
      · rw [hok] at hok'
        cases hok'
      · rw [hc, hsome, Option.some.injEq] at hsome'
        exact same_joined (same_switched h) hs (hsome' ▸ ht)

/-- The descriptors that pending logins will be completed on. -/
def logins (s : GameService F D) : List ℤ :=
  s.queue.filterMap Task.login ++ s.callbacks.filterMap Callback.login

omit [Platform F] in
theorem logins_taken {callback : Callback F} {callbacks : List (Callback F)}
    (hq : s.callbacks = callback :: callbacks) {fd : ℤ}
    (hfd : fd ∈ ({ s with callbacks } : GameService F D).logins) : fd ∈ s.logins := by
  rw [logins, hq]
  rcases List.mem_append.1 hfd with hfd | hfd
  · exact List.mem_append_left _ hfd
  · obtain ⟨c, hc, hlogin⟩ := List.mem_filterMap.1 hfd
    exact List.mem_append_right _ (List.mem_filterMap.2 ⟨c, List.mem_cons_of_mem _ hc, hlogin⟩)

omit [Platform F] in
theorem logins_removed {p : String} {fd : ℤ} (h : Removed s p s') (hfd : fd ∈ s'.logins) :
    fd ∈ s.logins := by
  rw [logins, h.queue, h.same.callbacks, List.filterMap_append, List.append_assoc] at hfd
  rcases List.mem_append.1 hfd with hfd | hfd
  · exact List.mem_append_left _ hfd
  · rcases List.mem_append.1 hfd with hfd | hfd
    · obtain ⟨task, htask, hlogin⟩ := List.mem_filterMap.1 hfd
      obtain ⟨st, -, rfl⟩ := mem_playerSave.1 htask
      cases hlogin
    · exact List.mem_append_right _ hfd

variable [Lobby D] {e : Event F}

/-- What `active_conns_` holds after an event. -/
def activeAfter (s : GameService F D) : Event F → ℤ → Option Connection
  | .frame fd _ _ _ => (s.handlers fd).elim s.activeConns fun conn =>
      Function.update s.activeConns conn.fd (some conn)
  | .close fd _ => (s.handlers fd).elim s.activeConns fun conn =>
      Function.update s.activeConns conn.fd none
  | _ => s.activeConns

theorem step_activeConns (h : step s e = some s') : s'.activeConns = s.activeAfter e := by
  cases e with
  | accept fd =>
    obtain ⟨-, rfl⟩ := Step.accept h
    rfl
  | frame fd rid request now =>
    obtain ⟨conn, hconn, hf⟩ := Step.frame h
    rw [hf.activeConns, activeAfter, hconn]
    rfl
  | close fd now =>
    obtain ⟨conn, s₁, hconn, hactive, rfl, -⟩ := Step.close_cases h
    rw [activeAfter, hconn]
    exact hactive
  | work o =>
    obtain ⟨task, queue, -, rfl⟩ := Step.work h
    cases task <;> rfl
  | loop now =>
    obtain ⟨callback, callbacks, -, ⟨rest, metrics, rfl, -⟩ |
      ⟨t, result, saved, conn, -, -, -, hj⟩⟩ := Step.loop_cases h
    · rfl
    · rw [hj.activeConns]
      rcases switchAccount_cases { s with callbacks } t.fd result.playerId with ⟨he, -⟩ |
        ⟨old, -, -, -, ha⟩
      · rw [he]
        rfl
      · exact ha

/-- A login that is pending was, or comes from the connection of the frame. -/
theorem step_logins {fd : ℤ} (h : step s e = some s') (hfd : fd ∈ s'.logins) : fd ∈ s.logins ∨
    ∃ d rid request now conn, e = .frame d rid request now ∧ s.handlers d = some conn ∧
      conn.fd = fd := by
  cases e with
  | accept d =>
    obtain ⟨-, rfl⟩ := Step.accept h
    exact .inl hfd
  | frame d rid request now =>
    obtain ⟨conn, hconn, hf⟩ := Step.frame h
    rw [logins, hf.queue, hf.callbacks, List.filterMap_append] at hfd
    simp only [List.mem_append] at hfd
    rcases hfd with (hfd | hfd) | hfd
    · exact .inl (List.mem_append_left _ hfd)
    · obtain ⟨task, htask, hlogin⟩ := List.mem_filterMap.1 hfd
      rcases mem_frameTasks htask with ⟨_, _, rfl⟩ | ⟨_, _, rfl⟩ | ⟨k, -, hk⟩
      · cases hlogin
      · exact .inr ⟨d, rid, request, now, conn, rfl, hconn, Option.some.inj hlogin⟩
      · rcases mem_callTasks hk with ⟨_, rfl⟩ | ⟨_, rfl⟩ <;> cases hlogin
    · exact .inl (List.mem_append_right _ hfd)
  | close d now =>
    obtain ⟨conn, s₁, -, -, rfl, ⟨-, rfl⟩ | ⟨p, -, hr⟩⟩ := Step.close_cases h
    · exact .inl hfd
    · exact .inl (logins_removed hr hfd)
  | work o =>
    obtain ⟨task, queue, hq, rfl⟩ := Step.work h
    refine .inl ?_
    rw [logins, hq]
    cases task with
    | verifyLogin t username password =>
      simp only [runTask, logins, List.filterMap_append, List.mem_append] at hfd
      rcases hfd with hfd | hfd | hfd
      · exact List.mem_append_left _ (List.mem_cons_of_mem _ hfd)
      · exact List.mem_append_right _ hfd
      · exact List.mem_append_left _ (List.mem_singleton.1 hfd ▸ List.mem_cons_self)
    | createAccount t username password =>
      simpa [runTask, logins, List.filterMap_append, Task.login, Callback.login] using hfd
    | _ => exact hfd
  | loop now =>
    obtain ⟨callback, callbacks, hq, ⟨rest, metrics, rfl, -⟩ |
      ⟨t, result, saved, conn, -, -, -, hj⟩⟩ := Step.loop_cases h
    · exact .inl (logins_taken hq hfd)
    · refine .inl (logins_taken hq ?_)
      rw [logins, hj.queue, hj.same.callbacks] at hfd
      rcases switchAccount_cases { s with callbacks } t.fd result.playerId with ⟨he, -⟩ |
        ⟨old, -, -, hr, -⟩
      · rwa [he] at hfd
      · exact logins_removed hr hfd

theorem same_step (h : Same s t) (hconns : ∀ fd ∈ s.logins, t.activeConns fd = s.activeConns fd)
    (hs : step s e = some s') (ht : step t e = some t') : Same s' t' := by
  cases e with
  | accept fd =>
    obtain ⟨-, rfl⟩ := Step.accept hs
    obtain ⟨-, rfl⟩ := Step.accept ht
    obtain ⟨lobby, activeConns, wire, metrics, rfl⟩ := h.eq
    exact same_view { s with
      handlers := Function.update s.handlers fd (some ⟨s.accepted, fd⟩)
      accepted := s.accepted + 1 } ..
  | frame fd rid request now =>
    obtain ⟨conn, hconn, hs⟩ := Step.frame hs
    obtain ⟨conn', hconn', ht⟩ := Step.frame ht
    rw [h.sessions.handlers, hconn, Option.some.injEq] at hconn'
    exact same_framed h hs (hconn' ▸ ht)
  | close fd now =>
    obtain ⟨conn, s₁, hconn, -, rfl, hleft⟩ := Step.close_cases hs
    obtain ⟨conn', t₁, hconn', -, rfl, hright⟩ := Step.close_cases ht
    rw [h.sessions.handlers, hconn, Option.some.injEq] at hconn'
    subst hconn'
    have hclosed : Same s₁ t₁ := by
      rw [h.sessions.fdToPlayer] at hright
      rcases hleft with ⟨hnone, rfl⟩ | ⟨p, hp, hleft⟩
      · rcases hright with ⟨-, rfl⟩ | ⟨p, hp, -⟩
        · obtain ⟨lobby, activeConns, wire, metrics, rfl⟩ := h.eq
          exact same_view s ..
        · rw [hnone] at hp
          cases hp
      · rcases hright with ⟨hnone, -⟩ | ⟨p', hp', hright⟩
        · rw [hp] at hnone
          cases hnone
        · rw [hp, Option.some.injEq] at hp'
          exact same_removed h hleft (hp' ▸ hright)
    obtain ⟨lobby, activeConns, wire, metrics, rfl⟩ := hclosed.eq
    exact same_view { s₁ with handlers := Function.update s₁.handlers conn.fd none } ..
  | work o =>
    obtain ⟨task, queue, hq, rfl⟩ := Step.work hs
    obtain ⟨task', queue', hq', rfl⟩ := Step.work ht
    rw [h.queue, hq] at hq'
    obtain ⟨rfl, rfl⟩ := List.cons.inj hq'
    obtain ⟨lobby, activeConns, wire, metrics, rfl⟩ := h.eq
    exact same_runTask (same_view { s with queue } ..)
  | loop now =>
    obtain ⟨callback, callbacks, hq, rfl⟩ := Step.loop hs
    obtain ⟨callback', callbacks', hq', rfl⟩ := Step.loop ht
    rw [h.callbacks, hq] at hq'
    obtain ⟨rfl, rfl⟩ := List.cons.inj hq'
    obtain ⟨lobby, activeConns, wire, metrics, rfl⟩ := h.eq
    refine same_runCallback (same_view { s with callbacks } ..) fun fd hfd => hconns fd ?_
    rw [logins, hq]
    exact List.mem_append_right _ (List.mem_filterMap.2 ⟨callback, List.mem_cons_self, hfd⟩)

/-- The connections that logins will be completed on stay the same. -/
theorem conns_step (hhandlers : t.handlers = s.handlers)
    (hconns : ∀ fd ∈ s.logins, t.activeConns fd = s.activeConns fd) (hs : step s e = some s')
    (ht : step t e = some t') : ∀ fd ∈ s'.logins, t'.activeConns fd = s'.activeConns fd := by
  intro fd hfd
  rw [step_activeConns hs, step_activeConns ht]
  rcases step_logins hs hfd with hfd | ⟨d, rid, request, now, conn, rfl, hconn, rfl⟩
  · have hkept := hconns fd hfd
    cases e with
    | frame d rid request now =>
      rw [activeAfter, activeAfter, hhandlers]
      rcases s.handlers d with _ | conn
      · exact hkept
      · simp only [Option.elim_some, Function.update_apply, hkept]
    | close d now =>
      rw [activeAfter, activeAfter, hhandlers]
      rcases s.handlers d with _ | conn
      · exact hkept
      · simp only [Option.elim_some, Function.update_apply, hkept]
    | _ => exact hkept
  · rw [activeAfter, activeAfter, hhandlers, hconn]
    simp only [Option.elim_some, Function.update_self]

section Lobby

variable {E : Type} [Doubles E] [GameProto E] {s s' t t' : GameService F (GameLobby E)}

/-- The services differ only in what clients see of them, and in connections that no login is going
to be completed on. -/
structure Alike (s t : GameService F (GameLobby E)) : Prop where
  same : Same s t
  lobby : t.lobby = s.lobby
  conns : ∀ fd ∈ s.logins, t.activeConns fd = s.activeConns fd

omit [Platform F] [Doubles E] [GameProto E] in
theorem Alike.refl (s : GameService F (GameLobby E)) : Alike s s :=
  ⟨.refl s, rfl, fun _ _ => rfl⟩

omit [Platform F] [Doubles E] [GameProto E] in
theorem Alike.symm (h : Alike s t) : Alike t s := by
  refine ⟨h.same.symm, h.lobby.symm, fun fd hfd => (h.conns fd ?_).symm⟩
  rwa [logins, h.same.queue, h.same.callbacks] at hfd

omit [GameProto E] in
/-- What a request does to the lobby does not depend on the metrics. -/
theorem handle_metrics (g : GameLobby E) (now : ℤ) (metrics metrics' : Metrics)
    (r : LobbyRequest E) : (g.handle now metrics r).state = (g.handle now metrics' r).state := by
  cases r <;> rfl

omit [Platform F] in
theorem lobbyAfter_alike {e : Event F} (h : Alike s t) : t.lobbyAfter e = s.lobbyAfter e := by
  cases e with
  | frame fd rid request now =>
    cases request with
    | other method body =>
      simp only [lobbyAfter, h.lobby, Lobby.call]
      rcases LobbyRequest.read (E := E) method body with _ | r
      · rfl
      · exact handle_metrics s.lobby now t.metrics s.metrics r
    | _ => exact h.lobby
  | close fd now =>
    simp only [lobbyAfter, h.lobby, h.same.sessions.handlers, h.same.sessions.fdToPlayer]
  | _ => exact h.lobby

/-- An event keeps two services alike. -/
theorem alike_step {e : Event F} (h : Alike s t) (hs : step s e = some s')
    (ht : step t e = some t') : Alike s' t' where
  same := same_step h.same h.conns hs ht
  lobby := by rw [step_lobby hs, step_lobby ht, lobbyAfter_alike h]
  conns := conns_step h.same.sessions.handlers h.conns hs ht

end Lobby

end GameService

end TinRpc
