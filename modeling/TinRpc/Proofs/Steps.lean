import TinRpc.Proofs.Frames

/-!
# What a step does

A step is a frame (`Framed`), or it changes the sessions: an accept, the removal of a player
(`Removed`) by a disconnect or an account switch, a login's completion (`Joined`); or it is the
worker at its next task.
-/

namespace TinRpc

namespace GameService

variable {F D : Type} [Platform F] (s : GameService F D)

/-- The state but for what the clients see of it and the counts. -/
structure SameBooks (s s' : GameService F D) : Prop where
  stores : SameStores s s'
  callbacks : s'.callbacks = s.callbacks
  handlers : s'.handlers = s.handlers
  accepted : s'.accepted = s.accepted
  acts : s'.log.acts = s.log.acts
  effects : s'.log.effects = s.log.effects

/-- A player leaves the world and loses his connection, after a last save. -/
structure Removed (s : GameService F D) (p : String) (s' : GameService F D) : Prop where
  same : SameBooks s s'
  playerConns : s'.playerConns = Function.update s.playerConns p none
  fdToPlayer : s'.fdToPlayer = match s.playerConns p with
    | some conn => Function.update s.fdToPlayer conn.fd none
    | none => s.fdToPlayer
  world : s'.world = (s.world.leave p).1
  queue : s'.queue = s.queue ++ playerSave s.world p
  posted : s'.log.posted = s.log.posted ++ playerSave s.world p
  since : s'.log.since = s.log.since
  wire : ∃ rest, s'.wire = s.wire ++ rest ∧
    ∀ m ∈ rest, (∃ data, m.2 = .roomEvent data) ∨ ∃ id, m.2 = .push (.playerLeave id)

/-- A player enters with the state loaded for him and is bound to a connection. -/
structure Joined (s : GameService F D) (conn : Connection) (p : String) (saved : PlayerState F)
    (now : ℤ) (rid : ℕ) (s' : GameService F D) : Prop where
  same : SameBooks s s'
  playerConns : s'.playerConns = Function.update s.playerConns p (some conn)
  fdToPlayer : s'.fdToPlayer = Function.update s.fdToPlayer conn.fd (some p)
  activeConns : s'.activeConns = s.activeConns
  world : s'.world =
    (s.world.enterWithState p p now saved.x saved.y saved.z saved.yaw saved.inv).1
  queue : s'.queue = s.queue
  posted : s'.log.posted = s.log.posted
  since : s'.log.since = Function.update s.log.since p []
  wire : s'.wire = s.wire ++ s'.delivered .push
      (s.world.enterWithState p p now saved.x saved.y saved.z saved.yaw saved.inv).2 ++
    [(conn, .response rid (.login true "" (some (p, p))))]

omit [Platform F] in
theorem mem_delivered {M : Type} {msg : M → Message F} {sent : List (String × M)}
    {m : Connection × Message F} : m ∈ s.delivered msg sent ↔
      ∃ e ∈ sent, ∃ conn, s.playerConns e.1 = some conn ∧ m = (conn, msg e.2) := by
  simp only [delivered, List.mem_filterMap, Option.map_eq_some_iff]
  constructor
  · rintro ⟨e, he, conn, hconn, rfl⟩
    exact ⟨e, he, conn, hconn, rfl⟩
  · rintro ⟨e, he, conn, hconn, rfl⟩
    exact ⟨e, he, conn, hconn, rfl⟩

theorem leave_removed (p : String) (lobby : D) (events : List (String × List UInt8))
    (metrics : Metrics) (active : ℤ → Option Connection) :
    Removed s p { ((sendToPlayers { s.posted (playerSave s.world p) with lobby } .roomEvent
      events).run (.leave p)).unregisterPlayerConn p with
        metrics, activeConns := active } := by
  exact {
    same := ⟨⟨rfl, rfl, rfl, rfl, rfl, rfl, rfl⟩, rfl, rfl, rfl, rfl, List.append_nil _⟩
    playerConns := rfl
    fdToPlayer := rfl
    world := rfl
    queue := rfl
    posted := rfl
    since := rfl
    wire := by
      refine ⟨s.delivered .roomEvent events ++ s.delivered .push (s.world.leave p).2,
        List.append_assoc .., fun m hm => ?_⟩
      rcases List.mem_append.1 hm with hm | hm
      · obtain ⟨e, -, conn, -, rfl⟩ := (mem_delivered s).1 hm
        exact .inl ⟨_, rfl⟩
      · obtain ⟨e, he, conn, -, rfl⟩ := (mem_delivered s).1 hm
        obtain ⟨id, hid⟩ := (s.world.leave_spec p).2.2.2 e he
        exact .inr ⟨id, congrArg Message.push hid⟩ }

/-- The account switch does nothing, or removes the player the fd had. -/
theorem switchAccount_cases (fd : ℤ) (p : String) :
    (s.switchAccount fd p = s ∧ ∀ old, s.fdToPlayer fd = some old → old = p) ∨
    ∃ old, s.fdToPlayer fd = some old ∧ old ≠ p ∧ Removed s old (s.switchAccount fd p) ∧
      (s.switchAccount fd p).activeConns = s.activeConns := by
  unfold switchAccount
  rcases hold : s.fdToPlayer fd with _ | old
  · exact .inl ⟨rfl, by simp⟩
  by_cases h : old = p
  · exact .inl ⟨by simp [h], by simp [h]⟩
  · refine .inr ⟨old, rfl, h, ?_⟩
    simp only [h, ↓reduceIte, savePlayerAsync_eq]
    have hr := leave_removed s old s.lobby [] s.metrics s.activeConns
    simp only [sendToPlayers, List.filterMap_nil, List.append_nil] at hr
    exact ⟨hr, rfl⟩

/-- A disconnect forgets the fd's connection and removes the player the fd had. -/
theorem onPlayerDisconnected_cases [Lobby D] (fd now : ℤ) :
    let s' := s.onPlayerDisconnected fd now
    s'.activeConns = Function.update s.activeConns fd none ∧
      (s.fdToPlayer fd = none ∧
          s' = { s with activeConns := Function.update s.activeConns fd none } ∨
        ∃ p, s.fdToPlayer fd = some p ∧ Removed s p s') := by
  rcases hp : s.fdToPlayer fd with _ | p
  · simp only [onPlayerDisconnected, hp]
    exact ⟨trivial, .inl ⟨trivial, trivial⟩⟩
  · simp only [onPlayerDisconnected, hp, savePlayerAsync_eq]
    exact ⟨rfl, .inr ⟨p, rfl, leave_removed s p (Lobby.drop s.lobby now p).1
      (Lobby.drop s.lobby now p).2 _ (Function.update s.activeConns fd none)⟩⟩

/-- The completion of a login does nothing, refuses, or joins after the account switch. -/
theorem loggedIn_cases (t : Ticket) (result : AccountResult) (saved : PlayerState F) (now : ℤ) :
    let s' := s.loggedIn t result saved now
    (s.activeConns t.fd = none ∧ s' = s) ∨
    ∃ conn, s.activeConns t.fd = some conn ∧
      ((result.ok = false ∧ ∃ msg metrics, s' = { s with
          wire := s.wire ++ [(conn, .response t.requestId (.login false msg none))], metrics }) ∨
        (result.ok = true ∧ Joined (s.switchAccount t.fd result.playerId) conn result.playerId
          saved now t.requestId s')) := by
  unfold loggedIn
  rcases hc : s.activeConns t.fd with _ | conn
  · exact .inl ⟨rfl, rfl⟩
  refine .inr ⟨conn, rfl, ?_⟩
  rcases hok : result.ok with _ | _
  · exact .inl ⟨rfl, _, _, rfl⟩
  · refine .inr ⟨rfl, ?_⟩
    generalize s.switchAccount t.fd result.playerId = s₁
    exact {
      same := ⟨⟨rfl, rfl, rfl, rfl, rfl, rfl, rfl⟩, rfl, rfl, rfl, rfl, List.append_nil _⟩
      playerConns := rfl
      fdToPlayer := rfl
      activeConns := rfl
      world := rfl
      queue := rfl
      posted := rfl
      since := rfl
      wire := rfl }

omit [Platform F] in
theorem registered_cases (t : Ticket) (result : AccountResult) :
    (s.activeConns t.fd = none ∧ s.registered t result = s) ∨
    ∃ conn msg, s.activeConns t.fd = some conn ∧ s.registered t result =
      s.send conn (.response t.requestId (.register result.ok msg
        (if result.ok then result.playerId else ""))) := by
  unfold registered
  rcases hc : s.activeConns t.fd with _ | conn
  · exact .inl ⟨rfl, rfl⟩
  · exact .inr ⟨conn, _, rfl, rfl⟩

end GameService

namespace Step

variable {F D : Type} [Platform F] [Lobby D] {s s' : GameService F D}

theorem accept {fd : ℤ} (h : step s (.accept fd) = some s') : s.handlers fd = none ∧
    s' = { s with
      handlers := Function.update s.handlers fd (some ⟨s.accepted, fd⟩)
      accepted := s.accepted + 1 } := by
  simp only [step] at h
  split at h
  · simp at h
  · next hfd => exact ⟨hfd, (Option.some.inj h).symm⟩

theorem frame {fd : ℤ} {rid : ℕ} {request : Request F} {now : ℤ}
    (h : step s (.frame fd rid request now) = some s') :
    ∃ conn, s.handlers fd = some conn ∧ GameService.Framed s rid conn now request s' := by
  simp only [step, Option.map_eq_some_iff] at h
  obtain ⟨conn, hconn, rfl⟩ := h
  exact ⟨conn, hconn, GameService.onServerFrame_framed request⟩

theorem close {fd now : ℤ} (h : step s (.close fd now) = some s') :
    ∃ conn, s.handlers fd = some conn ∧ s' =
      { s.onPlayerDisconnected conn.fd now with
        handlers := Function.update (s.onPlayerDisconnected conn.fd now).handlers conn.fd none } := by
  simp only [step, Option.map_eq_some_iff] at h
  obtain ⟨conn, hconn, rfl⟩ := h
  exact ⟨conn, hconn, rfl⟩

theorem work {o : DbOutcome} (h : step s (.work o) = some s') :
    ∃ task queue, s.queue = task :: queue ∧ s' = GameService.runTask { s with queue } o task := by
  simp only [step] at h
  split at h
  · simp at h
  · next task queue hq => exact ⟨task, queue, hq, (Option.some.inj h).symm⟩

theorem loop {now : ℤ} (h : step s (.loop now) = some s') :
    ∃ callback callbacks, s.callbacks = callback :: callbacks ∧
      s' = GameService.runCallback { s with callbacks } now callback := by
  simp only [step] at h
  split at h
  · simp at h
  · next callback callbacks hq => exact ⟨callback, callbacks, hq, (Option.some.inj h).symm⟩

/-- A close forgets the connection, and removes the player its fd had. -/
theorem close_cases {fd now : ℤ} (h : step s (.close fd now) = some s') :
    ∃ conn s₁, s.handlers fd = some conn ∧
      s₁.activeConns = Function.update s.activeConns conn.fd none ∧
      s' = { s₁ with handlers := Function.update s₁.handlers conn.fd none } ∧
      (s.fdToPlayer conn.fd = none ∧
          s₁ = { s with activeConns := Function.update s.activeConns conn.fd none } ∨
        ∃ p, s.fdToPlayer conn.fd = some p ∧ GameService.Removed s p s₁) := by
  obtain ⟨conn, hconn, rfl⟩ := close h
  obtain ⟨hactive, hcases⟩ := s.onPlayerDisconnected_cases conn.fd now
  exact ⟨conn, _, hconn, hactive, rfl, hcases⟩

/-- A callback only answers, or it is a login that joins after the account switch. -/
theorem loop_cases {now : ℤ} (h : step s (.loop now) = some s') :
    ∃ callback callbacks, s.callbacks = callback :: callbacks ∧
      ((∃ rest metrics, s' = { s with callbacks, wire := s.wire ++ rest, metrics } ∧
          ∀ m ∈ rest, GameService.Inert m.2) ∨
        ∃ t result saved conn, callback = .loggedIn t result saved ∧ result.ok = true ∧
          s.activeConns t.fd = some conn ∧
          GameService.Joined
            (GameService.switchAccount { s with callbacks } t.fd result.playerId) conn
            result.playerId saved now t.requestId s') := by
  obtain ⟨callback, callbacks, hq, rfl⟩ := loop h
  refine ⟨callback, callbacks, hq, ?_⟩
  cases callback with
  | registered t result =>
    rcases GameService.registered_cases { s with callbacks } t result with ⟨-, heq⟩ |
      ⟨conn, msg, -, heq⟩
    · exact .inl ⟨[], s.metrics, by rw [List.append_nil]; exact heq, by simp⟩
    · exact .inl ⟨_, s.metrics, heq, by simp [GameService.Inert]⟩
  | loggedIn t result saved =>
    rcases GameService.loggedIn_cases { s with callbacks } t result saved now with ⟨-, heq⟩ |
      ⟨conn, hconn, ⟨-, msg, metrics, heq⟩ | ⟨hok, hj⟩⟩
    · exact .inl ⟨[], s.metrics, by rw [List.append_nil]; exact heq, by simp⟩
    · exact .inl ⟨_, metrics, heq, by simp [GameService.Inert]⟩
    · exact .inr ⟨t, result, saved, conn, rfl, hok, hconn, hj⟩

end Step

end TinRpc
