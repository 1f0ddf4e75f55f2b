import TinRpc.Proofs.Sessions

/-!
# Completions

The completion of a request answers the connection that sent it, or finds that one closed. It does
what it should exactly when that connection is still open or nobody has sent a frame on its fd since
it closed (`completion_proper_iff`): the callback only has the fd.
-/

namespace TinRpc

open Transition

variable {F D : Type}

namespace GameService

/-- A response to the request goes to a connection, after no other response. -/
def Answered (s : GameService F D) (conn : Connection) (rid : ℕ) (s' : GameService F D) : Prop :=
  ∃ before r, s'.wire = s.wire ++ before ++ [(conn, .response rid r)] ∧
    ∀ m ∈ before, ∀ rid r, m.2 ≠ .response rid r

/-- What a completion has to do while the connection of its request is open: answer it and, for a
verified login, bind the player to it. -/
def Completed (s : GameService F D) (s' : GameService F D) : Callback F → Prop
  | .registered t _ => s.Answered t.conn t.requestId s' ∧ s'.playerConns = s.playerConns ∧
      s'.fdToPlayer = s.fdToPlayer
  | .loggedIn t result _ => s.Answered t.conn t.requestId s' ∧
      if result.ok then s'.playerConns result.playerId = some t.conn ∧
        s'.fdToPlayer t.fd = some result.playerId
      else s'.playerConns = s.playerConns ∧ s'.fdToPlayer = s.fdToPlayer

/-- A completion serves the connection of its request, or does nothing if that one is closed. -/
def Proper (s : GameService F D) (callback : Callback F) (s' : GameService F D) : Prop :=
  if s.handlers callback.ticket.fd = some callback.ticket.conn then s.Completed s' callback
  else s' = s

variable {s s' : GameService F D}

theorem answered_send (conn : Connection) (rid : ℕ) (r : Response F) (metrics : Metrics) :
    s.Answered conn rid { s with wire := s.wire ++ [(conn, .response rid r)], metrics } :=
  ⟨[], r, by simp, by simp⟩

/-- A response was put on the wire, so something was done. -/
theorem ne_of_answered {conn : Connection} {rid : ℕ} (h : s.Answered conn rid s') : s' ≠ s := by
  rintro rfl
  obtain ⟨before, r, hwire, -⟩ := h
  have := congrArg List.length hwire
  simp at this

variable [Platform F]

/-- A verified login answers the connection its fd has, after pushes only. -/
theorem answered_joined {t : Ticket} {p : String} {conn : Connection} {saved : PlayerState F}
    {now : ℤ} (h : Joined (s.switchAccount t.fd p) conn p saved now t.requestId s') :
    s.Answered conn t.requestId s' := by
  obtain ⟨rest, hrest, hpush⟩ : ∃ rest, (s.switchAccount t.fd p).wire = s.wire ++ rest ∧
      ∀ m ∈ rest, ∀ rid r, m.2 ≠ .response rid r := by
    rcases s.switchAccount_cases t.fd p with ⟨heq, -⟩ | ⟨old, -, -, hr, -⟩
    · exact ⟨[], by simp [heq], by simp⟩
    · obtain ⟨rest, hrest, hkind⟩ := hr.wire
      refine ⟨rest, hrest, fun m hm rid r => ?_⟩
      rcases hkind m hm with ⟨data, h⟩ | ⟨id, h⟩ <;> rw [h] <;> simp
  refine ⟨_, _, by rw [h.wire, hrest, List.append_assoc s.wire], fun m hm rid r => ?_⟩
  rcases List.mem_append.1 hm with hm | hm
  · exact hpush m hm rid r
  · obtain ⟨e, -, conn, -, rfl⟩ := (mem_delivered s').1 hm
    simp

/-- What a completion does where the fd has a connection: it serves that one. -/
theorem runCallback_active {callback : Callback F} {conn : Connection} (now : ℤ)
    (hconn : s.activeConns callback.ticket.fd = some conn) :
    s.Answered conn callback.ticket.requestId (s.runCallback now callback) ∧
      (conn = callback.ticket.conn → s.Completed (s.runCallback now callback) callback) := by
  cases callback with
  | registered t result =>
    rcases s.registered_cases t result with ⟨hnone, -⟩ | ⟨c, msg, hc, heq⟩
    · simp [Callback.ticket, hnone] at hconn
    obtain rfl : c = conn := Option.some.inj (hc.symm.trans hconn)
    simp only [runCallback, heq, Callback.ticket]
    have h := answered_send (s := s) c t.requestId
      (.register result.ok msg (if result.ok then result.playerId else "")) s.metrics
    refine ⟨h, ?_⟩
    rintro rfl
    exact ⟨h, rfl, rfl⟩
  | loggedIn t result saved =>
    rcases s.loggedIn_cases t result saved now with ⟨hnone, -⟩ | ⟨c, hc, hcases⟩
    · simp [Callback.ticket, hnone] at hconn
    obtain rfl : c = conn := Option.some.inj (hc.symm.trans hconn)
    simp only [Callback.ticket]
    rcases hcases with ⟨hok, msg, metrics, heq⟩ | ⟨hok, hj⟩
    · simp only [runCallback, heq]
      have h := answered_send (s := s) c t.requestId (.login false msg none)
        metrics
      refine ⟨h, ?_⟩
      rintro rfl
      exact ⟨h, by simp [hok]⟩
    · have h := answered_joined hj
      refine ⟨h, ?_⟩
      rintro rfl
      simp only [Completed, hok, ↓reduceIte]
      refine ⟨h, ?_, ?_⟩
      · exact (congrFun hj.playerConns _).trans (Function.update_self ..)
      · exact (congrFun hj.fdToPlayer _).trans (Function.update_self ..)

/-- Where the fd has no connection a completion does nothing. -/
theorem runCallback_none {callback : Callback F} {now : ℤ}
    (hnone : s.activeConns callback.ticket.fd = none) : s.runCallback now callback = s := by
  cases callback with
  | registered t result =>
    rcases s.registered_cases t result with ⟨-, heq⟩ | ⟨c, _, hc, -⟩
    · exact heq
    · simp [Callback.ticket, hc] at hnone
  | loggedIn t result saved =>
    rcases s.loggedIn_cases t result saved now with ⟨-, heq⟩ | ⟨c, hc, -⟩
    · exact heq
    · simp [Callback.ticket, hc] at hnone

variable [Lobby D]

/-- In every run, a completion serves its request's connection and no other exactly when that
connection is open or its fd has none. -/
theorem completion_proper_iff (h : Running anyEvent s) {callback : Callback F}
    {callbacks : List (Callback F)} (hq : s.callbacks = callback :: callbacks) {now : ℤ}
    (hs' : step s (.loop now) = some s') :
    Proper { s with callbacks } callback s' ↔
      s.handlers callback.ticket.fd = some callback.ticket.conn ∨
        s.activeConns callback.ticket.fd = none := by
  obtain ⟨_, _, hq', rfl⟩ := Step.loop hs'
  rw [hq, List.cons.injEq] at hq'
  obtain ⟨rfl, rfl⟩ := hq'
  have hticket := ((sessions_reach h).tickets callback.ticket
    (.inr ⟨callback, hq ▸ List.mem_cons_self, rfl⟩)).2
  unfold Proper
  dsimp only
  split_ifs with hopen
  · exact ⟨fun _ => .inl hopen, fun _ =>
      (runCallback_active (s := { s with callbacks }) now (hticket hopen)).2 rfl⟩
  · rcases hc : s.activeConns callback.ticket.fd with _ | conn
    · exact ⟨fun _ => .inr rfl, fun _ => runCallback_none (s := { s with callbacks }) hc⟩
    · have hne := ne_of_answered
        (runCallback_active (s := { s with callbacks }) now hc).1
      exact ⟨fun h => absurd h hne, by simp [hopen]⟩

/-- A login that completes on its own connection. -/
theorem completion_proper_login : ∃ s s' : GameService ℚ Unit, ∃ callback callbacks,
    s.callbacks = callback :: callbacks ∧ step s (.loop 0) = some s' ∧
      (Proper { s with callbacks } callback s' ↔
        s.handlers callback.ticket.fd = some callback.ticket.conn ∨
          s.activeConns callback.ticket.fd = none) := by
  have hplay : ((play anyEvent twoAccounts [.accept 5,
      .frame 5 1 (.login (some ("ann", "secret"))) 0, .work {}]).map
        fun s => s.callbacks.length) = some 1 := by
    decide +kernel
  obtain ⟨s, hs, hlength⟩ := Option.map_eq_some_iff.1 hplay
  obtain ⟨callback, hq⟩ := List.length_eq_one_iff.1 hlength
  have hs' : step s (.loop 0) = some (runCallback { s with callbacks := [] } 0 callback) := by
    simp only [step, hq]
  exact ⟨s, _, callback, [], hq, hs', completion_proper_iff (running_of_play hs) hq hs'⟩

/-- A slow login whose connection closes: it logs in the next client on the fd. -/
theorem completion_fails : ∃ s s' : GameService ℚ Unit, ∃ callback, Running anyEvent s ∧
    s.callbacks = [callback] ∧ step s (.loop 0) = some s' ∧
      callback.ticket.conn = ⟨0, 5⟩ ∧ s'.playerConns "ann" = some ⟨1, 5⟩ ∧
      ¬ Proper { s with callbacks := [] } callback s' := by
  have hplay : (play anyEvent twoAccounts [.accept 5,
      .frame 5 1 (.login (some ("ann", "secret"))) 0, .work {}, .close 5 0, .accept 5,
      .frame 5 1 (.move none) 0]).map (fun s => (s.callbacks.map (·.ticket.conn), s.handlers 5,
        s.playerConns "ann", (step s (.loop 0)).map fun s' => s'.playerConns "ann")) =
      some ([⟨0, 5⟩], some ⟨1, 5⟩, none, some (some ⟨1, 5⟩)) := by
    decide +kernel
  obtain ⟨s, hs, hstate⟩ := Option.map_eq_some_iff.1 hplay
  simp only [Prod.mk.injEq] at hstate
  obtain ⟨hcallbacks, hhandlers, hann, hstep⟩ := hstate
  obtain ⟨callback, hq, hticket⟩ := List.map_eq_singleton_iff.1 hcallbacks
  obtain ⟨s', hs', hann'⟩ := Option.map_eq_some_iff.1 hstep
  refine ⟨s, s', callback, running_of_play hs, hq, hs', hticket, hann', ?_⟩
  have hclosed : s.handlers callback.ticket.fd ≠ some callback.ticket.conn := by
    rw [Ticket.fd, hticket, hhandlers]
    decide
  rw [Proper, if_neg hclosed]
  rintro rfl
  simp [hann] at hann'

end GameService

end TinRpc
