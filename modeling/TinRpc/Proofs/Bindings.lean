import TinRpc.Proofs.Sessions

/-!
# Bindings

`RegisterPlayerConn` overwrites a player's connection and leaves the older one's fd with the player,
whose close then removes him. As long as no login of a player completes while another connection is
his, `player_conns_` and `fd_to_player_` are inverse to each other (`inverse_reach`), and a
connection stays its player's until it closes or a login takes its place (`bound_until`).
-/

namespace TinRpc

open Transition

variable {F D : Type}

namespace GameService

/-- The connection and the player that an event logs in. -/
def completes (s : GameService F D) : Event F → Option (Connection × String)
  | .loop _ => match s.callbacks with
    | .loggedIn t result _ :: _ =>
      if result.ok then (s.activeConns t.fd).map fun conn => (conn, result.playerId) else none
    | _ => none
  | _ => none

/-- No login of a player completes while another connection is his. -/
def OneConnection (s : GameService F D) (e : Event F) : Prop :=
  ∀ login ∈ s.completes e, ∀ other ∈ s.playerConns login.2, other = login.1

instance (s : GameService F D) (e : Event F) : Decidable (OneConnection s e) :=
  inferInstanceAs (Decidable (∀ login ∈ s.completes e, ∀ other ∈ s.playerConns login.2,
    other = login.1))

/-- The connection closes, or a login completes on it for another player or for its player on
another one. -/
def Ends (conn : Connection) (p : String) (s : GameService F D) (e : Event F) : Prop :=
  (∃ now, e = .close conn.fd now ∧ s.handlers conn.fd = some conn) ∨
    ∃ c q, s.completes e = some (c, q) ∧ (c = conn ∧ q ≠ p ∨ c ≠ conn ∧ q = p)

/-- `player_conns_` and `fd_to_player_` are inverse to each other. -/
def Inverse (s : GameService F D) : Prop :=
  ∀ p fd, s.fdToPlayer fd = some p ↔ ∃ conn, s.playerConns p = some conn ∧ conn.fd = fd

variable {s s' : GameService F D}

theorem completes_registered {t : Ticket} {result : AccountResult} {callbacks : List (Callback F)}
    {now : ℤ} (h : s.callbacks = .registered t result :: callbacks) :
    s.completes (.loop now) = none := by
  unfold completes
  rw [h]

/-- A login that succeeded logs in the connection that its ticket's fd has. -/
theorem completes_loggedIn {t : Ticket} {result : AccountResult} {saved : PlayerState F}
    {callbacks : List (Callback F)} {now : ℤ}
    (h : s.callbacks = .loggedIn t result saved :: callbacks) : s.completes (.loop now) =
      if result.ok then (s.activeConns t.fd).map fun conn => (conn, result.playerId) else none := by
  unfold completes
  rw [h]

theorem inverse_iff (hs : Sessions s) : Inverse s ↔ ∀ p fd, s.fdToPlayer fd = some p →
    ∃ conn, s.playerConns p = some conn ∧ conn.fd = fd := by
  refine ⟨fun h p fd => (h p fd).1, fun h p fd => ⟨h p fd, ?_⟩⟩
  rintro ⟨conn, hconn, rfl⟩
  exact (hs.conns p conn hconn).2

theorem inverse_congr (hp : s'.playerConns = s.playerConns) (hfd : s'.fdToPlayer = s.fdToPlayer) :
    Inverse s' ↔ Inverse s := by
  unfold Inverse
  rw [hp, hfd]

/-- The connection of the player whom an open connection's fd is mapped to is that one. -/
theorem Inverse.bound {fd : ℤ} {p : String} {conn : Connection} (hi : Inverse s) (hs : Sessions s)
    (hopen : s.handlers fd = some conn) (hp : s.fdToPlayer fd = some p) :
    s.playerConns p = some conn := by
  obtain ⟨c, hc, rfl⟩ := (hi p fd).1 hp
  have hsame := (hs.conns p c hc).1
  rw [hopen, Option.some.injEq] at hsame
  rwa [hsame]

theorem inverse_removed {p : String} (hi : Inverse s) (h : Removed s p s') : Inverse s' := by
  intro q fd
  have hs := hi q fd
  rw [h.playerConns, Function.update_apply]
  rw [h.fdToPlayer]
  split_ifs with hq
  · obtain rfl := hq
    refine ⟨fun hfd => ?_, by simp⟩
    split at hfd
    · next c hc =>
      rw [Function.update_apply] at hfd
      split_ifs at hfd with hne
      obtain ⟨c', hc', hfd'⟩ := hs.1 hfd
      rw [hc, Option.some.injEq] at hc'
      exact absurd hfd'.symm (hc' ▸ hne)
    · next hc =>
      obtain ⟨c', hc', -⟩ := hs.1 hfd
      rw [hc] at hc'
      cases hc'
  · split
    · next c hc =>
      rw [Function.update_apply]
      split_ifs with hfd
      · have hp : s.fdToPlayer fd = some p := (hi p fd).2 ⟨c, hc, hfd.symm⟩
        refine ⟨by simp, fun h => ?_⟩
        rw [hs.2 h, Option.some.injEq] at hp
        exact absurd hp hq
      · exact hs
    · exact hs

theorem playerConns_removed {p q : String} (h : Removed s p s') (hq : q ≠ p) :
    s'.playerConns q = s.playerConns q := by
  rw [h.playerConns, Function.update_of_ne hq]

variable [Platform F]

theorem inverse_switched {fd : ℤ} {p : String} (hi : Inverse s) :
    Inverse (s.switchAccount fd p) := by
  rcases s.switchAccount_cases fd p with ⟨heq, -⟩ | ⟨old, -, -, hr, -⟩
  · rwa [heq]
  · exact inverse_removed hi hr

theorem playerConns_switched (fd : ℤ) (p : String) :
    (s.switchAccount fd p).playerConns p = s.playerConns p := by
  rcases s.switchAccount_cases fd p with ⟨heq, -⟩ | ⟨old, -, hne, hr, -⟩
  · rw [heq]
  · exact playerConns_removed hr hne.symm

/-- A login keeps the maps inverse just where the player had no other connection. -/
theorem inverse_joined {t : Ticket} {p : String} {conn : Connection} {saved : PlayerState F}
    {now : ℤ} {rid : ℕ} (hs : Sessions s) (hi : Inverse s) (hconn : s.activeConns t.fd = some conn)
    (h : Joined (s.switchAccount t.fd p) conn p saved now rid s') :
    Inverse s' ↔ ∀ other ∈ s.playerConns p, other = conn := by
  have hopen := hs.active _ _ hconn
  have hfd := (hs.handlers _ _ hopen).1
  have hp' : s'.playerConns p = some conn := by rw [h.playerConns, Function.update_self]
  have hswitched := playerConns_switched (s := s) t.fd p
  constructor
  · intro hi' other hother
    obtain ⟨hother', hknown⟩ := hs.conns p other hother
    by_cases heq : other.fd = conn.fd
    · rw [heq, hfd, hopen, Option.some.injEq] at hother'
      exact hother'.symm
    · have hstale : s'.fdToPlayer other.fd = some p := by
        rw [h.fdToPlayer, Function.update_of_ne heq]
        exact (inverse_switched hi p other.fd).2 ⟨other, by rw [hswitched]; exact hother, rfl⟩
      obtain ⟨c, hc, hcfd⟩ := (hi' p other.fd).1 hstale
      rw [hp', Option.some.injEq] at hc
      exact absurd (hc ▸ hcfd).symm heq
  · intro hone
    rw [inverse_iff (sessions_joined hs hconn h)]
    intro q fd hq
    rw [h.fdToPlayer, Function.update_apply] at hq
    split_ifs at hq with heq
    · obtain rfl := Option.some.inj hq
      exact ⟨conn, hp', heq.symm⟩
    · obtain ⟨c, hc, hcfd⟩ := (inverse_switched hi q fd).1 hq
      by_cases hqp : q = p
      · rw [hqp, hswitched] at hc
        exact absurd (hcfd.symm.trans (congrArg Connection.fd (hone c hc))) heq
      · exact ⟨c, by rw [h.playerConns, Function.update_of_ne hqp, hc], hcfd⟩

variable [Lobby D]

/-- A callback answers and logs nobody in, or joins whom the event logs in. -/
theorem loop_completes {now : ℤ} (h : step s (.loop now) = some s') :
    (s.completes (.loop now) = none ∧ ∃ answers callbacks metrics,
        s' = { s with callbacks, metrics, wire := s.wire ++ answers } ∧ ∀ m ∈ answers,
          (∃ id ok msg playerId, m.2 = .response id (.register ok msg playerId)) ∨
            ∃ id msg, m.2 = .response id (.login false msg none)) ∨
      ∃ t result saved conn callbacks, s.completes (.loop now) = some (conn, result.playerId) ∧
        s.activeConns t.fd = some conn ∧ s.callbacks = .loggedIn t result saved :: callbacks ∧
        Joined (switchAccount { s with callbacks } t.fd result.playerId) conn result.playerId saved
          now t.requestId s' := by
  obtain ⟨callback, callbacks, hq, rfl⟩ := Step.loop h
  cases callback with
  | registered t result =>
    have hnone : s.completes (.loop now) = none := completes_registered hq
    rcases registered_cases { s with callbacks } t result with ⟨-, heq⟩ | ⟨conn, msg, -, heq⟩
    · refine .inl ⟨hnone, [], callbacks, s.metrics, ?_, fun m hm => by cases hm⟩
      rw [runCallback, heq, List.append_nil]
    · refine .inl ⟨hnone, _, callbacks, s.metrics, heq, fun m hm => .inl ?_⟩
      rw [List.mem_singleton.1 hm]
      exact ⟨_, _, _, _, rfl⟩
  | loggedIn t result saved =>
    rw [completes_loggedIn hq]
    rcases loggedIn_cases { s with callbacks } t result saved now with
      ⟨hnone, heq⟩ | ⟨conn, hconn, ⟨hok, msg, metrics, heq⟩ | ⟨hok, hj⟩⟩
    · refine .inl ⟨?_, [], callbacks, s.metrics, ?_, fun m hm => by cases hm⟩
      · rw [show s.activeConns t.fd = none from hnone]
        exact ite_self _
      · rw [runCallback, heq, List.append_nil]
    · refine .inl ⟨?_, _, callbacks, metrics, heq, fun m hm => .inr ?_⟩
      · rw [hok]
        rfl
      · rw [List.mem_singleton.1 hm]
        exact ⟨_, _, rfl⟩
    · refine .inr ⟨t, result, saved, conn, callbacks, ?_, hconn, hq, hj⟩
      rw [if_pos hok, show s.activeConns t.fd = some conn from hconn]
      rfl

/-- The maps after a step, but for a removal and a login. -/
theorem step_bindings {e : Event F} (h : step s e = some s') :
    (s.completes e = none ∧ s'.playerConns = s.playerConns ∧ s'.fdToPlayer = s.fdToPlayer) ∨
    (∃ fd now conn p s₁, e = .close fd now ∧ s.handlers fd = some conn ∧
      s.fdToPlayer conn.fd = some p ∧ Removed s p s₁ ∧ s'.playerConns = s₁.playerConns ∧
      s'.fdToPlayer = s₁.fdToPlayer) ∨
    ∃ t result saved conn callbacks now, s.completes e = some (conn, result.playerId) ∧
      s.activeConns t.fd = some conn ∧ s.callbacks = .loggedIn t result saved :: callbacks ∧
      Joined (switchAccount { s with callbacks } t.fd result.playerId) conn result.playerId saved
        now t.requestId s' := by
  cases e with
  | accept fd =>
    obtain ⟨-, rfl⟩ := Step.accept h
    exact .inl ⟨rfl, rfl, rfl⟩
  | frame fd rid request now =>
    obtain ⟨conn, -, hf⟩ := Step.frame h
    exact .inl ⟨rfl, hf.sessions.playerConns, hf.sessions.fdToPlayer⟩
  | close fd now =>
    obtain ⟨conn, s₁, hconn, -, rfl, ⟨-, rfl⟩ | ⟨p, hp, hr⟩⟩ := Step.close_cases h
    · exact .inl ⟨rfl, rfl, rfl⟩
    · exact .inr (.inl ⟨fd, now, conn, p, s₁, rfl, hconn, hp, hr, rfl, rfl⟩)
  | work o =>
    obtain ⟨task, queue, -, rfl⟩ := Step.work h
    cases task <;> exact .inl ⟨rfl, rfl, rfl⟩
  | loop now =>
    rcases loop_completes h with ⟨hnone, answers, callbacks, metrics, rfl, -⟩ |
      ⟨t, result, saved, conn, callbacks, hj⟩
    · exact .inl ⟨hnone, rfl, rfl⟩
    · exact .inr (.inr ⟨t, result, saved, conn, callbacks, now, hj⟩)

/-- From inverse maps a step leads to inverse maps just where it meets the condition. -/
theorem inverse_step {e : Event F} (hs : Sessions s) (hi : Inverse s) (h : step s e = some s') :
    Inverse s' ↔ OneConnection s e := by
  rcases step_bindings h with ⟨hnone, hp, hfd⟩ | ⟨fd, now, conn, p, s₁, rfl, -, -, hr, hp, hfd⟩ |
    ⟨t, result, saved, conn, callbacks, now, hlogin, hconn, hq, hj⟩
  · rw [inverse_congr hp hfd, OneConnection, hnone]
    simpa using hi
  · rw [inverse_congr hp hfd]
    refine ⟨fun _ login hlogin => ?_, fun _ => inverse_removed hi hr⟩
    cases hlogin
  · rw [inverse_joined (sessions_taken hs hq) hi hconn hj, OneConnection, hlogin]
    simp

/-- Whom a connection is bound to it stays bound to, in a step that does not end the binding. -/
theorem bound_step {e : Event F} {conn : Connection} {p : String} (hs : Sessions s)
    (hi : Inverse s) (hbound : s.playerConns p = some conn) (hends : ¬ Ends conn p s e)
    (h : step s e = some s') : s'.playerConns p = some conn := by
  obtain ⟨hopen, hknown⟩ := hs.conns p conn hbound
  rcases step_bindings h with ⟨-, hp, -⟩ | ⟨fd, now, c, q, s₁, rfl, hc, hq, hr, hp, -⟩ |
    ⟨t, result, saved, c, callbacks, now, hlogin, hc, hcallbacks, hj⟩
  · rw [hp, hbound]
  · rw [hp]
    have hfd := (hs.handlers _ _ hc).1
    have hne : p ≠ q := by
      rintro rfl
      have hsame := hi.bound hs hc (hfd ▸ hq)
      rw [hbound, Option.some.injEq] at hsame
      exact hends (.inl ⟨now, by rw [hsame, hfd], hopen⟩)
    rw [playerConns_removed hr hne, hbound]
  · rw [hj.playerConns, Function.update_apply]
    have hc := hs.active _ _ hc
    split_ifs with hqp
    · by_contra hne
      exact hends (.inr ⟨c, _, hlogin, .inr ⟨fun heq => hne (congrArg some heq), hqp.symm⟩⟩)
    · have hne : c ≠ conn := fun heq => hends (.inr ⟨c, _, hlogin, .inl ⟨heq, Ne.symm hqp⟩⟩)
      rcases switchAccount_cases { s with callbacks } t.fd result.playerId with
        ⟨heq, -⟩ | ⟨old, hold, -, hr, -⟩
      · rw [heq, hbound]
      · rw [playerConns_removed hr, hbound]
        rintro rfl
        have hsame := hi.bound hs hc hold
        rw [hbound, Option.some.injEq] at hsame
        exact hne hsame.symm

theorem inverse_reach (h : Running OneConnection s) : Inverse s := by
  obtain ⟨lobby, db, accounts, players, scenes, o, h⟩ := h
  refine h.invariant_of (fun s hs => sessions_reach ⟨lobby, db, accounts, players, scenes, o, hs⟩)
    ?_ fun s e s' hs hi hone he => (inverse_step hs hi he).2 hone
  obtain ⟨hconns, hfds, -⟩ := start_eq lobby db accounts players scenes o
  intro p fd
  simp [hconns, hfds]

/-- Whoever logs in stays bound to his connection and in the world until the connection closes or a
login takes its place. -/
theorem bound_until {e : Event F} {s₀ : GameService F D} {conn : Connection} {p : String}
    (hs : Sessions s) (hi : Inverse s) (hone : OneConnection s e) (he : step s e = some s₀)
    (hlogin : s.completes e = some (conn, p))
    (hr : Reach step (fun s e => OneConnection s e ∧ ¬ Ends conn p s e) s₀ s') :
    s'.playerConns p = some conn ∧ s'.fdToPlayer conn.fd = some p ∧
      (s'.world.inventory p).isSome := by
  have hs₀ : Sessions s₀ := sessions_step hs he
  have hi₀ : Inverse s₀ := (inverse_step hs hi he).2 hone
  have hbound₀ : s₀.playerConns p = some conn := by
    rcases step_bindings he with ⟨hnone, -⟩ | ⟨fd, now, c, q, s₁, rfl, -⟩ |
      ⟨t, result, saved, c, callbacks, now, hlogin', -, -, hj⟩
    · rw [hlogin] at hnone
      cases hnone
    · cases hlogin
    · rw [hlogin, Option.some.injEq, Prod.mk.injEq] at hlogin'
      rw [hlogin'.1, hlogin'.2, hj.playerConns, Function.update_self]
  have hbound := hr.invariant (P := fun s => Sessions s ∧ Inverse s ∧ s.playerConns p = some conn)
    ⟨hs₀, hi₀, hbound₀⟩ fun s e s' ⟨hs, hi, hbound⟩ ⟨hone, hends⟩ he =>
      ⟨sessions_step hs he, (inverse_step hs hi he).2 hone, bound_step hs hi hbound hends he⟩
  obtain ⟨hs', -, hbound'⟩ := hbound
  exact ⟨hbound', (hs'.conns p conn hbound').2, by rw [hs'.present, hbound']; rfl⟩

end GameService

end TinRpc
