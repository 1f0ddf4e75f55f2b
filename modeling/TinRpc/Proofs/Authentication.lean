import TinRpc.Proofs.Sessions

/-!
# Session authentication

A player is acted for only on connections that were verified for him, in every run in which no fd
is handed out while `fd_to_player_` still has an entry for it and no login completes on another
connection than its own (`session_authentication`). Both happen.
-/

namespace TinRpc

open Transition

variable {F D : Type} [Platform F]

namespace GameService

/-- The fd handed out has no player left, and a verified login completes on the connection that
sent it. -/
def CleanHandover (s : GameService F D) : Event F → Prop
  | .accept fd => s.fdToPlayer fd = none
  | .loop _ => match s.callbacks with
    | .loggedIn t result _ :: _ => result.ok = true →
      s.activeConns t.fd = none ∨ s.activeConns t.fd = some t.conn
    | _ => True
  | _ => True

instance (s : GameService F D) (e : Event F) : Decidable (CleanHandover s e) :=
  match e with
  | .accept fd => inferInstanceAs (Decidable (s.fdToPlayer fd = none))
  | .loop _ => by
    unfold CleanHandover
    exact match s.callbacks with
      | .loggedIn .. :: _ => inferInstanceAs (Decidable (_ → _ ∨ _))
      | [] | .registered .. :: _ => .isTrue trivial
  | .frame .. | .close .. | .work _ => .isTrue trivial

/-- What an open connection's fd says, a login verified. -/
structure Vouched (s : GameService F D) : Prop where
  fds : ∀ fd p conn, s.fdToPlayer fd = some p → s.handlers fd = some conn →
    (conn, p) ∈ s.log.verified
  callbacks : ∀ t result saved, .loggedIn t result saved ∈ s.callbacks → result.ok = true →
    (t.conn, result.playerId) ∈ s.log.verified
  acts : ∀ a ∈ s.log.acts, a ∈ s.log.verified

variable {s s' : GameService F D}

theorem vouched_framed {rid : ℕ} {conn : Connection} {now : ℤ} {request : Request F}
    (hv : Vouched s) (hconn : s.handlers conn.fd = some conn)
    (h : Framed s rid conn now request s') : Vouched s' where
  fds fd p c hp hc := by
    rw [h.sessions.fdToPlayer] at hp
    rw [h.sessions.handlers] at hc
    rw [h.stores.verified]
    exact hv.fds fd p c hp hc
  callbacks t result saved ht hok := by
    rw [h.callbacks] at ht
    rw [h.stores.verified]
    exact hv.callbacks t result saved ht hok
  acts a ha := by
    rw [h.acts, List.mem_append] at ha
    rw [h.stores.verified]
    rcases ha with ha | ha
    · exact hv.acts a ha
    · rcases hk : s.frameCall conn now request with _ | k
      · simp [hk] at ha
      · rw [hk, Option.elim_some, List.mem_singleton] at ha
        exact ha ▸ hv.fds conn.fd k.player conn (frameCall_some hk).1 hconn

omit [Platform F] in
theorem vouched_same (hv : Vouched s) (h : SameBooks s s')
    (hfds : ∀ fd p conn, s'.fdToPlayer fd = some p → s.handlers fd = some conn →
      (conn, p) ∈ s.log.verified) : Vouched s' where
  fds fd p c hp hc := by
    rw [h.handlers] at hc
    rw [h.stores.verified]
    exact hfds fd p c hp hc
  callbacks t result saved ht hok := by
    rw [h.callbacks] at ht
    rw [h.stores.verified]
    exact hv.callbacks t result saved ht hok
  acts a ha := by
    rw [h.acts] at ha
    rw [h.stores.verified]
    exact hv.acts a ha

omit [Platform F] in
theorem vouched_removed {p : String} (hv : Vouched s) (h : Removed s p s') : Vouched s' :=
  vouched_same hv h.same fun fd q c hq hc => hv.fds fd q c (fdToPlayer_removed h hq) hc

theorem vouched_switched (hv : Vouched s) (fd : ℤ) (p : String) :
    Vouched (s.switchAccount fd p) := by
  rcases s.switchAccount_cases fd p with ⟨heq, -⟩ | ⟨old, -, -, hr, -⟩
  · rw [heq]; exact hv
  · exact vouched_removed hv hr

/-- A login that completes on a connection verified for its player. -/
theorem vouched_joined {conn : Connection} {p : String} {saved : PlayerState F} {now : ℤ} {rid : ℕ}
    (hv : Vouched s) (hconn : s.handlers conn.fd = some conn) (hp : (conn, p) ∈ s.log.verified)
    (h : Joined s conn p saved now rid s') : Vouched s' := by
  refine vouched_same hv h.same fun fd q c hq hc => ?_
  rw [h.fdToPlayer, Function.update_apply] at hq
  split_ifs at hq with hfd
  · rw [hfd, hconn, Option.some.injEq] at hc
    rw [Option.some.injEq] at hq
    exact hc ▸ hq ▸ hp
  · exact hv.fds fd q c hq hc

theorem verified_switched (s : GameService F D) (fd : ℤ) (p : String) :
    (s.switchAccount fd p).log.verified = s.log.verified := by
  rcases s.switchAccount_cases fd p with ⟨heq, -⟩ | ⟨old, -, -, hr, -⟩
  · rw [heq]
  · exact hr.same.stores.verified

theorem vouched_work {o : DbOutcome} {task : Task F} {queue : List (Task F)} (hv : Vouched s) :
    Vouched (runTask { s with queue } o task) := by
  cases task with
  | createAccount t username password =>
    refine ⟨hv.fds, fun u result saved hu hok => ?_, hv.acts⟩
    rcases List.mem_append.1 hu with hu | hu
    · exact hv.callbacks u result saved hu hok
    · simp at hu
  | verifyLogin t username password =>
    refine ⟨fun fd p c hp hc => List.mem_append_left _ (hv.fds fd p c hp hc),
      fun u result saved hu hok => ?_, fun a ha => List.mem_append_left _ (hv.acts a ha)⟩
    rcases List.mem_append.1 hu with hu | hu
    · exact List.mem_append_left _ (hv.callbacks u result saved hu hok)
    · obtain ⟨rfl, rfl, rfl⟩ := by simpa using hu
      refine List.mem_append_right _ ?_
      rw [if_pos hok]
      exact List.mem_singleton_self _
  | savePlayer st => exact ⟨hv.fds, hv.callbacks, hv.acts⟩
  | saveScene snap => exact ⟨hv.fds, hv.callbacks, hv.acts⟩

variable [Lobby D]

theorem vouched_loop {now : ℤ} (hs : Sessions s) (hv : Vouched s)
    (hclean : CleanHandover s (.loop now)) (h : step s (.loop now) = some s') : Vouched s' := by
  obtain ⟨callback, callbacks, hq, hcases⟩ := Step.loop_cases h
  have hs := sessions_taken hs hq
  have hv' : Vouched { s with callbacks } := ⟨hv.fds, fun t result saved ht hok =>
    hv.callbacks t result saved (hq ▸ List.mem_cons_of_mem _ ht) hok, hv.acts⟩
  rcases hcases with ⟨rest, metrics, rfl, -⟩ | ⟨t, result, saved, conn, rfl, hok, hconn, hj⟩
  · exact ⟨hv'.fds, hv'.callbacks, hv'.acts⟩
  · have hissuer : conn = t.conn := by
      simp only [CleanHandover, hq] at hclean
      rcases hclean hok with hnone | hissuer
      · exact absurd (hnone.symm.trans hconn) (by simp)
      · exact Option.some.inj (hconn.symm.trans hissuer)
    have hopen := hs.active _ _ hconn
    obtain ⟨hhandlers, -⟩ := switched t.fd result.playerId hs
    refine vouched_joined (vouched_switched hv' t.fd result.playerId) ?_ ?_ hj
    · rw [hhandlers, (hs.handlers _ _ hopen).1]; exact hopen
    · rw [verified_switched, hissuer]
      exact hv.callbacks t result saved (hq ▸ List.mem_cons_self) hok

theorem vouched_step {e : Event F} (hs : Sessions s) (hv : Vouched s) (hclean : CleanHandover s e)
    (h : step s e = some s') : Vouched s' := by
  cases e with
  | accept fd =>
    obtain ⟨-, rfl⟩ := Step.accept h
    refine ⟨fun fd' p c hp hc => ?_, hv.callbacks, hv.acts⟩
    have hne : fd' ≠ fd := by
      rintro rfl
      simp only [CleanHandover] at hclean
      simp [hclean] at hp
    simp only [Function.update_of_ne hne] at hc
    exact hv.fds fd' p c hp hc
  | frame fd rid request now =>
    obtain ⟨conn, hconn, hf⟩ := Step.frame h
    exact vouched_framed hv ((hs.handlers _ _ hconn).1 ▸ hconn) hf
  | close fd now =>
    obtain ⟨conn, s₁, -, -, rfl, hcases⟩ := Step.close_cases h
    have hv₁ : Vouched s₁ := by
      rcases hcases with ⟨-, rfl⟩ | ⟨p, -, hr⟩
      · exact ⟨hv.fds, hv.callbacks, hv.acts⟩
      · exact vouched_removed hv hr
    refine ⟨fun fd' p c hp hc => ?_, hv₁.callbacks, hv₁.acts⟩
    simp only [Function.update_apply] at hc
    split_ifs at hc
    exact hv₁.fds fd' p c hp hc
  | work o =>
    obtain ⟨task, queue, hq, rfl⟩ := Step.work h
    exact vouched_work hv
  | loop now => exact vouched_loop hs hv hclean h

/-- In a run with clean handovers a player is acted for only on connections verified for him. -/
theorem session_authentication (h : Running CleanHandover s) :
    ∀ a ∈ s.log.acts, a ∈ s.log.verified := by
  obtain ⟨lobby, db, accounts, players, scenes, o, h⟩ := h
  have hv : Vouched s := by
    refine h.invariant_of (fun s hs => sessions_reach ⟨lobby, db, accounts, players, scenes, o, hs⟩)
      ?_ fun s e s' hs hv hclean he => vouched_step hs hv hclean he
    obtain ⟨-, hfds, -, -, -, hcallbacks, -, -, -, hacts, -⟩ :=
      start_eq lobby db accounts players scenes o
    exact ⟨by simp [hfds], by simp [hcallbacks], by simp [hacts]⟩
  exact hv.acts

/-- A login and a craft on one connection. -/
theorem session_authentication_craft : ∃ s : GameService ℚ Unit, Running CleanHandover s ∧
    s.log.acts = [(⟨0, 5⟩, "ann")] ∧ ∀ a ∈ s.log.acts, a ∈ s.log.verified := by
  have hplay : (play CleanHandover twoAccounts
      (List.flatten [[.accept 5], loginAnn 5, [.frame 5 2 (.craft (some 1)) 0]])).map
        (fun s => s.log.acts) = some [(⟨0, 5⟩, "ann")] := by
    decide +kernel
  obtain ⟨s, hs, hacts⟩ := Option.map_eq_some_iff.1 hplay
  exact ⟨s, running_of_play hs, hacts, session_authentication (running_of_play hs)⟩

/-- Two ways to craft for a player who never logged in on the connection: the fd of an older
session of his is handed out again, or the one his login was sent on. -/
theorem session_authentication_fails :
    (∃ s : GameService ℚ Unit, Running anyEvent s ∧ (⟨2, 4⟩, "ann") ∈ s.log.acts ∧
      s.log.effects ≠ [] ∧ (⟨2, 4⟩, "ann") ∉ s.log.verified) ∧
    ∃ s : GameService ℚ Unit, Running anyEvent s ∧ (⟨1, 5⟩, "ann") ∈ s.log.acts ∧
      s.log.effects ≠ [] ∧ (⟨1, 5⟩, "ann") ∉ s.log.verified := by
  have stale : (play anyEvent twoAccounts (List.flatten [[.accept 4, .accept 5], loginAnn 4,
      loginAnn 5, [.close 4 0, .work {}, .accept 4], loginAnn 5, [.frame 4 2 (.craft (some 1)) 0]])).map
        (fun s => (s.log.acts, s.log.effects.length, s.log.verified)) =
      some ([(⟨2, 4⟩, "ann")], 1, [(⟨0, 4⟩, "ann"), (⟨1, 5⟩, "ann"), (⟨1, 5⟩, "ann")]) := by
    decide +kernel
  have reused : (play anyEvent twoAccounts [.accept 5,
      .frame 5 1 (.login (some ("ann", "secret"))) 0, .work {}, .close 5 0, .accept 5,
      .frame 5 1 (.move none) 0, .loop 0, .frame 5 2 (.craft (some 1)) 0]).map
        (fun s => (s.log.acts, s.log.effects.length, s.log.verified)) =
      some ([(⟨1, 5⟩, "ann")], 1, [(⟨0, 5⟩, "ann")]) := by
    decide +kernel
  obtain ⟨s, hs, hlog⟩ := Option.map_eq_some_iff.1 stale
  obtain ⟨s', hs', hlog'⟩ := Option.map_eq_some_iff.1 reused
  simp only [Prod.mk.injEq] at hlog hlog'
  exact ⟨⟨s, running_of_play hs, by simp [hlog.1], List.ne_nil_of_length_pos (by omega),
      by simp [hlog.2.2]⟩,
    ⟨s', running_of_play hs', by simp [hlog'.1], List.ne_nil_of_length_pos (by omega),
      by simp [hlog'.2.2]⟩⟩

end GameService

end TinRpc
