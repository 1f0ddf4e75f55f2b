import TinRpc.Aliasing
import TinRpc.Proofs.Bindings

/-!
# A switch that leaves an entry

A step of the service with the switch by reference is one of the service with the switch by value,
but for the entry of `player_conns_` that a switch leaves where the string it is passed has a buffer
(`step_cases`). So as long as no switch leaves a player with a long id, the two are the same, and
what `Bindings` shows holds (`disconnects_isolated`).
-/

namespace TinRpc

open Transition

variable {F D : Type}

/-- Whom an entering player's messages go to: him, or players who are there. -/
theorem WorldService.enterWithState_sent [Platform F] {w : WorldService F} {p name : String}
    {now : ℤ} {x y z yaw : F} {inv : Inventory} {m : String × Push F}
    (h : m ∈ (w.enterWithState p name now x y z yaw inv).2) :
    m.1 = p ∨ w.players.lookup m.1 ≠ none := by
  have hentered : ∃ player : Player F, w.enterWithState p name now x y z yaw inv =
      let r := (w.setPlayer player p).sendWorldStateTo p
      (r.1, r.2 ++ r.1.broadcastEnter player) := ⟨_, rfl⟩
  obtain ⟨player, hentered⟩ := hentered
  rw [hentered] at h
  rcases List.mem_append.1 h with h | h
  · rw [List.mem_singleton.1 h]
    exact .inl rfl
  · obtain ⟨e, he, rfl⟩ := List.mem_map.1 h
    have hlookup := AList.mem_lookup_iff.2 (List.mem_filter.1 he).1
    rw [sendWorldStateTo_players, lookup_setPlayer] at hlookup
    split_ifs at hlookup with hid
    · exact .inl hid
    · exact .inr (Option.ne_none_iff_exists'.2 ⟨_, hlookup⟩)

namespace GameService

/-- An entry of `player_conns_` that stays. -/
def keeping (s : GameService F D) : Option (String × Connection) → GameService F D
  | some (p, conn) => { s with playerConns := Function.update s.playerConns p (some conn) }
  | none => s

variable {s : GameService F D} {k : Option (String × Connection)}

@[simp] theorem keeping_fdToPlayer : (s.keeping k).fdToPlayer = s.fdToPlayer := by
  cases k <;> rfl

@[simp] theorem keeping_handlers : (s.keeping k).handlers = s.handlers := by
  cases k <;> rfl

@[simp] theorem keeping_activeConns : (s.keeping k).activeConns = s.activeConns := by
  cases k <;> rfl

@[simp] theorem keeping_lobby : (s.keeping k).lobby = s.lobby := by
  cases k <;> rfl

/-- An entry that stays is in nobody's way when another player enters. -/
theorem keeping_entered [Platform F] {p : String} {conn : Connection} {now : ℤ} {x y z yaw : F}
    {inv : Inventory} {m : Message F}
    (hk : ∀ old ∈ k, old.1 ≠ p ∧ s.world.players.lookup old.1 = none) :
    (((s.keeping k).registerPlayerConn p conn).onConnect.run
        (.enterWithState p p now x y z yaw inv)).send conn m =
      (((s.registerPlayerConn p conn).onConnect.run
        (.enterWithState p p now x y z yaw inv)).send conn m).keeping k := by
  rcases k with _ | ⟨old, c⟩
  · rfl
  obtain ⟨hne, hgone⟩ := hk _ rfl
  have hconns : Function.update (Function.update s.playerConns old (some c)) p (some conn) =
      Function.update (Function.update s.playerConns p (some conn)) old (some c) :=
    Function.update_comm hne ..
  have hsent : ∀ sent : Sends F, (∀ e ∈ sent, e.1 ≠ old) → sent.filterMap (fun e =>
        (Function.update (Function.update s.playerConns p (some conn)) old (some c) e.1).map
          fun conn => (conn, Message.push e.2)) =
      sent.filterMap fun e => (Function.update s.playerConns p (some conn) e.1).map
          fun conn => (conn, Message.push e.2) := fun sent hsent =>
    List.filterMap_congr fun e he => by rw [Function.update_of_ne (hsent e he)]
  simp only [keeping, registerPlayerConn, onConnect, run, send, sendToPlayers, hconns]
  rw [hsent _ fun e he heq => ?_]
  rcases WorldService.enterWithState_sent he with hp | hlookup
  · exact hne (heq ▸ hp)
  · exact hlookup (heq ▸ hgone)

end GameService

namespace AliasedService

open GameService (OneConnection Inverse Sessions Ends)

/-- The entry of `player_conns_` that the account switch leaves. -/
def kept (s : AliasedService F D) (fd : ℤ) (playerId : String) : Option (String × Connection) :=
  (s.fdToPlayer fd).bind fun old => (s.playerConns old).bind fun conn =>
    if old ≠ playerId ∧ conn.fd = fd ∧ s.onHeap fd = true then some (old, conn) else none

variable {s s' : AliasedService F D}

theorem mem_kept {fd : ℤ} {p : String} {old : String × Connection} :
    old ∈ s.kept fd p ↔ s.fdToPlayer fd = some old.1 ∧ s.playerConns old.1 = some old.2 ∧
      old.1 ≠ p ∧ old.2.fd = fd ∧ s.onHeap fd = true := by
  unfold kept
  simp only [Option.mem_def, Option.bind_eq_some_iff, Option.ite_none_right_eq_some,
    Option.some.injEq]
  constructor
  · rintro ⟨q, hq, c, hc, hkept, rfl⟩
    exact ⟨hq, hc, hkept⟩
  · rintro ⟨hq, hc, hkept⟩
    exact ⟨old.1, hq, old.2, hc, hkept, rfl⟩

section Switch

variable [Platform F]

/-- The switch by reference, as one by value. -/
theorem switchAccount_keeping (fd : ℤ) (p : String) : (s.switchAccount fd p).toGameService =
    (s.toGameService.switchAccount fd p).keeping (s.kept fd p) ∧
      (s.switchAccount fd p).onHeap = s.onHeap := by
  unfold switchAccount GameService.switchAccount kept
  rcases hold : s.fdToPlayer fd with _ | old
  · exact ⟨rfl, rfl⟩
  by_cases hp : old = p
  · simp only [hp, Option.bind_some, ne_eq, not_true_eq_false, false_and, if_false, if_true]
    cases s.playerConns p <;> exact ⟨rfl, trivial⟩
  simp only [if_neg hp, Option.bind_some, GameService.savePlayerAsync_eq]
  unfold unregisterPlayerConn GameService.unregisterPlayerConn
  rcases hconn : s.playerConns old with _ | conn
  · have hsame : Function.update s.playerConns old none = s.playerConns := by
      rw [← hconn, Function.update_eq_self]
    simp only [GameService.run, GameService.sendToPlayers, GameService.posted, hconn,
      Option.bind_none, GameService.keeping, hsame]
    exact ⟨trivial, trivial⟩
  · simp only [GameService.run, GameService.sendToPlayers, GameService.posted, hconn,
      Option.bind_some]
    by_cases hheap : conn.fd = fd ∧ s.onHeap fd = true
    · rw [if_pos hheap, if_pos ⟨hp, hheap⟩]
      simp only [GameService.keeping, Function.update_idem, and_true]
      rw [← hconn, Function.update_eq_self]
    · rw [if_neg hheap, if_neg fun h => hheap h.2]
      exact ⟨rfl, rfl⟩

/-- The completion of a login by reference, as one by value. -/
theorem loggedIn_keeping {t : Ticket} {result : AccountResult} {saved : PlayerState F} {now : ℤ}
    {conn : Connection} (hconn : s.activeConns t.fd = some conn) (hok : result.ok = true) :
    (s.loggedIn t result saved now).toGameService =
      (s.toGameService.loggedIn t result saved now).keeping (s.kept t.fd result.playerId) := by
  have hk : ∀ old ∈ s.kept t.fd result.playerId, old.1 ≠ result.playerId ∧
      (s.toGameService.switchAccount t.fd result.playerId).world.players.lookup old.1 = none := by
    intro old hold
    obtain ⟨hfd, -, hne, -⟩ := mem_kept.1 hold
    refine ⟨hne, ?_⟩
    rcases s.toGameService.switchAccount_cases t.fd result.playerId with
      ⟨-, hsame⟩ | ⟨p, hp, -, hr, -⟩
    · exact absurd (hsame _ hfd) hne
    · rw [hfd, Option.some.injEq] at hp
      exact hp ▸ GameService.removed_gone hr
  unfold loggedIn GameService.loggedIn
  simp only [hconn, hok, if_true]
  unfold registerPlayerConn
  rw [(s.switchAccount_keeping t.fd result.playerId).1]
  exact GameService.keeping_entered hk

/-- A login that fails, or whose connection is gone, switches no account. -/
theorem loggedIn_failed {t : Ticket} {result : AccountResult} (saved : PlayerState F) (now : ℤ)
    (h : s.activeConns t.fd = none ∨ result.ok = false) :
    (s.loggedIn t result saved now).toGameService =
      s.toGameService.loggedIn t result saved now ∧
        (s.loggedIn t result saved now).onHeap = s.onHeap := by
  unfold loggedIn GameService.loggedIn
  rcases hconn : s.activeConns t.fd with _ | conn
  · exact ⟨rfl, rfl⟩
  rcases h with hnone | hfail
  · rw [hconn] at hnone
    cases hnone
  · simp only [hfail, Bool.false_eq_true, if_false, and_self]

end Switch

variable [Platform F] [Lobby D]

/-- A step by reference is one by value, but for the entry that the switch of a login leaves. -/
theorem step_cases {e : Event F} (h : s.step e = some s') :
    (s.completes e = none ∧ TinRpc.step s.toGameService e = some s'.toGameService ∧
      s'.onHeap = s.onHeap) ∨
    ∃ t result saved conn callbacks now s₀, e = .loop now ∧
      s.callbacks = .loggedIn t result saved :: callbacks ∧ s.activeConns t.fd = some conn ∧
      s.completes e = some (conn, result.playerId) ∧
      TinRpc.step s.toGameService e = some s₀ ∧
      s'.toGameService = s₀.keeping (s.kept t.fd result.playerId) ∧
      s'.onHeap = Function.update s.onHeap conn.fd
        ((((GameService.switchAccount { s.toGameService with callbacks } t.fd
          result.playerId).fdToPlayer conn.fd).isSome && s.onHeap conn.fd) ||
          decide (localCapacity < result.playerId.utf8ByteSize)) := by
  cases e with
  | accept | frame | close | work =>
    obtain ⟨s₀, hs, rfl⟩ := Option.map_eq_some_iff.1 h
    exact .inl ⟨rfl, hs, rfl⟩
  | loop now =>
    unfold step at h
    rcases hq : s.callbacks with _ | ⟨callback, callbacks⟩
    · rw [hq] at h
      cases h
    rw [hq] at h
    have hstep : TinRpc.step s.toGameService (.loop now) =
        some (GameService.runCallback { s.toGameService with callbacks } now callback) := by
      unfold TinRpc.step
      rw [hq]
    cases callback with
    | registered t result =>
      obtain rfl := Option.some.inj h
      exact .inl ⟨GameService.completes_registered hq, hstep, rfl⟩
    | loggedIn t result saved =>
      obtain rfl := Option.some.inj h
      by_cases hlogin : s.activeConns t.fd = none ∨ result.ok = false
      · obtain ⟨hservice, hheap⟩ := loggedIn_failed (s := { s with callbacks }) saved now hlogin
        refine .inl ⟨?_, ?_, hheap⟩
        · rw [GameService.completes_loggedIn hq]
          rcases hlogin with hnone | hfail
          · rw [hnone, Option.map_none, ite_self]
          · rw [hfail, if_neg Bool.false_ne_true]
        · rw [hstep, hservice]
          rfl
      · push Not at hlogin
        obtain ⟨conn, hc⟩ := Option.ne_none_iff_exists'.1 hlogin.1
        have hok := Bool.eq_true_of_not_eq_false hlogin.2
        refine .inr ⟨t, result, saved, conn, callbacks, now, _, rfl, rfl, hc, ?_, hstep,
          loggedIn_keeping (s := { s with callbacks }) hc hok, ?_⟩
        · rw [GameService.completes_loggedIn hq, if_pos hok, hc, Option.map_some]
        · obtain ⟨hservice, hheap⟩ := switchAccount_keeping (s := { s with callbacks }) t.fd
            result.playerId
          unfold loggedIn
          simp only [hc, hok, if_true, registerPlayerConn, hservice, hheap,
            GameService.keeping_fdToPlayer]

/-! ## Short ids -/

/-- No account switch takes the connection from a player whose id needs a buffer. -/
def ShortSwitch (s : AliasedService F D) (e : Event F) : Prop :=
  ∀ login ∈ s.completes e, ∀ old ∈ s.fdToPlayer login.1.fd, old ≠ login.2 →
    old.utf8ByteSize ≤ localCapacity

/-- No login of a player completes while another connection is his, and no account switch takes the
connection from a player whose id needs a buffer. -/
def Isolated (s : AliasedService F D) (e : Event F) : Prop :=
  OneConnection s.toGameService e ∧ ShortSwitch s e

instance (s : AliasedService F D) (e : Event F) : Decidable (Isolated s e) :=
  inferInstanceAs (Decidable ((∀ login ∈ s.completes e, ∀ other ∈ s.playerConns login.2,
    other = login.1) ∧ ∀ login ∈ s.completes e, ∀ old ∈ s.fdToPlayer login.1.fd,
      old ≠ login.2 → old.utf8ByteSize ≤ localCapacity))

/-- The strings in buffers are the long ones. -/
def Spilled (s : AliasedService F D) : Prop :=
  ∀ fd p, s.fdToPlayer fd = some p → (s.onHeap fd = true ↔ localCapacity < p.utf8ByteSize)

omit [Platform F] [Lobby D] in
/-- A switch of a short id leaves no entry. -/
theorem kept_eq_none {e : Event F} {conn : Connection} {p : String} {fd : ℤ}
    (hs : Sessions s.toGameService) (hl : Spilled s) (hconn : s.activeConns fd = some conn)
    (hlogin : s.completes e = some (conn, p)) (hshort : ShortSwitch s e) : s.kept fd p = none := by
  refine Option.eq_none_iff_forall_ne_some.2 fun old hold => ?_
  obtain ⟨hfd, -, hne, -, hheap⟩ := mem_kept.1 hold
  have hsame : conn.fd = fd := (hs.handlers _ _ (hs.active _ _ hconn)).1
  have hle := hshort _ hlogin old.1 (hsame ▸ hfd) hne
  exact absurd ((hl fd old.1 hfd).1 hheap) (Nat.not_lt.2 hle)

theorem step_of_short {e : Event F} (hs : Sessions s.toGameService) (hl : Spilled s)
    (hshort : ShortSwitch s e) (h : s.step e = some s') :
    TinRpc.step s.toGameService e = some s'.toGameService := by
  rcases step_cases h with ⟨-, hstep, -⟩ |
    ⟨t, result, saved, conn, callbacks, now, s₀, -, -, hconn, hlogin, hstep, hservice, -⟩
  · exact hstep
  · rw [hservice, kept_eq_none hs hl hconn hlogin hshort]
    exact hstep

omit [Lobby D] in
/-- After a switch from inverse maps the fd has nobody, or still the player who logs in. -/
theorem switched_fd (callbacks : List (Callback F)) (fd : ℤ) (p : String)
    (hi : Inverse s.toGameService) :
    (GameService.switchAccount { s.toGameService with callbacks } fd p).fdToPlayer fd = none ∨
      s.fdToPlayer fd = some p := by
  rcases GameService.switchAccount_cases { s.toGameService with callbacks } fd p with
    ⟨heq, hold⟩ | ⟨old, hold, -, hr, -⟩
  · rw [heq]
    rcases hfd : s.fdToPlayer fd with _ | old
    · exact .inl rfl
    · rw [hold old hfd]
      exact .inr rfl
  · obtain ⟨c, hc, hcfd⟩ := (hi old fd).1 hold
    refine .inl ?_
    rw [hr.fdToPlayer, show ({ s.toGameService with callbacks } : GameService F D).playerConns old =
      some c from hc]
    simp only [hcfd, Function.update_self]

/-- The completion that a step by value makes of a login. -/
theorem joined_of_step {t : Ticket} {result : AccountResult} {saved : PlayerState F}
    {conn : Connection} {callbacks : List (Callback F)} {now : ℤ} {s₀ : GameService F D}
    (hcallbacks : s.callbacks = .loggedIn t result saved :: callbacks)
    (hlogin : s.completes (.loop now) = some (conn, result.playerId))
    (h : TinRpc.step s.toGameService (.loop now) = some s₀) :
    GameService.Joined (GameService.switchAccount { s.toGameService with callbacks } t.fd
      result.playerId) conn result.playerId saved now t.requestId s₀ := by
  rcases GameService.loop_completes h with ⟨hnone, -⟩ |
    ⟨t', result', saved', conn', callbacks', hlogin', -, hcallbacks', hj⟩
  · rw [hlogin] at hnone
    cases hnone
  · rw [hcallbacks, List.cons.injEq, Callback.loggedIn.injEq] at hcallbacks'
    obtain ⟨⟨rfl, rfl, rfl⟩, rfl⟩ := hcallbacks'
    obtain ⟨rfl, -⟩ := Prod.mk.inj (Option.some.inj (hlogin.symm.trans hlogin'))
    exact hj

/-- From inverse maps a step leads to inverse maps just where it meets the condition. -/
theorem inverse_step {e : Event F} (hs : Sessions s.toGameService) (hi : Inverse s.toGameService)
    (hl : Spilled s) (h : s.step e = some s') : Inverse s'.toGameService ↔ Isolated s e := by
  by_cases hshort : ShortSwitch s e
  · have hstep := step_of_short hs hl hshort h
    rw [GameService.inverse_step hs hi hstep]
    exact (and_iff_left hshort).symm
  refine iff_of_false (fun hi' => ?_) fun h => hshort h.2
  rcases step_cases h with ⟨hnone, -⟩ |
    ⟨t, result, saved, conn, callbacks, now, s₀, rfl, hq, hconn, hlogin, hstep, hservice, -⟩
  · refine hshort fun login hlogin => ?_
    rw [hnone] at hlogin
    cases hlogin
  have hfd : conn.fd = t.fd := (hs.handlers _ _ (hs.active _ _ hconn)).1
  -- A long id's entry is kept, and the fd is the new player's.
  simp only [ShortSwitch, hlogin, Option.mem_def, Option.some.injEq, forall_eq'] at hshort
  push Not at hshort
  obtain ⟨old, hold, hne, hlong⟩ := hshort
  obtain ⟨c, hc, hcfd⟩ := (hi old conn.fd).1 hold
  have hkept : s.kept t.fd result.playerId = some (old, c) := mem_kept.2
    ⟨hfd ▸ hold, hc, hne, hcfd.trans hfd, (hl t.fd old (hfd ▸ hold)).2 hlong⟩
  have hjoined : s₀.fdToPlayer conn.fd = some result.playerId := by
    rw [(joined_of_step hq hlogin hstep).fdToPlayer, Function.update_self]
  have hkeeps : s'.playerConns old = some c := by
    rw [hservice, hkept]
    exact Function.update_self ..
  have hback := (hi' old c.fd).2 ⟨c, hkeeps, rfl⟩
  rw [hservice, GameService.keeping_fdToPlayer, hcfd, hjoined, Option.some.injEq] at hback
  exact hne hback.symm

/-- What an fd knows after a step it knew before, or it is the one of a login. -/
theorem fdToPlayer_step {e : Event F} {fd : ℤ} {q : String} (h : s.step e = some s')
    (hq : s'.fdToPlayer fd = some q) :
    (s.fdToPlayer fd = some q ∧ s'.onHeap fd = s.onHeap fd) ∨
    ∃ (t : Ticket) (callbacks : List (Callback F)) (conn : Connection),
      s.activeConns t.fd = some conn ∧ conn.fd = fd ∧ s'.onHeap fd =
        ((((GameService.switchAccount { s.toGameService with callbacks } t.fd q).fdToPlayer
          fd).isSome && s.onHeap fd) || decide (localCapacity < q.utf8ByteSize)) := by
  rcases step_cases h with ⟨hnone, hstep, hheap⟩ |
    ⟨t, result, saved, conn, callbacks, now, s₀, rfl, hcallbacks, hconn, hlogin, hstep, hservice,
      hheap⟩
  · refine .inl ⟨?_, by rw [hheap]⟩
    rcases GameService.step_bindings hstep with ⟨-, -, hfd⟩ |
      ⟨fd', now, c, p, s₁, -, -, -, hr, -, hfd⟩ | ⟨t, result, saved, c, callbacks, now, hlogin, -⟩
    · rwa [hfd] at hq
    · rw [hfd] at hq
      exact GameService.fdToPlayer_removed hr hq
    · rw [hnone] at hlogin
      cases hlogin
  rw [hservice, GameService.keeping_fdToPlayer, (joined_of_step hcallbacks hlogin hstep).fdToPlayer,
    Function.update_apply] at hq
  split_ifs at hq with hsame
  · obtain rfl := Option.some.inj hq
    refine .inr ⟨t, callbacks, conn, hconn, hsame.symm, ?_⟩
    rw [hheap, hsame, Function.update_self]
  · refine .inl ⟨?_, by rw [hheap, Function.update_of_ne hsame]⟩
    rcases GameService.switchAccount_cases { s.toGameService with callbacks } t.fd
      result.playerId with ⟨heq, -⟩ | ⟨old, -, -, hr, -⟩
    · rwa [heq] at hq
    · exact GameService.fdToPlayer_removed hr hq

/-- The entry of a player who is switched is made anew. -/
theorem spilled_step {e : Event F} (hs : Sessions s.toGameService) (hi : Inverse s.toGameService)
    (hl : Spilled s) (h : s.step e = some s') : Spilled s' := by
  intro fd q hq
  rcases fdToPlayer_step h hq with ⟨hknown, hheap⟩ | ⟨t, callbacks, conn, hconn, rfl, hheap⟩
  · rw [hheap]
    exact hl fd q hknown
  have hfd : conn.fd = t.fd := (hs.handlers _ _ (hs.active _ _ hconn)).1
  rw [hheap, hfd]
  rcases switched_fd callbacks t.fd q hi with hnone | hsame
  · rw [hnone]
    simp
  · have hlong := hl t.fd q hsame
    by_cases h : localCapacity < q.utf8ByteSize
    · simp [h]
    · simp [h, Bool.eq_false_iff.2 (mt hlong.1 h)]

/-- A state the service reaches from its start, by steps allowed by `ok`. -/
def Running (ok : AliasedService F D → Event F → Prop) (s : AliasedService F D) : Prop :=
  ∃ lobby db accounts players scenes o, Reach step ok (start lobby db accounts players scenes o) s

/-- A run that meets the condition is one of the service with the switch by value. -/
theorem running_isolated (h : Running Isolated s) :
    TinRpc.Running OneConnection s.toGameService ∧ Spilled s := by
  obtain ⟨lobby, db, accounts, players, scenes, o, h⟩ := h
  refine h.invariant (P := fun s => TinRpc.Running OneConnection s.toGameService ∧ Spilled s)
    ⟨⟨lobby, db, accounts, players, scenes, o, .start⟩, fun fd p hp => ?_⟩
    fun s e s' ⟨hr, hl⟩ hok he => ?_
  · rw [show (start lobby db accounts players scenes o).fdToPlayer = fun _ => none from
      (GameService.start_eq lobby db accounts players scenes o).2.1] at hp
    cases hp
  · have hs := GameService.sessions_reach hr
    have hi := GameService.inverse_reach hr
    obtain ⟨lobby, db, accounts, players, scenes, o, hr⟩ := hr
    exact ⟨⟨lobby, db, accounts, players, scenes, o,
      hr.next hok.1 (step_of_short hs hl hok.2 he)⟩, spilled_step hs hi hl he⟩

/-- In every run a long id is in a buffer. -/
theorem onHeap_of_long {s₀ : AliasedService F D} {ok : AliasedService F D → Event F → Prop}
    (h : Reach step ok s₀ s) (h₀ : s₀.fdToPlayer = fun _ => none) {fd : ℤ} {p : String}
    (hp : s.fdToPlayer fd = some p) (hlong : localCapacity < p.utf8ByteSize) :
    s.onHeap fd = true := by
  have hall : ∀ fd p, s.fdToPlayer fd = some p → localCapacity < p.utf8ByteSize →
      s.onHeap fd = true := by
    refine h.invariant (P := fun s => ∀ fd p, s.fdToPlayer fd = some p →
      localCapacity < p.utf8ByteSize → s.onHeap fd = true) (fun fd p hp => ?_)
      fun s e s' hs _ he fd p hp hlong => ?_
    · rw [h₀] at hp
      cases hp
    · rcases fdToPlayer_step he hp with ⟨hknown, hheap⟩ | ⟨t, callbacks, conn, -, rfl, hheap⟩
      · rw [hheap]
        exact hs fd p hknown hlong
      · rw [hheap, decide_eq_true hlong, Bool.or_true]
  exact hall fd p hp hlong

/-- In a run without a login of a player who has another connection and without a switch of a long
id, the two maps are inverse to each other, and would not be after such a login or switch. Whoever
logs in stays bound to his connection and in the world until the connection closes or a login takes
its place. -/
theorem disconnects_isolated (h : Running Isolated s) : Inverse s.toGameService ∧
    (∀ e s', s.step e = some s' → (Inverse s'.toGameService ↔ Isolated s e)) ∧
    ∀ e s₀ conn p s', Isolated s e → s.step e = some s₀ → s.completes e = some (conn, p) →
      Reach step (fun s e => Isolated s e ∧ ¬ Ends conn p s.toGameService e) s₀ s' →
        s'.playerConns p = some conn ∧ s'.fdToPlayer conn.fd = some p ∧
          (s'.world.inventory p).isSome := by
  obtain ⟨hr, hl⟩ := running_isolated h
  have hs := GameService.sessions_reach hr
  have hi := GameService.inverse_reach hr
  refine ⟨hi, fun e s' he => inverse_step hs hi hl he, ?_⟩
  intro e s₀ conn p s' hok he hlogin hreach
  have he' := step_of_short hs hl hok.2 he
  refine GameService.bound_until hs hi hok.1 he' hlogin ?_
  have hsim := hreach.invariant (P := fun s => Sessions s.toGameService ∧
      Inverse s.toGameService ∧ Spilled s ∧ Reach TinRpc.step
        (fun s e => OneConnection s e ∧ ¬ Ends conn p s e) s₀.toGameService s.toGameService)
    ⟨GameService.sessions_step hs he', (inverse_step hs hi hl he).2 hok, spilled_step hs hi hl he,
      .start⟩ fun s e s' ⟨hs, hi, hl, hr⟩ ⟨hok, hends⟩ he => ?_
  · exact hsim.2.2.2
  · have he' := step_of_short hs hl hok.2 he
    exact ⟨GameService.sessions_step hs he', (inverse_step hs hi hl he).2 hok,
      spilled_step hs hi hl he, hr.next ⟨hok.1, hends⟩ he'⟩

/-- The run of a list of events from the start on a database, while they are allowed. -/
def play (ok : AliasedService ℚ Unit → Event ℚ → Prop) [∀ s e, Decidable (ok s e)]
    (db : Database ℚ) (es : List (Event ℚ)) : Option (AliasedService ℚ Unit) :=
  es.foldlM (fun s e => if ok s e then s.step e else none) (start () db true true true {})

theorem running_of_play {ok : AliasedService ℚ Unit → Event ℚ → Prop}
    [∀ s e, Decidable (ok s e)] {db : Database ℚ} {es : List (Event ℚ)}
    {s : AliasedService ℚ Unit} (h : play ok db es = some s) : Running ok s :=
  ⟨(), db, true, true, true, {}, Reach.of_foldlM es h⟩

/-- The events of a login on fd 5 before its completion. -/
def login (username : String) : List (Event ℚ) :=
  [.frame 5 1 (.login (some (username, "secret"))) 0, .work {}]

/-- A player logs in in place of another one, and another client connects and leaves. -/
theorem disconnects_isolated_ann : ∃ s s' : AliasedService ℚ Unit, Running Isolated s ∧
    s.fdToPlayer 5 = some "bob" ∧ s.completes (.loop 0) = some (⟨0, 5⟩, "ann") ∧
    [.loop 0, .accept 6, .close 6 0].foldlM step s = some s' ∧
    s'.playerConns "ann" = some ⟨0, 5⟩ ∧ s'.fdToPlayer 5 = some "ann" := by
  have hplay : (play Isolated twoAccounts
      (List.flatten [[.accept 5], login "bob", [.loop 0], login "ann"])).map (fun s =>
        (s.fdToPlayer 5, s.completes (.loop 0), decide (Isolated s (.loop 0)),
          ([.loop 0, .accept 6, .close 6 0].foldlM step s).isSome)) =
      some (some "bob", some (⟨0, 5⟩, "ann"), true, true) := by
    decide +kernel
  obtain ⟨s, hs, hstate⟩ := Option.map_eq_some_iff.1 hplay
  simp only [Prod.mk.injEq, decide_eq_true_eq] at hstate
  obtain ⟨hbob, hlogin, hok, hrun⟩ := hstate
  obtain ⟨s', hs'⟩ := Option.isSome_iff_exists.1 hrun
  have hsteps := hs'
  simp only [List.foldlM_cons, List.foldlM_nil, Option.bind_eq_bind, Option.bind_eq_some_iff,
    Option.pure_def, Option.some.injEq] at hsteps
  obtain ⟨s₀, h₀, s₁, h₁, s₂, h₂, rfl⟩ := hsteps
  have hquiet : ∀ (s : AliasedService ℚ Unit) e, s.completes e = none → Isolated s e := by
    intro s e hnone
    refine ⟨fun login hlogin => ?_, fun login hlogin => ?_⟩ <;>
    · rw [hnone] at hlogin
      cases hlogin
  have hreach : Reach step (fun s e => Isolated s e ∧ ¬ Ends ⟨0, 5⟩ "ann" s.toGameService e)
      s₀ s₂ := by
    refine .next (.next .start ⟨hquiet _ _ rfl, ?_⟩ h₁) ⟨hquiet _ _ rfl, ?_⟩ h₂
    · rintro (⟨_, ⟨⟩, _⟩ | ⟨_, _, ⟨⟩, _⟩)
    · rintro (⟨_, h, _⟩ | ⟨_, _, ⟨⟩, _⟩)
      rw [Event.close.injEq] at h
      exact absurd h.1 (by decide)
  obtain ⟨-, -, hkept⟩ := disconnects_isolated (running_of_play hs)
  obtain ⟨hann, hfd, -⟩ := hkept _ _ _ _ _ hok h₀ hlogin hreach
  exact ⟨s, s₂, running_of_play hs, hbob, hlogin, hs', hann, hfd⟩

/-- A player logs in again on a new connection: the close of the old one unbinds the new one and
takes him out of the world. -/
theorem second_login_unbound : ∃ s s' : AliasedService ℚ Unit, Running anyEvent s ∧
    s.playerConns "ann" = some ⟨1, 6⟩ ∧ s.handlers 5 = some ⟨0, 5⟩ ∧ ¬ Inverse s.toGameService ∧
    s.step (.close 5 0) = some s' ∧ s'.handlers 6 = some ⟨1, 6⟩ ∧ s'.playerConns "ann" = none ∧
    s'.fdToPlayer 6 = none ∧ s'.world.inventory "ann" = none := by
  have hplay : (play anyEvent twoAccounts
      (List.flatten [[.accept 5, .accept 6], loginAnn 5, loginAnn 6])).map (fun s =>
        ((s.playerConns "ann", s.handlers 5, s.fdToPlayer 5),
          (s.step (.close 5 0)).map fun s' =>
            decide (s'.handlers 6 = some ⟨1, 6⟩ ∧
              s'.playerConns "ann" = none ∧ s'.fdToPlayer 6 = none ∧
              (s'.world.inventory "ann").isNone))) =
      some ((some ⟨1, 6⟩, some ⟨0, 5⟩, some "ann"), some true) := by
    decide +kernel
  obtain ⟨s, hs, hstate⟩ := Option.map_eq_some_iff.1 hplay
  simp only [Prod.mk.injEq] at hstate
  obtain ⟨⟨hann, hopen, hstale⟩, hstep⟩ := hstate
  obtain ⟨s', hs', hstate'⟩ := Option.map_eq_some_iff.1 hstep
  obtain ⟨hopen', hann', hfd', hworld'⟩ := of_decide_eq_true hstate'
  refine ⟨s, s', running_of_play hs, hann, hopen, fun hi => ?_, hs', hopen', hann', hfd',
    Option.isNone_iff_eq_none.1 hworld'⟩
  obtain ⟨c, hc, hfd⟩ := (hi "ann" 5).1 hstale
  rw [hann, Option.some.injEq] at hc
  rw [← hc] at hfd
  exact absurd hfd (by decide)

/-- The accounts of two players, one of them with an id of 16 bytes. -/
def longAccount : Database ℚ where
  accounts name := if name = "ann_of_the_north" then some (account "ann_of_the_north" "secret")
    else if name = "bob" then some (account "bob" "secret") else none
  players _ := none
  scenes _ := none

/-- After a switch from a long id the connection is still its player's, whom no fd is mapped to. -/
theorem long_id_kept : ∃ s : AliasedService ℚ Unit,
    Running (fun s => OneConnection s.toGameService) s ∧
    s.playerConns "ann_of_the_north" = some ⟨0, 5⟩ ∧ s.fdToPlayer 5 = some "bob" ∧
    s.world.inventory "ann_of_the_north" = none ∧ ¬ Inverse s.toGameService := by
  have hplay : (play (fun s => OneConnection s.toGameService) longAccount
      (List.flatten [[.accept 5], login "ann_of_the_north", [.loop 0], login "bob",
        [.loop 0]])).map (fun s => (s.playerConns "ann_of_the_north", s.fdToPlayer 5,
          (s.world.inventory "ann_of_the_north").isNone)) =
      some (some ⟨0, 5⟩, some "bob", true) := by
    decide +kernel
  obtain ⟨s, hs, hstate⟩ := Option.map_eq_some_iff.1 hplay
  simp only [Prod.mk.injEq] at hstate
  obtain ⟨hann, hbob, hworld⟩ := hstate
  refine ⟨s, running_of_play hs, hann, hbob, Option.isNone_iff_eq_none.1 hworld, fun hi => ?_⟩
  have hback := (hi "ann_of_the_north" 5).2 ⟨⟨0, 5⟩, hann, rfl⟩
  rw [hbob, Option.some.injEq] at hback
  exact absurd hback (by decide)

end AliasedService

end TinRpc
