import TinRpc.Proofs.News

/-!
# What the clients show of each other

A client clears its players when it sends a `SelectMap`, and shows again whoever the messages of
its old room bring up that were on their way. In a run where the last `SelectMap` of a client and
its logins find nobody brought up who is not in the room it gets to (`UpToDate`), every client that
has handled everything sent to it and waits for no `SelectMap` shows the other players in its
player's room (`views_agree`).
-/

namespace TinRpc

open Transition
open PlayerSpawner (announced)

variable {F D : Type}

namespace Network

variable (s : Network F D)

/-- No request of these is a `SelectMap` for a room. -/
def Unasked (l : List (ℕ × Request F)) : Prop := ∀ f ∈ l, f.2.selects = none

instance (l : List (ℕ × Request F)) : Decidable (Unasked l) :=
  inferInstanceAs (Decidable (∀ f ∈ l, f.2.selects = none))

/-- The spawner of a client once it has handled what is on its way. -/
def settled (conn : Connection) : PlayerSpawner F := (s.spawners conn).heed (s.inbound conn)

/-- What has been sent to a client and it had not handled when it last cleared its players. -/
def since (conn : Connection) : List (Message F) := s.handled conn ++ s.inbound conn

/-- Every client that has handled everything sent to it and waits for no `SelectMap` shows the other
players in its player's room. -/
def Viewed : Prop := ∀ conn p, s.server.handlers conn.fd = some conn →
  s.server.fdToPlayer conn.fd = some p → s.inbound conn = [] → Unasked (s.outbound conn) →
    ∀ q, q ∈ (s.spawners conn).remotePlayers ↔ s.server.world.Beside p q

/-- A login completes on the connection that asked for it, for a player with an id who has no other
connection. Nobody else in his room has the id the client takes for its own, and unless a
`SelectMap` is on its way, whoever else the client has been told of since it last cleared its
players is in the room. -/
def Fits (conn : Connection) (p : String) : Prop :=
  p ≠ "" ∧ (∀ other ∈ s.server.playerConns p, other = conn) ∧
    (∀ callback ∈ s.server.callbacks.head?, callback.ticket.conn = conn) ∧
    ((s.settled conn).localPlayerId ≠ p →
      s.server.fdToPlayer conn.fd ≠ some (s.settled conn).localPlayerId →
        s.server.world.room (s.settled conn).localPlayerId ≠
          some ((s.server.world.room p).getD "lobby")) ∧
    (Unasked (s.outbound conn) → ∀ q ∈ announced (s.since conn), q ≠ p →
      s.server.fdToPlayer conn.fd ≠ some q →
        s.server.world.room q = some ((s.server.world.room p).getD "lobby"))

/-- Logins fit, and when the server handles the last `SelectMap` of a client, whoever else the
client has been told of since it last cleared its players is in the room it asks for. -/
def UpToDate (s : Network F D) : Action F → Prop
  | .server e => ∀ login ∈ s.server.completes e, s.Fits login.1 login.2
  | .serve fd _ => ∀ n ∈ s.next fd, ∀ room ∈ n.2.1.2.selects, Unasked n.2.2 →
      ∀ p ∈ s.server.fdToPlayer n.1.fd, ∀ q ∈ announced (s.since n.1), q ≠ p →
        s.server.world.room q = some room
  | _ => True

instance (conn : Connection) (p : String) : Decidable (s.Fits conn p) :=
  inferInstanceAs (Decidable (_ ∧ _ ∧ _ ∧ _ ∧ _))

instance (a : Action F) : Decidable (UpToDate s a) :=
  match a with
  | .server e => inferInstanceAs (Decidable (∀ login ∈ s.server.completes e, _))
  | .serve fd _ => inferInstanceAs (Decidable (∀ n ∈ s.next fd, ∀ room ∈ _, _ → ∀ p ∈ _, _))
  | .handle _ | .request .. | .selectMap .. => .isTrue trivial

structure Sound (s : Network F D) : Prop where
  sessions : s.server.Sessions
  labelled : s.server.world.Labelled
  numbered : ∀ t, s.server.Holds t → t.requestId ≠ 0
  sent : ∀ conn, ∀ f ∈ s.outbound conn, f.1 ≠ 0 ∧ ∀ room, f.2.selects = some room →
    room ≠ "" ∧ ∃ map, f.2 = .selectMap (some (room, map)) ∧ 0 ≤ map ∧ map ≤ 2
  apart : ∀ conn, (s.settled conn).localPlayerId ∉ (s.settled conn).remotePlayers
  announced : ∀ conn, ∀ q ∈ (s.settled conn).remotePlayers, q ∈ announced (s.since conn)

variable {s} {s' : Network F D}

theorem settled_advance (server : GameService F D) (conn : Connection) :
    (s.advance server).settled conn = (s.settled conn).heed (s.server.news server conn) :=
  PlayerSpawner.heed_append ..

theorem since_advance (server : GameService F D) (conn : Connection) :
    (s.advance server).since conn = s.since conn ++ s.server.news server conn :=
  (List.append_assoc ..).symm

theorem mem_announced {c : PlayerSpawner F} {l l' : List (Message F)}
    (h : ∀ q ∈ c.remotePlayers, q ∈ announced l) :
    ∀ q ∈ (c.heed l').remotePlayers, q ∈ announced (l ++ l') := by
  intro q hq
  unfold announced at h ⊢
  rw [List.foldl_append]
  exact PlayerSpawner.mem_heed l' _ c (h q) hq

theorem Sound.outbound (hs : Sound s) {conn : Connection} {l : List (ℕ × Request F)}
    (hl : ∀ f ∈ l, f.1 ≠ 0 ∧ ∀ room, f.2.selects = some room →
      room ≠ "" ∧ ∃ map, f.2 = .selectMap (some (room, map)) ∧ 0 ≤ map ∧ map ≤ 2) :
    Sound { s with outbound := Function.update s.outbound conn l } where
  sessions := hs.sessions
  labelled := hs.labelled
  numbered := hs.numbered
  sent conn' f hf := by
    simp only [Function.update_apply] at hf
    split_ifs at hf
    · exact hl f hf
    · exact hs.sent conn' f hf
  apart := hs.apart
  announced := hs.announced

/-- A client's handling of a message changes nothing of what it comes to. -/
theorem settled_handle {conn : Connection} {m : Message F} {rest : List (Message F)}
    (h : s.inbound conn = m :: rest) (conn' : Connection) :
    let s' : Network F D := { s with
      spawners := Function.update s.spawners conn ((s.spawners conn).dispatchFrame m)
      inbound := Function.update s.inbound conn rest
      handled := Function.update s.handled conn (s.handled conn ++ [m]) }
    s'.settled conn' = s.settled conn' ∧ s'.since conn' = s.since conn' := by
  unfold settled since
  by_cases hconn : conn' = conn
  · subst hconn
    simp only [Function.update_self, h]
    exact ⟨rfl, List.append_assoc ..⟩
  · simp only [Function.update_of_ne hconn, and_self]

/-- A client that selects a map comes to what is on its way makes of no players. -/
theorem settled_selectMap (conn conn' : Connection) :
    let s' : Network F D := { s with
      spawners := Function.update s.spawners conn (s.spawners conn).selectMap
      handled := Function.update s.handled conn [] }
    s'.settled conn' = (if conn' = conn then ((s.spawners conn).selectMap).heed (s.inbound conn)
        else s.settled conn') ∧
      s'.since conn' = if conn' = conn then s.inbound conn else s.since conn' := by
  unfold settled since
  by_cases hconn : conn' = conn
  · subst hconn
    simp only [Function.update_self, ↓reduceIte, List.nil_append, and_self]
  · simp only [Function.update_of_ne hconn, hconn, ↓reduceIte, and_self]

variable [Platform F] [Lobby D]

/-- An event of the server keeps all but the requests on their way. -/
theorem Sound.advance (hs : Sound s) {e : Event F} {server : GameService F D}
    (h : TinRpc.step s.server e = some server)
    (hrid : ∀ fd rid request now, e = .frame fd rid request now → rid ≠ 0) :
    Sound (s.advance server) where
  sessions := GameService.sessions_step hs.sessions h
  labelled := GameService.labelled_step hs.labelled h
  numbered t ht := by
    rcases GameService.holds_step hs.sessions h ht with ht | ⟨fd, request, now, rfl⟩
    · exact hs.numbered t ht
    · exact hrid fd t.requestId request now rfl
  sent := hs.sent
  apart conn := by
    rw [settled_advance]
    exact PlayerSpawner.not_mem_heed _ _ (hs.apart conn)
  announced conn := by
    rw [settled_advance, since_advance]
    exact mem_announced (hs.announced conn)

theorem step_server {e : Event F} (h : s.step (.server e) = some s') :
    (∀ fd rid request now, e ≠ .frame fd rid request now) ∧
      ∃ server, TinRpc.step s.server e = some server ∧ s' = s.advance server := by
  cases e with
  | frame fd rid request now => cases h
  | _ =>
    obtain ⟨server, hserver, rfl⟩ := Option.map_eq_some_iff.1 h
    exact ⟨fun _ _ _ _ heq => (by cases heq), server, hserver, rfl⟩

theorem step_serve {fd now : ℤ} (h : s.step (.serve fd now) = some s') :
    ∃ conn f rest server, s.next fd = some (conn, f, rest) ∧ s.server.handlers fd = some conn ∧
      s.outbound conn = f :: rest ∧
      TinRpc.step s.server (.frame fd f.1 f.2 now) = some server ∧
      s' = { s.advance server with outbound := Function.update s.outbound conn rest } := by
  obtain ⟨⟨conn, f, rest⟩, hnext, hmap⟩ := Option.bind_eq_some_iff.1 h
  obtain ⟨server, hserver, rfl⟩ := Option.map_eq_some_iff.1 hmap
  have hnext' := hnext
  obtain ⟨c, hc, hfirst⟩ := Option.bind_eq_some_iff.1 hnext'
  rcases hout : s.outbound c with _ | ⟨g, l⟩
  · rw [hout] at hfirst
    cases hfirst
  · rw [hout] at hfirst
    obtain ⟨rfl, rfl, rfl⟩ : c = conn ∧ g = f ∧ l = rest := by
      simpa only [Option.some.injEq, Prod.mk.injEq] using hfirst
    exact ⟨c, g, l, server, hnext, hc, hout, hserver, rfl⟩

theorem step_handle {conn : Connection} (h : s.step (.handle conn) = some s') :
    ∃ m rest, s.inbound conn = m :: rest ∧ s' = { s with
      spawners := Function.update s.spawners conn ((s.spawners conn).dispatchFrame m)
      inbound := Function.update s.inbound conn rest
      handled := Function.update s.handled conn (s.handled conn ++ [m]) } := by
  simp only [step] at h
  rcases hin : s.inbound conn with _ | ⟨m, rest⟩
  · rw [hin] at h
    cases h
  · rw [hin] at h
    exact ⟨m, rest, rfl, (Option.some.inj h).symm⟩

theorem step_request {conn : Connection} {rid : ℕ} {request : Request F}
    (h : s.step (.request conn rid request) = some s') :
    rid ≠ 0 ∧ request.selects = none ∧ s' = s.send conn (rid, request) := by
  simp only [step] at h
  split_ifs at h with hok
  exact ⟨hok.1, hok.2, (Option.some.inj h).symm⟩

theorem step_selectMap {conn : Connection} {rid : ℕ} {map : ℤ}
    (h : s.step (.selectMap conn rid map) = some s') :
    rid ≠ 0 ∧ (0 ≤ map ∧ map ≤ 2) ∧ s' = send { s with
      spawners := Function.update s.spawners conn (s.spawners conn).selectMap
      handled := Function.update s.handled conn [] } conn
        (rid, .selectMap (some ("map_" ++ toString map, map))) := by
  simp only [step] at h
  split_ifs at h with hok
  exact ⟨hok.1, hok.2, (Option.some.inj h).symm⟩

theorem map_ne_empty (map : ℤ) : "map_" ++ toString map ≠ "" := by
  intro h
  have hlength := congrArg String.length h
  rw [String.length_append] at hlength
  simp at hlength

/-- What holds in every run is kept by every action. -/
theorem Sound.step (hs : Sound s) {a : Action F} (h : s.step a = some s') : Sound s' := by
  cases a with
  | server e =>
    obtain ⟨hframe, server, hserver, rfl⟩ := step_server h
    exact hs.advance hserver fun fd rid request now he => absurd he (hframe fd rid request now)
  | serve fd now =>
    obtain ⟨conn, f, rest, server, -, -, hout, hserver, rfl⟩ := step_serve h
    have hf := hs.sent conn
    rw [hout] at hf
    have hadvance := hs.advance hserver fun fd rid request now he => by
      rw [Event.frame.injEq] at he
      exact he.2.1 ▸ (hf f List.mem_cons_self).1
    exact hadvance.outbound fun g hg => hf g (List.mem_cons_of_mem _ hg)
  | handle conn =>
    obtain ⟨m, rest, hin, rfl⟩ := step_handle h
    have hkept := settled_handle hin
    refine ⟨hs.sessions, hs.labelled, hs.numbered, hs.sent, fun conn' => ?_, fun conn' => ?_⟩
    · rw [(hkept conn').1]
      exact hs.apart conn'
    · rw [(hkept conn').1, (hkept conn').2]
      exact hs.announced conn'
  | request conn rid request =>
    obtain ⟨hrid, hselects, rfl⟩ := step_request h
    refine hs.outbound fun f hf => ?_
    rcases List.mem_append.1 hf with hf | hf
    · exact hs.sent conn f hf
    · rw [List.mem_singleton.1 hf]
      refine ⟨hrid, fun room hroom => ?_⟩
      rw [hselects] at hroom
      cases hroom
  | selectMap conn rid map =>
    obtain ⟨hrid, hmap, rfl⟩ := step_selectMap h
    have hcleared := settled_selectMap (s := s) conn
    have hs' : Sound { s with
        spawners := Function.update s.spawners conn (s.spawners conn).selectMap
        handled := Function.update s.handled conn [] } := by
      refine ⟨hs.sessions, hs.labelled, hs.numbered, hs.sent, fun conn' => ?_, fun conn' => ?_⟩
      · rw [(hcleared conn').1]
        split_ifs
        · exact PlayerSpawner.not_mem_heed _ _ (PlayerSpawner.not_mem_selectMap _ _)
        · exact hs.apart conn'
      · rw [(hcleared conn').1, (hcleared conn').2]
        split_ifs
        · exact fun q hq => PlayerSpawner.mem_heed _ [] _
            (fun h => absurd h (PlayerSpawner.not_mem_selectMap _ q)) hq
        · exact hs.announced conn'
    refine hs'.outbound fun f hf => ?_
    rcases List.mem_append.1 hf with hf | hf
    · exact hs.sent conn f hf
    · rw [List.mem_singleton.1 hf]
      refine ⟨hrid, fun room hroom => ?_⟩
      obtain rfl := Option.some.inj hroom
      exact ⟨map_ne_empty map, map, rfl, hmap⟩

/-! ## What the condition keeps -/

structure Viewing (s : Network F D) : Prop where
  inverse : s.server.Inverse
  names : ∀ p conn, s.server.playerConns p = some conn → p ≠ ""
  self : ∀ p conn, s.server.playerConns p = some conn → (s.settled conn).localPlayerId = p
  shows : ∀ p conn, s.server.playerConns p = some conn → Unasked (s.outbound conn) →
    Shows s.server.world p (s.settled conn)

omit [Platform F] [Lobby D] in
theorem names_world {s : GameService F D} (hs : s.Sessions)
    (hnames : ∀ p conn, s.playerConns p = some conn → p ≠ "") (p : String)
    (hp : (s.world.room p).isSome) : p ≠ "" := by
  rw [GameService.room_isSome hs] at hp
  obtain ⟨conn, hconn⟩ := Option.isSome_iff_exists.1 hp
  exact hnames p conn hconn

/-- The players and what their clients come to after an event in which no login completes. The
client whose `SelectMap` the server handles is shown to show its room apart. -/
theorem Viewing.heard (hs : Sound s) (hv : Viewing s) {e : Event F} {server : GameService F D}
    (h : TinRpc.step s.server e = some server) (hnone : s.server.completes e = none) :
    server.Inverse ∧ ∀ p conn, server.playerConns p = some conn →
      s.server.playerConns p = some conn ∧
      ((s.advance server).settled conn).localPlayerId = p ∧
      (Shows s.server.world p (s.settled conn) →
        (∀ fd rid request now conn', e = .frame fd rid request now →
          s.server.handlers fd = some conn' → ∀ q room map now',
            s.server.frameCall conn' now request = some (.selectRoom q room map now') → p ≠ q) →
        Shows server.world p ((s.advance server).settled conn)) := by
  have hone : s.server.OneConnection e := by
    intro login hlogin
    rw [hnone] at hlogin
    cases hlogin
  refine ⟨(GameService.inverse_step hs.sessions hv.inverse h).2 hone, fun p conn hp => ?_⟩
  obtain ⟨hp', hheard⟩ := GameService.heard_step hs.sessions h hnone hp
  rw [settled_advance]
  refine ⟨hp', (hheard.self _).trans (hv.self p conn hp'), fun hc hselect => ?_⟩
  exact hheard.shows hs.labelled (names_world hs.sessions hv.names) hc hselect

/-- A login's completion that fits. -/
theorem Viewing.joined (hs : Sound s) (hv : Viewing s) {now : ℤ} {server : GameService F D}
    (h : TinRpc.step s.server (.loop now) = some server) {t : Ticket} {result : AccountResult}
    {saved : PlayerState F} {c : Connection} {callbacks : List (Callback F)}
    (hlogin : s.server.completes (.loop now) = some (c, result.playerId))
    (hfits : s.Fits c result.playerId) (hactive : s.server.activeConns t.fd = some c)
    (hq : s.server.callbacks = .loggedIn t result saved :: callbacks)
    (hj : GameService.Joined (GameService.switchAccount { s.server with callbacks } t.fd
      result.playerId) c result.playerId saved now t.requestId server) :
    Viewing (s.advance server) := by
  obtain ⟨hname, hone, -, hlocal, hroster⟩ := hfits
  have hs₀ := GameService.sessions_taken hs.sessions hq
  have hi₀ : GameService.Inverse { s.server with callbacks } := hv.inverse
  have hs' := GameService.sessions_step hs.sessions h
  have hopen := hs.sessions.active _ _ hactive
  have hfd := (hs.sessions.handlers _ _ hopen).1
  have hrid : t.requestId ≠ 0 :=
    hs.numbered t (.inr ⟨_, by rw [hq]; exact List.mem_cons_self, rfl⟩)
  have hbound : ∀ q conn, server.playerConns q = some conn → q ≠ result.playerId →
      s.server.playerConns q = some conn := by
    intro q conn hconn hne
    rw [hj.playerConns, Function.update_of_ne hne] at hconn
    exact GameService.bound_switched (s := { s.server with callbacks }) hs₀ hconn
  have hown : ∀ q conn, server.playerConns q = some conn → q = result.playerId → c = conn := by
    rintro q conn hconn rfl
    rwa [hj.playerConns, Function.update_self, Option.some.injEq] at hconn
  have hnames : ∀ q conn, server.playerConns q = some conn → q ≠ "" := by
    intro q conn hconn
    by_cases hqp : q = result.playerId
    · exact hqp ▸ hname
    · exact hv.names q conn (hbound q conn hconn hqp)
  refine ⟨(GameService.inverse_step hs.sessions hv.inverse h).2 fun login hl => ?_, hnames,
    fun q conn hconn => ?_, fun q conn hconn hunasked => ?_⟩
  · rw [hlogin, Option.mem_some_iff] at hl
    exact hl ▸ hone
  · rw [settled_advance]
    by_cases hqp : q = result.playerId
    · obtain rfl : c = conn := hown q conn hconn hqp
      have hheed := GameService.heed_joined (s := { s.server with callbacks }) hs₀ hi₀ hs' hopen
        hrid hj (s.settled c)
      rw [hqp]
      exact (congrArg _ hheed).trans (PlayerSpawner.onLoginCompleted_self _ _)
    · have hkept := GameService.self_joined_other (s := { s.server with callbacks }) hs₀ hs' hj
        hconn hqp (s.settled conn)
      exact hkept.trans (hv.self q conn (hbound q conn hconn hqp))
  · rw [settled_advance]
    by_cases hqp : q = result.playerId
    · obtain rfl : c = conn := hown q conn hconn hqp
      rw [hqp]
      rw [hfd] at hlocal hroster
      refine GameService.shows_joined_own (s := { s.server with callbacks }) hs₀ hi₀ hs'
        hs.labelled (names_world hs' hnames) hopen hrid hj hlocal fun r hr hrp => ?_
      have hother : s.server.fdToPlayer t.fd ≠ some r := by
        intro hknown
        have hid := hv.self r c (hv.inverse.bound hs.sessions hopen hknown)
        exact hs.apart c (hid ▸ hr)
      exact ⟨hother, hroster hunasked r (hs.announced c r hr) hrp hother⟩
    · exact GameService.shows_joined_other (s := { s.server with callbacks }) hs₀ hs' hs.labelled
        hname hj hconn hqp (hv.shows q conn (hbound q conn hconn hqp) hunasked)

/-- The client whose last `SelectMap` the server handles comes to show the room it asks for. -/
theorem Viewing.selected (hs : Sound s) (hv : Viewing s) {fd now : ℤ} {conn : Connection}
    {f : ℕ × Request F} {rest : List (ℕ × Request F)} {server : GameService F D}
    (hconn : s.server.handlers fd = some conn) (hout : s.outbound conn = f :: rest)
    (h : TinRpc.step s.server (.frame fd f.1 f.2 now) = some server) {room p : String}
    (hroom : f.2.selects = some room) (hp : s.server.playerConns p = some conn)
    (hok : ∀ q ∈ announced (s.since conn), q ≠ p → s.server.world.room q = some room) :
    Shows server.world p ((s.advance server).settled conn) := by
  obtain ⟨-, hvalid⟩ := hs.sent conn f (by rw [hout]; exact List.mem_cons_self)
  obtain ⟨hne, map, hrequest, hmap⟩ := hvalid room hroom
  obtain ⟨c, hc, hf⟩ := Step.frame h
  obtain rfl : conn = c := by rwa [hconn, Option.some.injEq] at hc
  have hcall : s.server.frameCall conn now f.2 = some (.selectRoom p room map now) := by
    rw [hrequest]
    show (s.server.fdToPlayer conn.fd).map _ = _
    rw [(hs.sessions.conns p conn hp).2]
    rfl
  have hpresent : (s.server.world.room p).isSome := by
    rw [GameService.room_isSome hs.sessions, hp]
    rfl
  have harrives := WorldService.arrives_selectRoom hs.labelled
    (WorldService.selectRoom_ok hpresent hne hmap now)
  have hworld : server.world = (s.server.world.selectRoom p room map now).world := by
    rw [hf.world, hcall]
    rfl
  have hwire := hf.called _ hcall
  rw [List.append_assoc] at hwire
  have hanswer : ∀ c : PlayerSpawner F, c.heed (arriving conn [(conn, .response f.1
      (GameService.callReply s.server.world (.selectRoom p room map now)))]) = c := by
    refine fun c => c.heed_silent (GameService.arriving_silent fun m hm => ?_)
    rw [List.mem_singleton.1 hm]
    exact GameService.silent_callReply _ _ _
  have hself := hv.self p conn hp
  have hown := hs.apart conn
  rw [hself] at hown
  have hnames := names_world (GameService.sessions_step hs.sessions h) fun q c hq => by
    rw [hf.sessions.playerConns] at hq
    exact hv.names q c hq
  rw [settled_advance, GameService.news_append hwire, arriving_append,
    GameService.arriving_delivered hs.sessions hp, PlayerSpawner.heed_append, hanswer, hworld]
  rw [hworld] at hnames
  refine shows_selected harrives hnames hself hown fun r hr => ?_
  exact hok r (hs.announced conn r hr) fun heq => hown (heq ▸ hr)

omit [Platform F] [Lobby D] in
theorem frameCall_selects {s : GameService F D} {conn : Connection} {now now' map : ℤ}
    {request : Request F} {p room : String}
    (h : s.frameCall conn now request = some (.selectRoom p room map now')) :
    request.selects = some room ∧ s.fdToPlayer conn.fd = some p := by
  unfold GameService.frameCall at h
  split at h
  case h_7 => cases h
  all_goals
    obtain ⟨q, hq, hcall⟩ := Option.map_eq_some_iff.1 h
    cases hcall
  exact ⟨rfl, hq⟩

theorem Viewing.server (hs : Sound s) (hv : Viewing s) {e : Event F}
    (hok : UpToDate s (.server e)) (h : s.step (.server e) = some s') : Viewing s' := by
  obtain ⟨hframe, server, hserver, rfl⟩ := step_server h
  rcases hlogin : s.server.completes e with _ | login
  · obtain ⟨hinverse, hbound⟩ := hv.heard hs hserver hlogin
    refine ⟨hinverse, fun p conn hp => ?_, fun p conn hp => ?_, fun p conn hp hunasked => ?_⟩
    · exact hv.names p conn (hbound p conn hp).1
    · exact (hbound p conn hp).2.1
    · obtain ⟨hp', -, hshows⟩ := hbound p conn hp
      exact hshows (hv.shows p conn hp' hunasked) fun fd rid request now _ he =>
        absurd he (hframe fd rid request now)
  · cases e with
    | loop now =>
      rcases GameService.loop_completes hserver with ⟨hnone, -⟩ |
        ⟨t, result, saved, c, callbacks, hcompletes, hactive, hq, hj⟩
      · rw [hlogin] at hnone
        cases hnone
      · exact hv.joined hs hserver hcompletes (hok _ hcompletes) hactive hq hj
    | _ => cases hlogin

theorem Viewing.serve (hs : Sound s) (hv : Viewing s) {fd now : ℤ}
    (hok : UpToDate s (.serve fd now)) (h : s.step (.serve fd now) = some s') : Viewing s' := by
  obtain ⟨c, f, rest, server, hnext, hc, hout, hserver, rfl⟩ := step_serve h
  obtain ⟨hinverse, hbound⟩ := hv.heard hs hserver rfl
  refine ⟨hinverse, fun p conn hp => ?_, fun p conn hp => ?_, fun p conn hp hunasked => ?_⟩
  · exact hv.names p conn (hbound p conn hp).1
  · exact (hbound p conn hp).2.1
  obtain ⟨hp', -, hshows⟩ := hbound p conn hp
  have hunasked : Unasked (Function.update s.outbound c rest conn) := hunasked
  rw [Function.update_apply] at hunasked
  by_cases hconn : conn = c
  · subst hconn
    rw [if_pos rfl] at hunasked
    rcases hroom : f.2.selects with _ | room
    · have hkept := hv.shows p conn hp' (by rw [hout]; exact List.forall_mem_cons.2 ⟨hroom, hunasked⟩)
      refine hshows hkept fun fd' rid request now' c' he hc' q room map now'' hcall => ?_
      obtain ⟨rfl, rfl, rfl, rfl⟩ := Event.frame.inj he
      rw [(frameCall_selects hcall).1] at hroom
      cases hroom
    · exact hv.selected hs hc hout hserver hroom hp'
        (hok _ hnext room hroom hunasked p (hs.sessions.conns p conn hp').2)
  · rw [if_neg hconn] at hunasked
    refine hshows (hv.shows p conn hp' hunasked) fun fd' rid request now' c' he hc' q room map
      now'' hcall => ?_
    obtain ⟨rfl, rfl, rfl, rfl⟩ := Event.frame.inj he
    rintro rfl
    obtain rfl : c = c' := by rwa [hc, Option.some.injEq] at hc'
    have hknown := (frameCall_selects hcall).2
    rw [(hs.sessions.handlers _ _ hc).1] at hknown
    have hsame := hv.inverse.bound hs.sessions hc hknown
    rw [hp', Option.some.injEq] at hsame
    exact hconn hsame

/-- Every action that meets the condition keeps what the clients come to show. -/
theorem Viewing.step (hs : Sound s) (hv : Viewing s) {a : Action F} (hok : UpToDate s a)
    (h : s.step a = some s') : Viewing s' := by
  cases a with
  | server e => exact hv.server hs hok h
  | serve fd now => exact hv.serve hs hok h
  | handle conn =>
    obtain ⟨m, rest, hin, rfl⟩ := step_handle h
    have hkept := settled_handle hin
    refine ⟨hv.inverse, hv.names, fun p conn' hp => ?_, fun p conn' hp hunasked => ?_⟩
    · rw [(hkept conn').1]
      exact hv.self p conn' hp
    · rw [(hkept conn').1]
      exact hv.shows p conn' hp hunasked
  | request conn rid request =>
    obtain ⟨-, -, rfl⟩ := step_request h
    refine ⟨hv.inverse, hv.names, hv.self, fun p conn' hp hunasked => ?_⟩
    have hunasked : Unasked (Function.update s.outbound conn _ conn') := hunasked
    rw [Function.update_apply] at hunasked
    split_ifs at hunasked with hconn
    · exact hv.shows p conn' hp (hconn ▸ fun f hf => hunasked f (List.mem_append_left _ hf))
    · exact hv.shows p conn' hp hunasked
  | selectMap conn rid map =>
    obtain ⟨-, -, rfl⟩ := step_selectMap h
    have hcleared := settled_selectMap (s := s) conn
    refine ⟨hv.inverse, hv.names, fun p conn' hp => ?_, fun p conn' hp hunasked => ?_⟩
    · refine (congrArg _ (hcleared conn').1).trans ?_
      split_ifs with hconn
      · subst hconn
        exact (PlayerSpawner.heed_self_congr _ (PlayerSpawner.selectMap_self _)).trans
          (hv.self p conn' hp)
      · exact hv.self p conn' hp
    · have hunasked : Unasked (Function.update s.outbound conn _ conn') := hunasked
      rw [Function.update_apply] at hunasked
      split_ifs at hunasked with hconn
      · have hasked := hunasked _ (List.mem_append_right _ List.mem_cons_self)
        cases hasked
      · have hsettled := (hcleared conn').1
        rw [if_neg hconn] at hsettled
        have hshows := hv.shows p conn' hp hunasked
        rw [← hsettled] at hshows
        exact hshows

/-- The machine from a server that has started and clients with these tokens. -/
def Playing (ok : Network F D → Action F → Prop) (s : Network F D) : Prop :=
  ∃ lobby db accounts players scenes o tokens, Reach Network.step ok
    (start (GameService.start lobby db accounts players scenes o) tokens) s

theorem sound_start (lobby : D) (db : Database F) (accounts players scenes : Bool)
    (o : DbOutcome) (tokens : Connection → String) :
    Sound (start (GameService.start lobby db accounts players scenes o) tokens) where
  sessions := by
    have hrunning : Running anyEvent
        (GameService.start lobby db accounts players scenes o) :=
      ⟨lobby, db, accounts, players, scenes, o, .start⟩
    exact GameService.sessions_reach hrunning
  labelled id player hplayer := by
    have hnone := (GameService.start_eq lobby db accounts players scenes o).2.2.2.2.2.2.2.1 id
    simp only [start] at hplayer
    rw [WorldService.inventory, hplayer] at hnone
    cases hnone
  numbered t ht := by
    obtain ⟨-, -, -, -, hqueue, hcallbacks, -⟩ :=
      GameService.start_eq lobby db accounts players scenes o
    rcases ht with ⟨task, htask, -⟩ | ⟨callback, hcallback, -⟩
    · simp only [start, hqueue] at htask
      cases htask
    · simp only [start, hcallbacks] at hcallback
      cases hcallback
  sent conn f hf := by cases hf
  apart conn := AList.notMem_empty _
  announced conn q hq := by cases hq

omit [Lobby D] in
theorem viewing_start (lobby : D) (db : Database F) (accounts players scenes : Bool)
    (o : DbOutcome) (tokens : Connection → String) :
    Viewing (start (GameService.start lobby db accounts players scenes o) tokens) := by
  obtain ⟨hconns, hfds, -⟩ := GameService.start_eq lobby db accounts players scenes o
  have hnobody : ∀ p conn,
      (GameService.start lobby db accounts players scenes o).playerConns p ≠ some conn := by
    intro p conn hp
    rw [hconns] at hp
    cases hp
  refine ⟨fun p fd => ?_, fun p conn hp => absurd hp (hnobody p conn),
    fun p conn hp => absurd hp (hnobody p conn), fun p conn hp => absurd hp (hnobody p conn)⟩
  simp only [start, hconns, hfds, reduceCtorEq, false_and, exists_false]

/-- The accounts of two players, and clients started without `--token`. -/
def twoClients : Network ℚ Unit :=
  start (GameService.start () twoAccounts true true true {}) fun _ => "player1"

/-- The run of a list of actions, while they are allowed. -/
def play (ok : Network ℚ Unit → Action ℚ → Prop) [∀ s a, Decidable (ok s a)]
    (as : List (Action ℚ)) : Option (Network ℚ Unit) :=
  as.foldlM (fun s a => if ok s a then s.step a else none) twoClients

omit [Platform F] [Lobby D] in
theorem playing_of_play {ok : Network ℚ Unit → Action ℚ → Prop} [∀ s a, Decidable (ok s a)]
    {as : List (Action ℚ)} {s : Network ℚ Unit} (h : play ok as = some s) : Playing ok s :=
  ⟨(), twoAccounts, true, true, true, {}, fun _ => "player1", Reach.of_foldlM as h⟩

/-- A client logs in, up to the completion. -/
def loggingIn (conn : Connection) (name : String) : List (Action ℚ) :=
  [.request conn 1 (.login (some (name, "secret"))), .serve conn.fd 0, .server (.work {}),
    .server (.loop 0)]

/-- Whatever the delays, a client that has handled everything sent to it and waits for no
`SelectMap` shows the other players in its player's room, in a run whose actions meet the condition.
-/
theorem views_agree (h : Playing UpToDate s) : Viewed s := by
  obtain ⟨lobby, db, accounts, players, scenes, o, tokens, h⟩ := h
  obtain ⟨hs, hv⟩ := h.invariant (P := fun s => Sound s ∧ Viewing s)
    ⟨sound_start .., viewing_start ..⟩ fun s a s' ⟨hs, hv⟩ hok he => ⟨hs.step he, hv.step hs hok he⟩
  intro conn p hopen hp hin hunasked q
  have hbound := hv.inverse.bound hs.sessions hopen hp
  have hsettled : s.settled conn = s.spawners conn := by
    unfold settled
    rw [hin]
    rfl
  rw [← hsettled]
  exact (hv.shows p conn hbound hunasked).roster q

/-- Two players go to the same map once their clients have handled everything. -/
theorem views_agree_ann : ∃ s : Network ℚ Unit, Playing UpToDate s ∧
    s.server.fdToPlayer 5 = some "ann" ∧ "bob" ∈ (s.spawners ⟨0, 5⟩).remotePlayers ∧
    ∀ q, q ∈ (s.spawners ⟨0, 5⟩).remotePlayers ↔ s.server.world.Beside "ann" q := by
  have hplay : (play UpToDate (List.flatten [[.server (.accept 5), .server (.accept 6)],
      loggingIn ⟨0, 5⟩ "ann", [.handle ⟨0, 5⟩, .handle ⟨0, 5⟩], loggingIn ⟨1, 6⟩ "bob",
      [.handle ⟨0, 5⟩, .selectMap ⟨0, 5⟩ 2 0, .handle ⟨1, 6⟩, .handle ⟨1, 6⟩,
        .selectMap ⟨1, 6⟩ 2 0, .serve 5 0, .serve 6 0, .handle ⟨0, 5⟩, .handle ⟨0, 5⟩,
        .handle ⟨0, 5⟩, .handle ⟨0, 5⟩]])).map (fun s =>
          ((s.server.handlers 5, s.server.fdToPlayer 5), (s.inbound ⟨0, 5⟩).isEmpty,
            decide (Unasked (s.outbound ⟨0, 5⟩)),
            decide ("bob" ∈ (s.spawners ⟨0, 5⟩).remotePlayers))) =
      some ((some ⟨0, 5⟩, some "ann"), true, true, true) := by
    decide +kernel
  obtain ⟨s, hs, hstate⟩ := Option.map_eq_some_iff.1 hplay
  simp only [Prod.mk.injEq, decide_eq_true_eq, List.isEmpty_iff] at hstate
  obtain ⟨⟨hopen, hann⟩, hin, hunasked, hbob⟩ := hstate
  exact ⟨s, playing_of_play hs, hann, hbob,
    views_agree (playing_of_play hs) ⟨0, 5⟩ "ann" hopen hann hin hunasked⟩

/-- A player selects a map while another's entering of the lobby is on its way to his client, which
shows him from then on. -/
theorem stale_view : ∃ s : Network ℚ Unit, Playing anyEvent s ∧
    s.server.handlers 5 = some ⟨0, 5⟩ ∧ s.server.fdToPlayer 5 = some "ann" ∧
    s.inbound ⟨0, 5⟩ = [] ∧ Unasked (s.outbound ⟨0, 5⟩) ∧
    s.server.world.room "ann" = some "map_0" ∧ s.server.world.room "bob" = some "lobby" ∧
    "bob" ∈ (s.spawners ⟨0, 5⟩).remotePlayers ∧ ¬Viewed s := by
  have hplay : (play anyEvent (List.flatten [[.server (.accept 5), .server (.accept 6)],
      loggingIn ⟨0, 5⟩ "ann", [.handle ⟨0, 5⟩, .handle ⟨0, 5⟩], loggingIn ⟨1, 6⟩ "bob",
      [.selectMap ⟨0, 5⟩ 2 0, .handle ⟨0, 5⟩, .serve 5 0, .handle ⟨0, 5⟩, .handle ⟨0, 5⟩,
        .handle ⟨0, 5⟩]])).map (fun s =>
          ((s.server.handlers 5, s.server.fdToPlayer 5),
            (s.server.world.room "ann", s.server.world.room "bob"), (s.inbound ⟨0, 5⟩).isEmpty,
            decide (Unasked (s.outbound ⟨0, 5⟩) ∧
              "bob" ∈ (s.spawners ⟨0, 5⟩).remotePlayers))) =
      some ((some ⟨0, 5⟩, some "ann"), (some "map_0", some "lobby"), true, true) := by
    decide +kernel
  obtain ⟨s, hs, hstate⟩ := Option.map_eq_some_iff.1 hplay
  simp only [Prod.mk.injEq, decide_eq_true_eq, List.isEmpty_iff] at hstate
  obtain ⟨⟨hopen, hknown⟩, ⟨hann, hbob⟩, hin, hunasked, hshown⟩ := hstate
  refine ⟨s, playing_of_play hs, hopen, hknown, hin, hunasked, hann, hbob, hshown, fun hview => ?_⟩
  obtain ⟨-, room, hroom, hroom'⟩ :=
    (hview ⟨0, 5⟩ "ann" hopen hknown hin hunasked "bob").1 hshown
  rw [hann, Option.some.injEq] at hroom
  rw [hbob, Option.some.injEq, ← hroom] at hroom'
  exact absurd hroom' (by decide)

end Network

end TinRpc
