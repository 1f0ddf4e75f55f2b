import TinRpc.Proofs.Departures
import TinRpc.Proofs.Shown

/-!
# What a step tells a client

A step sends the client of a player who stays connected nothing about the players, what a frame's
call sends, or that another player left (`Heard`); or a login completes. The client shows the
others of its player's room after it if it did before (`Heard.shows`, `shows_joined_other`), and so
does the client that logs in (`shows_joined_own`).
-/

namespace TinRpc

open Transition
open Sends (notices)
open Network (arriving)

variable {F D : Type}

namespace Network

theorem arriving_append (conn : Connection) (l l' : List (Connection × Message F)) :
    arriving conn (l ++ l') = arriving conn l ++ arriving conn l' := by
  unfold arriving
  rw [List.filter_append, List.map_append]

theorem mem_arriving {conn : Connection} {l : List (Connection × Message F)} {m : Message F} :
    m ∈ arriving conn l ↔ (conn, m) ∈ l := by
  unfold arriving
  simp only [List.mem_map, List.mem_filter, decide_eq_true_eq]
  constructor
  · rintro ⟨⟨_, m⟩, ⟨h, rfl⟩, rfl⟩
    exact h
  · exact fun h => ⟨(conn, m), ⟨h, rfl⟩, rfl⟩

end Network

namespace GameService

variable {s s' : GameService F D} {c : PlayerSpawner F} {p q : String} {conn : Connection}

/-- What `SendToPlayer` is handed for a player is what arrives on his connection. -/
theorem arriving_delivered (hs : Sessions s) (hq : s.playerConns q = some conn) :
    ∀ sent : Sends F, arriving conn (s.delivered .push sent) = notices q sent
  | [] => rfl
  | m :: sent => by
    have ih := arriving_delivered hs hq sent
    unfold delivered arriving Sends.notices at ih ⊢
    rw [List.filterMap_cons, List.filter_cons]
    rcases hm : s.playerConns m.1 with _ | conn'
    · have hne : m.1 ≠ q := by
        rintro heq
        rw [heq, hq] at hm
        cases hm
      rw [decide_eq_false hne]
      exact ih
    · have hiff : conn' = conn ↔ m.1 = q := conns_eq_iff hs hm hq
      simp only [Option.map_some, List.filter_cons, hiff]
      split_ifs
      · rw [List.map_cons, List.map_cons, ih]
      · exact ih

/-- What a step sends on a connection. -/
def news (s s' : GameService F D) (conn : Connection) : List (Message F) :=
  arriving conn (s'.wire.drop s.wire.length)

theorem news_append {l : List (Connection × Message F)} (h : s'.wire = s.wire ++ l) :
    news s s' conn = arriving conn l := by
  unfold news
  rw [h, List.drop_left]

theorem news_same (h : s'.wire = s.wire) : news s s' conn = [] := by
  rw [news_append (h.trans (List.append_nil _).symm)]
  rfl

theorem arriving_silent {l : List (Connection × Message F)} (h : ∀ m ∈ l, m.2.Silent) :
    ∀ m ∈ arriving conn l, m.Silent := by
  intro m hm
  exact h _ (Network.mem_arriving.1 hm)

theorem news_trans {s₁ : GameService F D} {l l' : List (Connection × Message F)}
    (h : s₁.wire = s.wire ++ l) (h' : s'.wire = s₁.wire ++ l') :
    news s s' conn = news s s₁ conn ++ news s₁ s' conn := by
  have hwire : s'.wire = s.wire ++ (l ++ l') := by rw [h', h, List.append_assoc]
  rw [news_append h, news_append h', news_append hwire, Network.arriving_append]

theorem pushes_notices {sent : Sends F} : ∀ m ∈ notices q sent, ∃ push, m = .push push := by
  intro m hm
  obtain ⟨push, -, rfl⟩ := WorldService.notices_mem.1 hm
  exact ⟨push, rfl⟩

theorem silent_callReply [Platform F] (w : WorldService F) (rid : ℕ) (k : Call F) :
    (Message.response rid (callReply w k)).Silent := by
  cases k <;> exact trivial

variable [Platform F]

/-- A frame that makes no call is not answered by a login. -/
theorem silent_quiet [Lobby D] (rid : ℕ) {now : ℤ} {request : Request F}
    (hk : s.frameCall conn now request = none) :
    ∃ rest, (s.onServerFrame rid conn now request).wire = s.wire ++ rest ∧
      ∀ m ∈ rest, m.2.Silent := by
  have hone : ∀ m : Message F, m.Silent → ∀ e ∈ [(conn, m)], e.2.Silent := by
    intro m hm e he
    rw [List.mem_singleton.1 he]
    exact hm
  have hrooms : ∀ events, ∀ m ∈ s.delivered .roomEvent events, m.2.Silent := by
    intro events m hm
    obtain ⟨e, -, conn, -, rfl⟩ := (mem_delivered s).1 hm
    exact trivial
  cases request
  case register req =>
    rcases req with _ | ⟨username, password⟩
    · exact ⟨_, rfl, hone _ trivial⟩
    · exact ⟨[], (List.append_nil _).symm, by simp⟩
  case login req =>
    rcases req with _ | ⟨username, password⟩
    · exact ⟨_, rfl, hone _ trivial⟩
    · exact ⟨[], (List.append_nil _).symm, by simp⟩
  case other method body =>
    rcases hcall : Lobby.call s.lobby s.metrics now method body with ⟨lobby, rsp, events⟩
    simp only [onServerFrame, dispatch, hcall]
    rcases rsp with _ | rsp
    · exact ⟨_, List.append_assoc .., List.forall_mem_append.2 ⟨hrooms events, hone _ trivial⟩⟩
    · exact ⟨_, List.append_assoc .., List.forall_mem_append.2 ⟨hrooms events, hone _ trivial⟩⟩
  all_goals
    rename_i req
    rcases hp : s.fdToPlayer conn.fd with _ | p
    · simp only [onServerFrame, handleSelectMap, handleMove, handleVoxelEdit, handleCraft,
        handleGather, handlePlaceBuilding, hp]
      exact ⟨_, rfl, hone _ trivial⟩
    · rcases req with _ | req
      · simp only [onServerFrame, handleSelectMap, handleMove, handleVoxelEdit, handleCraft,
          handleGather, handlePlaceBuilding, hp]
        exact ⟨_, rfl, hone _ trivial⟩
      · simp [frameCall, hp] at hk

/-- What a step makes of the world and of the messages for the client of a player who stays
connected: nothing, a call that a frame makes, or the leaving of another player. -/
inductive Heard (s : GameService F D) (e : Event F) (s' : GameService F D) (q : String)
    (conn : Connection) : Prop
  | nothing (world : s'.world = s.world) (silent : ∀ m ∈ news s s' conn, m.Silent)
  | called (fd : ℤ) (rid : ℕ) (request : Request F) (now : ℤ) (c : Connection) (k : Call F)
      (rest : List (Message F)) (event : e = .frame fd rid request now)
      (handlers : s.handlers fd = some c) (call : s.frameCall c now request = some k)
      (world : s'.world = (k.run s.world).world)
      (news_eq : news s s' conn = notices q (k.run s.world).sent ++ rest)
      (silent : ∀ m ∈ rest, m.Silent)
  | left (p : String) (before : List (Message F)) (other : q ≠ p)
      (world : s'.world = (s.world.leave p).1)
      (news_eq : news s s' conn = before ++ notices q (s.world.leave p).2)
      (silent : ∀ m ∈ before, m.Silent)

theorem heard_same {e : Event F} (hworld : s'.world = s.world) (hwire : s'.wire = s.wire) :
    Heard s e s' q conn :=
  .nothing hworld fun m hm => by
    rw [news_same hwire] at hm
    cases hm

theorem heard_frame [Lobby D] {fd : ℤ} {rid : ℕ} {request : Request F} {now : ℤ} (hs : Sessions s)
    (hq : s.playerConns q = some conn) (h : step s (.frame fd rid request now) = some s') :
    Heard s (.frame fd rid request now) s' q conn := by
  obtain ⟨c, hc, hf⟩ := Step.frame h
  rcases hk : s.frameCall c now request with _ | k
  · have heq : s' = s.onServerFrame rid c now request := by
      simp only [step, hc, Option.map_some, Option.some.injEq] at h
      exact h.symm
    obtain ⟨rest, hwire, hrest⟩ := silent_quiet rid hk
    rw [← heq] at hwire
    refine .nothing ?_ ?_
    · rw [hf.world, hk]
      rfl
    · rw [news_append hwire]
      exact arriving_silent hrest
  · have hwire := hf.called k hk
    rw [List.append_assoc] at hwire
    refine .called fd rid request now c k
      (arriving conn [(c, .response rid (callReply s.world k))]) rfl hc hk ?_ ?_ ?_
    · rw [hf.world, hk]
      rfl
    · rw [news_append hwire, Network.arriving_append, arriving_delivered hs hq]
    · refine arriving_silent fun m hm => ?_
      rw [List.mem_singleton.1 hm]
      exact silent_callReply s.world rid k

theorem heard_close [Lobby D] {fd now : ℤ} (hs : Sessions s) (h : step s (.close fd now) = some s')
    (hq : s'.playerConns q = some conn) :
    s.playerConns q = some conn ∧ Heard s (.close fd now) s' q conn := by
  obtain ⟨c, hc, rfl⟩ := Step.close h
  obtain ⟨-, ⟨hnone, heq⟩ | ⟨p, hp, hr⟩⟩ := s.onPlayerDisconnected_cases c.fd now
  · rw [heq] at hq
    exact ⟨hq, heard_same (by rw [heq]) (by rw [heq])⟩
  · have hwire : (s.onPlayerDisconnected c.fd now).wire = _ := onPlayerDisconnected_wire hp
    obtain ⟨hqp, hq', -⟩ := conns_removed hs hr hq
    refine ⟨hq', .left p (arriving conn (s.delivered .roomEvent (Lobby.drop s.lobby now p).2)) hqp
      hr.world ?_ ?_⟩
    · have hwire' : ({ s.onPlayerDisconnected c.fd now with
          handlers := Function.update (s.onPlayerDisconnected c.fd now).handlers c.fd none } :
          GameService F D).wire = _ := hwire
      rw [news_append hwire', Network.arriving_append, arriving_delivered hs hq']
    · refine arriving_silent fun m hm => ?_
      obtain ⟨e, -, conn, -, rfl⟩ := (mem_delivered s).1 hm
      exact trivial

/-- In every step in which no login completes. -/
theorem heard_step [Lobby D] {e : Event F} (hs : Sessions s) (h : step s e = some s')
    (hnone : s.completes e = none) (hq : s'.playerConns q = some conn) :
    s.playerConns q = some conn ∧ Heard s e s' q conn := by
  cases e with
  | accept fd =>
    obtain ⟨-, rfl⟩ := Step.accept h
    exact ⟨hq, heard_same rfl rfl⟩
  | frame fd rid request now =>
    obtain ⟨c, -, hf⟩ := Step.frame h
    rw [hf.sessions.playerConns] at hq
    exact ⟨hq, heard_frame hs hq h⟩
  | close fd now => exact heard_close hs h hq
  | work o =>
    obtain ⟨task, queue, -, rfl⟩ := Step.work h
    cases task <;> exact ⟨hq, heard_same rfl rfl⟩
  | loop now =>
    rcases loop_completes h with ⟨-, answers, callbacks, metrics, rfl, hanswers⟩ |
      ⟨t, result, saved, c, callbacks, hlogin, -⟩
    · refine ⟨hq, .nothing rfl ?_⟩
      rw [news_append rfl]
      refine arriving_silent fun m hm => ?_
      rcases hanswers m hm with ⟨id, ok, msg, playerId, heq⟩ | ⟨id, msg, heq⟩
      · rw [heq]
        exact trivial
      · rw [heq]
        exact rfl
    · rw [hnone] at hlogin
      cases hlogin

/-- A client still knows its own id, and shows the others of its player's room unless he has asked
for another. -/
theorem Heard.self {e : Event F} (h : Heard s e s' q conn) (c : PlayerSpawner F) :
    (c.heed (news s s' conn)).localPlayerId = c.localPlayerId := by
  refine PlayerSpawner.heed_self c fun m hm => ?_
  cases h with
  | nothing hworld hsilent => exact .inl (hsilent m hm)
  | called fd rid request now c k rest he hc hcall hworld hnews hsilent =>
    rw [hnews, List.mem_append] at hm
    exact hm.elim (fun hm => .inr (pushes_notices m hm)) fun hm => .inl (hsilent m hm)
  | left p before hother hworld hnews hsilent =>
    rw [hnews, List.mem_append] at hm
    exact hm.elim (fun hm => .inl (hsilent m hm)) fun hm => .inr (pushes_notices m hm)

theorem Heard.shows {e : Event F} {c : PlayerSpawner F} (h : Heard s e s' q conn)
    (hw : s.world.Labelled) (hnames : ∀ r, (s.world.room r).isSome → r ≠ "")
    (hc : Shows s.world q c)
    (hselect : ∀ fd rid request now conn', e = .frame fd rid request now →
      s.handlers fd = some conn' → ∀ p room map now',
        s.frameCall conn' now request = some (.selectRoom p room map now') → q ≠ p) :
    Shows s'.world q (c.heed (news s s' conn)) := by
  cases h with
  | nothing hworld hsilent =>
    rw [hworld, PlayerSpawner.heed_silent c hsilent]
    exact hc
  | called fd rid request now conn' k rest he hconn' hcall hworld hnews hsilent =>
    rw [hworld, hnews, PlayerSpawner.heed_append, PlayerSpawner.heed_silent _ hsilent]
    cases k with
    | enter | enterWithState | leave => exact absurd hcall (by unfold frameCall; split <;> simp)
    | selectRoom p room map now' =>
      have hqp := hselect fd rid request now conn' he hconn' p room map now' hcall
      exact shows_room hw hnames hc hqp room map now'
    | tryMove p x y z yaw now appearance => exact shows_moved hw hc x y z yaw now appearance
    | tryGather p node => exact shows_operation (congrArg some (Call.gather_success ..)) hc
    | tryPlaceBuilding p type x y z yaw =>
      exact shows_operation (congrArg some (Call.build_success ..)) hc
    | tryCraft p recipe => exact shows_operation (congrArg some (Call.craft_success ..)) hc
    | applyVoxelEdit p x y z action type =>
      exact shows_operation (congrArg some (Call.edit_success ..)) hc
  | left p before hother hworld hnews hsilent =>
    rw [hworld, hnews, PlayerSpawner.heed_append, PlayerSpawner.heed_silent c hsilent]
    exact shows_left hc hother

/-! ## Logins -/

/-- The account switch does nothing, or tells others in the world that the player of the fd left. -/
theorem switched_cases (s : GameService F D) (fd : ℤ) (p : String) :
    ((s.switchAccount fd p).world = s.world ∧ (s.switchAccount fd p).wire = s.wire ∧
        (s.switchAccount fd p).playerConns = s.playerConns ∧
        ∀ old, s.fdToPlayer fd = some old → old = p) ∨
      ∃ old, s.fdToPlayer fd = some old ∧ old ≠ p ∧
        (s.switchAccount fd p).world = (s.world.leave old).1 ∧
        (s.switchAccount fd p).wire = s.wire ++ s.delivered .push (s.world.leave old).2 ∧
        Removed s old (s.switchAccount fd p) := by
  rcases s.switchAccount_cases fd p with ⟨heq, hold⟩ | ⟨old, hold, hne, hr, -⟩
  · refine .inl ⟨?_, ?_, ?_, hold⟩ <;> rw [heq]
  · exact .inr ⟨old, hold, hne, hr.world, switchAccount_wire hold hne, hr⟩

theorem wire_switched (s : GameService F D) (fd : ℤ) (p : String) :
    ∃ l, (s.switchAccount fd p).wire = s.wire ++ l := by
  rcases switched_cases s fd p with ⟨-, hwire, -⟩ | ⟨old, -, -, -, hwire, -⟩
  · exact ⟨[], by rw [hwire, List.append_nil]⟩
  · exact ⟨_, hwire⟩

theorem bound_switched {fd : ℤ} (hs : Sessions s)
    (hq : (s.switchAccount fd p).playerConns q = some conn) : s.playerConns q = some conn := by
  rcases switched_cases s fd p with ⟨-, -, hconns, -⟩ | ⟨old, -, -, -, -, hr⟩
  · rwa [hconns] at hq
  · exact (conns_removed hs hr hq).2.1

/-- The connection on which a login completes hears nothing of the account switch. -/
theorem news_switched (hs : Sessions s) (hi : Inverse s) {fd : ℤ} (hopen : s.handlers fd = some conn)
    (p : String) : news s (s.switchAccount fd p) conn = [] := by
  rcases switched_cases s fd p with ⟨-, hwire, -⟩ | ⟨old, hold, -, -, hwire, -⟩
  · exact news_same hwire
  · rw [news_append hwire, arriving_delivered hs (hi.bound hs hopen hold), notices_leave]
    exact if_neg fun h => h.1 rfl

/-- The others are told of the account switch. -/
theorem shows_switched {c : PlayerSpawner F} {fd : ℤ} (hs : Sessions s)
    (hq : (s.switchAccount fd p).playerConns q = some conn) (hc : Shows s.world q c) :
    Shows (s.switchAccount fd p).world q (c.heed (news s (s.switchAccount fd p) conn)) := by
  rcases switched_cases s fd p with ⟨hworld, hwire, -⟩ | ⟨old, -, -, hworld, hwire, hr⟩
  · rw [hworld, news_same hwire]
    exact hc
  · obtain ⟨hne, hq', -⟩ := conns_removed hs hr hq
    rw [hworld, news_append hwire, arriving_delivered hs hq']
    exact shows_left hc hne

theorem labelled_switched (hw : s.world.Labelled) (fd : ℤ) (p : String) :
    (s.switchAccount fd p).world.Labelled := by
  rcases switched_cases s fd p with ⟨hworld, -⟩ | ⟨old, -, -, hworld, -⟩
  · rw [hworld]
    exact hw
  · rw [hworld]
    exact hw.leave old

section Joining

variable {fd now : ℤ} {rid : ℕ} {saved : PlayerState F} {c : PlayerSpawner F} {conn' : Connection}

/-- What a login's completion tells the others. -/
theorem news_joined (hs' : Sessions s')
    (hj : Joined (s.switchAccount fd p) conn p saved now rid s')
    (hq : s'.playerConns q = some conn') :
    news s s' conn' = news s (s.switchAccount fd p) conn' ++
      (notices q ((s.switchAccount fd p).world.enterWithState p p now saved.x saved.y saved.z
        saved.yaw saved.inv).2 ++
        arriving conn' [(conn, .response rid (.login true "" (some (p, p))))]) := by
  obtain ⟨l, hl⟩ := wire_switched s fd p
  have hwire := hj.wire
  rw [List.append_assoc] at hwire
  rw [news_trans hl hwire, news_append hwire, Network.arriving_append, arriving_delivered hs' hq]

theorem arrives_joined (hw : s.world.Labelled)
    (hj : Joined (s.switchAccount fd p) conn p saved now rid s') :
    (s.switchAccount fd p).world.Arrives p
      (((s.switchAccount fd p).world.room p).getD "lobby") none s'.world
      ((s.switchAccount fd p).world.enterWithState p p now saved.x saved.y saved.z saved.yaw
        saved.inv).2 := by
  rw [hj.world]
  exact WorldService.arrives_enterWithState (labelled_switched hw fd p) p p now saved.x saved.y
    saved.z saved.yaw saved.inv

theorem answered_other (hs' : Sessions s')
    (hj : Joined (s.switchAccount fd p) conn p saved now rid s')
    (hq : s'.playerConns q = some conn') (hqp : q ≠ p) :
    arriving conn' [(conn, .response rid (.login true "" (some (p, p))))] =
      ([] : List (Message F)) := by
  have hne : conn ≠ conn' := by
    rintro rfl
    refine hqp (conns_unique hs' hq ?_)
    rw [hj.playerConns, Function.update_self]
  simp [arriving, hne]

/-- The clients of the others show who has logged in, if he is in their room. -/
theorem shows_joined_other (hs : Sessions s) (hs' : Sessions s') (hw : s.world.Labelled)
    (hp : p ≠ "") (hj : Joined (s.switchAccount fd p) conn p saved now rid s')
    (hq : s'.playerConns q = some conn') (hqp : q ≠ p) (hc : Shows s.world q c) :
    Shows s'.world q (c.heed (news s s' conn')) := by
  have hq₁ : (s.switchAccount fd p).playerConns q = some conn' := by
    rwa [hj.playerConns, Function.update_of_ne hqp] at hq
  rw [news_joined hs' hj hq, answered_other hs' hj hq hqp, List.append_nil,
    PlayerSpawner.heed_append]
  refine shows_arrived (arrives_joined hw hj) (shows_switched hs hq₁ hc) hqp hp (.inr ?_)
  intro old hold
  rw [hold]
  rfl

theorem self_joined_other (hs : Sessions s) (hs' : Sessions s')
    (hj : Joined (s.switchAccount fd p) conn p saved now rid s')
    (hq : s'.playerConns q = some conn') (hqp : q ≠ p) (c : PlayerSpawner F) :
    (c.heed (news s s' conn')).localPlayerId = c.localPlayerId := by
  have hq₁ : (s.switchAccount fd p).playerConns q = some conn' := by
    rwa [hj.playerConns, Function.update_of_ne hqp] at hq
  have hswitched : ∀ m ∈ news s (s.switchAccount fd p) conn', ∃ push, m = .push push := by
    intro m hm
    rcases switched_cases s fd p with ⟨-, hwire, -⟩ | ⟨old, -, -, -, hwire, -⟩
    · rw [news_same hwire] at hm
      cases hm
    · rw [news_append hwire, arriving_delivered hs (bound_switched hs hq₁)] at hm
      exact pushes_notices m hm
  rw [news_joined hs' hj hq, answered_other hs' hj hq hqp, List.append_nil]
  refine PlayerSpawner.heed_self c fun m hm => .inr ?_
  exact (List.mem_append.1 hm).elim (hswitched m) (pushes_notices m)

/-- What the client on which a login completes makes of it. -/
theorem heed_joined (hs : Sessions s) (hi : Inverse s) (hs' : Sessions s')
    (hopen : s.handlers fd = some conn) (hrid : rid ≠ 0)
    (hj : Joined (s.switchAccount fd p) conn p saved now rid s') (c : PlayerSpawner F) :
    c.heed (news s s' conn) = (c.heed (notices p
      ((s.switchAccount fd p).world.enterWithState p p now saved.x saved.y saved.z saved.yaw
        saved.inv).2)).onLoginCompleted true p := by
  have hbound : s'.playerConns p = some conn := by rw [hj.playerConns, Function.update_self]
  obtain ⟨n, rfl⟩ := Nat.exists_eq_succ_of_ne_zero hrid
  have hanswer : arriving conn [(conn, Message.response (F := F) n.succ
      (.login true "" (some (p, p))))] = [.response n.succ (.login true "" (some (p, p)))] := by
    simp [arriving]
  rw [news_joined hs' hj hbound, news_switched hs hi hopen, hanswer, List.nil_append,
    PlayerSpawner.heed_append]
  rfl

/-- It shows the others of the player's room if it showed nobody from elsewhere and nobody there
has the id it took for its own. -/
theorem shows_joined_own (hs : Sessions s) (hi : Inverse s) (hs' : Sessions s')
    (hw : s.world.Labelled) (hnames : ∀ r, (s'.world.room r).isSome → r ≠ "")
    (hopen : s.handlers fd = some conn) (hrid : rid ≠ 0)
    (hj : Joined (s.switchAccount fd p) conn p saved now rid s')
    (hlocal : c.localPlayerId ≠ p → s.fdToPlayer fd ≠ some c.localPlayerId →
      s.world.room c.localPlayerId ≠ some ((s.world.room p).getD "lobby"))
    (hc : ∀ r ∈ c.remotePlayers, r ≠ p → s.fdToPlayer fd ≠ some r ∧
      s.world.room r = some ((s.world.room p).getD "lobby")) :
    Shows s'.world p (c.heed (news s s' conn)) := by
  have hrooms : ∀ r, (s.switchAccount fd p).world.room r =
      if s.fdToPlayer fd = some r ∧ r ≠ p then none else s.world.room r := by
    intro r
    rcases switched_cases s fd p with ⟨hworld, -, -, hold⟩ | ⟨old, hold, hne, hworld, -⟩
    · rw [hworld, if_neg fun h => h.2 (hold r h.1)]
    · rw [hworld, (s.world.leave_spec old).2.2.1, hold]
      by_cases hr : r = old
      · rw [if_pos hr, if_pos ⟨by rw [hr], hr ▸ hne⟩]
      · rw [if_neg hr, if_neg fun h => hr (Option.some.inj h.1).symm]
  have hroom : (s.switchAccount fd p).world.room p = s.world.room p := by
    rw [hrooms, if_neg fun h => h.2 rfl]
  have harrives := arrives_joined hw hj
  rw [hroom] at harrives
  rw [heed_joined hs hi hs' hopen hrid hj]
  refine shows_joined harrives hnames (fun hne => ?_) fun r hr hrp => ?_
  · rw [hrooms]
    split_ifs with hleft
    · exact fun h => by cases h
    · exact hlocal hne fun h => hleft ⟨h, hne⟩
  · obtain ⟨hother, hin⟩ := hc r hr hrp
    rw [hrooms, if_neg fun h => hother h.1, hin]

end Joining

variable [Lobby D]

theorem labelled_step {e : Event F} (hw : s.world.Labelled) (h : step s e = some s') :
    s'.world.Labelled := by
  cases e with
  | accept fd =>
    obtain ⟨-, rfl⟩ := Step.accept h
    exact hw
  | frame fd rid request now =>
    obtain ⟨conn, -, hf⟩ := Step.frame h
    rw [hf.world]
    rcases s.frameCall conn now request with _ | k
    · exact hw
    · exact hw.run k
  | close fd now =>
    obtain ⟨conn, s₁, -, -, rfl, ⟨-, rfl⟩ | ⟨p, -, hr⟩⟩ := Step.close_cases h
    · exact hw
    · show s₁.world.Labelled
      rw [hr.world]
      exact hw.leave p
  | work o =>
    obtain ⟨task, queue, -, rfl⟩ := Step.work h
    cases task <;> exact hw
  | loop now =>
    obtain ⟨callback, callbacks, -, hcases⟩ := Step.loop_cases h
    rcases hcases with ⟨rest, metrics, rfl, -⟩ | ⟨t, result, saved, conn, -, -, -, hj⟩
    · exact hw
    · rw [hj.world]
      have hw₀ : ({ s with callbacks } : GameService F D).world.Labelled := hw
      exact (labelled_switched hw₀ t.fd result.playerId).enterWithState _ _ _ _ _ _ _ _

/-- A ticket is a frame's or was held before. -/
theorem holds_step {e : Event F} (hs : Sessions s) (h : step s e = some s') {t : Ticket}
    (ht : s'.Holds t) : s.Holds t ∨ ∃ fd request now, e = .frame fd t.requestId request now := by
  cases e with
  | accept fd =>
    obtain ⟨-, rfl⟩ := Step.accept h
    exact .inl ht
  | frame fd rid request now =>
    obtain ⟨conn, -, hf⟩ := Step.frame h
    rcases holds_framed hf ht with hold | rfl
    · exact .inl hold
    · exact .inr ⟨fd, request, now, rfl⟩
  | close fd now =>
    obtain ⟨conn, s₁, -, -, rfl, ⟨-, rfl⟩ | ⟨p, -, hr⟩⟩ := Step.close_cases h
    · exact .inl ht
    · exact .inl (holds_removed hr ht)
  | work o =>
    obtain ⟨task, queue, hq, rfl⟩ := Step.work h
    exact .inl (holds_runTask hq ht)
  | loop now =>
    obtain ⟨callback, callbacks, hq, hcases⟩ := Step.loop_cases h
    have hrest : ∀ {t}, ({ s with callbacks } : GameService F D).Holds t → s.Holds t := by
      rintro t (ht | ⟨cb, hcb, ht⟩)
      · exact .inl ht
      · exact .inr ⟨cb, by rw [hq]; exact List.mem_cons_of_mem _ hcb, ht⟩
    rcases hcases with ⟨rest, metrics, rfl, -⟩ | ⟨u, result, saved, conn, -, -, -, hj⟩
    · exact .inl (hrest ht)
    · have ht₁ : (switchAccount { s with callbacks } u.fd result.playerId).Holds t := by
        rcases ht with ht | ht
        · exact .inl (by rwa [hj.queue] at ht)
        · exact .inr (by rwa [hj.same.callbacks] at ht)
      exact .inl (hrest ((switched u.fd result.playerId (sessions_taken hs hq)).2.2.2.1 t ht₁))

end GameService

end TinRpc
