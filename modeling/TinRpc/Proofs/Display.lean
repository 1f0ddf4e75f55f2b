import TinRpc.Proofs.Clients

/-!
# The counters a client shows

A client shows what the last message with counters said, and a message that leaves a counter out
says it is zero. The answers to a gather, a building and an edit leave some out, a pose all of
them. In a run where whatever is left out is zero (`Showing`), the client of every player in the
world shows his counters (`displayed_inventory`).
-/

namespace TinRpc

open Transition

variable {F D : Type}

namespace Effect

/-- The counters that the answer to an operation carries. -/
def answered (e : Effect F) (v : Inventory) : Inventory :=
  match e with
  | .gathered .. | .built .. => ⟨v.wood, v.stone, 0, 0, 0⟩
  | .crafted .. => v
  | .edited .. => { v with toolLevel := 0 }

/-- The counters that the answer to an operation leaves out are zero. -/
def OmitsZero (e : Effect F) (v : Inventory) : Prop :=
  match e with
  | .gathered .. | .built .. => v.dirt = 0 ∧ v.copper = 0 ∧ v.toolLevel = 0
  | .crafted .. => True
  | .edited .. => v.toolLevel = 0

instance (e : Effect F) (v : Inventory) : Decidable (e.OmitsZero v) :=
  match e with
  | .gathered .. | .built .. => inferInstanceAs (Decidable (_ ∧ _ ∧ _))
  | .crafted .. => .isTrue trivial
  | .edited .. => inferInstanceAs (Decidable (v.toolLevel = 0))

theorem answered_eq {e : Effect F} {v : Inventory} (h : e.OmitsZero v) :
    e.answered (e.onInventory v) = e.onInventory v := by
  cases e with
  | gathered p node type =>
    obtain ⟨hdirt, hcopper, htool⟩ := h
    have hgives : ∀ m, m = .dirt ∨ m = .copper → Material.gathered type ≠ some m := by
      unfold Material.gathered
      rintro m (rfl | rfl) <;> split_ifs <;> simp
    simp [answered, onInventory, credit, cost, tool, hdirt, hcopper, htool, hgives]
  | built p b =>
    obtain ⟨hdirt, hcopper, htool⟩ := h
    have hcosts : ∀ m, m = .dirt ∨ m = .copper → Material.buildingCharge b.type m = 0 := by
      unfold Material.buildingCharge
      rintro m (rfl | rfl) <;> split <;> simp_all
    simp [answered, onInventory, credit, cost, tool, hdirt, hcopper, htool, hcosts]
  | crafted p recipe => rfl
  | edited p room edit =>
    have htool : v.toolLevel = 0 := h
    simp [answered, onInventory, tool, htool]

end Effect

namespace Client

/-- The counters shown stay where every snapshot a player is told has them. -/
theorem told_inventory {q : String} : ∀ {l : Sends F} (c : Client),
    (∀ m ∈ l, m.1 = q → ∀ st, m.2 = .worldState st →
      c.inventory = some (decodeInventory st.inventory)) → (c.told q l).inventory = c.inventory
  | [], _, _ => rfl
  | m :: l, c, h => by
    have hm : (if m.1 = q then c.onNotify m.2 else c).inventory = c.inventory := by
      split_ifs with hq
      · rcases hp : m.2 with st | _ | _ | _ | _ | _
        · exact (h m List.mem_cons_self hq st hp).symm
        all_goals rfl
      · rfl
    have hl := told_inventory (q := q) (l := l) (if m.1 = q then c.onNotify m.2 else c)
      fun m' hm' hq st hst => hm.trans (h m' (List.mem_cons_of_mem _ hm') hq st hst)
    exact hl.trans hm

end Client

variable [Platform F]

namespace Call

variable (w : WorldService F)

/-- An operation that fails is answered without counters. -/
theorem onResponse_none {k : Call F} (he : k.effect w = none) (c : Client) :
    c.onResponse (GameService.callReply w k) = c := by
  cases k with
  | tryGather p node =>
    simp [GameService.callReply, Client.onResponse, Client.onGatherCompleted, Client.onCompleted,
      gather_success, he]
  | tryPlaceBuilding p type x y z yaw =>
    simp [GameService.callReply, Client.onResponse, Client.onBuildingCompleted,
      Client.onCompleted, build_success, he]
  | tryCraft p recipe =>
    simp [GameService.callReply, Client.onResponse, Client.onCraftCompleted, Client.onCompleted,
      craft_success, he]
  | applyVoxelEdit p x y z action type =>
    simp [GameService.callReply, Client.onResponse, Client.onVoxelEditCompleted,
      Client.onCompleted, edit_success, he]
  | _ => rfl

/-- What is shown after the answer to an operation that succeeded. -/
theorem onResponse_effect {k : Call F} {e : Effect F} {v : Inventory} (he : k.effect w = some e)
    (hv : w.inventory e.player = some v) (c : Client) :
    (c.onResponse (GameService.callReply w k)).inventory =
      some (e.answered (e.onInventory v)) := by
  have hplayer : ∀ {p : String} {player : Player F}, w.players.lookup p = some player →
      w.inventory p = some v → player.inv = v := by
    intro p player hp hv
    rw [WorldService.inventory, hp] at hv
    exact Option.some.inj hv
  cases k with
  | tryGather p node =>
    rcases w.tryGather_cases p node with ⟨hfail, -⟩ |
      ⟨player, n, hp, -, -, hok, htype, -, -, hwood, hstone⟩
    · simp [effect, hfail] at he
    simp only [effect, hok, htype, ↓reduceIte, Option.some.injEq] at he
    subst he
    obtain rfl := hplayer hp hv
    simp only [GameService.callReply, Client.onResponse, Client.onGatherCompleted,
      Client.onCompleted, hok, hwood, hstone, ↓reduceIte]
    rfl
  | tryPlaceBuilding p type x y z yaw =>
    rcases w.tryPlaceBuilding_cases p type x y z yaw with ⟨hfail, -⟩ |
      ⟨player, b, _, _, hp, -, -, -, -, -, hok, hb, -, -, hwood, hstone⟩
    · simp [effect, hfail] at he
    simp only [effect, hok, hb, ↓reduceIte, Option.some.injEq] at he
    subst he
    obtain rfl := hplayer hp hv
    simp only [GameService.callReply, Client.onResponse, Client.onBuildingCompleted,
      Client.onCompleted, hok, hwood, hstone, ↓reduceIte]
    rfl
  | tryCraft p recipe =>
    rcases (w.tryCraft_cases p recipe).2 with ⟨hfail, -⟩ |
      ⟨player, _, _, _, _, hp, -, -, -, -, -, hok, hinv, -⟩
    · simp [effect, hfail] at he
    simp only [effect, hok, ↓reduceIte, Option.some.injEq] at he
    subst he
    obtain rfl := hplayer hp hv
    simp only [GameService.callReply, Client.onResponse, Client.onCraftCompleted,
      Client.onCompleted, hok, hinv, ↓reduceIte]
    rfl
  | applyVoxelEdit p x y z action type =>
    rcases w.applyVoxelEdit_cases p x y z action type with ⟨hfail, -⟩ |
      ⟨player, edit, hp, hedit, -, hresult, -, -⟩
    · simp [effect, hfail] at he
    simp only [effect, hresult, hp, ↓reduceIte, Option.map_some, ← hedit, Option.some.injEq] at he
    subst he
    obtain rfl := hplayer hp hv
    simp only [GameService.callReply, Client.onResponse, Client.onVoxelEditCompleted,
      Client.onCompleted, hresult, ↓reduceIte]
    rfl
  | _ => simp [effect] at he

end Call

/-- Whoever a move's pose goes to has nothing. -/
def WorldService.PoseOmitsZero (w : WorldService F) : Call F → Prop
  | .tryMove p x y z yaw now appearance =>
    (w.tryMove p x y z yaw now appearance).result.success = true →
      ∀ player ∈ w.players.lookup p, ∀ it ∈ w.players.lookup player.playerId,
        kMinBroadcastIntervalMs ≤ now - it.lastBroadcastMs →
          ∀ e ∈ w.players.entries, e.1 ≠ player.playerId → e.2.roomId = player.roomId →
            e.2.inv = ⟨0, 0, 0, 0, 0⟩
  | _ => True

instance (w : WorldService F) (k : Call F) : Decidable (w.PoseOmitsZero k) :=
  match k with
  | .tryMove .. => inferInstanceAs (Decidable (_ → ∀ _ ∈ _, ∀ _ ∈ _, _ → ∀ _ ∈ _, _))
  | .enter .. | .enterWithState .. | .leave _ | .selectRoom .. | .tryGather ..
  | .tryPlaceBuilding .. | .tryCraft .. | .applyVoxelEdit .. => .isTrue trivial

namespace GameService

/-- Nothing a step leaves out of a message was different from zero. An operation that succeeds is
answered on its player's connection, to a request with an id, and the answer leaves out only
counters that are zero; otherwise it changes none. A pose goes to players who have nothing. -/
def Showing (s : GameService F D) : Event F → Prop
  | .frame fd rid request now =>
    ∀ conn ∈ s.handlers fd, ∀ k ∈ s.frameCall conn now request,
      (∀ e ∈ k.effect s.world, ∀ v ∈ s.world.inventory e.player,
        if s.playerConns e.player = some conn ∧ rid ≠ 0 then e.OmitsZero v
        else e.onInventory v = v) ∧
      s.world.PoseOmitsZero k
  | _ => True

instance (s : GameService F D) (e : Event F) : Decidable (Showing s e) :=
  match e with
  | .frame .. => inferInstanceAs (Decidable (∀ _ ∈ _, ∀ _ ∈ _, (∀ _ ∈ _, ∀ _ ∈ _, _) ∧ _))
  | .accept _ | .close .. | .work _ | .loop _ => .isTrue trivial

/-- Every player's client shows his counters. -/
def Displayed (s : GameService F D) : Prop :=
  ∀ p conn, s.playerConns p = some conn → (s.client conn).inventory = s.world.inventory p

variable {s s' : GameService F D}

/-- The answer to a frame is not for the client of another player. -/
theorem conns_ne (hs : Sessions s) {conn conn' : Connection} {now : ℤ} {request : Request F}
    {k : Call F} {q : String} (hk : s.frameCall conn now request = some k)
    (hq : s.playerConns q = some conn') (hne : q ≠ k.player) : conn ≠ conn' := by
  rintro rfl
  have hp := (frameCall_some hk).1
  rw [(hs.conns q conn hq).2, Option.some.injEq] at hp
  exact hne hp

/-- An operation is answered to its player's client, and nothing else is said of counters. -/
theorem displayed_operation {rid : ℕ} {conn conn' : Connection} {now : ℤ} {request : Request F}
    {k : Call F} {q : String} (hs : Sessions s) (hk : s.frameCall conn now request = some k)
    (hr : (k.run s.world).result = some (k.effect s.world).isSome)
    (hok : ∀ e ∈ k.effect s.world, ∀ v ∈ s.world.inventory e.player,
      if s.playerConns e.player = some conn ∧ rid ≠ 0 then e.OmitsZero v else e.onInventory v = v)
    (hq : s.playerConns q = some conn') {c : Client} (hc : c.inventory = s.world.inventory q) :
    ((c.told q (k.run s.world).sent).handle conn'
      [(conn, .response rid (callReply s.world k))]).inventory =
        (k.run s.world).world.inventory q := by
  have htold : (c.told q (k.run s.world).sent).inventory = s.world.inventory q := by
    refine (Client.told_inventory c fun m hm _ st hst => ?_).trans hc
    have hkind := Call.sent_operation s.world hr m hm
    rw [hst] at hkind
    split at hkind
    · obtain ⟨r, hr⟩ := hkind
      simp at hr
    all_goals simp at hkind
  generalize c.told q (k.run s.world).sent = c at htold
  rw [(Call.operation s.world hr).2 q, Client.handle_response]
  rcases he : k.effect s.world with _ | e
  · simp only [Call.onResponse_none s.world he, ite_self]
    exact htold
  have hperformed := Call.effect_performed s.world he
  dsimp only
  by_cases hqe : q = e.player
  · subst hqe
    obtain ⟨v, hv, -⟩ := hperformed.enabled
    have hzero := hok e he v hv
    simp only [hq, Option.some.injEq, eq_comm (a := conn')] at hzero
    rw [if_pos rfl, hv, Option.map_some]
    split_ifs at hzero ⊢
    · rw [Call.onResponse_effect s.world he hv, Effect.answered_eq hzero]
    · rw [htold, hv, hzero]
  · have hne := conns_ne hs hk hq (hperformed.player_eq ▸ hqe)
    rw [if_neg hqe, if_neg fun h => hne h.1]
    exact htold

/-- Changing rooms shows the player his counters again. -/
theorem displayed_selected {p room : String} {map now : ℤ} {q : String} {c : Client}
    (hc : c.inventory = s.world.inventory q) :
    (c.told q (s.world.selectRoom p room map now).sent).inventory =
      (s.world.selectRoom p room map now).world.inventory q := by
  rcases s.world.selectRoom_cases p room map now with ⟨-, hworld, hsent⟩ |
    ⟨inv, -, -, -, hentered⟩
  · rw [hworld, hsent]
    exact hc
  · obtain ⟨st, hst, -, htold⟩ := Client.told_entered hentered c q
    rw [htold, hentered.inventory_eq]
    split_ifs
    · simp [Client.onWorldState, Client.updateInventory, Client.decodeInventory, hst]
    · exact hc

/-- A pose shows zeros to those who have nothing. -/
theorem displayed_moved {p : String} {x y z yaw : F} {now appearance : ℤ} {q : String} {c : Client}
    (hpose : s.world.PoseOmitsZero (.tryMove p x y z yaw now appearance))
    (hc : c.inventory = s.world.inventory q) :
    (c.told q (s.world.tryMove p x y z yaw now appearance).sent).inventory =
      (s.world.tryMove p x y z yaw now appearance).world.inventory q := by
  obtain ⟨-, hinv, -, hsent⟩ := s.world.tryMove_spec p x y z yaw now appearance
  rw [hinv]
  refine (Client.told_inventory c fun m hm hmq st hst => ?_).trans hc
  obtain ⟨⟨t, ht⟩, hsuccess, player, it, hp, hne, hroom, hit, hdue⟩ := hsent m hm
  obtain ⟨other, hother, hin⟩ := Option.map_eq_some_iff.1 hroom
  have hzero := hpose hsuccess player hp it hit hdue ⟨m.1, other⟩
    (AList.mem_entries_iff.2 hother) hne hin
  obtain rfl := Push.worldState.inj (hst.symm.trans ht)
  rw [hc, ← hmq, WorldService.inventory, hother, Option.map_some]
  exact congrArg some hzero

/-- After a call every client shows its player's counters again. -/
theorem displayed_called {rid : ℕ} {conn conn' : Connection} {now : ℤ} {request : Request F}
    {k : Call F} {q : String} (hs : Sessions s) (hk : s.frameCall conn now request = some k)
    (hok : ∀ e ∈ k.effect s.world, ∀ v ∈ s.world.inventory e.player,
      if s.playerConns e.player = some conn ∧ rid ≠ 0 then e.OmitsZero v else e.onInventory v = v)
    (hpose : s.world.PoseOmitsZero k) (hq : s.playerConns q = some conn') {c : Client}
    (hc : c.inventory = s.world.inventory q) :
    ((c.told q (k.run s.world).sent).handle conn'
      [(conn, .response rid (callReply s.world k))]).inventory =
        (k.run s.world).world.inventory q := by
  have hanswer : ∀ c : Client, k.effect s.world = none →
      c.handle conn' [(conn, .response rid (callReply s.world k))] = c := by
    intro c he
    rw [Client.handle_response, Call.onResponse_none s.world he, ite_self]
  cases k with
  | enter | enterWithState | leave => exact absurd hk (by unfold frameCall; split <;> simp)
  | selectRoom p room map now =>
    rw [hanswer _ rfl]
    exact displayed_selected hc
  | tryMove p x y z yaw now appearance =>
    rw [hanswer _ rfl]
    exact displayed_moved hpose hc
  | tryGather p node =>
    exact displayed_operation hs hk (congrArg some (Call.gather_success ..)) hok hq hc
  | tryPlaceBuilding p type x y z yaw =>
    exact displayed_operation hs hk (congrArg some (Call.build_success ..)) hok hq hc
  | tryCraft p recipe =>
    exact displayed_operation hs hk (congrArg some (Call.craft_success ..)) hok hq hc
  | applyVoxelEdit p x y z action type =>
    exact displayed_operation hs hk (congrArg some (Call.edit_success ..)) hok hq hc

theorem displayed_removed {p : String} (hd : Displayed s) (h : Removed s p s') :
    Displayed s' := by
  intro q conn hq
  rw [h.playerConns, Function.update_apply] at hq
  split_ifs at hq with hqp
  rw [client_removed h, h.world, (s.world.leave_spec p).2.1, if_neg hqp]
  exact hd q conn hq

theorem displayed_joined {conn : Connection} {p : String} {saved : PlayerState F} {now : ℤ}
    {rid : ℕ} (hs' : Sessions s') (hd : Displayed s) (h : Joined s conn p saved now rid s') :
    Displayed s' := by
  intro q conn' hq
  obtain ⟨st, hst, -, hclient⟩ := client_joined hs' h hq
  rw [hclient, h.world, (s.world.enterWithState_spec p p now saved.x saved.y saved.z saved.yaw
    saved.inv).inventory_eq]
  rw [h.playerConns, Function.update_apply] at hq
  split_ifs at hq ⊢
  · simp [Client.onWorldState, Client.updateInventory, Client.decodeInventory, hst]
  · exact hd q conn' hq

variable [Lobby D]

theorem displayed_step {e : Event F} (hs : Sessions s) (hd : Displayed s) (hok : Showing s e)
    (h : step s e = some s') : Displayed s' := by
  have hs' := sessions_step hs h
  cases e with
  | accept fd =>
    obtain ⟨-, rfl⟩ := Step.accept h
    exact hd
  | frame fd rid request now =>
    obtain ⟨conn, hconn, hf⟩ := Step.frame h
    intro q conn' hq
    rw [hf.sessions.playerConns] at hq
    rw [client_framed hs hf hq, hf.world]
    rcases hk : s.frameCall conn now request with _ | k
    · exact hd q conn' hq
    · obtain ⟨hzero, hpose⟩ := hok conn hconn k hk
      exact displayed_called hs hk hzero hpose hq (hd q conn' hq)
  | close fd now =>
    obtain ⟨conn, s₁, -, -, rfl, ⟨-, rfl⟩ | ⟨p, -, hr⟩⟩ := Step.close_cases h
    · exact hd
    · have hd₁ : Displayed s₁ := displayed_removed hd hr
      exact hd₁
  | work o =>
    obtain ⟨task, queue, -, rfl⟩ := Step.work h
    cases task <;> exact hd
  | loop now =>
    obtain ⟨callback, callbacks, -, ⟨rest, metrics, rfl, hrest⟩ | ⟨t, result, saved, conn, -, -, -, hj⟩⟩ :=
      Step.loop_cases h
    · intro q conn hq
      rw [client_append (s := s) rfl,
        Client.handle_unseen _ fun m hm => Client.unseen_inert (hrest m hm)]
      exact hd q conn hq
    · refine displayed_joined hs' ?_ hj
      rcases switchAccount_cases { s with callbacks } t.fd result.playerId with ⟨heq, -⟩ |
        ⟨old, -, -, hr, -⟩
      · rw [heq]
        exact hd
      · exact displayed_removed (s := { s with callbacks }) hd hr

/-- In every run in which nothing but zeros is left out, the client of every player in the world
shows his counters once it has handled all it was sent. -/
theorem displayed_inventory (h : Running Showing s) {p : String} {conn : Connection}
    (hconn : s.playerConns p = some conn) :
    (s.client conn).inventory = s.world.inventory p := by
  have hd : Displayed s := by
    obtain ⟨lobby, db, accounts, players, scenes, o, h⟩ := h
    refine h.invariant_of
      (fun s hs => sessions_reach ⟨lobby, db, accounts, players, scenes, o, hs⟩) ?_
      fun s e s' hs hd hok he => displayed_step hs hd hok he
    intro p conn hp
    rw [(start_eq lobby db accounts players scenes o).1] at hp
    simp at hp
  exact hd p conn hconn

/-- The events of a login of `bob`. -/
def loginBob (fd : ℤ) : List (Event ℚ) :=
  [.frame fd 1 (.login (some ("bob", "secret"))) 0, .work {}, .loop 0]

/-- Two players log in; one changes rooms, places a block, crafts and moves. -/
theorem displayed_inventory_craft : ∃ s : GameService ℚ Unit,
    s.world.inventory "ann" = some ⟨4, 3, 11, 0, 1⟩ ∧
      (s.client ⟨0, 5⟩).inventory = s.world.inventory "ann" := by
  have hplay : (play Showing twoAccounts (List.flatten [[.accept 5], loginAnn 5, [.accept 6],
      loginBob 6, [.frame 5 2 (.selectMap (some ("map_0", 0))) 0,
        .frame 5 3 (.voxelEdit (some ⟨1, 1, 0, 2, 2⟩)) 0, .frame 5 4 (.craft (some 1)) 0,
        .frame 5 5 (.move (some ⟨1, 0, 0, 0, 0⟩)) 1000]])).map
        (fun s => (s.world.inventory "ann", s.playerConns "ann")) =
      some (some ⟨4, 3, 11, 0, 1⟩, some ⟨0, 5⟩) := by
    decide +kernel
  obtain ⟨s, hs, hv⟩ := Option.map_eq_some_iff.1 hplay
  rw [Prod.mk.injEq] at hv
  exact ⟨s, hv.1, displayed_inventory (running_of_play hs) hv.2⟩

/-- A building's answer leaves out the dirt, and a player's move shows the others in the room
zeros. -/
theorem displayed_inventory_fails :
    (∃ s : GameService ℚ Unit, Running anyEvent s ∧ s.playerConns "ann" = some ⟨0, 5⟩ ∧
      s.world.inventory "ann" = some ⟨4, 3, 12, 0, 0⟩ ∧
      (s.client ⟨0, 5⟩).inventory = some ⟨4, 3, 0, 0, 0⟩) ∧
    ∃ s : GameService ℚ Unit, Running anyEvent s ∧ s.playerConns "ann" = some ⟨0, 5⟩ ∧
      s.world.inventory "ann" = some ⟨6, 3, 12, 0, 0⟩ ∧
      (s.client ⟨0, 5⟩).inventory = some ⟨0, 0, 0, 0, 0⟩ := by
  have hplays : ∀ (es : List (Event ℚ)) (record shown : Inventory),
      (play anyEvent twoAccounts es).map (fun s =>
        (s.playerConns "ann", s.world.inventory "ann", (s.client ⟨0, 5⟩).inventory)) =
          some (some ⟨0, 5⟩, some record, some shown) →
      ∃ s : GameService ℚ Unit, Running anyEvent s ∧ s.playerConns "ann" = some ⟨0, 5⟩ ∧
        s.world.inventory "ann" = some record ∧ (s.client ⟨0, 5⟩).inventory = some shown := by
    intro es record shown hplay
    obtain ⟨s, hs, hv⟩ := Option.map_eq_some_iff.1 hplay
    simp only [Prod.mk.injEq] at hv
    exact ⟨s, running_of_play hs, hv⟩
  refine ⟨hplays (List.flatten [[.accept 5], loginAnn 5,
    [.frame 5 2 (.placeBuilding (some ⟨1, 0, 0, 0, 0⟩)) 0]]) _ _ ?_,
    hplays (List.flatten [[.accept 5], loginAnn 5, [.accept 6], loginBob 6,
      [.frame 6 2 (.move (some ⟨1, 0, 0, 0, 0⟩)) 100]]) _ _ ?_⟩
  · decide +kernel
  · decide +kernel

end GameService

end TinRpc
