import TinRpc.Client
import TinRpc.Proofs.Sessions

/-!
# What the clients are told

A client changes by the messages sent on its connection (`client_append`). A player has one
connection and no one shares it, so what `SendToPlayer` is handed reaches his client and no other
(`handle_delivered`). From this follows what the client of a player is told by a frame
(`client_framed`), by someone's login (`client_joined`) and by someone's leaving
(`client_removed`).
-/

namespace TinRpc

variable {F D : Type}

namespace Client

/-- What the client of a player makes of the messages of an operation. -/
def told (c : Client) (q : String) (sent : Sends F) : Client :=
  sent.foldl (fun c m => if m.1 = q then c.onNotify m.2 else c) c

/-- A message that changes neither the blocks nor the counters. -/
def Unseen (m : Message F) : Prop := ∀ c : Client, c.dispatchFrame m = c

theorem unseen_inert {m : Message F} (h : GameService.Inert m) : Unseen m := by
  intro c
  rcases m with ⟨_ | rid, r⟩ | _ | p | _
  · rfl
  · cases r with
    | voxelEdit success _ _ inventory => obtain ⟨rfl, -⟩ := h; rfl
    | craft success _ inventory => obtain ⟨rfl, -⟩ := h; rfl
    | gather => exact h.elim
    | placeBuilding => exact h.elim
    | _ => rfl
  · rfl
  · exact h.elim
  · rfl

theorem handle_append (c : Client) (conn : Connection) (l l' : List (Connection × Message F)) :
    c.handle conn (l ++ l') = (c.handle conn l).handle conn l' := List.foldl_append

theorem handle_unseen {conn : Connection} : ∀ {l : List (Connection × Message F)} (c : Client),
    (∀ m ∈ l, Unseen m.2) → c.handle conn l = c
  | [], _, _ => rfl
  | m :: l, c, h => by
    have hm := h m List.mem_cons_self c
    have hl : c.handle conn l = c := handle_unseen c fun m hm => h m (List.mem_cons_of_mem _ hm)
    unfold handle at hl ⊢
    rw [List.foldl_cons, hm, ite_self, hl]

theorem handle_response (c : Client) (conn conn' : Connection) (rid : ℕ) (r : Response F) :
    c.handle conn' [(conn, .response rid r)] =
      if conn = conn' ∧ rid ≠ 0 then c.onResponse r else c := by
  change (if conn = conn' then c.dispatchFrame (.response rid r) else c) = _
  cases rid <;> simp [dispatchFrame]

theorem told_append (c : Client) (q : String) (l l' : Sends F) :
    c.told q (l ++ l') = (c.told q l).told q l' := List.foldl_append

theorem told_filter (c : Client) (q : String) (l : Sends F) :
    c.told q l = (l.filter fun m => m.1 = q).foldl (fun c m => c.onNotify m.2) c := by
  rw [List.foldl_filter]
  simp only [decide_eq_true_eq]
  rfl

/-- What is sent to others, or changes nothing, is not noticed. -/
theorem told_unseen {q : String} : ∀ {l : Sends F} (c : Client),
    (∀ m ∈ l, m.1 = q → Unseen (.push m.2)) → c.told q l = c
  | [], _, _ => rfl
  | m :: l, c, h => by
    have hl := told_unseen c fun m hm => h m (List.mem_cons_of_mem _ hm)
    have hm : (if m.1 = q then c.onNotify m.2 else c) = c := by
      split_ifs with hq
      · exact h m List.mem_cons_self hq c
      · rfl
    unfold told at hl ⊢
    rw [List.foldl_cons, hm, hl]

/-- Entering a room shows its snapshot to the one who enters and nothing to the others. -/
theorem told_entered {w w' : WorldService F} {p room : String} {inv : Inventory} {sent : Sends F}
    (h : w.Entered p room inv w' sent) (c : Client) (q : String) :
    ∃ st : WorldStateNtf F, st.inventory = some inv ∧
      st.voxelEdits = ((w.roomEdits room).entries.map fun e => e.2) ∧
      c.told q sent = if q = p then c.onWorldState st else c := by
  obtain ⟨before, st, after, rfl, hbefore, hinv, hedits, hafter⟩ := h.sent_eq
  refine ⟨st, hinv, hedits, ?_⟩
  have hleft : c.told q before = c := by
    refine told_unseen c fun m hm _ _ => ?_
    obtain ⟨id, hid⟩ := hbefore m hm
    rw [hid]
    rfl
  have hentered : ∀ c : Client, c.told q after = c := by
    refine fun c => told_unseen c fun m hm _ _ => ?_
    obtain ⟨t, ht⟩ := hafter m hm
    rw [ht]
    rfl
  rw [told_append, hleft, ← List.singleton_append, told_append, hentered]
  simp only [told, List.foldl_cons, List.foldl_nil, eq_comm (a := p)]
  rfl

end Client

/-- An operation that succeeds sends what it changed, and one that fails nothing. -/
theorem Call.sent_operation [Platform F] (w : WorldService F) {k : Call F}
    (hr : (k.run w).result = some (k.effect w).isSome) :
    ∀ m ∈ (k.run w).sent, match k.effect w with
      | some (.gathered ..) => ∃ r, m.2 = .resourceChanged r
      | some (.built _ b) => m.2 = .buildingPlaced b
      | some (.edited _ _ e) => m.2 = .voxelEdit e
      | _ => False := by
  intro m hm
  cases k with
  | enter | enterWithState | leave => simp [run] at hr
  | selectRoom p room map now =>
    rcases w.selectRoom_cases p room map now with ⟨-, -, hsent⟩ | ⟨_, _, _, hok, -⟩
    · simp [run, hsent] at hm
    · simp [run, effect, hok] at hr
  | tryMove p x y z yaw now appearance =>
    obtain ⟨-, hok, -⟩ := (w.tryMove_spec p x y z yaw now appearance).2.2.2 m hm
    simp [run, effect, hok] at hr
  | tryGather p node =>
    rcases w.tryGather_cases p node with ⟨-, -, hsent⟩ | ⟨_, n, _, _, _, hok, _, _, hsent, -⟩
    · simp [run, hsent] at hm
    · simp only [run, hsent, WorldService.broadcastResource, List.mem_map] at hm
      obtain ⟨e, -, rfl⟩ := hm
      simp [effect, hok]
  | tryPlaceBuilding p type x y z yaw =>
    rcases w.tryPlaceBuilding_cases p type x y z yaw with ⟨-, -, hsent⟩ |
      ⟨_, b, _, _, _, _, _, _, _, _, hok, hb, _, hsent, -⟩
    · simp [run, hsent] at hm
    · simp only [run, hsent, WorldService.broadcastBuilding, List.mem_map] at hm
      obtain ⟨e, -, rfl⟩ := hm
      simp [effect, hok, hb]
  | tryCraft p recipe => simp [run, (w.tryCraft_cases p recipe).1] at hm
  | applyVoxelEdit p x y z action type =>
    rcases w.applyVoxelEdit_cases p x y z action type with ⟨-, hsent, -⟩ |
      ⟨player, e, hp, he, _, hresult, _, hsent⟩
    · simp [run, hsent] at hm
    · simp only [run, hsent, WorldService.broadcastVoxelEdit, List.mem_map] at hm
      obtain ⟨_, -, rfl⟩ := hm
      simp [effect, hresult, hp, ← he]

namespace GameService

variable {s s' : GameService F D}

theorem client_append {l : List (Connection × Message F)} (h : s'.wire = s.wire ++ l)
    (conn : Connection) : s'.client conn = (s.client conn).handle conn l := by
  unfold client
  rw [h, Client.handle_append]

/-- A player's connection is another's just where they are one player. -/
theorem conns_eq_iff (hs : Sessions s) {p q : String} {conn conn' : Connection}
    (hp : s.playerConns p = some conn') (hq : s.playerConns q = some conn) :
    conn' = conn ↔ p = q := by
  constructor
  · rintro rfl
    exact conns_unique hs hp hq
  · rintro rfl
    rwa [hp, Option.some.injEq] at hq

/-- What `SendToPlayer` is handed for a player is what comes on his connection. -/
theorem handle_delivered (hs : Sessions s) {q : String} {conn : Connection}
    (hq : s.playerConns q = some conn) : ∀ (sent : Sends F) (c : Client),
      c.handle conn (s.delivered .push sent) = c.told q sent
  | [], _ => rfl
  | m :: sent, c => by
    have ih := handle_delivered hs hq sent
    unfold delivered Client.handle Client.told at ih ⊢
    rw [List.filterMap_cons, List.foldl_cons]
    rcases hm : s.playerConns m.1 with _ | conn'
    · have hne : m.1 ≠ q := by
        rintro heq
        simp [heq, hq] at hm
      rw [if_neg hne]
      exact ih c
    · have hiff : conn' = conn ↔ m.1 = q := conns_eq_iff hs hm hq
      simp only [Option.map_some, List.foldl_cons, hiff]
      exact ih _

theorem client_removed [Platform F] {p : String} (h : Removed s p s') (conn : Connection) :
    s'.client conn = s.client conn := by
  obtain ⟨rest, hwire, hrest⟩ := h.wire
  rw [client_append hwire, Client.handle_unseen]
  intro m hm c
  rcases hrest m hm with ⟨data, hdata⟩ | ⟨id, hid⟩
  · rw [hdata]
    rfl
  · rw [hid]
    rfl

theorem client_joined [Platform F] {conn conn' : Connection} {p q : String} {saved : PlayerState F}
    {now : ℤ} {rid : ℕ} (hs' : Sessions s') (h : Joined s conn p saved now rid s')
    (hq : s'.playerConns q = some conn') :
    ∃ st : WorldStateNtf F, st.inventory = some saved.inv ∧
      st.voxelEdits = ((s.world.roomEdits ((s.world.room p).getD "lobby")).entries.map
        fun e => e.2) ∧
      s'.client conn' =
        if q = p then (s.client conn').onWorldState st else s.client conn' := by
  obtain ⟨st, hinv, hedits, htold⟩ := Client.told_entered
    (s.world.enterWithState_spec p p now saved.x saved.y saved.z saved.yaw saved.inv)
    (s.client conn') q
  refine ⟨st, hinv, hedits, ?_⟩
  have hlogin : Client.Unseen
      (Message.response (F := F) rid (.login true "" (some (p, p)))) := Client.unseen_inert trivial
  have hwire := h.wire
  rw [List.append_assoc] at hwire
  rw [client_append hwire, Client.handle_append, handle_delivered hs' hq, htold,
    Client.handle_unseen]
  intro m hm
  rw [List.mem_singleton.1 hm]
  exact hlogin

/-- A frame with a call tells a client what the call sends to its player, and the answer if the
frame came from it. -/
theorem client_framed [Platform F] {rid : ℕ} {conn conn' : Connection} {now : ℤ}
    {request : Request F} {q : String} (hs : Sessions s) (h : Framed s rid conn now request s')
    (hq : s.playerConns q = some conn') :
    s'.client conn' = (s.frameCall conn now request).elim (s.client conn') fun k =>
      ((s.client conn').told q (k.run s.world).sent).handle conn'
        [(conn, .response rid (callReply s.world k))] := by
  rcases hk : s.frameCall conn now request with _ | k
  · obtain ⟨rest, hwire, hrest⟩ := h.quiet hk
    rw [client_append hwire, Client.handle_unseen _ fun m hm => Client.unseen_inert (hrest m hm)]
    rfl
  · have hwire := h.called k hk
    rw [List.append_assoc] at hwire
    rw [client_append hwire, Client.handle_append, handle_delivered hs hq]
    rfl

end GameService

end TinRpc
