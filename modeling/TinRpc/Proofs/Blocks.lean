import TinRpc.Proofs.Display
import TinRpc.Proofs.Scenes
import TinRpc.Proofs.Voxel

/-!
# The blocks a client shows

The server keeps the last edit of each cell of a room, and a client applies what it is sent to the
blocks it has. A client that enters a room shows the blocks of where it was before under the
room's edits, and a placement leaves a block that is there. In a run where neither is seen
(`Seamless`), every client in a room shows the room's last edits over the generated terrain
(`same_blocks`).
-/

namespace TinRpc

open Transition VoxelWorld

variable {F D : Type}

namespace VoxelEditState

def cell (e : VoxelEditState) : Cell := (e.x, e.y, e.z)

/-- What an edit makes of the block in its cell. -/
def onBlock (e : VoxelEditState) (block : Option ℤ) : Option ℤ :=
  if e.action = 1 then none
  else if e.action = 2 then some (block.getD (clampi e.blockType grass copper))
  else block

/-- An edit does to what the last one left of the terrain's block what it does to that block, where
a placement after a removal puts the terrain's block back or finds none in the terrain. -/
theorem onBlock_last {e : VoxelEditState} {last : Option VoxelEditState} {terrain : Option ℤ}
    (h : e.action = 1 ∨ e.action = 2 ∧ ∀ l ∈ last, l.action ≠ 2 ∧ (l.action = 1 →
      ∀ block ∈ terrain, block = clampi e.blockType grass copper)) :
    e.onBlock (last.elim terrain fun l => l.onBlock terrain) = e.onBlock terrain := by
  rcases h with hremoves | ⟨hplaces, hlast⟩
  · simp [onBlock, hremoves]
  rcases last with _ | l
  · rfl
  obtain ⟨hne, hback⟩ := hlast l rfl
  by_cases hremoved : l.action = 1
  · have hsame : terrain.getD (clampi e.blockType grass copper) =
        clampi e.blockType grass copper := by
      rcases terrain with _ | block
      · rfl
      · exact hback hremoved block rfl
    simp [onBlock, hplaces, hremoved, hsame]
  · simp [onBlock, hne, hremoved]

end VoxelEditState

namespace VoxelWorld

/-- A type that can be placed is one the client knows. -/
theorem clampi_placed {type : ℤ} {m : Material}
    (h : WorldService.placedMaterial type = some m) : clampi type grass copper = type := by
  unfold WorldService.placedMaterial at h
  unfold clampi grass copper
  split_ifs at h <;> omega

def cellKey (cell : Cell) : String := voxelKey cell.1 cell.2.1 cell.2.2

theorem applyNetworkEdit_apply (blocks : Cell → Option ℤ) (e : VoxelEditState) (cell : Cell) :
    applyNetworkEdit blocks e cell = if e.cell = cell then e.onBlock (blocks cell)
      else blocks cell := by
  unfold applyNetworkEdit VoxelEditState.onBlock VoxelEditState.cell
  by_cases hcell : (e.x, e.y, e.z) = cell
  · subst hcell
    rcases hblock : blocks (e.x, e.y, e.z) with _ | block <;> split_ifs <;> simp_all
  · have hne : cell ≠ (e.x, e.y, e.z) := Ne.symm hcell
    split_ifs <;> simp [hne]

/-- The edits of a cell, one after the other, make its block. -/
theorem foldl_applyNetworkEdit (cell : Cell) :
    ∀ (l : List VoxelEditState) (blocks : Cell → Option ℤ),
      l.foldl applyNetworkEdit blocks cell =
        (l.filter fun e => e.cell = cell).foldl (fun block e => e.onBlock block) (blocks cell)
  | [], _ => rfl
  | e :: l, blocks => by
    rw [List.foldl_cons, foldl_applyNetworkEdit cell l, applyNetworkEdit_apply, List.filter_cons]
    by_cases hcell : e.cell = cell <;> simp [hcell]

/-- The last edits of a room over some blocks. -/
def replayed (edits : String → Option VoxelEditState) (blocks : Cell → Option ℤ) :
    Cell → Option ℤ :=
  fun cell => (edits (cellKey cell)).elim (blocks cell) fun e => e.onBlock (blocks cell)

/-- A snapshot applies the last edit of each cell once, in whatever order it lists them. -/
theorem foldl_entries {t : Table String VoxelEditState}
    (h : ∀ key e, t.lookup key = some e → key = voxelKey e.x e.y e.z)
    (blocks : Cell → Option ℤ) : (t.entries.map fun e => e.2).foldl applyNetworkEdit blocks =
      replayed (fun key => t.lookup key) blocks := by
  funext cell
  have hkey : (t.entries.filter fun e => e.2.cell = cell) =
      t.entries.filter fun e => e.1 = cellKey cell := by
    refine List.filter_congr fun e he => ?_
    obtain ⟨x, y, z⟩ := cell
    rw [h e.1 e.2 (AList.mem_entries_iff.1 he)]
    simp [VoxelEditState.cell, cellKey, voxelKey_inj]
  rw [foldl_applyNetworkEdit, List.filter_map]
  change (((t.entries.filter fun e => e.2.cell = cell).map _).foldl _ _) = _
  rw [hkey, AList.filter_key_entries]
  unfold replayed
  dsimp only
  rcases t.lookup (cellKey cell) with _ | e <;> rfl

/-- In every cell the block is that of the terrain, but where the last edit removed it or a
placement comes to the same block. -/
def Clean (blocks : Cell → Option ℤ) (edits : String → Option VoxelEditState) : Prop :=
  ∀ cell, blocks cell = generateBase cell ∨ ∃ e, edits (cellKey cell) = some e ∧
    (e.action = 1 ∨ e.action = 2 ∧ (blocks cell).getD (clampi e.blockType grass copper) =
      (generateBase cell).getD (clampi e.blockType grass copper))

theorem replayed_clean {blocks : Cell → Option ℤ} {edits : String → Option VoxelEditState}
    (h : Clean blocks edits) : replayed edits blocks = replayed edits generateBase := by
  funext cell
  unfold replayed
  rcases h cell with heq | ⟨e, he, hremoved | ⟨hplaced, heq⟩⟩
  · rw [heq]
  · simp [he, VoxelEditState.onBlock, hremoved]
  · simp [he, VoxelEditState.onBlock, hplaced, heq]

end VoxelWorld

/-- A message without edits. -/
def Message.Unedited : Message F → Prop
  | .push (.worldState st) => st.voxelEdits = []
  | .push (.voxelEdit _) => False
  | _ => True

instance (m : Message F) : Decidable m.Unedited :=
  match m with
  | .push (.worldState st) => inferInstanceAs (Decidable (st.voxelEdits = []))
  | .push (.voxelEdit _) => .isFalse not_false
  | .push (.playerEnter _) | .push (.playerLeave _) | .push (.resourceChanged _)
  | .push (.buildingPlaced _) | .response .. | .error .. | .roomEvent _ => .isTrue trivial

namespace Client

theorem blocks_onResponse (c : Client) (r : Response F) : (c.onResponse r).blocks = c.blocks := by
  have hcompleted : ∀ success inventory, (c.onCompleted success inventory).blocks = c.blocks := by
    intro success inventory
    cases success <;> rfl
  cases r <;> first | rfl | exact hcompleted _ _

theorem blocks_dispatchFrame (c : Client) {m : Message F} (h : m.Unedited) :
    (c.dispatchFrame m).blocks = c.blocks := by
  rcases m with ⟨_ | rid, r⟩ | _ | p | _
  · rfl
  · exact blocks_onResponse c r
  · rfl
  · cases p with
    | worldState st =>
      have hst : st.voxelEdits = [] := h
      simp [dispatchFrame, onNotify, onWorldState, updateInventory, hst]
    | voxelEdit => exact h.elim
    | _ => rfl
  · rfl

theorem blocks_told {q : String} : ∀ {l : Sends F} (c : Client),
    (∀ m ∈ l, m.1 = q → (Message.push m.2).Unedited) → (c.told q l).blocks = c.blocks
  | [], _, _ => rfl
  | m :: l, c, h => by
    have hl := blocks_told (if m.1 = q then c.onNotify m.2 else c)
      fun m hm => h m (List.mem_cons_of_mem _ hm)
    refine hl.trans ?_
    split_ifs with hq
    · exact blocks_dispatchFrame c (h m List.mem_cons_self hq)
    · rfl

theorem blocks_answered (c : Client) (conn conn' : Connection) (rid : ℕ) (r : Response F) :
    (c.handle conn' [(conn, .response rid r)]).blocks = c.blocks := by
  rw [handle_response]
  split_ifs
  · exact blocks_onResponse c r
  · rfl

end Client

/-! ## Rooms -/

variable [Platform F]

/-- An accepted edit is sent to everyone in its room. -/
theorem Call.sent_edited (w : WorldService F) {k : Call F} {p room : String} {e : VoxelEditState}
    (he : k.effect w = some (.edited p room e)) (q : String) :
    (k.run w).sent.filter (fun m => m.1 = q) =
      if w.room q = some room then [(q, .voxelEdit e)] else [] := by
  have hroom := (effect_performed w he).room_eq q
  cases k with
  | applyVoxelEdit p' x y z action type =>
    rcases w.applyVoxelEdit_cases p' x y z action type with ⟨hfail, -⟩ |
      ⟨player, edit, hp, hedit, -, hresult, -, hsent⟩
    · simp [effect, hfail] at he
    simp only [effect, hresult, hp, ↓reduceIte, Option.map_some, ← hedit, Option.some.injEq,
      Effect.edited.injEq] at he
    obtain ⟨rfl, rfl, rfl⟩ := he
    simp only [run] at hroom ⊢
    rw [hsent, WorldService.filter_broadcastVoxelEdit, hroom]
  | tryGather => obtain ⟨type, heq⟩ := effect_gather w he; simp at heq
  | tryPlaceBuilding => obtain ⟨b, heq⟩ := effect_build w he; simp at heq
  | tryCraft => exact absurd (effect_craft w he) (by simp)
  | _ => simp [effect] at he

namespace GameService

/-- A player enters a room with a clean client, and where a block was removed only the terrain's is
placed, or any where the terrain has none. -/
def CallSeamless (s : GameService F D) : Call F → Prop
  | .selectRoom p room map now =>
    (s.world.selectRoom p room map now).result = true → ∀ conn ∈ s.playerConns p,
      Clean (s.client conn).blocks (s.world.content.edits room)
  | .applyVoxelEdit p x y z action type =>
    (s.world.applyVoxelEdit p x y z action type).result.success = true → action = 2 →
      ∀ room ∈ s.world.room p, ∀ last ∈ s.world.content.edits room (voxelKey x y z),
        last.action = 1 → ∀ block ∈ generateBase (x, y, z), block = type
  | _ => True

def Seamless (s : GameService F D) : Event F → Prop
  | .frame fd _ request now =>
    ∀ conn ∈ s.handlers fd, ∀ k ∈ s.frameCall conn now request, CallSeamless s k
  | .loop _ => match s.callbacks with
    | .loggedIn t result _ :: _ => result.ok = true → ∀ conn ∈ s.activeConns t.fd,
      Clean (s.client conn).blocks
        (s.world.content.edits ((s.world.room result.playerId).getD "lobby"))
    | _ => True
  | _ => True

/-- Every player's client shows the last edits of his room over the terrain. -/
def Rendered (s : GameService F D) : Prop :=
  ∀ p conn room, s.playerConns p = some conn → s.world.room p = some room →
    (s.client conn).blocks = replayed (s.world.content.edits room) generateBase

variable {s s' : GameService F D}

omit [Platform F] in
/-- The snapshot of the room entered makes its blocks on a clean client. -/
theorem rendered_entered {w : WorldService F} {room : String} {st : WorldStateNtf F} {c : Client}
    (hw : w.content.Keyed)
    (hst : st.voxelEdits = ((w.roomEdits room).entries.map fun e => e.2))
    (hc : Clean c.blocks (w.content.edits room)) :
    (c.onWorldState st).blocks = replayed (w.content.edits room) generateBase := by
  have hkey : ∀ key e, (w.roomEdits room).lookup key = some e → key = voxelKey e.x e.y e.z :=
    fun key e h => hw.edits room key e h
  calc (c.onWorldState st).blocks
      = ((w.roomEdits room).entries.map fun e => e.2).foldl applyNetworkEdit c.blocks := by
        rw [← hst]
        rfl
    _ = replayed (w.content.edits room) c.blocks := foldl_entries hkey c.blocks
    _ = replayed (w.content.edits room) generateBase := replayed_clean hc

omit [Platform F] in
/-- An accepted edit does to a client's block what it does to the terrain's. -/
theorem rendered_edited {c : Content F} {p room : String} {e : VoxelEditState} {v : Inventory}
    {blocks : Cell → Option ℤ} (henabled : (Effect.edited p room e).Enabled c v)
    (hok : e.action = 2 → ∀ last ∈ c.edits room (voxelKey e.x e.y e.z), last.action = 1 →
      ∀ block ∈ generateBase (e.x, e.y, e.z), block = e.blockType)
    (hblocks : blocks = replayed (c.edits room) generateBase) :
    applyNetworkEdit blocks e =
      replayed (((Effect.edited p room e).onContent c).edits room) generateBase := by
  have hlegal : e.action = 1 ∨ e.action = 2 ∧ ∀ l ∈ c.edits room (cellKey e.cell),
      l.action ≠ 2 ∧ (l.action = 1 → ∀ block ∈ generateBase e.cell,
        block = clampi e.blockType grass copper) := by
    rcases henabled with ⟨hremoves, -⟩ | ⟨hplaces, hlast, m, hm, -⟩
    · exact .inl hremoves
    · refine .inr ⟨hplaces, fun l hl => ⟨hlast l hl, fun hremoved block hblock => ?_⟩⟩
      rw [clampi_placed hm]
      exact hok hplaces l hl hremoved block hblock
  funext cell
  have hedits : ((Effect.edited p room e).onContent c).edits room (cellKey cell) =
      if e.cell = cell then some e else c.edits room (cellKey cell) := by
    obtain ⟨x, y, z⟩ := cell
    simp [Effect.onContent, Function.update_apply, cellKey, voxelKey_inj, VoxelEditState.cell,
      eq_comm]
  rw [applyNetworkEdit_apply, hblocks]
  unfold replayed
  rw [hedits]
  split_ifs with hcell
  · subst hcell
    exact VoxelEditState.onBlock_last hlegal
  · rfl

/-- Changing rooms shows the player the room's blocks. -/
theorem rendered_selected {p room room' : String} {map now : ℤ} {q : String} {c : Client}
    (hw : s.world.content.Keyed)
    (hok : q = p → (s.world.selectRoom p room map now).result = true →
      Clean c.blocks (s.world.content.edits room))
    (hroom : (s.world.selectRoom p room map now).world.room q = some room')
    (hc : ∀ r, s.world.room q = some r →
      c.blocks = replayed (s.world.content.edits r) generateBase) :
    (c.told q (s.world.selectRoom p room map now).sent).blocks =
      replayed (s.world.content.edits room') generateBase := by
  rcases s.world.selectRoom_cases p room map now with ⟨-, hworld, hsent⟩ |
    ⟨inv, -, -, hsuccess, hentered⟩
  · rw [hworld] at hroom
    rw [hsent]
    exact hc room' hroom
  · obtain ⟨st, -, hst, htold⟩ := Client.told_entered hentered c q
    rw [hentered.room_eq] at hroom
    rw [htold]
    split_ifs at hroom ⊢ with hq
    · obtain rfl := Option.some.inj hroom
      exact rendered_entered hw hst (hok hq hsuccess)
    · exact hc room' hroom

omit [Platform F] in
/-- A call that changes no room and no edit, and sends none. -/
theorem rendered_unedited {w' : WorldService F} {sent : Sends F} {room' q : String} {c : Client}
    (hsent : ∀ m ∈ sent, (Message.push m.2).Unedited) (hrooms : w'.room q = s.world.room q)
    (hedits : w'.content.edits = s.world.content.edits) (hroom : w'.room q = some room')
    (hc : ∀ r, s.world.room q = some r →
      c.blocks = replayed (s.world.content.edits r) generateBase) :
    (c.told q sent).blocks = replayed (w'.content.edits room') generateBase := by
  rw [Client.blocks_told c fun m hm _ => hsent m hm, hedits]
  exact hc room' (hrooms ▸ hroom)

/-- What a seamless edit is, said of its effect. -/
theorem seamless_edit {k : Call F} {p room : String} {e : VoxelEditState}
    (hok : CallSeamless s k) (he : k.effect s.world = some (.edited p room e))
    (hplaces : e.action = 2) : ∀ last ∈ s.world.content.edits room (voxelKey e.x e.y e.z),
      last.action = 1 → ∀ block ∈ generateBase (e.x, e.y, e.z), block = e.blockType := by
  have hroom := Call.edited_room s.world he
  cases k with
  | applyVoxelEdit p' x y z action type =>
    have hsuccess := Call.edit_success s.world p' x y z action type
    rw [he] at hsuccess
    simp only [Call.effect, hsuccess, Option.isSome_some, ↓reduceIte,
      Option.map_eq_some_iff] at he
    obtain ⟨player, -, he⟩ := he
    simp only [Effect.edited.injEq] at he
    obtain ⟨rfl, -, rfl⟩ := he
    have haction : action = 2 := hplaces
    simp only [haction, show (2 : ℤ) ≠ 1 by decide, ↓reduceIte]
    exact hok hsuccess haction room hroom
  | tryGather => obtain ⟨type, heq⟩ := Call.effect_gather s.world he; simp at heq
  | tryPlaceBuilding => obtain ⟨b, heq⟩ := Call.effect_build s.world he; simp at heq
  | tryCraft => exact absurd (Call.effect_craft s.world he) (by simp)
  | _ => simp [Call.effect] at he

theorem rendered_operation {k : Call F} {room' q : String} {c : Client}
    (hr : (k.run s.world).result = some (k.effect s.world).isSome) (hok : CallSeamless s k)
    (hroom : (k.run s.world).world.room q = some room')
    (hc : ∀ r, s.world.room q = some r →
      c.blocks = replayed (s.world.content.edits r) generateBase) :
    (c.told q (k.run s.world).sent).blocks =
      replayed ((k.run s.world).world.content.edits room') generateBase := by
  have hsent := Call.sent_operation s.world hr
  have hcontent := Call.run_content s.world k
  rcases he : k.effect s.world with _ | e
  · rw [he] at hr hsent hcontent
    have hrooms := (Call.unchanged_of_failure s.world hr).2.2.2 q
    exact rendered_unedited (fun m hm => (hsent m hm).elim) hrooms
      (congrArg Content.edits hcontent) hroom hc
  have hperformed := Call.effect_performed s.world he
  have hrooms := hperformed.room_eq q
  rw [he] at hsent hcontent
  have hedits := congrArg Content.edits hcontent
  cases e with
  | gathered p node type =>
    refine rendered_unedited (fun m hm => ?_) hrooms hedits hroom hc
    obtain ⟨r, hr⟩ := hsent m hm
    rw [hr]
    trivial
  | built p b =>
    refine rendered_unedited (fun m hm => ?_) hrooms hedits hroom hc
    rw [hsent m hm]
    trivial
  | crafted p recipe =>
    exact rendered_unedited (fun m hm => (hsent m hm).elim) hrooms hedits hroom hc
  | edited p room e =>
    rw [hrooms] at hroom
    rw [Client.told_filter, Call.sent_edited s.world he, hroom, hperformed.content_eq]
    obtain ⟨v, -, henabled⟩ := hperformed.enabled
    by_cases hin : room' = room
    · subst hin
      rw [if_pos rfl]
      exact rendered_edited henabled (seamless_edit hok he) (hc room' hroom)
    · have hout : ¬ some room' = some room := fun h => hin (Option.some.inj h)
      rw [if_neg hout]
      simp only [Effect.onContent, Function.update_of_ne hin]
      exact hc room' hroom

/-- After a call every client shows its player's room again. -/
theorem rendered_called {conn conn' : Connection} {rid : ℕ} {now : ℤ} {request : Request F}
    {k : Call F} {room' q : String} (hw : s.world.content.Keyed)
    (hk : s.frameCall conn now request = some k) (hok : CallSeamless s k)
    (hq : s.playerConns q = some conn') (hroom : (k.run s.world).world.room q = some room')
    (hc : ∀ r, s.world.room q = some r →
      (s.client conn').blocks = replayed (s.world.content.edits r) generateBase) :
    (((s.client conn').told q (k.run s.world).sent).handle conn'
      [(conn, .response rid (callReply s.world k))]).blocks =
        replayed ((k.run s.world).world.content.edits room') generateBase := by
  rw [Client.blocks_answered]
  cases k with
  | enter | enterWithState | leave => exact absurd hk (by unfold frameCall; split <;> simp)
  | selectRoom p room map now =>
    rw [Call.run_content]
    exact rendered_selected hw (fun h hsuccess => hok hsuccess conn' (h ▸ hq)) hroom hc
  | tryMove p x y z yaw now appearance =>
    obtain ⟨-, -, hrooms, hsent⟩ := s.world.tryMove_spec p x y z yaw now appearance
    refine rendered_unedited (fun m hm => ?_) (hrooms q)
      (congrArg Content.edits (Call.run_content ..)) hroom hc
    obtain ⟨⟨t, ht⟩, -⟩ := hsent m hm
    rw [ht]
    rfl
  | tryGather p node =>
    exact rendered_operation (congrArg some (Call.gather_success ..)) hok hroom hc
  | tryPlaceBuilding p type x y z yaw =>
    exact rendered_operation (congrArg some (Call.build_success ..)) hok hroom hc
  | tryCraft p recipe =>
    exact rendered_operation (congrArg some (Call.craft_success ..)) hok hroom hc
  | applyVoxelEdit p x y z action type =>
    exact rendered_operation (congrArg some (Call.edit_success ..)) hok hroom hc

theorem rendered_removed {p : String} (hr : Rendered s) (h : Removed s p s') : Rendered s' := by
  intro q conn room hq hroom
  rw [h.playerConns, Function.update_apply] at hq
  split_ifs at hq with hqp
  rw [h.world, (s.world.leave_spec p).2.2.1, if_neg hqp] at hroom
  rw [client_removed h, content_removed h]
  exact hr q conn room hq hroom

theorem rendered_joined {conn : Connection} {p : String} {saved : PlayerState F} {now : ℤ}
    {rid : ℕ} (hs' : Sessions s') (hw : s.world.content.Keyed) (hr : Rendered s)
    (hok : Clean (s.client conn).blocks
      (s.world.content.edits ((s.world.room p).getD "lobby")))
    (h : Joined s conn p saved now rid s') : Rendered s' := by
  intro q conn' room hq hroom
  obtain ⟨st, -, hst, hclient⟩ := client_joined hs' h hq
  rw [h.world, (s.world.enterWithState_spec p p now saved.x saved.y saved.z saved.yaw
    saved.inv).room_eq] at hroom
  rw [h.playerConns, Function.update_apply] at hq
  rw [hclient, content_joined h]
  split_ifs at hq hroom ⊢
  · obtain rfl := Option.some.inj hroom
    obtain rfl := Option.some.inj hq
    exact rendered_entered hw hst hok
  · exact hr q conn' room hq hroom

variable [Lobby D]

theorem rendered_step {e : Event F} (hs : Sessions s) (hw : s.world.content.Keyed)
    (hr : Rendered s) (hok : Seamless s e) (h : step s e = some s') : Rendered s' := by
  have hs' := sessions_step hs h
  cases e with
  | accept fd =>
    obtain ⟨-, rfl⟩ := Step.accept h
    exact hr
  | frame fd rid request now =>
    obtain ⟨conn, hconn, hf⟩ := Step.frame h
    intro q conn' room hq hroom
    rw [hf.sessions.playerConns] at hq
    rw [hf.world] at hroom
    rw [client_framed hs hf hq, hf.world]
    rcases hk : s.frameCall conn now request with _ | k
    · rw [hk] at hroom
      exact hr q conn' room hq hroom
    · rw [hk] at hroom
      exact rendered_called hw hk (hok conn hconn k hk) hq hroom fun r => hr q conn' r hq
  | close fd now =>
    obtain ⟨conn, s₁, -, -, rfl, ⟨-, rfl⟩ | ⟨p, -, hremoved⟩⟩ := Step.close_cases h
    · exact hr
    · have hr₁ : Rendered s₁ := rendered_removed hr hremoved
      exact hr₁
  | work o =>
    obtain ⟨task, queue, -, rfl⟩ := Step.work h
    cases task <;> exact hr
  | loop now =>
    obtain ⟨callback, callbacks, hq, ⟨rest, metrics, rfl, hrest⟩ |
      ⟨t, result, saved, conn, rfl, hsuccess, hconn, hj⟩⟩ := Step.loop_cases h
    · intro p conn room hp hroom
      rw [client_append (s := s) rfl,
        Client.handle_unseen _ fun m hm => Client.unseen_inert (hrest m hm)]
      exact hr p conn room hp hroom
    · simp only [Seamless, hq] at hok
      have hclean := hok hsuccess conn hconn
      obtain ⟨hcontent, -⟩ := content_switched { s with callbacks } t.fd result.playerId
      rcases switchAccount_cases { s with callbacks } t.fd result.playerId with ⟨heq, -⟩ |
        ⟨old, -, hne, hremoved, -⟩
      · rw [heq] at hj
        exact rendered_joined (s := { s with callbacks }) hs' hw hr hclean hj
      · refine rendered_joined hs' (hcontent ▸ hw)
          (rendered_removed (s := { s with callbacks }) hr hremoved) ?_ hj
        have hroom : (switchAccount { s with callbacks } t.fd result.playerId).world.room
            result.playerId = s.world.room result.playerId := by
          rw [hremoved.world, (WorldService.leave_spec _ old).2.2.1, if_neg (Ne.symm hne)]
        rw [client_removed hremoved, hcontent, hroom]
        exact hclean

theorem rendered_reach (h : Running Seamless s) : Rendered s := by
  obtain ⟨lobby, db, accounts, players, scenes, o, h⟩ := h
  refine h.invariant_of (Q := fun s => Sessions s ∧ s.world.content.Keyed)
    (fun s hs => ⟨sessions_reach ⟨lobby, db, accounts, players, scenes, o, hs⟩,
      (storable_reach ⟨lobby, db, accounts, players, scenes, o, hs⟩).toKeyed⟩) ?_
    fun s e s' hinv hr hok he => rendered_step hinv.1 hinv.2 hr hok he
  intro p conn room hp
  rw [(start_eq lobby db accounts players scenes o).1] at hp
  simp at hp

/-- In every seamless run the clients of two players in a room show the same blocks, and these are
what the room's snapshot makes on a client that joins. -/
theorem same_blocks (h : Running Seamless s) {p q room : String} {conn conn' : Connection}
    (hp : s.playerConns p = some conn) (hq : s.playerConns q = some conn')
    (hproom : s.world.room p = some room) (hqroom : s.world.room q = some room) :
    (s.client conn).blocks = (s.client conn').blocks ∧
      (s.client conn).blocks = (Client.ready.onWorldState (s.world.worldStateFor q)).blocks := by
  have hr := rendered_reach h
  have hw := (storable_reach h).toKeyed
  have hsnapshot : (s.world.worldStateFor q).voxelEdits =
      ((s.world.roomEdits room).entries.map fun e => e.2) := by
    obtain ⟨player, hplayer, rfl⟩ := Option.map_eq_some_iff.1 hqroom
    simp [WorldService.worldStateFor, hplayer]
  rw [hr p conn room hp hproom, hr q conn' room hq hqroom,
    rendered_entered hw hsnapshot fun cell => .inl rfl]
  exact ⟨rfl, rfl⟩

/-- Nothing that was sent on the connection has an edit. -/
def Unedited (s : GameService F D) (conn : Connection) : Prop :=
  ∀ m ∈ s.wire, m.1 = conn → m.2.Unedited

omit [Platform F] [Lobby D] in
/-- A client that has seen no edit is clean for every room. -/
theorem clean_of_unedited {conn : Connection} (h : Unedited s conn)
    (edits : String → Option VoxelEditState) : Clean (s.client conn).blocks edits := by
  have hblocks : ∀ (l : List (Connection × Message F)) (c : Client),
      (∀ m ∈ l, m.1 = conn → m.2.Unedited) → (c.handle conn l).blocks = c.blocks := by
    intro l
    induction l with
    | nil => exact fun c _ => rfl
    | cons m l ih =>
      intro c hl
      refine (ih _ fun m hm => hl m (List.mem_cons_of_mem _ hm)).trans ?_
      dsimp only
      split_ifs with hm
      · exact Client.blocks_dispatchFrame c (hl m List.mem_cons_self hm)
      · rfl
  intro cell
  exact .inl (congrFun (hblocks s.wire Client.ready h) cell)

/-- A room is entered by a client that has seen no edit, and a block is placed where the terrain
has none. -/
def FreshCall (s : GameService F D) : Call F → Prop
  | .selectRoom p .. => ∀ conn ∈ s.playerConns p, Unedited s conn
  | .applyVoxelEdit _ x y z action _ => action = 2 → generateBase (x, y, z) = none
  | _ => True

def FreshEntry (s : GameService F D) : Event F → Prop
  | .frame fd _ request now =>
    ∀ conn ∈ s.handlers fd, ∀ k ∈ s.frameCall conn now request, FreshCall s k
  | .loop _ => match s.callbacks with
    | .loggedIn t .. :: _ => ∀ conn ∈ s.activeConns t.fd, Unedited s conn
    | _ => True
  | _ => True

instance (s : GameService F D) (conn : Connection) : Decidable (Unedited s conn) :=
  inferInstanceAs (Decidable (∀ m ∈ s.wire, m.1 = conn → m.2.Unedited))

instance (s : GameService F D) (k : Call F) : Decidable (FreshCall s k) :=
  match k with
  | .selectRoom p .. => inferInstanceAs (Decidable (∀ conn ∈ s.playerConns p, Unedited s conn))
  | .applyVoxelEdit .. => inferInstanceAs (Decidable (_ → _))
  | .enter .. | .enterWithState .. | .leave _ | .tryMove .. | .tryGather ..
  | .tryPlaceBuilding .. | .tryCraft .. => .isTrue trivial

instance (s : GameService F D) (e : Event F) : Decidable (FreshEntry s e) :=
  match e with
  | .frame .. => inferInstanceAs (Decidable (∀ _ ∈ _, ∀ _ ∈ _, FreshCall _ _))
  | .loop _ => by
    unfold FreshEntry
    exact match s.callbacks with
      | .loggedIn t .. :: _ =>
        inferInstanceAs (Decidable (∀ conn ∈ s.activeConns t.fd, Unedited s conn))
      | [] | .registered .. :: _ => .isTrue trivial
  | .accept _ | .close .. | .work _ => .isTrue trivial

omit [Lobby D] in
theorem seamless_of_freshEntry (s : GameService F D) (e : Event F) (h : FreshEntry s e) :
    Seamless s e := by
  cases e with
  | frame fd rid request now =>
    intro conn hconn k hk
    have hk := h conn hconn k hk
    cases k with
    | selectRoom p room map now =>
      exact fun _ conn hconn => clean_of_unedited (hk conn hconn) _
    | applyVoxelEdit p x y z action type =>
      intro _ hplaces room _ last _ _ block hblock
      rw [hk hplaces] at hblock
      simp at hblock
    | _ => trivial
  | loop now =>
    simp only [Seamless, FreshEntry] at h ⊢
    split at h
    · exact fun _ conn hconn => clean_of_unedited (h conn hconn) _
    · trivial
  | _ => trivial

/-- A player digs and builds in a room, and another joins it later and digs too. -/
theorem same_blocks_map : ∃ s : GameService ℚ Unit,
    s.world.room "ann" = some "map_0" ∧ s.world.room "bob" = some "map_0" ∧
      (s.client ⟨0, 5⟩).blocks (0, 0, 0) = none ∧
      (s.client ⟨0, 5⟩).blocks (1, 1, 0) = some dirt ∧
      (s.client ⟨0, 5⟩).blocks = (s.client ⟨1, 6⟩).blocks ∧
      (s.client ⟨0, 5⟩).blocks =
        (Client.ready.onWorldState (s.world.worldStateFor "bob")).blocks := by
  have hplay : (play FreshEntry twoAccounts (List.flatten [[.accept 5], loginAnn 5, [.accept 6],
      loginBob 6, [.frame 5 2 (.selectMap (some ("map_0", 0))) 0,
        .frame 5 3 (.voxelEdit (some ⟨0, 0, 0, 1, 3⟩)) 0,
        .frame 5 4 (.voxelEdit (some ⟨1, 1, 0, 2, 2⟩)) 0,
        .frame 6 2 (.selectMap (some ("map_0", 0))) 0,
        .frame 6 3 (.voxelEdit (some ⟨1, 0, 0, 1, 1⟩)) 0]])).map
        (fun s => decide (s.playerConns "ann" = some ⟨0, 5⟩ ∧ s.playerConns "bob" = some ⟨1, 6⟩ ∧
          s.world.room "ann" = some "map_0" ∧ s.world.room "bob" = some "map_0" ∧
          (s.client ⟨0, 5⟩).blocks (0, 0, 0) = none ∧
          (s.client ⟨0, 5⟩).blocks (1, 1, 0) = some dirt)) = some true := by
    decide +kernel
  obtain ⟨s, hs, hv⟩ := Option.map_eq_some_iff.1 hplay
  obtain ⟨hann, hbob, hannRoom, hbobRoom, hdug, hplaced⟩ := of_decide_eq_true hv
  obtain ⟨lobby, db, accounts, players, scenes, o, hreach⟩ := running_of_play hs
  have hrunning : Running Seamless s :=
    ⟨lobby, db, accounts, players, scenes, o, hreach.mono seamless_of_freshEntry⟩
  exact ⟨s, hannRoom, hbobRoom, hdug, hplaced,
    same_blocks hrunning hann hbob hannRoom hbobRoom⟩

/-- A hole dug in one room is still there in the next; and a block put back is seen by those who
were there and not by those who come later. -/
theorem same_blocks_fails :
    (∃ s : GameService ℚ Unit, Running anyEvent s ∧ s.playerConns "ann" = some ⟨0, 5⟩ ∧
      s.playerConns "bob" = some ⟨1, 6⟩ ∧ s.world.room "ann" = s.world.room "bob" ∧
      (s.client ⟨0, 5⟩).blocks (0, 0, 0) = none ∧
      (s.client ⟨1, 6⟩).blocks (0, 0, 0) = some stone) ∧
    ∃ s : GameService ℚ Unit, Running anyEvent s ∧ s.playerConns "ann" = some ⟨0, 5⟩ ∧
      s.playerConns "bob" = some ⟨1, 6⟩ ∧ s.world.room "ann" = s.world.room "bob" ∧
      (s.client ⟨0, 5⟩).blocks (1, 0, 0) = some dirt ∧
      (s.client ⟨1, 6⟩).blocks (1, 0, 0) = some grass := by
  have hplays : ∀ (es : List (Event ℚ)) (cell : Cell) (b b' : Option ℤ),
      (play anyEvent twoAccounts es).map (fun s =>
        decide (s.playerConns "ann" = some ⟨0, 5⟩ ∧ s.playerConns "bob" = some ⟨1, 6⟩ ∧
          s.world.room "ann" = s.world.room "bob" ∧ (s.client ⟨0, 5⟩).blocks cell = b ∧
          (s.client ⟨1, 6⟩).blocks cell = b')) = some true →
      ∃ s : GameService ℚ Unit, Running anyEvent s ∧ s.playerConns "ann" = some ⟨0, 5⟩ ∧
        s.playerConns "bob" = some ⟨1, 6⟩ ∧ s.world.room "ann" = s.world.room "bob" ∧
        (s.client ⟨0, 5⟩).blocks cell = b ∧ (s.client ⟨1, 6⟩).blocks cell = b' := by
    intro es cell b b' hplay
    obtain ⟨s, hs, hv⟩ := Option.map_eq_some_iff.1 hplay
    exact ⟨s, running_of_play hs, of_decide_eq_true hv⟩
  refine ⟨hplays (List.flatten [[.accept 5], loginAnn 5,
      [.frame 5 2 (.selectMap (some ("map_0", 0))) 0, .frame 5 3 (.voxelEdit (some ⟨0, 0, 0, 1, 3⟩)) 0,
      .frame 5 4 (.selectMap (some ("map_1", 1))) 0, .work {}, .work {}, .accept 6], loginBob 6,
      [.frame 6 2 (.selectMap (some ("map_1", 1))) 0]]) (0, 0, 0) none (some stone) ?_,
    hplays (List.flatten [[.accept 5], loginAnn 5, [.frame 5 2 (.selectMap (some ("map_0", 0))) 0,
      .frame 5 3 (.voxelEdit (some ⟨1, 0, 0, 1, 1⟩)) 0,
      .frame 5 4 (.voxelEdit (some ⟨1, 0, 0, 2, 2⟩)) 0, .work {}, .work {}, .work {}, .work {},
      .accept 6], loginBob 6, [.frame 6 2 (.selectMap (some ("map_0", 0))) 0]]) (1, 0, 0)
      (some dirt) (some grass) ?_⟩
  · decide +kernel
  · decide +kernel

end GameService

end TinRpc
