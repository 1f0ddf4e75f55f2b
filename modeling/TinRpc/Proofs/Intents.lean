import TinRpc.Floats
import TinRpc.Proofs.Scenery

/-!
# What a client offers

A client offers to gather the resource that is nearest to its player, to mine the highest block it
shows of a column and to place one above. What it shows is what there is, so the server accepts what
is offered to a player who is where his client has him (`gather_accepted`, `edit_accepted`).
-/

namespace TinRpc

open Transition

variable {F D : Type} [Platform F]

/-- What comparisons of `float`s have in common with those of numbers. -/
class Platform.Comparable (F : Type) [Platform F] : Prop where
  lt_irrefl (a : F) : Platform.lt a a = false
  lt_trans {a b c : F} : Platform.lt a b = true → Platform.lt b c = true → Platform.lt a c = true
  square_sub (a b : F) :
    Platform.mul (Platform.sub a b) (Platform.sub a b) =
      Platform.mul (Platform.sub b a) (Platform.sub b a)

namespace Platform

variable [Comparable F]

theorem Comparable.lt_asymm {a b : F} (h : lt a b = true) : lt b a = false := by
  rcases hba : lt b a with _ | _
  · rfl
  · have hself := lt_trans h hba
    rw [lt_irrefl] at hself
    cases hself

theorem distance_comm (ax ay az bx by_ bz : F) :
    distance ax ay az bx by_ bz = distance bx by_ bz ax ay az := by
  unfold distance
  dsimp only
  rw [Comparable.square_sub ax, Comparable.square_sub ay, Comparable.square_sub az]

end Platform

instance : Platform.Comparable ℚ where
  lt_irrefl a := decide_eq_false (lt_irrefl a)
  lt_trans hab hbc := decide_eq_true ((of_decide_eq_true hab).trans (of_decide_eq_true hbc))
  square_sub a b := by
    show (a - b) * (a - b) = (b - a) * (b - a)
    ring

instance [Hashes] : Platform.Comparable Score where
  lt_irrefl a := by rcases a with _ | _ | q <;> simp [Platform.lt, Score.lt]
  lt_trans {a b c} hab hbc := by
    simp only [Platform.lt] at hab hbc ⊢
    cases a <;> cases b <;> cases c <;> simp_all [Score.lt]
    exact hab.trans hbc
  square_sub a b := by
    rcases a with _ | s | q <;> rcases b with _ | t | r
    all_goals try rfl
    · cases s <;> cases t <;> rfl
    · cases s <;> rfl
    · cases t <;> rfl
    · show Score.fin ((q + -r) * (q + -r)) = .fin ((r + -q) * (r + -q))
      congr 1
      ring

/-! ## Gathering -/

namespace SurvivalWorld

open Platform (lt ofRat)

def ResourceNode.distance (from_ : F × F × F) (node : ResourceNode F) : F :=
  Platform.distance node.position.1 node.position.2.1 node.position.2.2 from_.1 from_.2.1 from_.2.2

variable [Platform.Comparable F] (from_ : F × F × F)

/-- The loop keeps the best it began with, or finds a nearer one; and there is none nearer than what
it ends with. -/
theorem foldl_nearer : ∀ (l : List (Sigma fun _ : String => ResourceNode F)) (best : String × F),
    let best' := l.foldl (fun best e => nearer from_ best e.1 e.2) best
    (best' = best ∨ lt best'.2 best.2 = true ∧
      ∃ e ∈ l, best' = (e.1, ResourceNode.distance from_ e.2)) ∧
      ∀ e ∈ l, lt (ResourceNode.distance from_ e.2) best'.2 = false
  | [], _ => ⟨.inl rfl, fun _ h => absurd h List.not_mem_nil⟩
  | e :: l, best => by
    obtain ⟨hbest, hleast⟩ := foldl_nearer l (nearer from_ best e.1 e.2)
    rw [List.foldl_cons]
    generalize l.foldl _ _ = best' at hbest hleast ⊢
    have hfirst : nearer from_ best e.1 e.2 =
        if lt (ResourceNode.distance from_ e.2) best.2
        then (e.1, ResourceNode.distance from_ e.2) else best := rfl
    rw [hfirst] at hbest
    rcases hlt : lt (ResourceNode.distance from_ e.2) best.2 with _ | _
    · rw [hlt, if_neg Bool.false_ne_true] at hbest
      refine ⟨hbest.imp_right fun ⟨hlt, e', he', heq⟩ => ⟨hlt, e', .tail _ he', heq⟩, ?_⟩
      refine List.forall_mem_cons.2 ⟨?_, hleast⟩
      rcases hbest with rfl | ⟨hbetter, -⟩
      · exact hlt
      · rcases h : lt (ResourceNode.distance from_ e.2) best'.2 with _ | _
        · rfl
        · rw [← hlt, Platform.Comparable.lt_trans h hbetter]
    · rw [hlt, if_pos rfl] at hbest
      have hfound : lt best'.2 best.2 = true ∧ ∃ e' ∈ e :: l,
          best' = (e'.1, ResourceNode.distance from_ e'.2) := by
        rcases hbest with rfl | ⟨hbetter, e', he', heq⟩
        · exact ⟨hlt, e, .head _, rfl⟩
        · exact ⟨Platform.Comparable.lt_trans hbetter hlt, e', .tail _ he', heq⟩
      refine ⟨.inr hfound, List.forall_mem_cons.2 ⟨?_, hleast⟩⟩
      rcases hbest with rfl | ⟨hbetter, -⟩
      · exact Platform.Comparable.lt_irrefl _
      · exact Platform.Comparable.lt_asymm hbetter

/-- The nearest resource is one that is shown, or none is near enough. -/
theorem nearestResource_cases {c : SurvivalWorld F} (hnamed : c.resources.lookup "" = none)
    (max : F) :
    (c.nearestResource from_ max = "" ∧ ∀ id node, c.resources.lookup id = some node →
        lt (ResourceNode.distance from_ node) max = false) ∨
      c.nearestResource from_ max ≠ "" ∧
        ∃ node, c.resources.lookup (c.nearestResource from_ max) = some node ∧
          lt (ResourceNode.distance from_ node) max = true ∧
          ∀ id' node', c.resources.lookup id' = some node' →
            lt (ResourceNode.distance from_ node') (ResourceNode.distance from_ node) = false := by
  obtain ⟨hbest, hleast⟩ := foldl_nearer from_ c.resources.entries.reverse ("", max)
  unfold nearestResource
  generalize c.resources.entries.reverse.foldl _ _ = best at hbest hleast ⊢
  have hleast' : ∀ id node, c.resources.lookup id = some node →
      lt (ResourceNode.distance from_ node) best.2 = false := fun id node hnode =>
    hleast ⟨id, node⟩ (List.mem_reverse.2 (AList.mem_entries_iff.2 hnode))
  rcases hbest with rfl | ⟨hnear, e, he, rfl⟩
  · exact .inl ⟨rfl, hleast'⟩
  · have hnode : c.resources.lookup e.1 = some e.2 :=
      AList.mem_entries_iff.1 (List.mem_reverse.1 he)
    refine .inr ⟨fun hname => ?_, e.2, hnode, hnear, hleast'⟩
    rw [show e.1 = "" from hname, hnamed] at hnode
    cases hnode

end SurvivalWorld

namespace WorldService

open Platform (lt ofRat distance)

variable {w : WorldService F} {p node : String} {player : Player F} {r : Resource F}

/-- A resource that is left and within reach is gathered. -/
theorem tryGather_success (hp : w.players.lookup p = some player)
    (hr : w.resources.lookup node = some r) (hleft : 0 < r.remaining)
    (hnear : lt (ofRat 4) (distance player.x player.y player.z r.x r.y r.z) = false) :
    ∃ v : Inventory, GameService.callReply w (.tryGather p node) =
        .gather true "" { r with remaining := r.remaining - 1 } ⟨v.wood, v.stone, 0, 0, 0⟩ ∧
      (w.tryGather p node).world.content.resources node =
        some { r with remaining := r.remaining - 1 } := by
  have hfar : ¬ lt (ofRat 4) (distance player.x player.y player.z r.x r.y r.z) = true := by
    rw [hnear]
    exact Bool.false_ne_true
  have hcontent : ∀ t : Table String (Resource F), (t.insert node
      { r with remaining := r.remaining - 1 }).lookup node =
        some { r with remaining := r.remaining - 1 } := fun t => AList.lookup_insert t
  unfold GameService.callReply tryGather
  simp only [hp, hr, if_neg (Int.not_le.2 hleft), if_neg hfar]
  exact ⟨_, rfl, hcontent _⟩

end WorldService

namespace GameService

open Platform (lt ofRat distance)

variable [Lobby D] {s : GameService F D}

/-- A call on a player's connection. -/
theorem step_called (hs : Sessions s) {p : String} {conn : Connection}
    (hp : s.playerConns p = some conn) {request : Request F} {k : Call F} {now : ℤ} (rid : ℕ)
    (hk : s.frameCall conn now request = some k) :
    ∃ s', step s (.frame conn.fd rid request now) = some s' ∧
      Framed s rid conn now request s' ∧ s'.world = (k.run s.world).world ∧
      s'.wire = s.wire ++ s.delivered .push (k.run s.world).sent ++
        [(conn, .response rid (callReply s.world k))] := by
  have hframed : Framed s rid conn now request (s.onServerFrame rid conn now request) :=
    onServerFrame_framed request
  refine ⟨_, ?_, hframed, ?_, hframed.called k hk⟩
  · simp only [step, (hs.conns p conn hp).1, Option.map_some]
  · rw [hframed.world, hk]
    rfl

/-- In every run, what the client of a player offers to gather is the nearest resource that is left,
and the server gives it to him; and where it offers nothing there is none within reach. -/
theorem gather_accepted [Platform.Comparable F] {ok : GameService F D → Event F → Prop}
    (h : Running ok s) {p : String} {conn : Connection} {player : Player F}
    (hp : s.playerConns p = some conn) (hplayer : s.world.players.lookup p = some player) :
    let intent := (s.survivalWorld conn).gatherIntent (player.x, player.y, player.z)
    let reach := fun r : Resource F => distance player.x player.y player.z r.x r.y r.z
    let left := fun id r => s.world.content.resources id = some r ∧ 0 < r.remaining
    (∀ id, intent = some id → ∃ r, left id r ∧
      (∀ id' r', left id' r' → lt (reach r') (reach r) = false) ∧
      ∀ rid now, ∃ s' sent v, step s (.frame conn.fd rid (.gather (some id)) now) = some s' ∧
        s'.wire = s.wire ++ sent ++ [(conn, .response rid
          (.gather true "" { r with remaining := r.remaining - 1 } v))] ∧
        s'.world.content.resources id = some { r with remaining := r.remaining - 1 }) ∧
    (intent = none → ∀ id r, left id r → lt (reach r) (ofRat 4) = false) := by
  intro intent reach left
  have hcomplete := (scenic_reach h).complete p conn hp
  have hs := sessions_reach h
  have hw := storable_reach h
  set c := s.survivalWorld conn with hc
  have hnamed : c.resources.lookup "" = none := by
    rw [hcomplete.resources]
    rcases hr : s.world.content.resources "" with _ | r
    · rfl
    · exact absurd rfl (hw.ids "" r hr).2
  have hshown : ∀ id r, left id r → c.resources.lookup id = some r.node := by
    intro id r ⟨hr, hleft⟩
    rw [hcomplete.resources, hr]
    exact if_pos hleft
  have hreach : ∀ r : Resource F, SurvivalWorld.ResourceNode.distance
      (player.x, player.y, player.z) r.node = reach r :=
    fun r => Platform.distance_comm r.x r.y r.z player.x player.y player.z
  have hintent : intent = if c.nearestResource (player.x, player.y, player.z) (ofRat 4) = ""
      then none else some (c.nearestResource (player.x, player.y, player.z) (ofRat 4)) := rfl
  rcases SurvivalWorld.nearestResource_cases (player.x, player.y, player.z) hnamed (ofRat 4) with
    ⟨hnone, hfar⟩ | ⟨hsome, node, hnode, hnear, hleast⟩
  · rw [hintent, if_pos hnone]
    refine ⟨fun _ hid => absurd hid (Option.some_ne_none _).symm, fun _ id r hr => ?_⟩
    rw [← hreach]
    exact hfar id _ (hshown id r hr)
  · rw [hintent, if_neg hsome]
    generalize c.nearestResource _ _ = id at hnode ⊢
    refine ⟨fun id' hid => ?_, fun hid => absurd hid (Option.some_ne_none _)⟩
    obtain rfl := Option.some.inj hid
    rw [hcomplete.resources] at hnode
    obtain ⟨r, hr, hnode⟩ := Option.bind_eq_some_iff.1 hnode
    unfold Resource.shown at hnode
    split_ifs at hnode with hleft
    obtain rfl := Option.some.inj hnode
    rw [hreach] at hnear hleast
    refine ⟨r, ⟨hr, hleft⟩, fun id' r' hr' => ?_, fun rid now => ?_⟩
    · rw [← hreach r']
      exact hleast id' _ (hshown id' r' hr')
    · have hk : s.frameCall conn now (.gather (some id)) = some (.tryGather p id) := by
        unfold frameCall
        rw [(hs.conns p conn hp).2]
        rfl
      obtain ⟨s', hstep, -, hworld, hwire⟩ := step_called hs hp rid hk
      obtain ⟨v, hreply, hgathered⟩ := WorldService.tryGather_success hplayer hr hleft
        (Platform.Comparable.lt_asymm hnear)
      rw [hreply] at hwire
      refine ⟨s', _, _, hstep, hwire, ?_⟩
      rw [hworld]
      exact hgathered

/-- A client offers a player the only tree. -/
theorem gather_accepted_grove : ∃ (s s' : GameService ℚ Unit) (sent : _) (v : Inventory),
    step s (.frame 5 2 (.gather (some "oak")) 0) = some s' ∧
      s'.wire = s.wire ++ sent ++
        [(⟨0, 5⟩, .response 2 (.gather true "" ⟨"oak", 1, 1, 0, 0, 4⟩ v))] ∧
      s'.world.content.resources "oak" = some ⟨"oak", 1, 1, 0, 0, 4⟩ := by
  have hplay : (play anyEvent grove (List.flatten [[.accept 5], loginAnn 5])).map (fun s =>
      (s.playerConns "ann", (s.world.players.lookup "ann").map fun player =>
        ((s.survivalWorld ⟨0, 5⟩).gatherIntent (player.x, player.y, player.z)),
        s.world.content.resources "oak")) =
      some (some ⟨0, 5⟩, some (some "oak"), some ⟨"oak", 1, 1, 0, 0, 5⟩) := by
    decide +kernel
  obtain ⟨s, hs, hv⟩ := Option.map_eq_some_iff.1 hplay
  simp only [Prod.mk.injEq] at hv
  obtain ⟨hconn, hplayer, hoak⟩ := hv
  obtain ⟨player, hplayer, hintent⟩ := Option.map_eq_some_iff.1 hplayer
  obtain ⟨r, ⟨hr, -⟩, -, hstep⟩ :=
    (gather_accepted (running_of_play hs) hconn hplayer).1 "oak" hintent
  obtain rfl := Option.some.inj (hoak.symm.trans hr)
  obtain ⟨s', sent, v, hstep, hwire, hgathered⟩ := hstep 2 0
  exact ⟨s, s', sent, v, hstep, hwire, hgathered⟩

end GameService

/-! ## Mining and placing -/

namespace VoxelWorld

/-- A type the server takes for a block. -/
theorem kind_valid (cell : Cell) {kind : ℤ}
    (h : generateBase cell = some kind ∨ ∃ type, clampi type grass copper = kind) :
    0 ≤ kind ∧ kind ≤ 5 := by
  rcases h with h | ⟨type, rfl⟩
  · unfold generateBase at h
    dsimp only at h
    split_ifs at h <;> obtain rfl := Option.some.inj h <;> decide
  · unfold clampi grass copper
    omega

/-- A block that is shown was not removed last. -/
theorem replayed_some {edits : String → Option VoxelEditState} {cell : Cell} {kind : ℤ}
    (h : replayed edits generateBase cell = some kind) :
    (0 ≤ kind ∧ kind ≤ 5) ∧ ∀ last ∈ edits (cellKey cell), last.action ≠ 1 := by
  unfold replayed at h
  rcases hlast : edits (cellKey cell) with _ | last
  · rw [hlast] at h
    exact ⟨kind_valid cell (.inl h), fun _ hl => absurd hl (Option.not_mem_none _)⟩
  · rw [hlast, Option.elim_some] at h
    unfold VoxelEditState.onBlock at h
    split_ifs at h with hremoved hplaced
    · refine ⟨kind_valid cell ?_, fun _ hl => Option.some.inj hl ▸ hremoved⟩
      rcases hblock : generateBase cell with _ | block
      · rw [hblock] at h
        exact .inr ⟨_, Option.some.inj h⟩
      · rw [hblock] at h
        exact .inl h
    · exact ⟨kind_valid cell (.inl h), fun _ hl => Option.some.inj hl ▸ hremoved⟩

/-- Where no block is shown none was placed last. -/
theorem replayed_none {edits : String → Option VoxelEditState} {cell : Cell}
    (h : replayed edits generateBase cell = none) :
    ∀ last ∈ edits (cellKey cell), last.action ≠ 2 := by
  intro last hlast hplaced
  unfold replayed at h
  rw [show edits (cellKey cell) = some last from hlast, Option.elim_some] at h
  simp [VoxelEditState.onBlock, hplaced] at h

variable {blocks : Cell → Option ℤ} {x z : ℤ} {e : VoxelEditState}

/-- The block to mine is shown. -/
theorem mineIntent_shown (h : mineIntent blocks x z = some e) :
    e.x = x ∧ e.z = z ∧ -1 ≤ e.y ∧ e.y ≤ 3 ∧ e.action = 1 ∧ blocks e.cell = some e.blockType := by
  unfold mineIntent topBlock at h
  obtain ⟨⟨y, kind⟩, htop, rfl⟩ := Option.map_eq_some_iff.1 h
  obtain ⟨y', hy', hblock⟩ := List.exists_of_findSome?_eq_some htop
  obtain ⟨kind', hkind, heq⟩ := Option.map_eq_some_iff.1 hblock
  obtain ⟨rfl, rfl⟩ := Prod.mk.inj heq
  have hrange : ∀ y ∈ [3, 2, 1, 0, (-1 : ℤ)], -1 ≤ y ∧ y ≤ 3 := by decide
  exact ⟨rfl, rfl, (hrange _ hy').1, (hrange _ hy').2, rfl, hkind⟩

/-- Where a block is placed none is shown. -/
theorem placeIntent_free {selectedType : ℤ} (h : placeIntent blocks x z selectedType = some e) :
    e.x = x ∧ e.z = z ∧ -1 ≤ e.y ∧ e.y ≤ 3 ∧ e.action = 2 ∧ e.blockType = selectedType ∧
      blocks e.cell = none := by
  unfold placeIntent at h
  obtain ⟨y, hy, rfl⟩ := Option.map_eq_some_iff.1 h
  have hrange : ∀ y ∈ [0, 1, 2, (3 : ℤ)], -1 ≤ y ∧ y ≤ 3 := by decide
  have hy' := hrange y (List.mem_of_find?_eq_some hy)
  have hfree := List.find?_some hy
  exact ⟨rfl, rfl, hy'.1, hy'.2, rfl, rfl, Option.isNone_iff_eq_none.1 hfree⟩

theorem applyNetworkEdit_mined (h : e.action = 1) :
    applyNetworkEdit blocks e = Function.update blocks e.cell none := if_pos h

theorem applyNetworkEdit_placed (h : e.action = 2) (hfree : blocks e.cell = none) :
    applyNetworkEdit blocks e =
      Function.update blocks e.cell (some (clampi e.blockType grass copper)) := by
  have hplaces : e.action ≠ 1 := by omega
  exact (if_neg hplaces).trans (if_pos ⟨h, hfree⟩)

/-- An edit of a player that a client who shows the room's blocks offers. -/
structure Offered (edits : String → Option VoxelEditState) (inv : Inventory)
    (blocks : Cell → Option ℤ) (x z : ℤ) (e : VoxelEditState) : Prop where
  column : e.x = x ∧ e.z = z
  height : -1 ≤ e.y ∧ e.y ≤ 3
  action : e.action = 1 ∨ e.action = 2 ∧ blocks e.cell = none ∧
    clampi e.blockType grass copper = e.blockType
  type : 0 ≤ e.blockType ∧ e.blockType ≤ 5
  last : ∀ last ∈ edits (voxelKey e.x e.y e.z), last.action ≠ e.action
  count : e.action = 2 →
    ∃ m, WorldService.placedMaterial e.blockType = some m ∧ 0 < inv.count m

variable {edits : String → Option VoxelEditState} {inv : Inventory}

theorem offered_mine (hblocks : blocks = replayed edits generateBase)
    (h : mineIntent blocks x z = some e) : Offered edits inv blocks x z e := by
  obtain ⟨hx, hz, hlow, hhigh, haction, hshown⟩ := mineIntent_shown h
  rw [hblocks] at hshown
  obtain ⟨htype, hlast⟩ := replayed_some hshown
  refine ⟨⟨hx, hz⟩, ⟨hlow, hhigh⟩, .inl haction, htype, ?_, fun hplaces => ?_⟩
  · rw [haction]
    exact hlast
  · rw [haction] at hplaces
    cases hplaces

theorem offered_place (hblocks : blocks = replayed edits generateBase) {selectedType : ℤ}
    {m : Material} (h : placeIntent blocks x z selectedType = some e)
    (hm : WorldService.placedMaterial selectedType = some m) (hcount : 0 < inv.count m) :
    Offered edits inv blocks x z e := by
  obtain ⟨hx, hz, hlow, hhigh, haction, rfl, hfree⟩ := placeIntent_free h
  have hclamp := clampi_placed hm
  refine ⟨⟨hx, hz⟩, ⟨hlow, hhigh⟩, .inr ⟨haction, hfree, hclamp⟩,
    kind_valid e.cell (.inr ⟨_, hclamp⟩), ?_, fun _ => ⟨m, hm, hcount⟩⟩
  rw [hblocks] at hfree
  have hlast := replayed_none hfree
  rw [haction]
  exact hlast

end VoxelWorld

namespace WorldService

open Platform (lt ofRat sub hypot)

variable {w : WorldService F} {p : String} {player : Player F} {e : VoxelEditState}

/-- An edit in reach of a cell whose last edit was none of its kind is accepted. -/
theorem applyVoxelEdit_success {x y z action type : ℤ} (hp : w.players.lookup p = some player)
    (hreach : lt (ofRat 5) (hypot (sub (ofRat x) player.x) (sub (ofRat z) player.z)) = false)
    (haction : action = 1 ∨ action = 2) (htype : 0 ≤ type ∧ type ≤ 5) (hheight : -1 ≤ y ∧ y ≤ 3)
    (hlast : ∀ last ∈ w.content.edits player.roomId (voxelKey x y z), last.action ≠ action)
    (hcount : action = 2 → ∃ m, placedMaterial type = some m ∧ 0 < player.inv.count m) :
    (w.applyVoxelEdit p x y z action type).result.success = true := by
  have hnear : ¬ lt (ofRat 5) (hypot (sub (ofRat x) player.x) (sub (ofRat z) player.z)) = true := by
    rw [hreach]
    exact Bool.false_ne_true
  have hvalid : ¬ ((action ≠ 1 ∧ action ≠ 2) ∨ type < 0 ∨ 5 < type ∨ y < -1 ∨ 4 < y) := by
    clear hcount
    omega
  have hother : ∀ n, ¬ (action = n ∧
      ((w.roomEdits player.roomId).lookup (voxelKey x y z)).any (·.action = n) = true) := by
    rintro n ⟨rfl, hany⟩
    obtain ⟨last, hmem, hsame⟩ := (Option.any_eq_true _ _).1 hany
    exact hlast last hmem (of_decide_eq_true hsame)
  unfold applyVoxelEdit
  simp only [hp, if_neg hnear, if_neg hvalid, Scene.roomEdits_touchRoom, if_neg (hother _)]
  rcases haction with rfl | rfl
  · rfl
  · obtain ⟨m, hm, hcount⟩ := hcount rfl
    simp only [hm, if_neg (Int.not_le.2 hcount), (by decide : (2 : ℤ) ≠ 1), if_false]
    rfl

end WorldService

namespace GameService

open Platform (lt ofRat sub hypot)
open VoxelWorld

variable [Lobby D] {s : GameService F D}

/-- In every seamless run, a block that the client of a player offers to mine or to place in reach
of him is mined or placed, and then everyone in his room shows the blocks he showed but for that. -/
theorem edit_accepted (h : Running Seamless s) {p : String} {conn : Connection} {player : Player F}
    (hp : s.playerConns p = some conn) (hplayer : s.world.players.lookup p = some player) {x z : ℤ}
    (hreach : lt (ofRat 5) (hypot (sub (ofRat x) player.x) (sub (ofRat z) player.z)) = false)
    {e : VoxelEditState} (he : mineIntent (s.client conn).blocks x z = some e ∨
      ∃ selectedType m, placeIntent (s.client conn).blocks x z selectedType = some e ∧
        WorldService.placedMaterial selectedType = some m ∧ 0 < player.inv.count m)
    (rid : ℕ) (now : ℤ) :
    ∃ s' sent v, step s (.frame conn.fd rid
        (.voxelEdit (some ⟨e.x, e.y, e.z, e.action, e.blockType⟩)) now) = some s' ∧
      s'.wire = s.wire ++ sent ++ [(conn, .response rid (.voxelEdit true ""
        (some ⟨e.x, e.y, e.z, e.action, e.blockType⟩) (some v)))] ∧
      ∀ q conn', s'.playerConns q = some conn' → s'.world.room q = some player.roomId →
        (s'.client conn').blocks = Function.update (s.client conn).blocks e.cell
          (if e.action = 1 then none else some e.blockType) := by
  have hs := sessions_reach h
  have hroom : s.world.room p = some player.roomId := by
    unfold WorldService.room
    rw [hplayer]
    rfl
  have hblocks := rendered_reach h p conn player.roomId hp hroom
  have hoffered : Offered (s.world.content.edits player.roomId) player.inv
      (s.client conn).blocks x z e := by
    rcases he with hmine | ⟨selectedType, m, hplace, hm, hcount⟩
    · exact offered_mine hblocks hmine
    · exact offered_place hblocks hplace hm hcount
  obtain ⟨⟨rfl, rfl⟩, hheight, haction, htype, hlast, hcount⟩ := hoffered
  have hk : s.frameCall conn now (.voxelEdit (some ⟨e.x, e.y, e.z, e.action, e.blockType⟩)) =
      some (.applyVoxelEdit p e.x e.y e.z e.action e.blockType) := by
    simp only [frameCall, (hs.conns p conn hp).2, Option.map_some]
  obtain ⟨s', hstep, hf, hworld, hwire⟩ := step_called hs hp rid hk
  have hsuccess := WorldService.applyVoxelEdit_success hplayer hreach
    (haction.imp_right And.left) htype hheight hlast hcount
  rcases s.world.applyVoxelEdit_cases p e.x e.y e.z e.action e.blockType with ⟨hfail, -⟩ |
    ⟨player', edit, hp', hedit, -, hresult, -, hsent⟩
  · rw [hsuccess] at hfail
    cases hfail
  obtain rfl := Option.some.inj (hplayer.symm.trans hp')
  have hreply : ∃ v : Inventory, callReply s.world
      (.applyVoxelEdit p e.x e.y e.z e.action e.blockType) =
        .voxelEdit true "" (some ⟨e.x, e.y, e.z, e.action, e.blockType⟩) (some v) := by
    unfold callReply
    simp only [hresult, ↓reduceIte]
    exact ⟨_, rfl⟩
  obtain ⟨v, hreply⟩ := hreply
  rw [hreply] at hwire
  refine ⟨s', _, v, hstep, hwire, fun q conn' hq hqroom => ?_⟩
  have hq' : s.playerConns q = some conn' := by rwa [hf.sessions.playerConns] at hq
  have hrooms : s'.world.room q = s.world.room q := by
    have heffect := Call.edit_success s.world p e.x e.y e.z e.action e.blockType
    rw [hsuccess] at heffect
    obtain ⟨ef, hef⟩ := Option.isSome_iff_exists.1 heffect.symm
    rw [hworld]
    exact (Call.effect_performed s.world hef).room_eq q
  have hsame : (s.client conn').blocks = (s.client conn).blocks := by
    rw [hblocks]
    exact rendered_reach h q conn' player.roomId hq' (hrooms ▸ hqroom)
  rw [client_framed hs hf hq', hk, Option.elim_some, Client.blocks_answered, Client.told_filter]
  rw [hworld] at hqroom
  simp only [Call.run] at hqroom ⊢
  rw [hsent, WorldService.filter_broadcastVoxelEdit, if_pos hqroom]
  show applyNetworkEdit (s.client conn').blocks edit = _
  rw [hsame]
  rcases haction with hmine | ⟨hplace, hfree, hclamp⟩
  · have hremoved : edit.action = 1 := by rw [hedit, hmine]
    have hcell : edit.cell = e.cell := by rw [hedit]; rfl
    rw [applyNetworkEdit_mined hremoved, hcell, if_pos hmine]
  · have hplaces : e.action ≠ 1 := by omega
    have hsent : edit = e := by rw [hedit, if_neg hplaces]
    rw [hsent, applyNetworkEdit_placed hplace hfree, hclamp, if_neg hplaces]

/-- A player mines the block before him, and another in his room sees it go. -/
theorem edit_accepted_map : ∃ (s s' : GameService ℚ Unit) (sent : _) (v : Inventory),
    (s.client ⟨1, 6⟩).blocks (0, 0, 0) = some stone ∧
      step s (.frame 5 3 (.voxelEdit (some ⟨0, 0, 0, 1, 3⟩)) 0) = some s' ∧
      s'.wire = s.wire ++ sent ++
        [(⟨0, 5⟩, .response 3 (.voxelEdit true "" (some ⟨0, 0, 0, 1, 3⟩) (some v)))] ∧
      (s'.client ⟨1, 6⟩).blocks (0, 0, 0) = none := by
  have hplay : (play FreshEntry twoAccounts (List.flatten [[.accept 5], loginAnn 5, [.accept 6],
      loginBob 6, [.frame 5 2 (.selectMap (some ("map_0", 0))) 0,
        .frame 6 2 (.selectMap (some ("map_0", 0))) 0]])).map (fun s =>
      decide (s.playerConns "ann" = some ⟨0, 5⟩ ∧
        ((s.world.players.lookup "ann").map fun player => (player.roomId,
          lt (ofRat 5) (hypot (sub (ofRat (0 : ℤ)) player.x) (sub (ofRat (0 : ℤ)) player.z)))) =
            some ("map_0", false) ∧
        mineIntent (s.client ⟨0, 5⟩).blocks 0 0 = some ⟨0, 0, 0, 1, 3⟩ ∧
        (s.client ⟨1, 6⟩).blocks (0, 0, 0) = some stone ∧
        ((step s (.frame 5 3 (.voxelEdit (some ⟨0, 0, 0, 1, 3⟩)) 0)).map fun s' =>
          (s'.playerConns "bob", s'.world.room "bob")) = some (some ⟨1, 6⟩, some "map_0"))) =
      some true := by
    decide +kernel
  obtain ⟨s, hs, hv⟩ := Option.map_eq_some_iff.1 hplay
  obtain ⟨hconn, hplayer, hintent, hshown, hbob⟩ := of_decide_eq_true hv
  obtain ⟨player, hplayer, hroom⟩ := Option.map_eq_some_iff.1 hplayer
  obtain ⟨hroom, hreach⟩ := Prod.mk.inj hroom
  obtain ⟨lobby, db, accounts, players, scenes, o, hrun⟩ := running_of_play hs
  have hrunning : Running Seamless s :=
    ⟨lobby, db, accounts, players, scenes, o, hrun.mono seamless_of_freshEntry⟩
  obtain ⟨s', sent, v, hstep, hwire, hblocks⟩ :=
    edit_accepted hrunning hconn hplayer hreach (.inl hintent) 3 0
  rw [hstep, Option.map_some, Option.some.injEq, Prod.mk.injEq] at hbob
  refine ⟨s, s', sent, v, hshown, hstep, hwire, ?_⟩
  rw [hblocks "bob" ⟨1, 6⟩ hbob.1 (hroom ▸ hbob.2)]
  rfl

end GameService

end TinRpc
