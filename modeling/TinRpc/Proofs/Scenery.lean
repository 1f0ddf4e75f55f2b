import TinRpc.Proofs.Blocks
import TinRpc.Proofs.Buildings
import TinRpc.Proofs.Inheritance
import TinRpc.Proofs.News
import TinRpc.SurvivalWorld

/-!
# The trees, rocks and buildings a client shows

What a client shows of a scene is there, whatever it has missed (`Knows`): a resource keeps its type
and its place, and of the buildings with one id it has the first. A snapshot completes it, as that
lists what is used up too, and everyone in the world is told of every change. So in every run each
player's client shows the server's scene (`scene_shown`).
-/

namespace TinRpc

open Transition
open Sends (notices)
open Network (arriving)

variable {F D : Type}

namespace Resource

/-- The node of a resource that is not used up. -/
def node (r : Resource F) : ResourceNode F := ⟨decide (r.type = 1), (r.x, r.y, r.z)⟩

def shown (r : Resource F) : Option (ResourceNode F) :=
  if 0 < r.remaining then some r.node else none

end Resource

namespace SurvivalWorld

variable {c : SurvivalWorld F} {content : Content F}

theorem lookup_applyResource {r : Resource F} (hid : r.id ≠ "")
    (hnode : ∀ node ∈ c.resources.lookup r.id, node = r.node) (id : String) :
    (c.applyResource r).resources.lookup id =
      if id = r.id then r.shown else c.resources.lookup id := by
  unfold applyResource Resource.shown
  rw [if_neg hid]
  by_cases hused : r.remaining ≤ 0
  · rw [if_pos hused, if_neg (Int.not_lt.2 hused)]
    exact AList.lookup_erase_if _ _ _
  · rw [if_neg hused, if_pos (Int.not_le.1 hused)]
    rcases hlookup : c.resources.lookup r.id with _ | node
    · exact AList.lookup_insert_if _ _ _ _
    · have heq := hnode node hlookup
      refine (AList.lookup_modify _ _ _ _).trans ?_
      split_ifs with h
      · subst h
        rw [hlookup, heq]
        rfl
      · rfl

theorem buildings_applyResource (r : Resource F) :
    (c.applyResource r).buildings = c.buildings := by
  unfold applyResource
  split_ifs
  · rfl
  · rfl
  · simp only []
    split <;> rfl

theorem buildings_applyResources : ∀ (l : List (Resource F)) (c : SurvivalWorld F),
    (l.foldl applyResource c).buildings = c.buildings
  | [], _ => rfl
  | r :: l, _ => (buildings_applyResources l _).trans (buildings_applyResource r)

theorem resources_applyWorldState (state : WorldStateNtf F) :
    (c.applyWorldState state).resources = (state.resources.foldl applyResource c).resources := rfl

theorem buildings_applyWorldState (state : WorldStateNtf F) :
    (c.applyWorldState state).buildings = applyBuildings c.buildings state.buildings := by
  unfold applyWorldState
  simp only [buildings_applyResources]

/-- Of buildings that all have an id, the first of each id is shown. -/
theorem lookup_applyNamed {l : List (BuildingState F)} (hl : ∀ b ∈ l, b.id ≠ "")
    (t : Table String (BuildingState F)) (id : String) :
    (applyBuildings t l).lookup id = (t.lookup id).or (l.find? fun b => b.id = id) := by
  by_cases hid : id = ""
  · subst hid
    have hnone : (l.find? fun b => b.id = "") = none :=
      List.find?_eq_none.2 fun b hb => by simpa using hl b hb
    rw [hnone, Option.or_none]
    induction l generalizing t with
    | nil => rfl
    | cons b l ih =>
      obtain ⟨hb, hl⟩ := List.forall_mem_cons.1 hl
      refine (ih hl _ (List.find?_eq_none.2 fun b hb => by simpa using hl b hb)).trans ?_
      unfold applyBuilding
      split_ifs
      · rfl
      · exact AList.lookup_insert_ne (Ne.symm hb)
  · exact lookup_applyBuildings hid l t

/-- What a client shows is there, used up or not. -/
structure Knows (content : Content F) (c : SurvivalWorld F) : Prop where
  resources : ∀ id node, c.resources.lookup id = some node →
    ∃ r, content.resources id = some r ∧ r.node = node
  buildings : ∀ id b, c.buildings.lookup id = some b →
    content.buildings.find? (fun b => b.id = id) = some b

/-- A client shows what there is. -/
structure Complete (content : Content F) (c : SurvivalWorld F) : Prop where
  resources : ∀ id, c.resources.lookup id = (content.resources id).bind Resource.shown
  buildings : ∀ id, c.buildings.lookup id = content.buildings.find? fun b => b.id = id

theorem Complete.knows (h : Complete content c) : Knows content c where
  resources id node hnode := by
    rw [h.resources] at hnode
    obtain ⟨r, hr, hshown⟩ := Option.bind_eq_some_iff.1 hnode
    unfold Resource.shown at hshown
    split_ifs at hshown
    exact ⟨r, hr, Option.some.inj hshown⟩
  buildings id b hb := (h.buildings id).symm.trans hb

theorem knows_new : Knows content ({} : SurvivalWorld F) where
  resources id node hnode := by cases hnode
  buildings id b hb := by cases hb

theorem Knows.node (h : Knows content c) {r : Resource F} (hr : content.resources r.id = some r) :
    ∀ node ∈ c.resources.lookup r.id, node = r.node := by
  intro node hnode
  obtain ⟨r', hr', rfl⟩ := h.resources r.id node hnode
  rw [Option.some.inj (hr.symm.trans hr')]

/-- A resource that is told of is shown as it is. -/
theorem Knows.applyResource (h : Knows content c) {r : Resource F} (hid : r.id ≠ "")
    (hr : content.resources r.id = some r) : Knows content (c.applyResource r) where
  resources id node hnode := by
    rw [lookup_applyResource hid (h.node hr)] at hnode
    split_ifs at hnode with heq
    · unfold Resource.shown at hnode
      split_ifs at hnode
      exact ⟨r, heq ▸ hr, Option.some.inj hnode⟩
    · exact h.resources id node hnode
  buildings id b hb := by
    rw [buildings_applyResource] at hb
    exact h.buildings id b hb

theorem Knows.applyResources (hc : content.Storable) : ∀ {l : List (Resource F)}
    {c : SurvivalWorld F}, (∀ r ∈ l, content.resources r.id = some r) → Knows content c →
      Knows content (l.foldl SurvivalWorld.applyResource c) ∧
        ∀ id, (l.foldl SurvivalWorld.applyResource c).resources.lookup id =
          if id ∈ l.map Resource.id then (content.resources id).bind Resource.shown
          else c.resources.lookup id
  | [], c, _, h => ⟨h, fun id => by simp⟩
  | r :: l, c, hl, h => by
    obtain ⟨hr, hl⟩ := List.forall_mem_cons.1 hl
    have hid := (hc.ids r.id r hr).2
    obtain ⟨hknows, hlookup⟩ := Knows.applyResources hc hl (h.applyResource hid hr)
    refine ⟨hknows, fun id => (hlookup id).trans ?_⟩
    rw [lookup_applyResource hid (h.node hr), List.map_cons]
    by_cases hmem : id ∈ l.map Resource.id
    · rw [if_pos hmem, if_pos (List.mem_cons_of_mem _ hmem)]
    · rw [if_neg hmem]
      by_cases heq : id = r.id
      · subst heq
        rw [if_pos rfl, if_pos List.mem_cons_self, hr, Option.bind_some]
      · rw [if_neg heq, if_neg fun h => (List.mem_cons.1 h).elim heq hmem]

/-- A snapshot lists the scene. -/
structure Lists (content : Content F) (state : WorldStateNtf F) : Prop where
  resources : ∀ id r, content.resources id = some r → r ∈ state.resources
  here : ∀ r ∈ state.resources, content.resources r.id = some r
  buildings : state.buildings = content.buildings

/-- A snapshot completes what a client shows. -/
theorem Knows.applyWorldState (hc : content.Storable) (h : Knows content c)
    {state : WorldStateNtf F} (hstate : Lists content state) :
    Complete content (c.applyWorldState state) where
  resources id := by
    rw [resources_applyWorldState, (h.applyResources hc hstate.here).2]
    split_ifs with hmem
    · rfl
    · rcases hr : content.resources id with _ | r
      · rcases hnode : c.resources.lookup id with _ | node
        · rfl
        · obtain ⟨r, hr', -⟩ := h.resources id node hnode
          rw [hr] at hr'
          cases hr'
      · refine absurd (List.mem_map.2 ⟨r, hstate.resources id r hr, hc.resources id r hr⟩) hmem
  buildings id := by
    rw [buildings_applyWorldState, hstate.buildings,
      lookup_applyNamed fun b hb => (hc.buildings b hb).2.1]
    rcases hb : c.buildings.lookup id with _ | b
    · exact Option.none_or
    · rw [Option.some_or, h.buildings id b hb]

end SurvivalWorld

/-- A message that tells nothing new of a scene: it has nothing of it, or all of it. -/
def Message.Old (content : Content F) : Message F → Prop
  | .push (.worldState state) => state.resources = [] ∧ state.buildings = [] ∨
      SurvivalWorld.Lists content state
  | .push (.resourceChanged _) => False
  | .push (.buildingPlaced _) => False
  | _ => True

namespace SurvivalWorld

variable {c : SurvivalWorld F} {content : Content F}

theorem Knows.dispatchFrame (hc : content.Storable) (h : Knows content c) {m : Message F}
    (hm : m.Old content) : Knows content (c.dispatchFrame m) ∧
      (Complete content c → Complete content (c.dispatchFrame m)) := by
  cases m with
  | push p =>
    cases p with
    | worldState state =>
      rcases hm with ⟨hresources, hbuildings⟩ | hlists
      · have hsame : c.dispatchFrame (.push (.worldState state)) = c := by
          show c.applyWorldState state = c
          unfold SurvivalWorld.applyWorldState
          rw [hresources, hbuildings]
          rfl
        rw [hsame]
        exact ⟨h, id⟩
      · have hcomplete := h.applyWorldState hc hlists
        exact ⟨hcomplete.knows, fun _ => hcomplete⟩
    | resourceChanged => exact hm.elim
    | buildingPlaced => exact hm.elim
    | playerEnter | playerLeave | voxelEdit => exact ⟨h, id⟩
  | response | error | roomEvent => exact ⟨h, id⟩

theorem Knows.heed (hc : content.Storable) : ∀ {l : List (Message F)} {c : SurvivalWorld F},
    Knows content c → (∀ m ∈ l, m.Old content) → Knows content (c.heed l) ∧
      (Complete content c → Complete content (c.heed l))
  | [], _, h, _ => ⟨h, id⟩
  | m :: l, c, h, hl => by
    obtain ⟨hm, hl⟩ := List.forall_mem_cons.1 hl
    obtain ⟨hknows, hcomplete⟩ := h.dispatchFrame hc hm
    obtain ⟨hknows', hcomplete'⟩ := Knows.heed hc hknows hl
    exact ⟨hknows', fun h => hcomplete' (hcomplete h)⟩

theorem heed_append (c : SurvivalWorld F) (l l' : List (Message F)) :
    c.heed (l ++ l') = (c.heed l).heed l' := List.foldl_append

/-- What is shown is there after an effect too. -/
theorem Knows.onContent (h : Knows content c) (e : Effect F) : Knows (e.onContent content) c := by
  cases e with
  | gathered p node type =>
    refine ⟨fun id n hn => ?_, h.buildings⟩
    obtain ⟨r, hr, rfl⟩ := h.resources id n hn
    simp only [Effect.onContent, Function.update_apply]
    split_ifs with hid
    · subst hid
      exact ⟨_, congrArg (Option.map _) hr, rfl⟩
    · exact ⟨r, hr, rfl⟩
  | built p b =>
    refine ⟨h.resources, fun id b' hb' => ?_⟩
    simp only [Effect.onContent, List.find?_append, h.buildings id b' hb', Option.some_or]
  | crafted p recipe => exact h
  | edited p room e => exact ⟨h.resources, h.buildings⟩

theorem Complete.gathered (hc : content.Storable) (h : Complete content c) {p node : String}
    {type : ℤ} {r : Resource F} (hr : content.resources node = some r) :
    Complete ((Effect.gathered p node type).onContent content)
      (c.applyResource { r with remaining := r.remaining - 1 }) where
  resources id := by
    obtain rfl := hc.resources node r hr
    have hname : ({ r with remaining := r.remaining - 1 } : Resource F).id ≠ "" :=
      (hc.ids r.id r hr).2
    have hknown : ∀ n ∈ c.resources.lookup r.id,
        n = ({ r with remaining := r.remaining - 1 } : Resource F).node := h.knows.node hr
    rw [lookup_applyResource hname hknown]
    simp only [Effect.onContent, Function.update_apply]
    split_ifs
    · rw [hr]
      rfl
    · exact h.resources id
  buildings id := by
    rw [buildings_applyResource]
    exact h.buildings id

theorem Complete.built (h : Complete content c) {p : String} {b : BuildingState F}
    (hb : b.id ≠ "") : Complete ((Effect.built p b).onContent content)
      { c with buildings := applyBuilding c.buildings b } where
  resources := h.resources
  buildings id := by
    have hone := lookup_applyNamed (List.forall_mem_singleton.2 hb) c.buildings id
    refine hone.trans ?_
    simp only [Effect.onContent, List.find?_append]
    rw [h.buildings]

end SurvivalWorld


/-! ## What the server sends -/

namespace WorldService

open SurvivalWorld (Lists Complete Knows)

variable [Platform F] {w : WorldService F} {q : String} {c : SurvivalWorld F}

omit [Platform F] in
theorem lists_worldStateFor (hw : w.content.Keyed) (p : String) :
    Lists w.content (w.worldStateFor p) where
  resources id r hr := List.mem_map.2 ⟨⟨id, r⟩, AList.mem_entries_iff.2 hr, rfl⟩
  here r hr := by
    obtain ⟨⟨id, r⟩, he, rfl⟩ := List.mem_map.1 hr
    have hlookup : w.content.resources id = some r := AList.mem_entries_iff.1 he
    show w.content.resources r.id = some r
    rw [hw.resources id r hlookup, hlookup]
  buildings := rfl

omit [Platform F] in
theorem lists_setPlayer (hw : w.content.Keyed) (player : Player F) (p : String) :
    Lists w.content ((w.setPlayer player p).worldStateFor p) :=
  lists_worldStateFor (w := w.setPlayer player p) hw p

omit [Platform F] in
/-- Who enters is sent the scene, and the others only that he has entered. -/
theorem old_entered (hw : w.content.Keyed) (player : Player F) (p : String) {left : Sends F}
    (hleft : ∀ m ∈ left, ∃ id, m.2 = .playerLeave id) :
    ∀ m ∈ left ++ ((w.setPlayer player p).sendWorldStateTo p).2 ++
      ((w.setPlayer player p).sendWorldStateTo p).1.broadcastEnter player,
      (Message.push m.2).Old w.content := by
  intro m hm
  rcases List.mem_append.1 hm with hm | hm
  · rcases List.mem_append.1 hm with hm | hm
    · obtain ⟨id, hid⟩ := hleft m hm
      rw [hid]
      trivial
    · rw [List.mem_singleton.1 hm]
      exact .inr (lists_setPlayer hw player p)
  · obtain ⟨e, -, rfl⟩ := List.mem_map.1 hm
    trivial

theorem old_enterWithState (hw : w.content.Keyed) (p name : String) (now : ℤ) (x y z yaw : F)
    (inv : Inventory) : ∀ m ∈ (w.enterWithState p name now x y z yaw inv).2,
      (Message.push m.2).Old w.content := by
  have hleft : ∀ m ∈ ([] : Sends F), ∃ id, m.2 = .playerLeave id :=
    fun _ h => absurd h List.not_mem_nil
  exact old_entered hw _ p hleft

/-- Who enters is sent a snapshot first. -/
theorem notices_entered (p name : String) (now : ℤ) (x y z yaw : F) (inv : Inventory) :
    ∃ state rest, notices p (w.enterWithState p name now x y z yaw inv).2 =
      .push (.worldState state) :: rest ∧ (w.content.Keyed → Lists w.content state) := by
  have hone : ∀ m : Push F, notices p [(p, m)] = [.push m] := fun m => by
    unfold Sends.notices
    simp
  unfold enterWithState sendWorldStateTo
  dsimp only
  rw [notices_append, hone, List.singleton_append]
  exact ⟨_, _, rfl, fun hw => lists_setPlayer hw _ p⟩

theorem old_selectRoom (hw : w.content.Keyed) (p room : String) (map now : ℤ) :
    ∀ m ∈ (w.selectRoom p room map now).sent, (Message.push m.2).Old w.content := by
  unfold selectRoom
  rcases w.players.lookup p with _ | player
  · exact fun _ h => absurd h List.not_mem_nil
  · simp only []
    split_ifs
    · exact fun _ h => absurd h List.not_mem_nil
    · refine old_entered hw _ p fun m hm => ?_
      obtain ⟨e, -, rfl⟩ := List.mem_map.1 hm
      exact ⟨p, rfl⟩

omit [Platform F] in
/-- A message for everyone. -/
theorem notices_everyone (hq : (w.room q).isSome) (m : Push F) :
    notices q (w.players.entries.map fun e => (e.1, m)) = [.push m] := by
  have hall := notices_entries (w := w) (q := q) (fun _ => true) m
  rw [List.filter_true] at hall
  unfold WorldService.room at hq
  rw [Option.isSome_map] at hq
  obtain ⟨player, hplayer⟩ := Option.isSome_iff_exists.1 hq
  rw [hall, hplayer]
  rfl

omit [Platform F] in
/-- Messages that tell nothing new, where the scene stays. -/
theorem complete_old (hw : w.content.Storable) (h : Complete w.content c) {w' : WorldService F}
    (hcontent : w'.content = w.content) {sent : Sends F}
    (hsent : ∀ m ∈ sent, (Message.push m.2).Old w.content) :
    Complete w'.content (c.heed (notices q sent)) := by
  rw [hcontent]
  refine (h.knows.heed hw fun m hm => ?_).2 h
  obtain ⟨p, hp, rfl⟩ := notices_mem.1 hm
  exact hsent _ hp

theorem complete_gather (hw : w.content.Storable) (hq : (w.room q).isSome)
    (h : Complete w.content c) (p node : String) :
    Complete (w.tryGather p node).world.content
      (c.heed (notices q (w.tryGather p node).sent)) := by
  rcases w.tryGather_cases p node with ⟨-, hworld, hsent⟩ |
    ⟨player, n, -, hn, -, hok, htype, -, hsent, -⟩
  · rw [hworld, hsent]
    exact h
  · have heffect : (Call.tryGather p node).effect w = some (.gathered p node n.type) := by
      simp [Call.effect, hok, htype]
    have hperformed := Call.effect_performed w heffect
    have hthere : ((w.tryGather p node).world.room q).isSome := by
      rw [show (w.tryGather p node).world.room q = w.room q from hperformed.room_eq q]
      exact hq
    have hcontent : (w.tryGather p node).world.content =
        (Effect.gathered p node n.type).onContent w.content := hperformed.content_eq
    rw [hsent, hcontent]
    unfold broadcastResource
    rw [notices_everyone hthere]
    exact h.gathered hw hn

theorem complete_build (hq : (w.room q).isSome)
    (h : Complete w.content c) (p : String) (type : ℤ) (x y z yaw : F) :
    Complete (w.tryPlaceBuilding p type x y z yaw).world.content
      (c.heed (notices q (w.tryPlaceBuilding p type x y z yaw).sent)) := by
  rcases w.tryPlaceBuilding_cases p type x y z yaw with ⟨-, hworld, hsent⟩ |
    ⟨player, b, wood, stone, -, -, -, -, -, hid, hok, hb, -, hsent, -⟩
  · rw [hworld, hsent]
    exact h
  · have heffect : (Call.tryPlaceBuilding p type x y z yaw).effect w = some (.built p b) := by
      simp [Call.effect, hok, hb]
    have hperformed := Call.effect_performed w heffect
    have hthere : ((w.tryPlaceBuilding p type x y z yaw).world.room q).isSome := by
      rw [show (w.tryPlaceBuilding p type x y z yaw).world.room q = w.room q from
        hperformed.room_eq q]
      exact hq
    have hcontent : (w.tryPlaceBuilding p type x y z yaw).world.content =
        (Effect.built p b).onContent w.content := hperformed.content_eq
    have hname : b.id ≠ "" := by
      rw [hid]
      exact buildingName_ne _
    rw [hsent, hcontent]
    unfold broadcastBuilding
    rw [notices_everyone hthere]
    exact h.built hname

/-- What a call tells the player's client. -/
theorem complete_run (hw : w.content.Storable) (hq : (w.room q).isSome)
    (h : Complete w.content c) (k : Call F) :
    Complete (k.run w).world.content (c.heed (notices q (k.run w).sent)) := by
  cases k with
  | enter p name now =>
    obtain ⟨x, y, z, yaw, heq⟩ := w.enter_eq p name now
    have hrun := Call.run_content w (.enter p name now)
    refine complete_old hw h hrun fun m hm => ?_
    simp only [Call.run, heq] at hm
    exact old_enterWithState hw.toKeyed p name now x y z yaw _ m hm
  | enterWithState p name now x y z yaw inv =>
    exact complete_old hw h (Call.run_content w (.enterWithState p name now x y z yaw inv))
      (old_enterWithState hw.toKeyed p name now x y z yaw inv)
  | leave p =>
    refine complete_old hw h (Call.run_content w (.leave p)) fun m hm => ?_
    obtain ⟨id, hid⟩ := (w.leave_spec p).2.2.2 m hm
    rw [hid]
    trivial
  | selectRoom p room map now =>
    exact complete_old hw h (Call.run_content w (.selectRoom p room map now))
      (old_selectRoom hw.toKeyed p room map now)
  | tryMove p x y z yaw now appearance =>
    refine complete_old hw h (Call.run_content w (.tryMove p x y z yaw now appearance))
      fun m hm => ?_
    obtain ⟨⟨t, ht⟩, -⟩ := (w.tryMove_spec p x y z yaw now appearance).2.2.2 m hm
    rw [ht]
    exact .inl ⟨rfl, rfl⟩
  | tryGather p node => exact complete_gather hw hq h p node
  | tryPlaceBuilding p type x y z yaw => exact complete_build hq h p type x y z yaw
  | tryCraft p recipe =>
    have hsent : (w.tryCraft p recipe).sent = [] := (w.tryCraft_cases p recipe).1
    have hcontent : ((Call.tryCraft p recipe).run w).world.content = w.content := by
      rw [Call.run_content]
      rcases he : (Call.tryCraft p recipe).effect w with _ | e
      · rfl
      · obtain rfl := Call.effect_craft w he
        rfl
    refine complete_old hw h hcontent fun m hm => ?_
    rw [show ((Call.tryCraft p recipe).run w).sent = [] from hsent] at hm
    exact absurd hm List.not_mem_nil
  | applyVoxelEdit p x y z action type =>
    have hsent : ∀ m ∈ (w.applyVoxelEdit p x y z action type).sent,
        (Message.push m.2).Old w.content := by
      rcases w.applyVoxelEdit_cases p x y z action type with ⟨-, hsent, -⟩ |
        ⟨player, e, -, -, -, -, -, hsent⟩
      · rw [hsent]
        exact fun _ h => absurd h List.not_mem_nil
      · rw [hsent]
        intro m hm
        obtain ⟨e, -, rfl⟩ := List.mem_map.1 hm
        trivial
    have hsame := complete_old (q := q) hw h rfl hsent
    refine ⟨fun id => (hsame.resources id).trans ?_, fun id => (hsame.buildings id).trans ?_⟩
    all_goals
      rw [Call.run_content]
      rcases he : (Call.applyVoxelEdit p x y z action type).effect w with _ | e
      · rfl
      · obtain ⟨room, edit, rfl⟩ := Call.effect_edit w he
        rfl

end WorldService

namespace GameService

open SurvivalWorld (Complete Knows)

variable [Platform F] {s s' : GameService F D}

/-- Every client knows the scene, and a player's client shows it. -/
structure Scenic (s : GameService F D) : Prop where
  knows : ∀ conn, Knows s.world.content (s.survivalWorld conn)
  complete : ∀ p conn, s.playerConns p = some conn →
    Complete s.world.content (s.survivalWorld conn)

omit [Platform F] in
theorem survivalWorld_append {l : List (Connection × Message F)} (h : s'.wire = s.wire ++ l)
    (conn : Connection) :
    s'.survivalWorld conn = (s.survivalWorld conn).heed (arriving conn l) := by
  unfold survivalWorld
  rw [h, Network.arriving_append, SurvivalWorld.heed_append]

omit [Platform F] in
/-- A step that leaves the scene as it is and tells nothing new of it. -/
theorem Scenic.old (hw : s.world.content.Storable) (h : Scenic s)
    {l : List (Connection × Message F)} (hwire : s'.wire = s.wire ++ l)
    (hold : ∀ m ∈ l, m.2.Old s.world.content) (hcontent : s'.world.content = s.world.content)
    (hconns : ∀ p conn, s'.playerConns p = some conn → s.playerConns p = some conn) :
    Scenic s' := by
  have hheed : ∀ conn, ∀ m ∈ arriving conn l, m.Old s.world.content :=
    fun conn m hm => hold _ (Network.mem_arriving.1 hm)
  refine ⟨fun conn => ?_, fun p conn hp => ?_⟩
  · rw [survivalWorld_append hwire, hcontent]
    exact ((h.knows conn).heed hw (hheed conn)).1
  · rw [survivalWorld_append hwire, hcontent]
    exact ((h.knows conn).heed hw (hheed conn)).2 (h.complete p conn (hconns p conn hp))

omit [Platform F] in
theorem old_inert {content : Content F} {m : Message F} (h : Inert m) : m.Old content := by
  cases m with
  | push p => exact h.elim
  | response | error | roomEvent => trivial

omit [Platform F] in
/-- What is for players does not come on a connection that is nobody's. -/
theorem arriving_nobody {conn : Connection} (h : ∀ q, s.playerConns q ≠ some conn)
    (sent : Sends F) : arriving conn (s.delivered .push sent) = [] := by
  refine List.eq_nil_iff_forall_not_mem.2 fun m hm => ?_
  obtain ⟨e, -, conn', hconn', heq⟩ := (mem_delivered s).1 (Network.mem_arriving.1 hm)
  obtain ⟨rfl, -⟩ := Prod.mk.inj heq
  exact h e.1 hconn'

theorem scenic_framed (hs : Sessions s) (hw : s.world.content.Storable)
    (hw' : s'.world.content.Storable) (h : Scenic s) {rid : ℕ} {conn : Connection} {now : ℤ}
    {request : Request F} (hf : Framed s rid conn now request s') : Scenic s' := by
  rcases hk : s.frameCall conn now request with _ | k
  · obtain ⟨rest, hwire, hrest⟩ := hf.quiet hk
    refine h.old hw hwire (fun m hm => old_inert (hrest m hm)) ?_ fun p conn hp => ?_
    · rw [hf.world, hk]
      rfl
    · rwa [hf.sessions.playerConns] at hp
  · have hwire := hf.called k hk
    rw [List.append_assoc] at hwire
    have hworld : s'.world = (k.run s.world).world := by
      rw [hf.world, hk]
      rfl
    have hreply : ∀ c, ∀ m ∈ arriving c [(conn, Message.response rid (callReply s.world k))],
        m.Old s'.world.content := by
      intro c m hm
      have heq := List.mem_singleton.1 (Network.mem_arriving.1 hm)
      rw [(Prod.mk.inj heq).2]
      trivial
    have hcomplete : ∀ p c, s.playerConns p = some c →
        Complete s'.world.content (s'.survivalWorld c) := by
      intro p c hp
      have hroom : (s.world.room p).isSome := by
        have hpresent := hs.present p
        rw [hp] at hpresent
        unfold WorldService.room
        unfold WorldService.inventory at hpresent
        rwa [Option.isSome_map] at hpresent ⊢
      have hrun := WorldService.complete_run hw hroom (h.complete p c hp) k
      rw [← hworld] at hrun
      rw [survivalWorld_append hwire, Network.arriving_append, arriving_delivered hs hp,
        SurvivalWorld.heed_append]
      exact (hrun.knows.heed hw' (hreply c)).2 hrun
    refine ⟨fun c => ?_, fun p c hp => hcomplete p c (hf.sessions.playerConns ▸ hp)⟩
    by_cases hsome : ∃ p, s.playerConns p = some c
    · obtain ⟨p, hp⟩ := hsome
      exact (hcomplete p c hp).knows
    · have hknows : Knows s'.world.content (s.survivalWorld c) := by
        rw [hworld, Call.run_content]
        rcases k.effect s.world with _ | e
        · exact h.knows c
        · exact (h.knows c).onContent e
      rw [survivalWorld_append hwire, Network.arriving_append,
        arriving_nobody (not_exists.1 hsome), List.nil_append]
      exact (hknows.heed hw' (hreply c)).1

omit [Platform F] in
theorem scenic_removed (hw : s.world.content.Storable) (h : Scenic s) {p : String}
    (hr : Removed s p s') : Scenic s' := by
  obtain ⟨rest, hwire, hrest⟩ := hr.wire
  refine h.old hw hwire (fun m hm => ?_) (content_removed hr) fun q conn hq => ?_
  · rcases hrest m hm with ⟨data, heq⟩ | ⟨id, heq⟩
    · rw [heq]
      trivial
    · rw [heq]
      trivial
  · rw [hr.playerConns, Function.update_apply] at hq
    split_ifs at hq
    exact hq

theorem scenic_switched (hw : s.world.content.Storable) (h : Scenic s) (fd : ℤ) (p : String) :
    Scenic (s.switchAccount fd p) := by
  rcases s.switchAccount_cases fd p with ⟨heq, -⟩ | ⟨old, -, -, hr, -⟩
  · rw [heq]
    exact h
  · exact scenic_removed hw h hr

/-- A login's completion sends the player the scene, and the others nothing of it. -/
theorem scenic_joined (hs' : Sessions s') (hw : s.world.content.Storable) (h : Scenic s)
    {conn : Connection} {p : String} {saved : PlayerState F} {now : ℤ} {rid : ℕ}
    (hj : Joined s conn p saved now rid s') : Scenic s' := by
  have hwire := hj.wire
  rw [List.append_assoc] at hwire
  have hcontent := content_joined hj
  have hsent := WorldService.old_enterWithState hw.toKeyed p p now saved.x saved.y saved.z saved.yaw
    saved.inv
  have hreply : ∀ c, ∀ m ∈ arriving c
      [(conn, Message.response rid (.login true "" (some (p, p))))], m.Old s.world.content := by
    intro c m hm
    have heq := List.mem_singleton.1 (Network.mem_arriving.1 hm)
    rw [(Prod.mk.inj heq).2]
    trivial
  have hold : ∀ c, ∀ m ∈ arriving c (s'.delivered .push
      (s.world.enterWithState p p now saved.x saved.y saved.z saved.yaw saved.inv).2 ++
        [(conn, .response rid (.login true "" (some (p, p))))]), m.Old s.world.content := by
    intro c m hm
    rw [Network.arriving_append, List.mem_append] at hm
    rcases hm with hm | hm
    · obtain ⟨e, he, c', -, heq⟩ := (mem_delivered s').1 (Network.mem_arriving.1 hm)
      rw [(Prod.mk.inj heq).2]
      exact hsent e he
    · exact hreply c m hm
  refine ⟨fun c => ?_, fun q c hq => ?_⟩
  · rw [survivalWorld_append hwire, hcontent]
    exact ((h.knows c).heed hw (hold c)).1
  rw [survivalWorld_append hwire, hcontent]
  by_cases hqp : q = p
  · subst hqp
    obtain ⟨state, rest, heq, hlists⟩ := WorldService.notices_entered (w := s.world) q q now
      saved.x saved.y saved.z saved.yaw saved.inv
    have hheed := hold c
    rw [Network.arriving_append, arriving_delivered hs' hq, heq, List.cons_append] at hheed ⊢
    have hcomplete := (h.knows c).applyWorldState hw (hlists hw.toKeyed)
    exact (hcomplete.knows.heed hw (List.forall_mem_cons.1 hheed).2).2 hcomplete
  · rw [hj.playerConns, Function.update_of_ne hqp] at hq
    exact ((h.knows c).heed hw (hold c)).2 (h.complete q c hq)

variable [Lobby D]

theorem scenic_step {e : Event F} (hs : Sessions s) (hw : s.world.content.Storable)
    (hw' : s'.world.content.Storable) (h : Scenic s) (he : step s e = some s') : Scenic s' := by
  have hs' := sessions_step hs he
  cases e with
  | accept fd =>
    obtain ⟨-, rfl⟩ := Step.accept he
    exact ⟨h.knows, h.complete⟩
  | frame fd rid request now =>
    obtain ⟨conn, -, hf⟩ := Step.frame he
    exact scenic_framed hs hw hw' h hf
  | close fd now =>
    obtain ⟨conn, s₁, -, -, rfl, ⟨-, rfl⟩ | ⟨p, -, hr⟩⟩ := Step.close_cases he
    · exact ⟨h.knows, h.complete⟩
    · have h₁ := scenic_removed hw h hr
      exact ⟨h₁.knows, h₁.complete⟩
  | work o =>
    obtain ⟨task, queue, -, rfl⟩ := Step.work he
    cases task <;> exact ⟨h.knows, h.complete⟩
  | loop now =>
    obtain ⟨callback, callbacks, -, ⟨rest, metrics, rfl, hrest⟩ |
      ⟨t, result, saved, conn, -, -, -, hj⟩⟩ := Step.loop_cases he
    · exact h.old hw rfl (fun m hm => old_inert (hrest m hm)) rfl fun _ _ hp => hp
    · have hcontent := (content_switched { s with callbacks } t.fd result.playerId).1
      have hswitched : Scenic (switchAccount { s with callbacks } t.fd result.playerId) :=
        scenic_switched (s := { s with callbacks }) hw ⟨h.knows, h.complete⟩ _ _
      exact scenic_joined hs' (hcontent ▸ hw) hswitched hj

theorem scenic_reach {ok : GameService F D → Event F → Prop} (h : Running ok s) : Scenic s := by
  obtain ⟨lobby, db, accounts, players, scenes, o, h⟩ := h
  induction h with
  | start =>
    obtain ⟨hconns, -, -, -, -, -, hwire, -⟩ := start_eq lobby db accounts players scenes o
    refine ⟨fun conn => ?_, fun p conn hp => ?_⟩
    · unfold survivalWorld
      rw [hwire]
      exact SurvivalWorld.knows_new
    · rw [hconns] at hp
      cases hp
  | next hr hok he ih =>
    have hrun : Running ok _ := ⟨lobby, db, accounts, players, scenes, o, hr⟩
    have hrun' : Running ok _ := ⟨lobby, db, accounts, players, scenes, o, hr.next hok he⟩
    exact scenic_step (sessions_reach hrun) (storable_reach hrun) (storable_reach hrun') ih he

/-- In every run, the client of each player shows the resources that are not used up and the
buildings of the server's scene, and no others. -/
theorem scene_shown {ok : GameService F D → Event F → Prop} (h : Running ok s) {p : String}
    {conn : Connection} (hp : s.playerConns p = some conn) (id : String) :
    (s.survivalWorld conn).resources.lookup id =
        (s.world.content.resources id).bind Resource.shown ∧
      (s.survivalWorld conn).buildings.lookup id =
        s.world.content.buildings.find? fun b => b.id = id :=
  have hcomplete := (scenic_reach h).complete p conn hp
  ⟨hcomplete.resources id, hcomplete.buildings id⟩

/-- A player builds and gathers beside one who was there, until the tree is used up, and another
comes after him. -/
theorem scene_shown_grove : ∃ s : GameService ℚ Unit,
    s.playerConns "ann" = some ⟨0, 5⟩ ∧ s.playerConns "bob" = some ⟨1, 6⟩ ∧
      (s.world.content.resources "oak").map Resource.remaining = some 0 ∧
      s.world.content.buildings.map BuildingState.id = ["building_4"] ∧
      ∀ conn ∈ [(⟨0, 5⟩ : Connection), ⟨1, 6⟩], ∀ id,
        (s.survivalWorld conn).resources.lookup id =
            (s.world.content.resources id).bind Resource.shown ∧
          (s.survivalWorld conn).buildings.lookup id =
            s.world.content.buildings.find? fun b => b.id = id := by
  have hplay : (play anyEvent grove (List.flatten [[.accept 5], loginAnn 5,
      [.frame 5 2 (.placeBuilding (some ⟨1, 2, 0, 0, 0⟩)) 0,
        .frame 5 3 (.gather (some "oak")) 0, .frame 5 4 (.gather (some "oak")) 0,
        .frame 5 5 (.gather (some "oak")) 0, .frame 5 6 (.gather (some "oak")) 0, .accept 6],
      List.replicate 10 (.work {}), loginBob 6, [.frame 5 7 (.gather (some "oak")) 0]])).map
      (fun s => (s.playerConns "ann", s.playerConns "bob",
          (s.world.content.resources "oak").map Resource.remaining,
          s.world.content.buildings.map BuildingState.id)) =
      some (some ⟨0, 5⟩, some ⟨1, 6⟩, some 0, ["building_4"]) := by
    decide +kernel
  obtain ⟨s, hs, hv⟩ := Option.map_eq_some_iff.1 hplay
  simp only [Prod.mk.injEq] at hv
  obtain ⟨hann, hbob, hoak, hbuilt⟩ := hv
  refine ⟨s, hann, hbob, hoak, hbuilt, fun conn hconn id => ?_⟩
  rcases List.mem_pair.1 hconn with rfl | rfl
  · exact scene_shown (running_of_play hs) hann id
  · exact scene_shown (running_of_play hs) hbob id

end GameService

end TinRpc
