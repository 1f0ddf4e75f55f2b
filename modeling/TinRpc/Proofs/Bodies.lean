import TinRpc.NetSession
import TinRpc.Proofs.Fields

/-!
# What a client reads of what the server wrote

Message by message, the smaller ones first: the client's decoder returns the dictionary of the
message whose wire form it reads. A field that is left out has the value that the dictionary starts
with. So the client reads what the server has filled, where `SerializeToString` does what protobuf
documents (`bodies_read`).
-/

namespace TinRpc.ProtoBridge

open Protobuf (Field Item write)
open FloatBits

variable {F : Type} [FloatBits F]

theorem decodes_vec3 (x y z : F) :
    Decodes .vec3 (write (Protobuf.fields (Game.vec3 x y z))) (.of x y z) := by
  have hx : branch .vec3 1 wireFixed32 = .fixed32 true fun v r => { r with x := v } := rfl
  have hy : branch .vec3 2 wireFixed32 = .fixed32 true fun v r => { r with y := v } := rfl
  have hz : branch .vec3 3 wireFixed32 = .fixed32 true fun v r => { r with z := v } := rfl
  exact Adds.decodes (.cons (.float (bits x) hx rfl (by decide))
    (.cons (.float (bits y) hy rfl (by decide))
    (.last (.float (bits z) hz rfl (by decide)))))

theorem decodes_playerTransform (p : TinRpc.PlayerTransform F) :
    Decodes .playerTransform (write (Protobuf.fields (Game.playerTransform p))) (.of p) := by
  have hid : branch .playerTransform 1 wireLengthDelimited =
    .bytes fun v r => { r with playerId := v } := rfl
  have hname : branch .playerTransform 2 wireLengthDelimited =
    .bytes fun v r => { r with playerName := v } := rfl
  have hposition : branch .playerTransform 3 wireLengthDelimited =
    .nested .vec3 fun v r => { r with position := v } := rfl
  have hyaw : branch .playerTransform 4 wireFixed32 =
    .fixed32 true fun v r => { r with yaw := v } := rfl
  have happearance : branch .playerTransform 5 wireVarint =
    .varint fun v r => { r with appearance := clampi v 0 3 } := rfl
  exact Adds.decodes (.cons (.string (utf8 p.playerId) hid rfl (by decide))
    (.cons (.string (utf8 p.playerName) hname rfl (by decide))
    (.cons (.message (decodes_vec3 p.x p.y p.z) hposition (by decide))
    (.cons (.float (bits p.yaw) hyaw rfl (by decide))
    (.last (.int32 (Int32.ofInt p.appearance) happearance rfl (by decide)))))))

theorem decodes_resource (n : TinRpc.Resource F) :
    Decodes .resource (write (Protobuf.fields (Game.resourceNode n))) (.of n) := by
  have hid : branch .resource 1 wireLengthDelimited =
    .bytes fun v r => { r with resourceId := v } := rfl
  have htype : branch .resource 2 wireVarint =
    .varint fun v r => { r with resourceType := v } := rfl
  have hposition : branch .resource 3 wireLengthDelimited =
    .nested .vec3 fun v r => { r with position := v } := rfl
  have hremaining : branch .resource 4 wireVarint =
    .varint fun v r => { r with remaining := v } := rfl
  exact Adds.decodes (.cons (.string (utf8 n.id) hid rfl (by decide))
    (.cons (.int32 (Int32.ofInt n.type) htype rfl (by decide))
    (.cons (.message (decodes_vec3 n.x n.y n.z) hposition (by decide))
    (.last (.int32 (Int32.ofInt n.remaining) hremaining rfl (by decide))))))

theorem decodes_building (b : BuildingState F) :
    Decodes .building (write (Protobuf.fields (Game.building b))) (.of b) := by
  have hid : branch .building 1 wireLengthDelimited =
    .bytes fun v r => { r with buildingId := v } := rfl
  have howner : branch .building 2 wireLengthDelimited =
    .bytes fun v r => { r with ownerId := v } := rfl
  have htype : branch .building 3 wireVarint =
    .varint fun v r => { r with buildingType := v } := rfl
  have hposition : branch .building 4 wireLengthDelimited =
    .nested .vec3 fun v r => { r with position := v } := rfl
  have hyaw : branch .building 5 wireFixed32 =
    .fixed32 false fun v r => { r with yaw := v } := rfl
  exact Adds.decodes (.cons (.string (utf8 b.id) hid rfl (by decide))
    (.cons (.string (utf8 b.ownerId) howner rfl (by decide))
    (.cons (.int32 (Int32.ofInt b.type) htype rfl (by decide))
    (.cons (.message (decodes_vec3 b.x b.y b.z) hposition (by decide))
    (.last (.float (bits b.yaw) hyaw rfl (by decide)))))))

theorem decodes_voxelEdit (e : VoxelEditState) :
    Decodes .voxelEdit (write (Protobuf.fields (Game.voxelEditState e))) (.of e) := by
  have hx : branch .voxelEdit 1 wireVarint =
    .varint fun v r => { r with x := unzigzag v } := rfl
  have hy : branch .voxelEdit 2 wireVarint =
    .varint fun v r => { r with y := unzigzag v } := rfl
  have hz : branch .voxelEdit 3 wireVarint =
    .varint fun v r => { r with z := unzigzag v } := rfl
  have haction : branch .voxelEdit 4 wireVarint = .varint fun v r => { r with action := v } := rfl
  have htype : branch .voxelEdit 5 wireVarint =
    .varint fun v r => { r with blockType := v } := rfl
  exact Adds.decodes (.cons (.sint32 (m := .voxelEdit) (fun v r => { r with x := v })
      (Int32.ofInt e.x) hx rfl (by decide))
    (.cons (.sint32 (m := .voxelEdit) (fun v r => { r with y := v }) (Int32.ofInt e.y) hy rfl
      (by decide))
    (.cons (.sint32 (m := .voxelEdit) (fun v r => { r with z := v }) (Int32.ofInt e.z) hz rfl
      (by decide))
    (.cons (.int32 (Int32.ofInt e.action) haction rfl (by decide))
    (.last (.int32 (Int32.ofInt e.blockType) htype rfl (by decide)))))))

theorem decodes_inventory (v : TinRpc.Inventory) :
    Decodes .inventory (write (Protobuf.fields (Game.inventory v))) (.of v) := by
  have hwood : branch .inventory 1 wireVarint = .varint fun v r => { r with wood := v } := rfl
  have hstone : branch .inventory 2 wireVarint = .varint fun v r => { r with stone := v } := rfl
  have hdirt : branch .inventory 3 wireVarint = .varint fun v r => { r with dirt := v } := rfl
  have hcopper : branch .inventory 4 wireVarint = .varint fun v r => { r with copper := v } := rfl
  have htool : branch .inventory 5 wireVarint =
    .varint fun v r => { r with toolLevel := some v } := rfl
  exact Adds.decodes (.cons (.int32 (Int32.ofInt v.wood) hwood rfl (by decide))
    (.cons (.int32 (Int32.ofInt v.stone) hstone rfl (by decide))
    (.cons (.int32 (Int32.ofInt v.dirt) hdirt rfl (by decide))
    (.cons (.int32 (Int32.ofInt v.copper) hcopper rfl (by decide))
    (.last (.int32 (Int32.ofInt v.toolLevel) htool rfl (by decide)))))))

theorem decodes_playerInfo (info : String × String) :
    Decodes .playerInfo (write (Protobuf.fields (Game.playerInfo info))) ⟨utf8 info.1⟩ := by
  have hid : branch .playerInfo 1 wireLengthDelimited =
    .bytes fun v r => { r with playerId := v } := rfl
  have hname : branch .playerInfo 2 wireLengthDelimited = .skip := rfl
  exact Adds.decodes (.cons (.string (utf8 info.1) hid rfl (by decide))
    (.last (.unread (utf8 info.2) hname (by decide))))

theorem decodes_worldState (s : WorldStateNtf F) :
    Decodes .worldState (write (Protobuf.fields (Game.worldStateNtf s))) (.of s) := by
  have hplayers : branch .worldState 1 wireLengthDelimited =
    .nested .playerTransform fun v r => { r with players := r.players ++ [v] } := rfl
  have hresources : branch .worldState 2 wireLengthDelimited =
    .nested .resource fun v r => { r with resources := r.resources ++ [v] } := rfl
  have hbuildings : branch .worldState 3 wireLengthDelimited =
    .nested .building fun v r => { r with buildings := r.buildings ++ [v] } := rfl
  have hedits : branch .worldState 4 wireLengthDelimited =
    .nested .voxelEdit fun v r => { r with voxelEdits := r.voxelEdits ++ [v] } := rfl
  have hinventory : branch .worldState 5 wireLengthDelimited =
    .nested .inventory fun v r => { r with inventory := v } := rfl
  have players := Adds.repeated (m := .worldState) (fun l => ⟨l, [], [], [], {}⟩)
    decodes_playerTransform hplayers (by decide) (fun _ _ => rfl) s.players []
  have resources := Adds.repeated (m := .worldState) (fun l => ⟨s.players.map .of, l, [], [], {}⟩)
    decodes_resource hresources (by decide) (fun _ _ => rfl) s.resources []
  have buildings := Adds.repeated (m := .worldState)
    (fun l => ⟨s.players.map .of, s.resources.map .of, l, [], {}⟩)
    decodes_building hbuildings (by decide) (fun _ _ => rfl) s.buildings []
  have edits := Adds.repeated (m := .worldState)
    (fun l => ⟨s.players.map .of, s.resources.map .of, s.buildings.map .of, l, {}⟩)
    decodes_voxelEdit hedits (by decide) (fun _ _ => rfl) s.voxelEdits []
  exact Adds.decodes ((((players.join resources).join buildings).join edits).join
    (.optional s.inventory decodes_inventory hinventory rfl (by decide)))

theorem legal_bytes (b : List UInt8) : Field.Legal ⟨1, .bytes b⟩ :=
  ⟨Nat.one_pos, (by decide : 1 < 2 ^ 29), trivial⟩

/-- `_first_nested` of a message with one message in it. -/
theorem firstNested_message {items : List Item} (hsize : Protobuf.Fits [.message 1 items]) :
    firstNested (write (Protobuf.fields [.message 1 items])) =
      some (write (Protobuf.fields items)) := by
  change (write [⟨1, .bytes (write (Protobuf.fields items))⟩]).length < 2 ^ 31 at hsize
  change firstNested (write [⟨1, .bytes (write (Protobuf.fields items))⟩]) = _
  rw [Protobuf.write_singleton] at hsize ⊢
  have hheader := readFieldHeader_field (legal_bytes (write (Protobuf.fields items))) [] []
  have hread := readLengthDelimited_field [] [] hsize (by
    rw [List.nil_append, List.append_nil]
    omega)
  rw [List.nil_append, List.append_nil] at hheader hread
  rw [header] at hread
  unfold firstNested
  rw [show (0 : ℤ) = ([] : List UInt8).length from rfl, hheader, Option.bind_some,
    if_neg (by rintro (h | h | h) <;> [cases h; exact h rfl; exact h rfl]), hread]
  rfl

theorem decodes_playerLeave (playerId : String) :
    Decodes .worldPlayerLeave (write (Protobuf.fields [Game.text 1 playerId])) (utf8 playerId) := by
  intro hsize
  have hfields : Protobuf.fields [Game.text 1 playerId] = Protobuf.string 1 (utf8 playerId) :=
    List.append_nil _
  rw [hfields] at hsize ⊢
  unfold Protobuf.string Protobuf.scalar at hsize ⊢
  split_ifs at hsize ⊢ with hempty
  · refine ⟨1, ?_⟩
    rw [hempty]
    rfl
  · rw [Protobuf.write_singleton] at hsize ⊢
    have hheader := readFieldHeader_field (legal_bytes (utf8 playerId)) [] []
    have hread := readLengthDelimited_field [] [] hsize (by
      rw [List.nil_append, List.append_nil]
      omega)
    rw [List.nil_append, List.append_nil] at hheader hread
    rw [header] at hread
    have hbranch : branch .worldPlayerLeave (Int64.ofNat 1) wireLengthDelimited = .last id := rfl
    have hpos := Field.length_pos ⟨1, .bytes (utf8 playerId)⟩
    refine ⟨1, ?_⟩
    rw [decode, loop, if_pos (by omega), readField, show (0 : ℤ) = ([] : List UInt8).length from rfl,
      hheader, Option.bind_some, if_pos rfl]
    unfold readValue
    simp only [show Int64.ofNat (Protobuf.Value.bytes (utf8 playerId)).wireType =
      wireLengthDelimited from rfl, hbranch, hread, Option.map_some, if_true, id]

theorem decodes_registerRes (success : Bool) (errorMsg playerId : String) :
    Decodes .registerRes (write (Protobuf.fields
      [.boolean 1 success, Game.text 2 errorMsg, Game.text 3 playerId]))
      ⟨success, utf8 errorMsg, utf8 playerId⟩ := by
  have hsuccess : branch .registerRes 1 wireVarint =
    .varint fun v r => { r with success := v != 0 } := rfl
  have herror : branch .registerRes 2 wireLengthDelimited =
    .bytes fun v r => { r with errorMsg := v } := rfl
  have hid : branch .registerRes 3 wireLengthDelimited =
    .bytes fun v r => { r with playerId := v } := rfl
  exact Adds.decodes (.cons (.boolean (m := .registerRes) (fun b r => { r with success := b })
      success hsuccess rfl (by decide))
    (.cons (.string (utf8 errorMsg) herror rfl (by decide))
    (.last (.string (utf8 playerId) hid rfl (by decide)))))

theorem decodes_loginRes (success : Bool) (errorMsg : String) (info : Option (String × String)) :
    Decodes .loginRes (write (Protobuf.fields (.boolean 1 success ::
      Item.optional 2 (info.map Game.playerInfo) ++ [Game.text 3 errorMsg])))
      ⟨success, (info.map fun i => utf8 i.1).getD [], utf8 errorMsg⟩ := by
  have hsuccess : branch .loginRes 1 wireVarint =
    .varint fun v r => { r with success := v != 0 } := rfl
  have hinfo : branch .loginRes 2 wireLengthDelimited =
    .nested .playerInfo fun v r => { r with playerId := v.playerId } := rfl
  have herror : branch .loginRes 3 wireLengthDelimited =
    .bytes fun v r => { r with errorMsg := v } := rfl
  have hid : ((info.map fun i => (⟨utf8 i.1⟩ : PlayerInfo)).getD {}).playerId =
      (info.map fun i => utf8 i.1).getD [] := by cases info <;> rfl
  rw [← hid]
  exact Adds.decodes (.cons (.boolean (m := .loginRes) (fun b r => { r with success := b })
      success hsuccess rfl (by decide))
    (.join (.optional info decodes_playerInfo hinfo rfl (by decide))
    (.last (.string (utf8 errorMsg) herror rfl (by decide)))))

theorem decodes_selectMapRes (success : Bool) (mapId : ℤ) (errorMsg : String) :
    Decodes .selectMapRes (write (Protobuf.fields
      [.boolean 1 success, Game.int 2 mapId, Game.text 3 errorMsg]))
      ⟨success, int mapId, utf8 errorMsg⟩ := by
  have hsuccess : branch .selectMapRes 1 wireVarint =
    .varint fun v r => { r with success := v != 0 } := rfl
  have hmap : branch .selectMapRes 2 wireVarint = .varint fun v r => { r with mapId := v } := rfl
  have herror : branch .selectMapRes 3 wireLengthDelimited =
    .bytes fun v r => { r with errorMsg := v } := rfl
  exact Adds.decodes (.cons (.boolean (m := .selectMapRes) (fun b r => { r with success := b })
      success hsuccess rfl (by decide))
    (.cons (.int32 (Int32.ofInt mapId) hmap rfl (by decide))
    (.last (.string (utf8 errorMsg) herror rfl (by decide)))))

theorem decodes_moveRes (success : Bool) (errorMsg : String) (corrected : Option (F × F × F)) :
    Decodes .moveRes (write (Protobuf.fields (.boolean 1 success :: Game.text 2 errorMsg ::
      Item.optional 3 (corrected.map fun p => Game.vec3 p.1 p.2.1 p.2.2))))
      ⟨success, utf8 errorMsg, (corrected.map fun p => Vector3.of p.1 p.2.1 p.2.2).getD {}⟩ := by
  have hsuccess : branch .moveRes 1 wireVarint =
    .varint fun v r => { r with success := v != 0 } := rfl
  have herror : branch .moveRes 2 wireLengthDelimited =
    .bytes fun v r => { r with errorMsg := v } := rfl
  have hcorrected : branch .moveRes 3 wireLengthDelimited =
    .nested .vec3 fun v r => { r with corrected := v } := rfl
  exact Adds.decodes (.cons (.boolean (m := .moveRes) (fun b r => { r with success := b })
      success hsuccess rfl (by decide))
    (.cons (.string (utf8 errorMsg) herror rfl (by decide))
    (.optional corrected (fun p => decodes_vec3 p.1 p.2.1 p.2.2) hcorrected rfl
      (by decide))))

theorem decodes_voxelEditRes (success : Bool) (errorMsg : String) (edit : Option (List Item))
    (inv : Option TinRpc.Inventory) :
    Decodes .voxelEditRes (write (Protobuf.fields (.boolean 1 success :: Game.text 2 errorMsg ::
      Item.optional 3 edit ++ Item.optional 4 (inv.map Game.inventory))))
      ⟨success, utf8 errorMsg, .ofOption inv⟩ := by
  have hsuccess : branch .voxelEditRes 1 wireVarint =
    .varint fun v r => { r with success := v != 0 } := rfl
  have herror : branch .voxelEditRes 2 wireLengthDelimited =
    .bytes fun v r => { r with errorMsg := v } := rfl
  have hedit : branch .voxelEditRes 3 wireLengthDelimited = .skip := rfl
  have hinventory : branch .voxelEditRes 4 wireLengthDelimited =
    .nested .inventory fun v r => { r with inventory := v } := rfl
  exact Adds.decodes (.cons (.boolean (m := .voxelEditRes) (fun b r => { r with success := b })
      success hsuccess rfl (by decide))
    (.cons (.string (utf8 errorMsg) herror rfl (by decide))
    (.join (.unknown edit hedit (by decide))
    (.optional inv decodes_inventory hinventory rfl (by decide)))))

/-- The first two fields of an answer to an action. -/
theorem adds_gathered (success : Bool) (errorMsg : String) :
    Adds (.actionRes true) (Protobuf.fields [.boolean 1 success, Game.text 2 errorMsg])
      (initial (.actionRes true)) ⟨success, utf8 errorMsg, {}, none⟩ := by
  have hsuccess : branch (.actionRes true) 1 wireVarint =
    .varint fun v r => { r with success := v != 0 } := rfl
  have herror : branch (.actionRes true) 2 wireLengthDelimited =
    .bytes fun v r => { r with errorMsg := v } := rfl
  exact Adds.cons (.boolean (m := .actionRes true) (fun b r => { r with success := b }) success
    hsuccess rfl (by decide)) (.last (.string (utf8 errorMsg) herror rfl (by decide)))

theorem adds_built (success : Bool) (errorMsg : String) :
    Adds (.actionRes false) (Protobuf.fields [.boolean 1 success, Game.text 2 errorMsg])
      (initial (.actionRes false)) ⟨success, utf8 errorMsg, {}, none⟩ := by
  have hsuccess : branch (.actionRes false) 1 wireVarint =
    .varint fun v r => { r with success := v != 0 } := rfl
  have herror : branch (.actionRes false) 2 wireLengthDelimited =
    .bytes fun v r => { r with errorMsg := v } := rfl
  exact Adds.cons (.boolean (m := .actionRes false) (fun b r => { r with success := b }) success
    hsuccess rfl (by decide)) (.last (.string (utf8 errorMsg) herror rfl (by decide)))

theorem decodes_craftRes (success : Bool) (errorMsg : String) (inv : Option TinRpc.Inventory) :
    Decodes (.actionRes false) (write (Protobuf.fields (.boolean 1 success ::
      Game.text 2 errorMsg :: Item.optional 4 (inv.map Game.inventory))))
      ⟨success, utf8 errorMsg, .ofOption inv, none⟩ := by
  have hinventory : branch (.actionRes false) 4 wireLengthDelimited =
    .nested .inventory fun v r => { r with inventory := v } := rfl
  exact Adds.decodes ((adds_built success errorMsg).join
    (.optional inv decodes_inventory hinventory rfl (by decide)))

theorem decodes_gatherRes (success : Bool) (errorMsg : String) (n : TinRpc.Resource F)
    (inv : TinRpc.Inventory) :
    Decodes (.actionRes true) (write (Protobuf.fields [.boolean 1 success, Game.text 2 errorMsg,
      .message 3 (Game.resourceNode n), .message 4 (Game.inventory inv)]))
      ⟨success, utf8 errorMsg, .of inv, some (.of n)⟩ := by
  have hitem : branch (.actionRes true) 3 wireLengthDelimited =
    .nested .resource fun v r => { r with item := some v } := rfl
  have hinventory : branch (.actionRes true) 4 wireLengthDelimited =
    .nested .inventory fun v r => { r with inventory := v } := rfl
  exact Adds.decodes ((adds_gathered success errorMsg).join
    (.cons (.message (decodes_resource n) hitem (by decide))
    (.last (.message (decodes_inventory inv) hinventory (by decide)))))

theorem decodes_placeBuildingRes (success : Bool) (errorMsg : String) (b : BuildingState F)
    (inv : TinRpc.Inventory) :
    Decodes (.actionRes false) (write (Protobuf.fields [.boolean 1 success, Game.text 2 errorMsg,
      .message 3 (Game.building b), .message 4 (Game.inventory inv)]))
      ⟨success, utf8 errorMsg, .of inv, some (.of b)⟩ := by
  have hitem : branch (.actionRes false) 3 wireLengthDelimited =
    .nested .building fun v r => { r with item := some v } := rfl
  have hinventory : branch (.actionRes false) 4 wireLengthDelimited =
    .nested .inventory fun v r => { r with inventory := v } := rfl
  exact Adds.decodes ((adds_built success errorMsg).join
    (.cons (.message (decodes_building b) hitem (by decide))
    (.last (.message (decodes_inventory inv) hinventory (by decide)))))

/-- A decoder called on a body returns a value, whatever more rounds it may take. -/
def Decoder.Returns (d : Decoder) (body : List UInt8) (value : d.Result) : Prop :=
  ∃ n₀, ∀ n ≥ n₀, d.call n body = .returned value

theorem Decodes.returns {m : Message} {body : List UInt8} {value : Result m}
    (h : Decodes m body value) (hsize : body.length < 2 ^ 31) :
    (Decoder.message m).Returns body value := by
  obtain ⟨n, hn⟩ := h hsize
  exact ⟨n, fun k hk => loop_mono hk hn⟩

/-- A decoder of the message in the first field. -/
theorem call_message {items : List Item} {m : Message} {value : Result m} {d : Decoder}
    {result : d.Result} (h : Decodes m (write (Protobuf.fields items)) value)
    (hsize : Protobuf.Fits [.message 1 items])
    (hcall : ∀ n, decode n m (write (Protobuf.fields items)) = .returned value →
      firstNested (write (Protobuf.fields [.message 1 items])) =
        some (write (Protobuf.fields items)) →
      d.call n (write (Protobuf.fields [.message 1 items])) = .returned result) :
    d.Returns (write (Protobuf.fields [.message 1 items])) result := by
  have hle : (write (Protobuf.fields items)).length ≤
      (write [⟨1, .bytes (write (Protobuf.fields items))⟩]).length := by
    rw [Protobuf.write_singleton]
    exact Field.length_bytes_le 1 (write (Protobuf.fields items))
  obtain ⟨n, hn⟩ := h (hle.trans_lt hsize)
  exact ⟨n, fun k hk => hcall k (loop_mono hk hn) (firstNested_message hsize)⟩

/-- A message with another one in it takes some bytes. -/
theorem isEmpty_write {items : List Item} (k : ℕ) (nested : List Item)
    (h : .message k nested ∈ items) :
    (write (Protobuf.fields items)).isEmpty = false := by
  rw [List.isEmpty_eq_false_iff, Ne, Protobuf.write_eq_nil]
  obtain ⟨front, back, rfl⟩ := List.append_of_mem h
  rw [Protobuf.fields_append, Protobuf.fields]
  exact List.append_ne_nil_of_right_ne_nil _ (List.cons_ne_nil _ _)

theorem push_returns (p : Push F) (hsize : Protobuf.Fits (Game.push p).2) :
    (ofPush p).1.Returns (write (Protobuf.fields (Game.push p).2)) (ofPush p).2 := by
  cases p with
  | worldState s => exact (decodes_worldState s).returns hsize
  | playerEnter t => exact (decodes_playerTransform t).returns hsize
  | playerLeave id => exact (decodes_playerLeave id).returns hsize
  | resourceChanged n =>
    refine call_message (d := .resourceChanged) (decodes_resource n) hsize fun k hk hfirst => ?_
    rw [Decoder.call, hfirst]
    simp only []
    rw [hk]
    unfold Decoder.unlessEmpty
    rw [if_neg]
    · rfl
    · rw [isEmpty_write 3 (Game.vec3 n.x n.y n.z) (by simp [Game.resourceNode])]
      exact Bool.false_ne_true
  | buildingPlaced b =>
    refine call_message (d := .buildingPlaced) (decodes_building b) hsize fun k hk hfirst => ?_
    rw [Decoder.call, hfirst]
    simp only []
    rw [hk]
    unfold Decoder.unlessEmpty
    rw [if_neg]
    · rfl
    · rw [isEmpty_write 4 (Game.vec3 b.x b.y b.z) (by simp [Game.building])]
      exact Bool.false_ne_true
  | voxelEdit e =>
    refine call_message (d := .voxelEditNtf) (decodes_voxelEdit e) hsize fun k hk hfirst => ?_
    rw [Decoder.call, hfirst]
    exact hk

theorem response_returns {kind : RequestKind} {r : Response F} {value : kind.decoder.Result}
    (h : kind.result r = some value) (hsize : Protobuf.Fits (Game.response r).2) :
    kind.decoder.Returns (write (Protobuf.fields (Game.response r).2)) value := by
  cases kind with
  | register =>
    cases r <;> cases h
    exact (decodes_registerRes _ _ _).returns hsize
  | login =>
    cases r <;> cases h
    exact (decodes_loginRes _ _ _).returns hsize
  | selectMap =>
    cases r <;> cases h
    exact (decodes_selectMapRes _ _ _).returns hsize
  | move =>
    cases r <;> cases h
    exact (decodes_moveRes _ _ _).returns hsize
  | gather =>
    cases r <;> cases h
    exact (decodes_gatherRes _ _ _ _).returns hsize
  | building =>
    cases r <;> cases h
    exact (decodes_placeBuildingRes _ _ _ _).returns hsize
  | voxel =>
    cases r <;> cases h
    exact (decodes_voxelEditRes _ _ _ _).returns hsize
  | craft =>
    cases r <;> cases h
    exact (decodes_craftRes _ _ _).returns hsize

/-- A response of some kind is a message that the server serializes. -/
theorem responseBody_eq [WorldProto F] (hwrite : Serializes F) {kind : RequestKind}
    {r : Response F} {value : kind.decoder.Result} (h : kind.result r = some value)
    (hsize : Protobuf.Fits (Game.response r).2) :
    Game.responseBody r = write (Protobuf.fields (Game.response r).2) := by
  cases r with
  | other method body => cases kind <;> cases h
  | _ => exact hwrite _ hsize

/-- Of every push, and of every answer to a request of some kind, the client's decoder returns the
dictionary of what the server serialized, as long as the message is shorter than 2 GB. -/
theorem bodies_read (F : Type) [FloatBits F] [WorldProto F] (hwrite : Serializes F) :
    (∀ p : Push F, Protobuf.Fits (Game.push p).2 →
      (ofPush p).1.Returns (WorldProto.serializeToString F (Game.push p).2) (ofPush p).2) ∧
    ∀ (kind : RequestKind) (r : Response F) (value : kind.decoder.Result),
      kind.result r = some value → Protobuf.Fits (Game.response r).2 →
      kind.decoder.Returns (Game.responseBody r) value := by
  refine ⟨fun p hsize => ?_, fun kind r value h hsize => ?_⟩
  · rw [hwrite _ hsize]
    exact push_returns p hsize
  · rw [responseBody_eq hwrite h hsize]
    exact response_returns h hsize

/-- A gather that is answered, of a resource at its place. -/
theorem bodies_read_gather :
    let r : Response UInt32 := .gather true ""
      ⟨"tree-1", 0, 0x40A00000, 0, 0xC0A00000, 4⟩ ⟨7, 3, 0, 0, 0⟩
    Protobuf.Fits (Game.response r).2 ∧
      Decoder.Returns (.message (.actionRes true)) (Game.responseBody r)
        ⟨true, [], ⟨7, 3, 0, 0, some 0⟩, some ⟨utf8 "tree-1", 0,
          ⟨[0, 0, 0xA0, 0x40], [0, 0, 0, 0], [0, 0, 0xA0, 0xC0]⟩, 4⟩⟩ := by
  have hsize : Protobuf.Fits (Game.response (F := UInt32) (.gather true ""
      ⟨"tree-1", 0, 0x40A00000, 0, 0xC0A00000, 4⟩ ⟨7, 3, 0, 0, 0⟩)).2 := by
    decide +kernel
  exact ⟨hsize, (bodies_read UInt32 fun _ _ => rfl).2 .gather _ _ (by rfl) hsize⟩

end TinRpc.ProtoBridge
