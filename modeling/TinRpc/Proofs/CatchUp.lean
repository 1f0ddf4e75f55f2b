import TinRpc.Proofs.FrameRuns
import TinRpc.Proofs.Lockstep

/-!
# Catching up

A client behind the server asks for the frames after its own and replays what it gets, until it gets
nothing. While its next frame is in the history, a reply is the next three frames or those there are
(`getCatchUpFrames_eq`), so no frame is skipped or played twice on the way.
-/

namespace TinRpc.FrameSyncManager

open SortedList

variable {start stop : UInt32} {c e : ℕ}

/-- Of frames numbered one after the other, the loop takes those from `start` to `stop`. -/
theorem catchUpLoop_eq (hstart : start.toNat = c + 1) (hstop : stop.toNat = e) :
    ∀ (l : List FrameRecord) (a : ℕ), l.map (·.frameNo.toNat) = List.range' (a + 1) l.length →
      catchUpLoop start stop l = (l.drop (c - a)).take (e - max a c)
  | [], a, _ => by simp [catchUpLoop]
  | r :: l, a, hl => by
    rw [List.map_cons, List.length_cons, List.range'_succ] at hl
    obtain ⟨hr, hl⟩ := List.cons.inj hl
    have hrec := catchUpLoop_eq hstart hstop l (a + 1) hl
    have hgt : stop < r.frameNo ↔ e < a + 1 := by rw [UInt32.lt_iff_toNat_lt, hstop, hr]
    have hin : (start ≤ r.frameNo ∧ r.frameNo ≤ stop) ↔ c ≤ a ∧ a < e := by
      rw [UInt32.le_iff_toNat_le, UInt32.le_iff_toNat_le, hstart, hstop, hr]
      omega
    unfold catchUpLoop
    simp only [hgt, hin, hrec]
    by_cases hca : c ≤ a
    · rw [show c - a = 0 by omega, show c - (a + 1) = 0 by omega, List.drop_zero, List.drop_zero,
        max_eq_left hca, max_eq_left (by omega : c ≤ a + 1)]
      by_cases hae : a < e
      · rw [if_pos ⟨hca, hae⟩, if_neg (by omega), show e - a = e - (a + 1) + 1 by omega,
          List.take_succ_cons]
      · rw [if_neg (by omega), if_pos (by omega), show e - a = 0 by omega, List.take_zero]
    · rw [if_neg (by omega), show c - a = c - (a + 1) + 1 by omega, List.drop_succ_cons,
        max_eq_right (by omega : a ≤ c), max_eq_right (by omega : a + 1 ≤ c)]
      split_ifs with hea
      · rw [show e - c = 0 by omega, List.take_zero]
      · rfl

variable {m h : ℕ} {ops : List Op}

/-- The records of a run. -/
def recorded (m h : ℕ) (ops : List Op) : List FrameRecord := (run m h ops).2.map (·.record)

theorem length_recorded (hn : ticks ops < 2 ^ 32) : (recorded m h ops).length = ticks ops := by
  unfold recorded
  rw [map_record_run hn, Window.length_records]

theorem frameNo_recorded (hn : ticks ops < 2 ^ 32) :
    (recorded m h ops).map (·.frameNo.toNat) = List.range' 1 (ticks ops) := by
  unfold recorded
  rw [List.map_map]
  exact frameNo_run hn

theorem frameNo_of_recorded (hn : ticks ops < 2 ^ 32) {i : ℕ} {r : FrameRecord}
    (hr : (recorded m h ops)[i]? = some r) : r.frameNo.toNat = i + 1 := by
  unfold recorded at hr
  rw [List.getElem?_map] at hr
  obtain ⟨t, ht, rfl⟩ := Option.map_eq_some_iff.1 hr
  exact frameNo_of_run hn ht

/-- A reply has the next three records, if the first of them is in the history. -/
theorem getCatchUpFrames_eq (hn : ticks ops < 2 ^ 32 - 3) (hc : c ≤ ticks ops)
    (hold : ticks ops - h ≤ c) : (run m h ops).1.getCatchUpFrames (UInt32.ofNat c)
      = ((recorded m h ops).drop c).take 3 := by
  have hlt : ticks ops < 2 ^ 32 := by omega
  have hlen := length_recorded (m := m) (h := h) hlt
  obtain ⟨-, hhist, hno⟩ := run_eq (m := m) (h := h) hlt
  have hn' : (UInt32.ofNat (ticks ops)).toNat = ticks ops := UInt32.toNat_ofNat_of_lt' hlt
  have hc' : (UInt32.ofNat c).toNat = c :=
    UInt32.toNat_ofNat_of_lt' (by omega : c < 2 ^ 32)
  have hrecords : recorded m h ops = Window.start.records m ops := map_record_run hlt
  unfold getCatchUpFrames
  rw [hno, hhist, ← hrecords]
  rcases hc.eq_or_lt with hlow | hlow
  · have hle : UInt32.ofNat (ticks ops) ≤ UInt32.ofNat c := by
      rw [hlow]
      exact Nat.le_refl _
    rw [if_pos hle, List.drop_eq_nil_of_le (by omega), List.take_nil]
  have hstart : (UInt32.ofNat c + 1).toNat = c + 1 := by
    rw [UInt32.toNat_add, hc']
    exact Nat.mod_eq_of_lt (by show c + 1 < 2 ^ 32; omega)
  have hthree : (UInt32.ofNat c + 3).toNat = c + 3 := by
    rw [UInt32.toNat_add, hc']
    exact Nat.mod_eq_of_lt (by show c + 3 < 2 ^ 32; omega)
  have hstop : (min (UInt32.ofNat c + 3) (UInt32.ofNat (ticks ops))).toNat
      = min (c + 3) (ticks ops) := by
    show (if _ ≤ _ then _ else _ : UInt32).toNat = _
    split_ifs with hle
    · rw [UInt32.le_iff_toNat_le, hthree, hn'] at hle
      rw [hthree, min_eq_left hle]
    · rw [UInt32.le_iff_toNat_le, hthree, hn'] at hle
      rw [hn', min_eq_right (by omega)]
  have hnos : ((recorded m h ops).drop (ticks ops - h)).map (·.frameNo.toNat)
      = List.range' (ticks ops - h + 1) ((recorded m h ops).drop (ticks ops - h)).length := by
    rw [List.map_drop, frameNo_recorded hlt, List.length_drop, hlen, List.drop_range', Nat.mul_one,
      Nat.add_comm]
  rw [if_neg (by rw [UInt32.le_iff_toNat_le, hn', hc']; omega)]
  show catchUpLoop _ _ ((recorded m h ops).drop ((recorded m h ops).length - h)) = _
  rw [hlen, catchUpLoop_eq hstart hstop _ _ hnos, List.drop_drop, max_eq_right hold,
    show ticks ops - h + (c - (ticks ops - h)) = c by omega, List.take_eq_take_iff,
    List.length_drop, hlen]
  omega

/-- The server's state of frame `c`. -/
def serverState (state : GameState) (records : List FrameRecord) (c : ℕ) : GameState :=
  (records.take c).foldl (fun s r => tickLogic r.inputs s) state

/-- A client that catches up: its frame, its state and the frames it has replayed. -/
structure Client where
  frame : UInt32
  state : GameState
  replayed : List UInt32 := []

/-- Replay a record; `copy` is what the client gets of an input map. -/
def Client.replay (copy : FrameInputs → FrameInputs) (client : Client) (r : FrameRecord) :
    Client where
  frame := r.frameNo
  state := tickLogic (copy r.inputs) client.state
  replayed := client.replayed ++ [r.frameNo]

/-- Ask and replay until the reply is empty, with so many calls at most. -/
def catchUp (copy : FrameInputs → FrameInputs) (s : FrameSyncManager) : ℕ → Client → Option Client
  | 0, _ => none
  | calls + 1, client =>
    match s.getCatchUpFrames client.frame with
    | [] => some client
    | r :: records => catchUp copy s calls ((r :: records).foldl (Client.replay copy) client)

/-- A copy has the entries of the map, in an order of its own; then the players' ids must differ. -/
structure Copies (copy : FrameInputs → FrameInputs) (state : GameState) : Prop where
  entries : ∀ i, (copy i).entries.Perm i.entries
  ids : state.ids.Nodup ∨ ∀ i, copy i = i

variable {copy : FrameInputs → FrameInputs} {state : GameState}

theorem Copies.tickLogic_eq (hcopy : Copies copy state) (i : FrameInputs) :
    tickLogic (copy i) state = tickLogic i state := by
  rcases hcopy.ids with hids | hid
  · exact tickLogic_congr rfl (List.Perm.refl _) hids (hcopy.entries i)
  · rw [hid]

theorem Copies.tickLogic (hcopy : Copies copy state) (i : FrameInputs) :
    Copies copy (tickLogic i state) :=
  ⟨hcopy.entries, hcopy.ids.imp_left fun hids => tickLogic_ids_nodup hids i⟩

theorem Copies.foldl : ∀ (records : List FrameRecord) {state : GameState}, Copies copy state →
    Copies copy (records.foldl (fun s r => TinRpc.tickLogic r.inputs s) state)
  | [], _, hcopy => hcopy
  | r :: records, _, hcopy => Copies.foldl records (hcopy.tickLogic r.inputs)

theorem serverState_succ {records : List FrameRecord} {r : FrameRecord}
    (hr : records[c]? = some r) : serverState state records (c + 1)
      = TinRpc.tickLogic r.inputs (serverState state records c) := by
  unfold serverState
  rw [List.take_add_one, hr, Option.toList_some, List.foldl_append]
  rfl

/-- Replaying the records behind frame `c` takes a client from the server's state of that frame to
the server's state of the last of them. -/
theorem foldl_replay (hn : ticks ops < 2 ^ 32) (hcopy : Copies copy state) :
    ∀ (j c : ℕ) (replayed : List UInt32), c + j ≤ ticks ops →
      (((recorded m h ops).drop c).take j).foldl (Client.replay copy)
          ⟨UInt32.ofNat c, serverState state (recorded m h ops) c, replayed⟩
        = ⟨UInt32.ofNat (c + j), serverState state (recorded m h ops) (c + j),
            replayed ++ (List.range' (c + 1) j).map UInt32.ofNat⟩
  | 0, c, replayed, _ => by simp
  | j + 1, c, replayed, hcj => by
    have hlen := length_recorded (m := m) (h := h) hn
    obtain ⟨r, hr⟩ : ∃ r, (recorded m h ops)[c]? = some r :=
      ⟨_, List.getElem?_eq_getElem (by omega)⟩
    have hno : r.frameNo = UInt32.ofNat (c + 1) := by
      rw [← frameNo_of_recorded hn hr, UInt32.ofNat_toNat]
    have hdrop : (recorded m h ops).drop c = r :: (recorded m h ops).drop (c + 1) := by
      rw [List.drop_eq_getElem_cons (by omega)]
      congr 1
      exact Option.some_inj.1 ((List.getElem?_eq_getElem (by omega)).symm.trans hr)
    have hstate : TinRpc.tickLogic (copy r.inputs) (serverState state (recorded m h ops) c)
        = serverState state (recorded m h ops) (c + 1) := by
      rw [serverState_succ hr]
      exact Copies.tickLogic_eq (Copies.foldl _ hcopy) _
    rw [hdrop, List.take_succ_cons, List.foldl_cons]
    show (((recorded m h ops).drop (c + 1)).take j).foldl (Client.replay copy)
      ⟨r.frameNo, TinRpc.tickLogic (copy r.inputs) _, replayed ++ [r.frameNo]⟩ = _
    rw [hno, hstate, foldl_replay hn hcopy j (c + 1) _ (by omega), List.range'_succ, List.map_cons,
      List.append_assoc, show c + 1 + j = c + (j + 1) by omega]
    rfl

theorem catchUp_nil {s : FrameSyncManager} {client : Client}
    (hs : s.getCatchUpFrames client.frame = []) : catchUp copy s 1 client = some client := by
  unfold catchUp
  rw [hs]

theorem catchUp_cons {s : FrameSyncManager} {client : Client} {records : List FrameRecord}
    (hs : s.getCatchUpFrames client.frame = records) (hne : records ≠ []) (calls : ℕ) :
    catchUp copy s (calls + 1) client
      = catchUp copy s calls (records.foldl (Client.replay copy) client) := by
  obtain ⟨r, rest, rfl⟩ := List.exists_cons_of_ne_nil hne
  conv_lhs => unfold catchUp
  rw [hs]

/-- From a frame whose next frames are in the history, asking until nothing comes back reaches the
server's frame. -/
theorem catchUp_from (hn : ticks ops < 2 ^ 32 - 3) (hcopy : Copies copy state) :
    ∀ (left c : ℕ) (replayed : List UInt32), ticks ops - c = left → c ≤ ticks ops →
      ticks ops - h ≤ c → ∃ calls, catchUp copy (run m h ops).1 calls
          ⟨UInt32.ofNat c, serverState state (recorded m h ops) c, replayed⟩
        = some ⟨UInt32.ofNat (ticks ops), serverState state (recorded m h ops) (ticks ops),
            replayed ++ (List.range' (c + 1) left).map UInt32.ofNat⟩ := by
  have hlen := length_recorded (m := m) (h := h) (by omega : ticks ops < 2 ^ 32)
  intro left
  induction left using Nat.strongRecOn with
  | ind left ih =>
    intro c replayed hleft hc hold
    have hreply := getCatchUpFrames_eq (m := m) hn hc hold
    rcases hc.eq_or_lt with heq | hlow
    · rw [List.drop_eq_nil_of_le (by omega), List.take_nil] at hreply
      refine ⟨1, ?_⟩
      rw [catchUp_nil hreply, heq, show left = 0 by omega]
      simp
    · obtain ⟨j, hj⟩ : ∃ j, j = min 3 (ticks ops - c) := ⟨_, rfl⟩
      have htake : ((recorded m h ops).drop c).take 3 = ((recorded m h ops).drop c).take j := by
        rw [List.take_eq_take_iff, List.length_drop, hlen]
        omega
      have hne : ((recorded m h ops).drop c).take j ≠ [] := by
        intro hnil
        have := congrArg List.length hnil
        rw [List.length_take, List.length_drop, hlen, List.length_nil] at this
        omega
      obtain ⟨calls, hcalls⟩ := ih (left - j) (by omega) (c + j)
        (replayed ++ (List.range' (c + 1) j).map UInt32.ofNat) (by omega) (by omega) (by omega)
      refine ⟨calls + 1, ?_⟩
      rw [catchUp_cons (hreply.trans htake) hne, foldl_replay (by omega) hcopy j c _ (by omega),
        hcalls, List.append_assoc, ← List.map_append]
      have hrange := List.range'_append_1 (s := c + 1) (m := j) (n := left - j)
      rw [show c + 1 + j = c + j + 1 by omega, show j + (left - j) = left by omega] at hrange
      rw [hrange]

/-- A client that is behind the server by no more than the history holds, and that starts from the
server's state of its frame, gets an empty reply after finitely many calls; it then is at the
server's frame with the server's state, and has replayed each frame in between once. -/
theorem catchUp_reaches (hn : ticks ops < 2 ^ 32 - 3) (hh : 1 ≤ h) (hcopy : Copies copy state)
    (hc : c ≤ ticks ops) (hold : ∀ r, (run m h ops).1.frameHistory.head? = some r →
      r.frameNo.toNat ≤ c + 1) : ∃ calls, catchUp copy (run m h ops).1 calls
        { frame := UInt32.ofNat c, state := serverState state (recorded m h ops) c }
      = some ⟨(run m h ops).1.frameNo, serverState state (recorded m h ops) (ticks ops),
          (List.range' (c + 1) (ticks ops - c)).map UInt32.ofNat⟩ := by
  have hlt : ticks ops < 2 ^ 32 := by omega
  have hlen := length_recorded (m := m) (h := h) hlt
  obtain ⟨-, hhist, hno⟩ := run_eq (m := m) (h := h) hlt
  have hrecords : recorded m h ops = Window.start.records m ops := map_record_run hlt
  have hc' : ticks ops - h ≤ c := by
    by_contra hlow
    obtain ⟨r, hr⟩ : ∃ r, (recorded m h ops)[ticks ops - h]? = some r :=
      ⟨_, List.getElem?_eq_getElem (by omega)⟩
    have hhead : (run m h ops).1.frameHistory.head? = some r := by
      rw [hhist, ← hrecords, keep, hlen, List.head?_drop, hr]
    have := hold r hhead
    rw [frameNo_of_recorded hlt hr] at this
    omega
  obtain ⟨calls, hcalls⟩ := catchUp_from (m := m) hn hcopy (ticks ops - c) c [] rfl hc hc'
  refine ⟨calls, ?_⟩
  rw [hno]
  exact hcalls

theorem catchUp_reaches_two : ∃ calls, catchUp id
    (run 2 2 [.onPlayerInput 2 "p" [4], .tick, .tick, .tick]).1 calls
      { frame := UInt32.ofNat 1
        state := serverState {} (recorded 2 2 [.onPlayerInput 2 "p" [4], .tick, .tick, .tick]) 1 }
    = some ⟨3, { frameNo := 3, players := [⟨"p", 1, 0⟩] }, [2, 3]⟩ :=
  catchUp_reaches (by decide) (by decide) ⟨fun _ => List.Perm.refl _, .inr fun _ => rfl⟩ (by decide)
    fun r hr => by
      rw [← Option.some.inj hr]
      decide

end TinRpc.FrameSyncManager
