import Mathlib.Data.Finset.Card
import TinRpc.SnapshotManager

/-!
# Saved frames

What a snapshot manager holds can be read off what was saved since the last `Clear`: the frames with
the largest numbers, as many as it has room for. Saving into a manager without a bound and dropping
frames only at the end gives the same (`run_eq`), so neither the order of the saves nor what was
dropped on the way matters.
-/

namespace TinRpc

open SortedList

/-- The snapshot's frame number. -/
def Snapshot.number (s : Snapshot) : ℕ := s.frameNo.toNat

theorem Snapshot.number_eq_iff {s : Snapshot} {k : UInt32} : s.number = k.toNat ↔ s.frameNo = k :=
  UInt32.toNat_inj

namespace SnapshotManager

variable {m : SnapshotManager} {k : UInt32} {state : GameState} {ops : List Op}

/-- The place `lower_bound` finds in a sorted list of snapshots. -/
theorem split_snapshots (hs : Sorted Snapshot.number m.snapshots) (k : UInt32) :
    ∃ lo hi, m.snapshots = lo ++ hi ∧ (∀ s ∈ lo, s.number < k.toNat)
      ∧ (∀ s ∈ hi, k.toNat ≤ s.number) ∧ m.lowerBoundFrame k = lo.length := by
  obtain ⟨lo, hi, he, hlo, hhi⟩ := hs.split k.toNat
  refine ⟨lo, hi, he, hlo, hhi, ?_⟩
  unfold lowerBoundFrame
  rw [he]
  refine lowerBound_append (fun s hs => ?_) fun s hs => ?_
  · exact decide_eq_true (UInt32.lt_iff_toNat_lt.2 (hlo s hs))
  · exact decide_eq_false fun h => (hhi s hs).not_gt (UInt32.lt_iff_toNat_lt.1 h)

/-- `SaveSnapshot` writes into the sorted list and keeps the frames with the largest numbers. -/
theorem saveSnapshot_eq (hs : Sorted Snapshot.number m.snapshots) (k : UInt32) (state : GameState) :
    m.saveSnapshot k state
      = { m with snapshots := keep m.maxSnapshots
                  (upsert Snapshot.number k.toNat (fun _ => ⟨k, state⟩) m.snapshots) } := by
  obtain ⟨lo, hi, he, hlo, hhi, hit⟩ := split_snapshots hs k
  unfold saveSnapshot keep
  simp only [hit]
  rw [he, upsert_append hlo, List.getElem?_append_right (Nat.le_refl _), Nat.sub_self]
  rcases hi with _ | ⟨s, hi⟩
  · simp [upsert]
  · have hge := hhi s List.mem_cons_self
    simp only [List.getElem?_cons_zero, upsert, if_neg (not_lt.2 hge), Snapshot.number_eq_iff]
    split_ifs
    · simp
    · simp

/-- `FindSnapshot` finds the frame if it is there. -/
theorem findSnapshot_eq (hs : Sorted Snapshot.number m.snapshots) (k : UInt32) :
    m.findSnapshot k = m.snapshots.find? fun s => s.number = k.toNat := by
  obtain ⟨lo, hi, he, hlo, hhi, hit⟩ := split_snapshots hs k
  have hfind : lo.find? (fun s => s.number = k.toNat) = none := by
    simpa using fun s hmem => (hlo s hmem).ne
  unfold findSnapshot
  rw [hit, he, List.getElem?_append_right (Nat.le_refl _), Nat.sub_self, List.find?_append, hfind,
    Option.none_or]
  rcases hi with _ | ⟨s, hi⟩
  · rfl
  · have hs' : Sorted Snapshot.number (s :: hi) := by
      rw [he] at hs
      exact (List.pairwise_append.1 hs).2.1
    by_cases hk : s.number = k.toNat
    · rw [List.find?_cons_of_pos (by simpa using hk)]
      simp only [List.getElem?_cons_zero, if_pos (Snapshot.number_eq_iff.1 hk)]
    · have hlt : k.toNat < s.number := lt_of_le_of_ne (hhi s List.mem_cons_self) (Ne.symm hk)
      have habove : ∀ r ∈ hi, k.toNat < r.number := fun r hr =>
        hlt.trans ((List.pairwise_cons.1 hs').1 r hr)
      rw [List.find?_cons_of_neg (by simpa using hk), find_of_above habove]
      simp only [List.getElem?_cons_zero, if_neg (mt Snapshot.number_eq_iff.2 hk)]

/-- A manager that drops nothing: every frame saved since the last `Clear`, in order. -/
structure Archive where
  snapshots : List Snapshot
  sorted : Sorted Snapshot.number snapshots

namespace Archive

def apply (a : Archive) : Op → Archive
  | .saveSnapshot k state =>
    { snapshots := upsert Snapshot.number k.toNat (fun _ => ⟨k, state⟩) a.snapshots
      sorted := a.sorted.upsert fun _ => rfl }
  | .clear => ⟨[], List.Pairwise.nil⟩

def run (ops : List Op) : Archive := ops.foldl apply ⟨[], List.Pairwise.nil⟩

end Archive

/-- A manager holds the last frames of the archive. -/
theorem run_eq (maxSnapshots : ℕ) (ops : List Op) :
    run maxSnapshots ops = ⟨keep maxSnapshots (Archive.run ops).snapshots, maxSnapshots⟩ := by
  unfold run Archive.run
  induction ops using List.reverseRecOn with
  | nil => simp [keep]
  | append_singleton ops op ih =>
    rw [List.foldl_append, List.foldl_append, ih]
    generalize ops.foldl Archive.apply _ = a
    cases op with
    | saveSnapshot k state =>
      show saveSnapshot _ k state = _
      rw [saveSnapshot_eq (a.sorted.keep _)]
      simp only []
      rw [keep_upsert a.sorted]
      rfl
    | clear => simp [apply, clear, Archive.apply, keep]

/-- The last state saved for each frame since the last `Clear`. -/
def lastSaved (ops : List Op) : UInt32 → Option GameState :=
  ops.foldl (fun saved op =>
    match op with
    | .saveSnapshot k state => fun j => if j = k then some state else saved j
    | .clear => fun _ => none) fun _ => none

/-- The frames saved since the last `Clear`. -/
def savedFrames (ops : List Op) : Finset UInt32 :=
  ops.foldl (fun saved op =>
    match op with
    | .saveSnapshot k _ => insert k saved
    | .clear => ∅) ∅

/-- The `n` largest frames. -/
def newest (n : ℕ) (frames : Finset UInt32) : Finset UInt32 :=
  frames.filter fun k => (frames.filter fun j => k < j).card < n

theorem mem_savedFrames {j : UInt32} : j ∈ savedFrames ops ↔ (lastSaved ops j).isSome := by
  unfold savedFrames lastSaved
  induction ops using List.reverseRecOn with
  | nil => simp
  | append_singleton ops op ih =>
    rw [List.foldl_append, List.foldl_append]
    cases op with
    | saveSnapshot k state =>
      simp only [List.foldl_cons, List.foldl_nil, Finset.mem_insert, ih]
      by_cases hj : j = k
      · simp [hj]
      · simp [hj]
    | clear => simp

theorem savedFrames_append_saves {more : List Op} (hmore : .clear ∉ more) :
    savedFrames ops ⊆ savedFrames (ops ++ more) := by
  induction more using List.reverseRecOn with
  | nil => simp
  | append_singleton more op ih =>
    rw [List.mem_append, List.mem_singleton, not_or] at hmore
    refine (ih hmore.1).trans ?_
    cases op with
    | saveSnapshot k state =>
      have hnext : savedFrames (ops ++ (more ++ [.saveSnapshot k state])) =
          insert k (savedFrames (ops ++ more)) := by
        unfold savedFrames
        rw [← List.append_assoc, List.foldl_append]
        rfl
      rw [hnext]
      exact Finset.subset_insert _ _
    | clear => exact absurd rfl hmore.2

/-- The archive has each frame with the last state saved for it. -/
theorem find_archive (ops : List Op) (j : UInt32) :
    (Archive.run ops).snapshots.find? (fun s => s.number = j.toNat)
      = (lastSaved ops j).map fun state => ⟨j, state⟩ := by
  unfold Archive.run lastSaved
  induction ops using List.reverseRecOn with
  | nil => rfl
  | append_singleton ops op ih =>
    rw [List.foldl_append, List.foldl_append]
    generalize ops.foldl Archive.apply _ = a at ih
    cases op with
    | saveSnapshot k state =>
      simp only [List.foldl_cons, List.foldl_nil, Archive.apply]
      rw [a.sorted.find_upsert (k := k.toNat) (fun _ => rfl) j.toNat, ih]
      by_cases hj : j = k
      · subst hj
        simp
      · rw [if_neg (mt UInt32.toNat_inj.1 hj), if_neg hj]
    | clear => rfl

theorem mem_archive {s : Snapshot} :
    s ∈ (Archive.run ops).snapshots ↔ lastSaved ops s.frameNo = some s.state := by
  have hfind : (lastSaved ops s.frameNo).map (fun state => ⟨s.frameNo, state⟩) = some s
      ↔ s ∈ (Archive.run ops).snapshots := by
    rw [← find_archive, (Archive.run ops).sorted.find_eq_some_iff]
    exact and_iff_left rfl
  rw [← hfind, Option.map_eq_some_iff]
  constructor
  · rintro ⟨state, hstate, he⟩
    rw [hstate, ← he]
  · exact fun h => ⟨s.state, h, rfl⟩

/-- The archive's frames. -/
theorem archive_frames (ops : List Op) :
    ((Archive.run ops).snapshots.map (·.frameNo)).toFinset = savedFrames ops := by
  ext j
  rw [List.mem_toFinset, List.mem_map, mem_savedFrames]
  constructor
  · rintro ⟨s, hs, rfl⟩
    rw [mem_archive.1 hs]
    rfl
  · intro h
    obtain ⟨state, hstate⟩ := Option.isSome_iff_exists.1 h
    exact ⟨⟨j, state⟩, mem_archive.2 hstate, rfl⟩

theorem archive_nodup (ops : List Op) : ((Archive.run ops).snapshots.map (·.frameNo)).Nodup :=
  List.Pairwise.map _ (fun _ _ h he => h.ne (congrArg UInt32.toNat he)) (Archive.run ops).sorted

theorem length_archive (ops : List Op) :
    (Archive.run ops).snapshots.length = (savedFrames ops).card := by
  rw [← archive_frames, List.toFinset_card_of_nodup (archive_nodup ops), List.length_map]

/-- Among the archive's frames as many are larger than `k` as among those saved. -/
theorem length_archive_above (ops : List Op) (k : UInt32) :
    ((Archive.run ops).snapshots.filter fun s => k.toNat < s.number).length
      = ((savedFrames ops).filter fun j => k < j).card := by
  have hfilter : (savedFrames ops).filter (fun j => k < j)
      = (((Archive.run ops).snapshots.map (·.frameNo)).filter fun j => k < j).toFinset := by
    rw [List.toFinset_filter, archive_frames]
    simp
  rw [hfilter, List.toFinset_card_of_nodup ((archive_nodup ops).filter _), List.filter_map,
    List.length_map]
  rfl

/-- The frames held. -/
def frames (m : SnapshotManager) : List UInt32 := m.snapshots.map (·.frameNo)

theorem mem_run {n : ℕ} {s : Snapshot} : s ∈ (run n ops).snapshots
    ↔ lastSaved ops s.frameNo = some s.state ∧ s.frameNo ∈ newest n (savedFrames ops) := by
  rw [run_eq, (Archive.run ops).sorted.mem_keep_iff, mem_archive, newest, Finset.mem_filter,
    mem_savedFrames]
  show _ ∧ (List.filter (fun r : Snapshot => s.frameNo.toNat < r.number) _).length < n ↔ _
  rw [length_archive_above]
  constructor
  · rintro ⟨hstate, hlt⟩
    exact ⟨hstate, by rw [hstate]; rfl, hlt⟩
  · rintro ⟨hstate, -, hlt⟩
    exact ⟨hstate, hlt⟩

theorem sorted_run (n : ℕ) (ops : List Op) : Sorted Snapshot.number (run n ops).snapshots := by
  rw [run_eq]
  exact (Archive.run ops).sorted.keep n

theorem frames_sorted (n : ℕ) (ops : List Op) : (run n ops).frames.Pairwise (· < ·) :=
  List.Pairwise.map _ (fun _ _ h => UInt32.lt_iff_toNat_lt.2 h) (sorted_run n ops)

theorem mem_frames {n : ℕ} : k ∈ (run n ops).frames ↔ k ∈ newest n (savedFrames ops) := by
  unfold frames
  rw [List.mem_map]
  constructor
  · rintro ⟨s, hs, rfl⟩
    exact (mem_run.1 hs).2
  · intro hk
    obtain ⟨state, hstate⟩ :=
      Option.isSome_iff_exists.1 (mem_savedFrames.1 (Finset.mem_filter.1 hk).1)
    exact ⟨⟨k, state⟩, mem_run.2 ⟨hstate, hk⟩, rfl⟩

theorem getSnapshot_run (n : ℕ) (ops : List Op) (k : UInt32) : (run n ops).getSnapshot k
    = if k ∈ newest n (savedFrames ops) then lastSaved ops k else none := by
  have hfind := fun s => (sorted_run n ops).find_eq_some_iff (k := k.toNat) (x := s)
  unfold getSnapshot
  rw [findSnapshot_eq (sorted_run n ops)]
  ext state
  rw [Option.map_eq_some_iff]
  constructor
  · rintro ⟨s, hs, rfl⟩
    obtain ⟨hmem, hk⟩ := (hfind s).1 hs
    obtain ⟨hstate, hnew⟩ := mem_run.1 hmem
    rw [← Snapshot.number_eq_iff.1 hk, if_pos hnew, hstate]
  · intro h
    split_ifs at h with hnew
    exact ⟨⟨k, state⟩, (hfind _).2 ⟨mem_run.2 ⟨h, hnew⟩, rfl⟩, rfl⟩

/-- A frame that was dropped stays out. -/
theorem not_mem_newest_append {n : ℕ} {more : List Op} (hsaved : k ∈ savedFrames ops)
    (hk : k ∉ newest n (savedFrames ops)) (hmore : .clear ∉ more) :
    k ∉ newest n (savedFrames (ops ++ more)) := by
  unfold newest at hk ⊢
  rw [Finset.mem_filter, not_and, not_lt] at hk ⊢
  exact fun _ => (hk hsaved).trans
    (Finset.card_le_card (Finset.filter_subset_filter _ (savedFrames_append_saves hmore)))

/-- After any calls the frames held are the `n` largest of those saved since the last `Clear`, in
ascending order, each found with the last state saved for it. So it is the saved frames that count
and not the order of the saves, and a frame that was dropped is not found again before the next
`Clear`. -/
theorem run_holds_newest (n : ℕ) (ops : List Op) :
    (∀ k, k ∈ (run n ops).frames ↔ k ∈ newest n (savedFrames ops)) ∧
    (run n ops).frames.Pairwise (· < ·) ∧
    (run n ops).count = min n (savedFrames ops).card ∧
    (∀ k, (run n ops).getSnapshot k
      = if k ∈ newest n (savedFrames ops) then lastSaved ops k else none) ∧
    (∀ ops', savedFrames ops' = savedFrames ops → (run n ops').frames = (run n ops).frames) ∧
    ∀ k ∈ savedFrames ops, k ∉ (run n ops).frames → ∀ more, .clear ∉ more →
      k ∉ (run n (ops ++ more)).frames ∧ (run n (ops ++ more)).getSnapshot k = none := by
  refine ⟨fun k => mem_frames, frames_sorted n ops, ?_, getSnapshot_run n ops, fun ops' h => ?_,
    fun k hsaved hk more hmore => ?_⟩
  · unfold count
    rw [run_eq, length_keep, length_archive]
  · refine List.Perm.eq_of_pairwise
      (fun a b _ _ hab hba => absurd hab (UInt32.lt_asymm hba)) (frames_sorted n ops')
      (frames_sorted n ops) ?_
    refine (List.perm_ext_iff_of_nodup ?_ ?_).2 fun k => by rw [mem_frames, mem_frames, h]
    · exact (frames_sorted n ops').imp UInt32.ne_of_lt
    · exact (frames_sorted n ops).imp UInt32.ne_of_lt
  · have hout := not_mem_newest_append hsaved (mt mem_frames.2 hk) hmore
    exact ⟨mt mem_frames.1 hout, by rw [getSnapshot_run, if_neg hout]⟩

end SnapshotManager

end TinRpc
