import TinRpc.Lib.Table

/-!
# Groups and an index of their members

A table of groups and a table that says of each member which group it is in, kept side by side. The
lemmas say how the two change together when a member joins or leaves and when a group comes or goes.
Where a group may take the place of another one, the index still has all members (`Covered`), but
also former ones.
-/

namespace Roster

variable {P R G : Type*} [DecidableEq P] [DecidableEq R]

/-- The index has exactly the members of the groups, each with its group. -/
def Indexed (members : G → List P) (groups : Table R G) (index : Table P R) : Prop :=
  ∀ p r, index.lookup p = some r ↔ ∃ g, groups.lookup r = some g ∧ p ∈ members g

variable {members : G → List P} {groups : Table R G} {index : Table P R} {p : P} {r r' : R}
  {g g' : G}

theorem indexed_empty : Indexed members (∅ : Table R G) (∅ : Table P R) := by
  intro p r
  rw [AList.lookup_empty, AList.lookup_empty]
  simp

namespace Indexed

/-- A member is in one group only. -/
theorem unique (h : Indexed members groups index) (hg : groups.lookup r = some g)
    (hg' : groups.lookup r' = some g') (hp : p ∈ members g) (hp' : p ∈ members g') : r = r' := by
  have h₁ := (h p r).2 ⟨g, hg, hp⟩
  rw [(h p r').2 ⟨g', hg', hp'⟩] at h₁
  exact (Option.some.inj h₁).symm

/-- A group changes and keeps its members. -/
theorem update (h : Indexed members groups index) (hg : groups.lookup r = some g)
    (hm : ∀ q, q ∈ members g' ↔ q ∈ members g) :
    Indexed members (groups.insert r g') index := by
  intro q s
  rw [h q s, AList.lookup_insert_if]
  split_ifs with hs
  · subst hs
    rw [hg]
    simp [hm]
  · rfl

/-- A member that is in no other group joins. -/
theorem join (h : Indexed members groups index) (hg : groups.lookup r = some g)
    (hp : index.lookup p = none ∨ index.lookup p = some r)
    (hm : ∀ q, q ∈ members g' ↔ q = p ∨ q ∈ members g) :
    Indexed members (groups.insert r g') (index.insert p r) := by
  intro q s
  rw [AList.lookup_insert_if, AList.lookup_insert_if]
  by_cases hq : q = p
  · subst hq
    rw [if_pos rfl]
    by_cases hs : s = r
    · subst hs
      simp [hm]
    · rw [if_neg hs, ← h q s]
      rcases hp with hp | hp <;> simp [hp, Ne.symm hs]
  · rw [if_neg hq, h q s]
    split_ifs with hs
    · subst hs
      rw [hg]
      simp [hm, hq]
    · rfl

/-- A group comes with a first member, who was in none. -/
theorem create (h : Indexed members groups index) (hr : groups.lookup r = none)
    (hp : index.lookup p = none) (hm : members g = [p]) :
    Indexed members (groups.insert r g) (index.insert p r) := by
  intro q s
  rw [AList.lookup_insert_if, AList.lookup_insert_if]
  by_cases hq : q = p
  · subst hq
    rw [if_pos rfl]
    by_cases hs : s = r
    · subst hs
      simp [hm]
    · rw [if_neg hs, ← h q s, hp]
      simp [Ne.symm hs]
  · rw [if_neg hq, h q s]
    split_ifs with hs
    · subst hs
      rw [hr]
      simp [hm, hq]
    · rfl

/-- A member leaves its group. -/
theorem leave (h : Indexed members groups index) (hg : groups.lookup r = some g)
    (hp : p ∈ members g) (hm : ∀ q, q ∈ members g' ↔ q ≠ p ∧ q ∈ members g) :
    Indexed members (groups.insert r g') (index.erase p) := by
  intro q s
  rw [AList.lookup_erase_if, AList.lookup_insert_if]
  by_cases hq : q = p
  · subst hq
    rw [if_pos rfl]
    split_ifs with hs
    · simp [hm]
    · rw [← h q s, (h q r).2 ⟨g, hg, hp⟩]
      simp [Ne.symm hs]
  · rw [if_neg hq, h q s]
    split_ifs with hs
    · subst hs
      rw [hg]
      simp [hm, hq]
    · rfl

end Indexed

omit [DecidableEq R] in
theorem lookup_foldl_erase : ∀ (ps : List P) (index : Table P R) (p : P),
    (ps.foldl (fun i q => i.erase q) index).lookup p
      = if p ∈ ps then none else index.lookup p
  | [], index, p => by simp
  | q :: ps, index, p => by
    rw [List.foldl_cons, lookup_foldl_erase ps, AList.lookup_erase_if]
    by_cases hp : p ∈ ps
    · simp [hp]
    · by_cases hq : p = q <;> simp [hp, hq]

namespace Indexed

/-- A group goes, and its members are struck from the index. -/
theorem drop (h : Indexed members groups index) (hg : groups.lookup r = some g) :
    Indexed members (groups.erase r) ((members g).foldl (fun i q => i.erase q) index) := by
  intro q s
  rw [lookup_foldl_erase, AList.lookup_erase_if]
  split_ifs with hq hs hs
  · simp
  · rw [← h q s, (h q r).2 ⟨g, hg, hq⟩]
    simp [Ne.symm hs]
  · subst hs
    rw [h q s, hg]
    simp [hq]
  · exact h q s

/-- Every group changes and keeps its members. -/
theorem mapValues (h : Indexed members groups index) {f : G → G}
    (hf : ∀ g q, q ∈ members (f g) ↔ q ∈ members g) :
    Indexed members (groups.mapValues f) index := by
  intro q s
  rw [h q s, AList.lookup_mapValues]
  simp [hf]

/-- A group changes in its place and keeps its members. -/
theorem modify (h : Indexed members groups index) (r : R) {f : G → G}
    (hf : ∀ g q, q ∈ members (f g) ↔ q ∈ members g) :
    Indexed members (groups.modify r f) index := by
  intro q s
  rw [h q s, AList.lookup_modify]
  split_ifs
  · simp [hf]
  · rfl

end Indexed

/-! ## Members in the index -/

/-- The index has the members of the groups, each with its group, and maybe others. -/
def Covered (members : G → List P) (groups : Table R G) (index : Table P R) : Prop :=
  ∀ p r g, groups.lookup r = some g → p ∈ members g → index.lookup p = some r

namespace Covered

variable {index' : Table P R}

theorem empty : Covered members (∅ : Table R G) (∅ : Table P R) := by
  intro p r g hg
  rw [AList.lookup_empty] at hg
  cases hg

theorem unique (h : Covered members groups index) (hg : groups.lookup r = some g)
    (hg' : groups.lookup r' = some g') (hp : p ∈ members g) (hp' : p ∈ members g') : r = r' := by
  have h₁ := h p r g hg hp
  rw [h p r' g' hg' hp'] at h₁
  exact (Option.some.inj h₁).symm

/-- A group is put in the place of another one or of none, and the members of the others keep their
places in the index. -/
theorem put (h : Covered members groups index) (hm : ∀ q ∈ members g', index'.lookup q = some r)
    (hkept : ∀ q s, s ≠ r → index.lookup q = some s → index'.lookup q = some s) :
    Covered members (groups.insert r g') index' := by
  intro q s g hg hq
  rw [AList.lookup_insert_if] at hg
  split_ifs at hg with hs
  · obtain rfl := Option.some.inj hg
    exact hs ▸ hm q hq
  · exact hkept q s hs (h q s g hg hq)

theorem drop (h : Covered members groups index) (hg : groups.lookup r = some g) :
    Covered members (groups.erase r) ((members g).foldl (fun i q => i.erase q) index) := by
  intro q s g' hg' hq
  rw [AList.lookup_erase_if] at hg'
  split_ifs at hg' with hs
  rw [lookup_foldl_erase, if_neg fun hin => hs (h.unique hg' hg hq hin)]
  exact h q s g' hg' hq

theorem mapValues (h : Covered members groups index) {f : G → G}
    (hf : ∀ g q, q ∈ members (f g) ↔ q ∈ members g) :
    Covered members (groups.mapValues f) index := by
  intro q s g hg hq
  rw [AList.lookup_mapValues, Option.map_eq_some_iff] at hg
  obtain ⟨g', hg', rfl⟩ := hg
  exact h q s g' hg' ((hf g' q).1 hq)

theorem modify (h : Covered members groups index) (r : R) {f : G → G}
    (hf : ∀ g q, q ∈ members (f g) ↔ q ∈ members g) :
    Covered members (groups.modify r f) index := by
  intro q s g hg hq
  rw [AList.lookup_modify] at hg
  split_ifs at hg
  · obtain ⟨g', hg', rfl⟩ := Option.map_eq_some_iff.1 hg
    exact h q s g' hg' ((hf g' q).1 hq)
  · exact h q s g hg hq

end Covered

end Roster
