import Mathlib.Data.List.AList

/-!
# Finite maps

`Table K V` is Mathlib's association list at a constant type of values. The lemmas here are about
walking over the entries: each key is met once, with the value `lookup` gives.
-/

/-- A finite map. -/
abbrev Table (K V : Type*) := AList fun _ : K => V

namespace AList

variable {K V W : Type*} [DecidableEq K]

/-- The table with a function applied to each value. -/
def mapValues (f : V → W) (s : Table K V) : Table K W where
  entries := s.entries.map fun e => ⟨e.1, f e.2⟩
  nodupKeys := by
    show (List.map Sigma.fst _).Nodup
    rw [List.map_map]
    exact s.nodupKeys

theorem lookup_mapValues (f : V → W) (s : Table K V) (k : K) :
    (s.mapValues f).lookup k = (s.lookup k).map f := by
  obtain ⟨l, hl⟩ := s
  simp only [lookup, mapValues]
  clear hl
  induction l with
  | nil => rfl
  | cons e l ih =>
    obtain ⟨a, v⟩ := e
    by_cases h : a = k
    · subst h; simp
    · rw [List.map_cons, List.dlookup_cons_ne _ _ (Ne.symm h), List.dlookup_cons_ne _ _ (Ne.symm h)]
      exact ih

/-- The table with the value at a key changed in its place. -/
def modify (k : K) (f : V → V) (s : Table K V) : Table K V where
  entries := s.entries.map fun e => ⟨e.1, if e.1 = k then f e.2 else e.2⟩
  nodupKeys := by
    show (List.map Sigma.fst _).Nodup
    rw [List.map_map]
    exact s.nodupKeys

theorem lookup_modify (k : K) (f : V → V) (s : Table K V) (a : K) :
    (s.modify k f).lookup a = if a = k then (s.lookup a).map f else s.lookup a := by
  obtain ⟨l, hl⟩ := s
  simp only [lookup, modify]
  clear hl
  induction l with
  | nil => simp
  | cons e l ih =>
    obtain ⟨b, v⟩ := e
    by_cases h : b = a
    · subst h
      simp only [List.map_cons, List.dlookup_cons_eq]
      split_ifs <;> rfl
    · rw [List.map_cons, List.dlookup_cons_ne _ _ (Ne.symm h), List.dlookup_cons_ne _ _ (Ne.symm h)]
      exact ih

theorem modify_eq_self {k : K} {f : V → V} {s : Table K V} (h : ∀ v ∈ s.lookup k, f v = v) :
    s.modify k f = s := by
  refine AList.ext ((List.map_congr_left fun e he => ?_).trans (List.map_id _))
  obtain ⟨a, v⟩ := e
  simp only []
  split_ifs with hk
  · obtain rfl := hk
    rw [h v (mem_lookup_iff.2 he)]
    rfl
  · rfl

theorem mem_entries_iff {s : Table K V} {e : Sigma fun _ : K => V} :
    e ∈ s.entries ↔ s.lookup e.1 = some e.2 := by
  rw [← Option.mem_def, mem_lookup_iff]

theorem lookup_insert_if (s : Table K V) (k a : K) (v : V) :
    (s.insert k v).lookup a = if a = k then some v else s.lookup a := by
  split_ifs with h
  · subst h; exact lookup_insert s
  · exact lookup_insert_ne h

theorem lookup_erase_if (s : Table K V) (k a : K) :
    (s.erase k).lookup a = if a = k then none else s.lookup a := by
  split_ifs with h
  · subst h; exact lookup_erase _ s
  · exact lookup_erase_ne h

theorem lookup_singleton (k : K) (v : V) :
    (AList.singleton k v : Table K V).lookup k = some v := by
  rw [← insert_empty]
  exact lookup_insert _

theorem erase_singleton (k : K) (v : V) : (AList.singleton k v : Table K V).erase k = ∅ := by
  ext1
  show List.kerase k [(⟨k, v⟩ : Sigma fun _ : K => V)] = []
  exact List.kerase_cons_eq rfl

/-- The entries at one key are the one `lookup` finds. -/
theorem filter_key_entries (s : Table K V) (k : K) :
    (s.entries.filter fun e => e.1 = k) = ((s.lookup k).map (Sigma.mk k)).toList := by
  obtain ⟨l, hl⟩ := s
  simp only [lookup]
  induction l with
  | nil => rfl
  | cons e l ih =>
    obtain ⟨a, v⟩ := e
    have hn := List.nodupKeys_cons.1 hl
    by_cases h : a = k
    · subst h
      have hnone : (l.filter fun e => e.1 = a) = [] := by
        rw [List.filter_eq_nil_iff]
        intro e he
        simp only [decide_eq_true_eq]
        intro h
        have hk : e.1 ∈ l.keys := List.mem_keys_of_mem he
        exact hn.1 (h ▸ hk)
      simp [hnone]
    · have := ih hn.2
      simp only [List.filter_cons, h, decide_false, Bool.false_eq_true, ↓reduceIte, this]
      rw [List.dlookup_cons_ne _ _ (Ne.symm h)]

/-- Mapping over the entries that meet a condition meets each key at most once. -/
theorem filter_key_map_entries {β : Type*} (s : Table K V) (P : (Sigma fun _ : K => V) → Bool)
    (m : β) (k : K) :
    ((s.entries.filter P).map fun e => (e.1, m)).filter (fun x => x.1 = k)
      = if (s.lookup k).any fun v => P ⟨k, v⟩ then [(k, m)] else [] := by
  rw [List.filter_map, List.filter_filter]
  have h : (s.entries.filter fun e => decide (e.1 = k) && P e)
      = (s.entries.filter fun e => e.1 = k).filter P := by
    rw [List.filter_filter]
    exact List.filter_congr fun e _ => Bool.and_comm _ _
  simp only [Function.comp_def, h, filter_key_entries]
  rcases s.lookup k with _ | v
  · simp
  · simp only [Option.map_some, Option.toList_some, List.filter_singleton, Option.any_some]
    by_cases h : P ⟨k, v⟩ <;> simp [h]

end AList
