import Mathlib.Data.List.Chain
import Mathlib.Data.List.Pairwise

/-!
# Lineages of states

A state derives from another by operations taken from a log, in its order. A lineage is a list of
states with, for each, how much of the log it had seen, such that a later one derives from an
earlier one by operations of the log between them. States may be left out of a lineage, and its
last state goes on with the log.
-/

namespace List

variable {S E : Type*}

/-- `b` is `a` after some operations of the log. -/
def Derived (f : S → E → S) (log : List E) (a b : S) : Prop :=
  ∃ l : List E, l.Sublist log ∧ b = l.foldl f a

/-- A state with how much of the log it had seen, and a later one. -/
def Follows (f : S → E → S) (log : List E) (a b : ℕ × S) : Prop :=
  a.1 ≤ b.1 ∧ Derived f ((log.take b.1).drop a.1) a.2 b.2

def Lineage (f : S → E → S) (log : List E) (states : List S) : Prop :=
  ∃ tagged : List (ℕ × S), tagged.map Prod.snd = states ∧ tagged.Pairwise (Follows f log) ∧
    ∀ a ∈ tagged, a.1 ≤ log.length

variable {f : S → E → S} {log es l : List E} {states states' : List S} {a b : ℕ × S} {v : S}

theorem Follows.refl (a : ℕ × S) : Follows f log a a :=
  ⟨le_rfl, [], nil_sublist _, rfl⟩

/-- The operations between two states stay where they are when the log goes on. -/
theorem Follows.weaken (h : Follows f log a b) (hb : b.1 ≤ log.length) :
    Follows f (log ++ es) a b := by
  rw [Follows, take_append_of_le_length hb]
  exact h

/-- What follows a state by some of the new operations follows all that it follows. -/
theorem Follows.append (h : Follows f log a b) (hb : b.1 ≤ log.length) (hl : l.Sublist es) :
    Follows f (log ++ es) a ((log ++ es).length, l.foldl f b.2) := by
  obtain ⟨hle, k, hk, hb'⟩ := h
  have hlength : (log ++ es).length = log.length + es.length := length_append
  refine ⟨by dsimp only; omega, k ++ l, ?_, ?_⟩
  · have hk' : k.Sublist (log.drop a.1) := hk.trans ((take_sublist _ _).drop _)
    dsimp only
    rw [take_length, drop_append_of_le_length (by omega)]
    exact hk'.append hl
  · dsimp only
    rw [foldl_append, hb']

namespace Lineage

theorem singleton (v : S) : Lineage f log [v] :=
  ⟨[(0, v)], rfl, pairwise_singleton _ _, by simp⟩

theorem sublist (h : Lineage f log states) (hs : states'.Sublist states) :
    Lineage f log states' := by
  obtain ⟨tagged, rfl, hpair, hle⟩ := h
  obtain ⟨tagged', htagged, rfl⟩ := sublist_map_iff.1 hs
  exact ⟨tagged', rfl, hpair.sublist htagged, fun a ha => hle a (htagged.subset ha)⟩

/-- The log goes on, and some of the new operations make a new last state. -/
theorem extend (h : Lineage f log (states ++ [v])) (hl : l.Sublist es) :
    Lineage f (log ++ es) (states ++ [v] ++ [l.foldl f v]) := by
  obtain ⟨tagged, hmap, hpair, hle⟩ := h
  obtain ⟨older, last, rfl, rfl, hlast⟩ := map_eq_append_iff.1 hmap
  obtain ⟨a, rfl, rfl⟩ := map_eq_singleton_iff.1 hlast
  have ha : a.1 ≤ log.length := hle a (by simp)
  refine ⟨older ++ [a] ++ [((log ++ es).length, l.foldl f a.2)], by simp, ?_, ?_⟩
  · refine pairwise_append.2 ⟨hpair.imp_of_mem fun hx hy hxy => hxy.weaken (hle _ hy),
      pairwise_singleton _ _, fun x hx y hy => ?_⟩
    rw [mem_singleton.1 hy]
    rcases mem_append.1 hx with hx | hx
    · have hxa : Follows f log x a := (pairwise_append.1 hpair).2.2 x hx a (mem_singleton_self a)
      exact hxa.append ha hl
    · rw [mem_singleton.1 hx]
      exact (Follows.refl a).append ha hl
  · intro x hx
    rcases mem_append.1 hx with hx | hx
    · have := hle x hx
      rw [length_append]
      omega
    · rw [mem_singleton.1 hx]

theorem repeated (h : Lineage f log (states ++ [v])) : Lineage f log (states ++ [v] ++ [v]) := by
  have := h.extend (nil_sublist [])
  rwa [append_nil] at this

/-- The last state goes on with an operation. -/
theorem push (h : Lineage f log (states ++ [v])) (e : E) :
    Lineage f (log ++ [e]) (states ++ [f v e]) := by
  refine (h.extend (Sublist.refl [e])).sublist ?_
  rw [append_assoc]
  exact (Sublist.refl states).append ((nil_sublist [v]).append (Sublist.refl _))

/-- Of any two states in a row the second derives from the first. -/
theorem derived (h : Lineage f log states) : states.IsChain (Derived f log) := by
  obtain ⟨tagged, rfl, hpair, -⟩ := h
  refine (pairwise_map.2 (hpair.imp fun hxy => ?_)).isChain
  obtain ⟨-, l, hl, heq⟩ := hxy
  exact ⟨l, hl.trans ((drop_sublist _ _).trans (take_sublist _ _)), heq⟩

end Lineage

end List
