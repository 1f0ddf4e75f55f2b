import TinRpc.Lib.Scanner

/-!
# Cutting a stream into blocks

A deframer takes the first block off a list, as soon as it is all there, and leaves the list alone
until then. Since it is determined which lists are blocks, no block is the start of another one, so
a list is cut up in one way only: `drain` finds it. How the list arrived in pieces, and how often a
block was asked for in between, makes no difference (`Follows`).
-/

/-- A way to take the first block off a list. -/
structure Deframer (B : Type*) where
  /-- The lists that are blocks. -/
  Block : List B → Prop
  /-- The first block and what follows it. -/
  cut : List B → Option (List B × List B)
  cut_iff : ∀ {b f r}, cut b = some (f, r) ↔ Block f ∧ b = f ++ r
  nil_not : ¬ Block []

namespace Deframer

variable {B : Type*} (D : Deframer B)

/-- Take blocks off until none is complete, at most so many. -/
def drainFuel : ℕ → List B → List (List B) × List B
  | 0, b => ([], b)
  | n + 1, b =>
    match D.cut b with
    | none => ([], b)
    | some (f, r) => (f :: (drainFuel n r).1, (drainFuel n r).2)

/-- The blocks at the front of a list and the unfinished rest. -/
def drain (b : List B) : List (List B) × List B := D.drainFuel b.length b

variable {D} {b c f r : List B} {fs : List (List B)}

theorem cut_append (h : D.cut b = some (f, r)) : D.cut (b ++ c) = some (f, r ++ c) := by
  obtain ⟨hf, rfl⟩ := D.cut_iff.1 h
  exact D.cut_iff.2 ⟨hf, List.append_assoc f r c⟩

theorem cut_block (h : D.Block f) : D.cut (f ++ r) = some (f, r) := D.cut_iff.2 ⟨h, rfl⟩

/-- The start of a block, short of all of it, has no block in it. -/
theorem cut_prefix (hf : D.Block f) (hb : b <+: f) (hne : b ≠ f) : D.cut b = none := by
  rcases h : D.cut b with _ | ⟨g, r⟩
  · rfl
  · obtain ⟨t, rfl⟩ := hb
    have hc := cut_append (c := t) h
    have hall := cut_block (r := []) hf
    rw [List.append_nil, hc, Option.some.injEq, Prod.mk.injEq, List.append_eq_nil_iff] at hall
    rw [hall.2.2, List.append_nil] at hne
    exact absurd rfl hne

theorem cut_nil : D.cut [] = none := by
  rcases h : D.cut [] with _ | ⟨f, r⟩
  · rfl
  · obtain ⟨hf, he⟩ := D.cut_iff.1 h
    rw [List.nil_eq, List.append_eq_nil_iff] at he
    exact absurd (he.1 ▸ hf) D.nil_not

/-- A deframer scans for blocks. -/
def scanner (D : Deframer B) : Scanner B (List B) where
  look b := (D.cut b).map fun p => (p.1.length, some p.1)
  look_append {b c k o} h := by
    obtain ⟨⟨f, r⟩, hcut, hp⟩ := Option.map_eq_some_iff.1 h
    rw [cut_append hcut]
    exact congrArg some hp
  look_pos {b k o} h := by
    obtain ⟨⟨f, r⟩, hcut, hp⟩ := Option.map_eq_some_iff.1 h
    obtain ⟨hf, rfl⟩ := D.cut_iff.1 hcut
    obtain rfl := congrArg Prod.fst hp
    have hne : f ≠ [] := fun h => D.nil_not (h ▸ hf)
    exact ⟨List.length_pos_iff.2 hne, by simp⟩

theorem look_none (h : D.cut b = none) : D.scanner.look b = none := congrArg (Option.map _) h

theorem look_some (h : D.cut b = some (f, r)) :
    D.scanner.look b = some (f.length, some f) ∧ b.drop f.length = r := by
  obtain ⟨hf, rfl⟩ := D.cut_iff.1 h
  exact ⟨congrArg (Option.map _) h, List.drop_left⟩

theorem drainFuel_eq : ∀ (n : ℕ) (b : List B), D.drainFuel n b = D.scanner.scanFuel n b
  | 0, _ => rfl
  | n + 1, b => by
    rw [drainFuel]
    rcases h : D.cut b with _ | ⟨f, r⟩
    · rw [Scanner.scanFuel_none (look_none h)]
    · obtain ⟨hlook, hr⟩ := look_some h
      rw [Scanner.scanFuel_some hlook, hr, ← drainFuel_eq n r]
      rfl

theorem drain_eq (b : List B) : D.drain b = D.scanner.scan b := drainFuel_eq _ b

theorem drain_none (h : D.cut b = none) : D.drain b = ([], b) := by
  rw [drain_eq, Scanner.scan_none (look_none h)]

theorem drain_some (h : D.cut b = some (f, r)) :
    D.drain b = (f :: (D.drain r).1, (D.drain r).2) := by
  obtain ⟨hlook, hr⟩ := look_some h
  rw [drain_eq, drain_eq, Scanner.scan_some hlook, hr]
  rfl

/-- What is proved of lists with no complete block, and kept by putting a block in front, holds of
all lists. -/
theorem drain_induction {P : List B → Prop} (h₀ : ∀ b, D.cut b = none → P b)
    (hs : ∀ b f r, D.cut b = some (f, r) → P r → P b) (b : List B) : P b := by
  induction b using Scanner.scan_induction (S := D.scanner) with
  | h₀ b h => exact h₀ b (Option.map_eq_none_iff.1 h)
  | hs b k o h ih =>
    rcases hcut : D.cut b with _ | ⟨f, r⟩
    · exact h₀ b hcut
    · obtain ⟨hlook, hr⟩ := look_some hcut
      obtain ⟨rfl, -⟩ := Prod.mk.inj (Option.some.inj (hlook.symm.trans h))
      exact hs b f r hcut (hr ▸ ih)

theorem drain_flatten (b : List B) : (D.drain b).1.flatten ++ (D.drain b).2 = b := by
  induction b using drain_induction (D := D) with
  | h₀ b h => simp [drain_none h]
  | hs b f r h ih =>
    rw [drain_some h, List.flatten_cons, List.append_assoc, ih]
    exact (D.cut_iff.1 h).2.symm

/-- A list of blocks and an unfinished rest are found again. -/
theorem drain_blocks (hr : D.cut r = none) : ∀ fs : List (List B), (∀ f ∈ fs, D.Block f) →
    D.drain (fs.flatten ++ r) = (fs, r)
  | [], _ => drain_none hr
  | f :: fs, h => by
    have ih := drain_blocks hr fs fun g hg => h g (List.mem_cons_of_mem f hg)
    rw [List.flatten_cons, List.append_assoc, drain_some (cut_block (h f List.mem_cons_self)), ih]

/-- More of the list leaves the blocks found so far as they are. -/
theorem drain_append (b c : List B) :
    D.drain (b ++ c) = ((D.drain b).1 ++ (D.drain ((D.drain b).2 ++ c)).1,
      (D.drain ((D.drain b).2 ++ c)).2) := by
  simp only [drain_eq, Scanner.scan_append b c]

/-- A longer list has the blocks of a shorter one, and more. -/
theorem drain_prefix (h : b <+: c) : (D.drain b).1 <+: (D.drain c).1 := by
  obtain ⟨t, rfl⟩ := h
  rw [drain_append]
  exact List.prefix_append _ _

/-! ## Lists that arrive in pieces -/

/-- Of what has arrived, the blocks `out` have been taken off and `rest` is left. -/
def Follows (D : Deframer B) (arrived : List B) (out : List (List B)) (rest : List B) : Prop :=
  D.drain arrived = (out ++ (D.drain rest).1, (D.drain rest).2)

theorem follows_nil : D.Follows [] [] [] := by
  unfold Follows
  rw [drain_none cut_nil]
  rfl

variable {out : List (List B)} {a rest : List B}

theorem Follows.append (h : D.Follows a out rest) (c : List B) :
    D.Follows (a ++ c) out (rest ++ c) := by
  unfold Follows at h ⊢
  rw [drain_append a c, h, drain_append rest c]
  simp only [List.append_assoc]

theorem Follows.cut (h : D.Follows a out rest) (hc : D.cut rest = some (f, r)) :
    D.Follows a (out ++ [f]) r := by
  unfold Follows at h ⊢
  rw [h, drain_some hc]
  simp only [List.append_assoc, List.cons_append, List.nil_append]

theorem Follows.prefix (h : D.Follows a out rest) : out <+: (D.drain a).1 := by
  unfold Follows at h
  rw [h]
  exact List.prefix_append _ _

end Deframer
