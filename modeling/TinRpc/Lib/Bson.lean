import Mathlib.Data.Int.Basic
import Mathlib.Data.List.TakeWhile

/-!
# BSON documents

A document is a list of named values; a name is looked up by its first occurrence. Strings are
written from and read into C strings, so what a document keeps of a string is its part before
the first NUL. `α` is the type of the doubles.
-/

inductive Bson (α : Type*)
  | double (v : α)
  | utf8 (s : String)
  | bool (b : Bool)
  | dateTime (ms : ℤ)
  | int32 (n : ℤ)
  | int64 (n : ℤ)
  | array (items : List (Bson α))
  | document (fields : List (String × Bson α))

namespace Bson

variable {α : Type*}

abbrev Doc (α : Type*) := List (String × Bson α)

def nul : Char := Char.ofNat 0

/-- What a C string keeps of `s`. -/
def cstr (s : String) : String := String.ofList (s.toList.takeWhile (· ≠ nul))

def NulFree (s : String) : Prop := nul ∉ s.toList

instance (s : String) : Decidable (NulFree s) := inferInstanceAs (Decidable (nul ∉ s.toList))

/-- `bson_iter_init_find`. -/
def find (doc : Doc α) (key : String) : Option (Bson α) :=
  (doc.find? fun f => f.1 = key).map Prod.snd

def getDouble : Bson α → Option α
  | .double v => some v
  | _ => none

/-- `bson_iter_utf8`, copied into a `std::string`. -/
def getUtf8 : Bson α → Option String
  | .utf8 s => some (cstr s)
  | _ => none

def getInt32 : Bson α → Option ℤ
  | .int32 n => some n
  | _ => none

def getArray : Bson α → List (Bson α)
  | .array items => items
  | _ => []

def getDocument : Bson α → Option (Doc α)
  | .document fields => some fields
  | _ => none

theorem nulFree_cstr (s : String) : NulFree (cstr s) := by
  intro h
  simp only [cstr, String.toList_ofList] at h
  simpa using List.mem_takeWhile_imp h

theorem cstr_eq_iff {s : String} : cstr s = s ↔ NulFree s := by
  refine ⟨fun h => h ▸ nulFree_cstr s, fun h => ?_⟩
  have htake : s.toList.takeWhile (fun c => decide (c ≠ nul)) = s.toList := by
    rw [List.takeWhile_eq_self_iff]
    intro c hc
    simp only [ne_eq, decide_eq_true_eq]
    rintro rfl
    exact h hc
  rw [cstr, htake, String.ofList_toList]

theorem cstr_of_nulFree {s : String} (h : NulFree s) : cstr s = s := cstr_eq_iff.2 h

@[simp] theorem find_nil (key : String) : find ([] : Doc α) key = none := rfl

theorem find_cons (k : String) (v : Bson α) (doc : Doc α) (key : String) :
    find ((k, v) :: doc) key = if k = key then some v else find doc key := by
  unfold find
  rw [List.find?_cons]
  by_cases h : k = key <;> simp [h]

end Bson
