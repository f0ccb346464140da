import Aspm.Lib.JsonDatum
import Aspm.Lib.Strings

/-!
# Decoding into structures

How `encoding/json` fills the fields of a structure from a value: the members of an object one
after the other, each into the field whose name its key folds to, with `null` leaving most fields
as they are.  A later member overwrites an earlier one.  A decoder that disallows unknown fields
fails at a key without a field.
-/

namespace Json

open Strings (foldChar)

universe u v

variable {ν : Type u} {σ : Type v}

/-- A key names a field, whatever the case of its letters. -/
def folds (name key : Text) : Bool := key.map foldChar == name.map foldChar

/-- A field: its name, and how it takes a value. -/
structure Member (ν : Type u) (σ : Type v) where
  name : Text
  assign : Datum ν → σ → Option σ

/-- One member of an object, for a decoder that allows unknown fields or not. -/
def assignMember (members : List (Member ν σ)) (strict : Bool) (s : σ) (entry : Text × Datum ν) :
    Option σ :=
  match members.find? fun m => folds m.name entry.1 with
  | some m => m.assign entry.2 s
  | none => if strict then none else some s

/-- A value into a structure.  At the top and in a field, `null` changes nothing. -/
def decodeStruct (members : List (Member ν σ)) (strict : Bool) (zero : σ) : Datum ν → Option σ
  | .null => some zero
  | .object fields => fields.foldlM (assignMember members strict) zero
  | _ => none

/-- A string field. -/
def stringField : Datum ν → Text → Option Text
  | .string t, _ => some t
  | .null, old => some old
  | _, _ => none

/-- A field of type `*bool`. -/
def boolPointer : Datum ν → Option (Option Bool)
  | .bool b => some (some b)
  | .null => some none
  | _ => none

/-- With no unknown fields allowed, every key names a field. -/
theorem known_of_foldlM {members : List (Member ν σ)} {fields : Fields ν} {s t : σ}
    (decoded : fields.foldlM (assignMember members true) s = some t) :
    ∀ entry ∈ fields, ∃ m ∈ members, folds m.name entry.1 = true := by
  induction fields generalizing s with
  | nil => simp
  | cons entry fields ih =>
    rw [List.foldlM_cons, Option.bind_eq_bind, Option.bind_eq_some_iff] at decoded
    obtain ⟨next, first, rest⟩ := decoded
    rw [List.forall_mem_cons]
    refine ⟨?_, ih rest⟩
    unfold assignMember at first
    split at first
    · next m found =>
      have named := List.find?_some found
      exact ⟨m, List.mem_of_find?_eq_some found, named⟩
    · cases first

end Json
