import Aspm.Lib.JsonDatum

/-!
# Size, depth and texts of a JSON value

How many values a value consists of, how deep the deepest of them is, and what holds of every
text in it, keys included.
-/

namespace Json

universe u

variable {ν : Type u}

namespace Datum

mutual

/-- The number of values inside a value, itself included. -/
def size : Datum ν → ℕ
  | .array items => 1 + sizeItems items
  | .object fields => 1 + sizeFields fields
  | _ => 1

def sizeItems : List (Datum ν) → ℕ
  | [] => 0
  | v :: rest => size v + sizeItems rest

def sizeFields : Fields ν → ℕ
  | [] => 0
  | (_, v) :: rest => size v + sizeFields rest

end

mutual

/-- The depth of the deepest value inside a value, which is itself at depth zero. -/
def depth : Datum ν → ℕ
  | .array items => depthItems items
  | .object fields => depthFields fields
  | _ => 0

def depthItems : List (Datum ν) → ℕ
  | [] => 0
  | v :: rest => max (depth v + 1) (depthItems rest)

def depthFields : Fields ν → ℕ
  | [] => 0
  | (_, v) :: rest => max (depth v + 1) (depthFields rest)

end

mutual

/-- Every string and every key inside the value satisfies the predicate. -/
def Texts (P : Text → Prop) : Datum ν → Prop
  | .string t => P t
  | .array items => TextsItems P items
  | .object fields => TextsFields P fields
  | _ => True

def TextsItems (P : Text → Prop) : List (Datum ν) → Prop
  | [] => True
  | v :: rest => Texts P v ∧ TextsItems P rest

def TextsFields (P : Text → Prop) : Fields ν → Prop
  | [] => True
  | (k, v) :: rest => (P k ∧ Texts P v) ∧ TextsFields P rest

end

variable {P : Text → Prop}

theorem textsItems_iff {items : List (Datum ν)} :
    TextsItems P items ↔ ∀ v ∈ items, v.Texts P := by
  induction items with
  | nil => simp [TextsItems]
  | cons v rest ih => simp [TextsItems, ih]

theorem textsFields_iff {fields : Fields ν} :
    TextsFields P fields ↔ ∀ entry ∈ fields, P entry.1 ∧ entry.2.Texts P := by
  induction fields with
  | nil => simp [TextsFields]
  | cons entry rest ih => simp [TextsFields, ih]

end Datum

/-! ## Texts of the entries of an object -/

namespace Fields

open SortedMap

variable {P : Text → Prop} {fields : Fields ν}

/-- Every text in the entries satisfies the predicate. -/
def Texts (P : Text → Prop) (fields : Fields ν) : Prop :=
  ∀ entry ∈ fields, P entry.1 ∧ entry.2.Texts P

theorem texts_object : (Datum.object fields).Texts P ↔ Fields.Texts P fields :=
  Datum.textsFields_iff

theorem texts_nil : Fields.Texts P ([] : Fields ν) := fun _ mem => absurd mem List.not_mem_nil

theorem Texts.get (texts : Fields.Texts P fields) {k : Text} {v : Datum ν}
    (found : get k fields = some v) : v.Texts P :=
  (texts _ (mem_of_get found)).2

theorem Texts.put (texts : Fields.Texts P fields) {k : Text} {v : Datum ν} (key : P k)
    (value : v.Texts P) : Fields.Texts P (put k v fields) := by
  intro entry mem
  rcases mem_put mem with rfl | old
  · exact ⟨key, value⟩
  · exact texts entry old

theorem Texts.removeAll (texts : Fields.Texts P fields) (ks : List Text) :
    Fields.Texts P (removeAll ks fields) :=
  fun entry mem => texts entry (mem_of_mem_removeAll mem)

end Fields

end Json
