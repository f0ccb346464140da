import Aspm.Lib.Json
import Aspm.Lib.SortedMap

/-!
# JSON data

The values of JSON, over any type of numbers.  An object is a map from keys to values, given
by its entries in order of their keys; `Canonical` says so of every object inside a value,
and `decoded` makes a value so.
-/

namespace Json

universe u

inductive Datum (ν : Type u) where
  | null
  | bool (b : Bool)
  | number (n : ν)
  | string (t : Text)
  | array (items : List (Datum ν))
  | object (fields : List (Text × Datum ν))

/-- The entries of an object. -/
abbrev Fields (ν : Type u) := List (Text × Datum ν)

namespace Datum

variable {ν : Type u}

/-- Induction over a value, with all items of an array and all values of an object at once. -/
@[elab_as_elim]
theorem ind {P : Datum ν → Prop} (null : P .null) (bool : ∀ b, P (.bool b))
    (number : ∀ n, P (.number n)) (string : ∀ t, P (.string t))
    (array : ∀ items, (∀ v ∈ items, P v) → P (.array items))
    (object : ∀ fields : Fields ν, (∀ entry ∈ fields, P entry.2) → P (.object fields))
    (v : Datum ν) : P v :=
  @Datum.rec ν P (fun items => ∀ v ∈ items, P v) (fun fields => ∀ entry ∈ fields, P entry.2)
    (fun entry => P entry.2) null bool number string array object
    (fun _ mem => absurd mem List.not_mem_nil)
    (fun _ _ head tail _ mem => (List.mem_cons.mp mem).elim (fun same => same ▸ head) (tail _))
    (fun _ mem => absurd mem List.not_mem_nil)
    (fun _ _ head tail _ mem => (List.mem_cons.mp mem).elim (fun same => same ▸ head) (tail _))
    (fun _ _ value => value) v

/-! ## Equality -/

section Equality

variable [DecidableEq ν]

mutual

def beq : Datum ν → Datum ν → Bool
  | .null, .null => true
  | .bool a, .bool b => a = b
  | .number a, .number b => a = b
  | .string a, .string b => a = b
  | .array a, .array b => beqItems a b
  | .object a, .object b => beqFields a b
  | _, _ => false

def beqItems : List (Datum ν) → List (Datum ν) → Bool
  | [], [] => true
  | a :: as, b :: bs => beq a b && beqItems as bs
  | _, _ => false

def beqFields : Fields ν → Fields ν → Bool
  | [], [] => true
  | (k, a) :: as, (l, b) :: bs => (k = l) && beq a b && beqFields as bs
  | _, _ => false

end

theorem beqItems_iff {as : List (Datum ν)} (each : ∀ a ∈ as, ∀ b, beq a b = true ↔ a = b)
    (bs : List (Datum ν)) : beqItems as bs = true ↔ as = bs := by
  induction as generalizing bs with
  | nil => cases bs <;> simp [beqItems]
  | cons a as ih =>
    cases bs with
    | nil => simp [beqItems]
    | cons b bs =>
      simp [beqItems, each a List.mem_cons_self,
        ih (fun a mem => each a (List.mem_cons_of_mem _ mem))]

theorem beqFields_iff {as : Fields ν} (each : ∀ entry ∈ as, ∀ b, beq entry.2 b = true ↔ entry.2 = b)
    (bs : Fields ν) : beqFields as bs = true ↔ as = bs := by
  induction as generalizing bs with
  | nil => cases bs <;> simp [beqFields]
  | cons a as ih =>
    obtain ⟨k, a⟩ := a
    cases bs with
    | nil => simp [beqFields]
    | cons b bs =>
      obtain ⟨l, b⟩ := b
      simp [beqFields, each (k, a) List.mem_cons_self, and_assoc,
        ih (fun a mem => each a (List.mem_cons_of_mem _ mem))]

theorem beq_iff (a b : Datum ν) : beq a b = true ↔ a = b := by
  induction a using ind generalizing b with
  | null => cases b <;> simp [beq]
  | bool a => cases b <;> simp [beq]
  | number a => cases b <;> simp [beq]
  | string a => cases b <;> simp [beq]
  | array as each => cases b <;> simp [beq, beqItems_iff each]
  | object as each => cases b <;> simp [beq, beqFields_iff each]

instance : DecidableEq (Datum ν) := fun a b => decidable_of_iff _ (beq_iff a b)

end Equality

/-! ## Objects as maps -/

mutual

/-- Every object lists its keys in order. -/
def Canonical : Datum ν → Prop
  | .array items => CanonicalItems items
  | .object fields => SortedMap.Sorted fields ∧ CanonicalFields fields
  | _ => True

def CanonicalItems : List (Datum ν) → Prop
  | [] => True
  | v :: rest => Canonical v ∧ CanonicalItems rest

def CanonicalFields : Fields ν → Prop
  | [] => True
  | (_, v) :: rest => Canonical v ∧ CanonicalFields rest

end

theorem canonicalItems_iff {items : List (Datum ν)} :
    CanonicalItems items ↔ ∀ v ∈ items, v.Canonical := by
  induction items with
  | nil => simp [CanonicalItems]
  | cons v rest ih => simp [CanonicalItems, ih]

theorem canonicalFields_iff {fields : Fields ν} :
    CanonicalFields fields ↔ ∀ entry ∈ fields, entry.2.Canonical := by
  induction fields with
  | nil => simp [CanonicalFields]
  | cons entry rest ih => simp [CanonicalFields, ih]

end Datum

/-- The entries are those of a canonical object. -/
structure Fields.Canonical {ν : Type u} (fields : Fields ν) : Prop where
  sorted : SortedMap.Sorted fields
  values : ∀ k v, SortedMap.get k fields = some v → v.Canonical

section Maps

open SortedMap

variable {ν : Type u} {fields : Fields ν}

theorem canonical_object : (Datum.object fields).Canonical ↔ Fields.Canonical fields := by
  rw [Datum.Canonical, Datum.canonicalFields_iff]
  constructor
  · exact fun ⟨sorted, values⟩ => ⟨sorted, fun k v found => values (k, v) (mem_of_get found)⟩
  · exact fun ⟨sorted, values⟩ => ⟨sorted, fun entry mem => values _ _ (get_of_mem sorted mem)⟩

theorem Fields.canonical_nil : Fields.Canonical ([] : Fields ν) :=
  ⟨List.Pairwise.nil, nofun⟩

theorem Fields.Canonical.put (canonical : Fields.Canonical fields) (k : Text) {v : Datum ν}
    (value : v.Canonical) : Fields.Canonical (put k v fields) := by
  refine ⟨sorted_put canonical.sorted k v, fun l w found => ?_⟩
  rw [get_put] at found
  split_ifs at found with same
  · exact Option.some.inj found ▸ value
  · exact canonical.values l w found

theorem Fields.Canonical.removeAll (canonical : Fields.Canonical fields) (ks : List Text) :
    Fields.Canonical (removeAll ks fields) := by
  refine ⟨sorted_removeAll canonical.sorted ks, fun k v found => ?_⟩
  rw [get_removeAll] at found
  split_ifs at found
  exact canonical.values k v found

/-! ## Reading what is written -/

namespace Datum

mutual

/-- What a decoder makes of a value as it is written: an object becomes a map, in which the
last entry of a key counts. -/
def decoded : Datum ν → Datum ν
  | .array items => .array (decodedItems items)
  | .object fields => .object (decodedFields fields [])
  | v => v

def decodedItems : List (Datum ν) → List (Datum ν)
  | [] => []
  | v :: rest => decoded v :: decodedItems rest

def decodedFields : Fields ν → Fields ν → Fields ν
  | [], entries => entries
  | (k, v) :: rest, entries => decodedFields rest (put k (decoded v) entries)

end

theorem decodedItems_eq_map (items : List (Datum ν)) : decodedItems items = items.map decoded := by
  induction items with
  | nil => rfl
  | cons v rest ih => rw [decodedItems, ih, List.map_cons]

theorem canonical_decodedFields {written : Fields ν}
    (each : ∀ entry ∈ written, (decoded entry.2).Canonical) {entries : Fields ν}
    (canonical : Fields.Canonical entries) :
    Fields.Canonical (decodedFields written entries) := by
  induction written generalizing entries with
  | nil => exact canonical
  | cons entry rest ih =>
    exact ih (fun other mem => each other (List.mem_cons_of_mem _ mem))
      (canonical.put entry.1 (each entry List.mem_cons_self))

/-- **Decoding gives maps.** -/
theorem canonical_decoded (v : Datum ν) : (decoded v).Canonical := by
  induction v using ind with
  | null => trivial
  | bool b => trivial
  | number n => trivial
  | string t => trivial
  | array items each =>
    rw [decoded, Canonical, decodedItems_eq_map, canonicalItems_iff]
    intro v mem
    obtain ⟨written, listed, rfl⟩ := List.mem_map.mp mem
    exact each written listed
  | object fields each =>
    exact canonical_object.mpr (canonical_decodedFields each Fields.canonical_nil)

/-- Decoding adds the decoded entries one by one. -/
theorem get_decodedFields {written : Fields ν} (sorted : Sorted written) (entries : Fields ν)
    (k : Text) :
    get k (decodedFields written entries) =
      ((get k written).map decoded).or (get k entries) := by
  induction written generalizing entries with
  | nil => rfl
  | cons entry rest ih =>
    obtain ⟨below, sorted⟩ := sorted_cons.mp sorted
    rw [decodedFields, ih sorted, get_put, get_cons]
    split_ifs with same
    · have once : get k rest = none :=
        get_eq_none.mpr fun other mem => same ▸ (below other mem).ne'
      rw [once]
      rfl
    · rfl

/-- **Decoding leaves maps alone.** -/
theorem decoded_of_canonical {v : Datum ν} (canonical : v.Canonical) : decoded v = v := by
  induction v using ind with
  | null => rfl
  | bool b => rfl
  | number n => rfl
  | string t => rfl
  | array items each =>
    have items' := canonicalItems_iff.mp canonical
    rw [decoded, decodedItems_eq_map]
    congr 1
    exact (List.map_congr_left fun v mem => each v mem (items' v mem)).trans (List.map_id _)
  | object fields each =>
    have fields' := canonical_object.mp canonical
    have decodes : Fields.Canonical (decodedFields fields []) :=
      canonical_decodedFields (fun entry _ => canonical_decoded entry.2) Fields.canonical_nil
    rw [decoded]
    congr 1
    refine SortedMap.ext decodes.sorted fields'.sorted fun k => ?_
    rw [get_decodedFields fields'.sorted, get_nil, Option.or_none]
    cases found : get k fields with
    | none => rfl
    | some v =>
      exact congrArg some (each (k, v) (mem_of_get found) (fields'.values k v found))

end Datum

end Maps

end Json
