import Aspm.Lib.JsonStruct
import Aspm.Lib.JsonPrint
import Aspm.Lib.Utf8

/-!
# Structures that are written and read back

How `encoding/json` writes a structure, field by field, and what `decodeStruct` makes of the
result.  A field is a **slot**: a name, a place in the structure, and how its values are written
and read.  A slot carries its own law: what it has written, it reads into an empty place.

A slot may leave its value out (`omitempty`).  Then the place stays as it was, which is why the
laws speak of the structure `zero` that a decoder starts from.  A slot may also give back another
value than it was given (`norm`), as a string does that is not UTF-8.

A **layout** is the list of the slots of a structure.  Its round trip, `Layout.decode_encode`, is
by induction on the slots that are still to be read: their places are those of `zero`.
-/

namespace Json

open Strings (foldChar)
open SortedMap (put Sorted)
open Utf8 (Bytes)

universe u v

variable {ν : Type u} {σ : Type v} {zero : σ}

structure Slot (ν : Type u) (σ : Type v) (zero : σ) where
  name : Text
  {Value : Type}
  get : σ → Value
  set : Value → σ → σ
  /-- Nothing, when the value is left out. -/
  write : Value → Option (Datum ν)
  /-- The value that takes the place of another. -/
  read : Datum ν → Value → Option Value
  norm : Value → Value
  set_get : ∀ s, set (get s) s = s
  read_write : ∀ v d, write v = some d → read d (get zero) = some (norm v)
  omitted : ∀ v, write v = none → norm v = get zero

def Slot.member (m : Slot ν σ zero) : Member ν σ where
  name := m.name
  assign d s := (m.read d (m.get s)).map fun v => m.set v s

structure Layout (ν : Type u) (σ : Type v) (zero : σ) where
  slots : List (Slot ν σ zero)
  names : (slots.map fun m => m.name.map foldChar).Nodup
  /-- No slot writes into the place of a later one. -/
  apart : slots.Pairwise fun m m' => ∀ v s, m'.get (m.set v s) = m'.get s

namespace Layout

/-- The members of the slots that are written. -/
def written (s : σ) (slots : List (Slot ν σ zero)) : Fields ν :=
  slots.filterMap fun m => (m.write (m.get s)).map (m.name, ·)

/-- The slots, copied from one structure into another. -/
def copied (s : σ) (slots : List (Slot ν σ zero)) (t : σ) : σ :=
  slots.foldl (fun t m => m.set (m.norm (m.get s)) t) t

variable (l : Layout ν σ zero)

def encode (s : σ) : Datum ν := .object (written s l.slots)

/-- With no unknown fields allowed. -/
def decode (d : Datum ν) (old : σ) : Option σ := decodeStruct (l.slots.map Slot.member) true old d

/-- What comes back. -/
def restored (s : σ) : σ := copied s l.slots zero

variable {l}

theorem find_member {m : Slot ν σ zero} (mem : m ∈ l.slots) :
    (l.slots.map Slot.member).find? (fun k => folds k.name m.name) = some m.member := by
  have distinct := l.names
  rw [List.find?_map]
  generalize l.slots = slots at mem distinct
  induction slots with
  | nil => cases mem
  | cons first slots ih =>
    rw [List.map_cons, List.nodup_cons] at distinct
    rw [List.find?_cons]
    by_cases same : m = first
    · subst same
      simp [Slot.member, folds]
    · have later := (List.mem_cons.mp mem).resolve_left same
      -- another slot does not answer to this name
      have other : folds first.name m.name = false := by
        refine Bool.eq_false_iff.mpr fun equal => distinct.1 ?_
        rw [← beq_iff_eq.mp equal]
        exact List.mem_map_of_mem later
      simpa [Slot.member, other] using ih later distinct.2

/-- The induction: `rest` are the slots that are still to be read. -/
theorem foldlM_written (s : σ) {rest : List (Slot ν σ zero)} (listed : ∀ m ∈ rest, m ∈ l.slots)
    (apart : rest.Pairwise fun m m' => ∀ v s, m'.get (m.set v s) = m'.get s) {t : σ}
    (blank : ∀ m ∈ rest, m.get t = m.get zero) :
    (written s rest).foldlM (assignMember (l.slots.map Slot.member) true) t =
      some (copied s rest t) := by
  induction rest generalizing t with
  | nil => rfl
  | cons m rest ih =>
    rw [List.pairwise_cons] at apart
    have own : m.get t = m.get zero := blank m List.mem_cons_self
    have later : ∀ m' ∈ rest, m' ∈ l.slots := fun m' mem => listed m' (List.mem_cons_of_mem m mem)
    unfold written copied at ih ⊢
    rw [List.foldl_cons]
    cases value : m.write (m.get s) with
    | none =>
      have kept : m.set (m.norm (m.get s)) t = t := by
        rw [m.omitted _ value, ← own, m.set_get]
      rw [List.filterMap_cons_none (by rw [value, Option.map_none]), kept]
      exact ih later apart.2 fun m' mem => blank m' (List.mem_cons_of_mem m mem)
    | some d =>
      have assigned : assignMember (l.slots.map Slot.member) true t (m.name, d) =
          some (m.set (m.norm (m.get s)) t) := by
        simp only [assignMember, find_member (listed m List.mem_cons_self), Slot.member, own,
          m.read_write _ d value, Option.map_some]
      rw [List.filterMap_cons_some (by rw [value, Option.map_some]), List.foldlM_cons, assigned]
      refine ih later apart.2 fun m' mem => ?_
      rw [apart.1 m' mem]
      exact blank m' (List.mem_cons_of_mem m mem)

/-- **The round trip.** -/
theorem decode_encode (l : Layout ν σ zero) (s : σ) :
    l.decode (l.encode s) zero = some (l.restored s) :=
  foldlM_written s (fun _ mem => mem) l.apart fun _ _ => rfl

end Layout

/-! ## Kinds of slots -/

namespace Slot

section Kinds

variable (name : String)

/-- A string. -/
def text (get : σ → Text) (set : Text → σ → σ)
    (set_get : ∀ s, set (get s) s = s := by exact fun _ => rfl) : Slot ν σ zero where
  name := name.toList
  get := get
  set := set
  write t := some (.string t)
  read := stringField
  norm := id
  set_get := set_get
  read_write := by rintro t _ ⟨⟩; rfl
  omitted := by rintro t ⟨⟩

/-- A string with `omitempty`. -/
def textOmitted (get : σ → Text) (set : Text → σ → σ)
    (set_get : ∀ s, set (get s) s = s := by exact fun _ => rfl)
    (blank : get zero = [] := by rfl) : Slot ν σ zero where
  name := name.toList
  get := get
  set := set
  write t := if t = [] then none else some (.string t)
  read := stringField
  norm := id
  set_get := set_get
  read_write := by
    intro t d wrote
    obtain rfl := Option.some.inj ((if_neg fun empty => by simp [empty] at wrote).symm.trans wrote)
    rfl
  omitted := by
    intro t left
    by_cases empty : t = []
    · rw [blank, id, empty]
    · simp [empty] at left

/-- A string of bytes: what is not UTF-8 is replaced on the way. -/
def bytes (get : σ → Bytes) (set : Bytes → σ → σ)
    (set_get : ∀ s, set (get s) s = s := by exact fun _ => rfl) : Slot ν σ zero where
  name := name.toList
  get := get
  set := set
  write b := some (.string (Utf8.coerce b))
  read d old := (stringField d (Utf8.coerce old)).map Utf8.encode
  norm b := Utf8.encode (Utf8.coerce b)
  set_get := set_get
  read_write := by rintro b _ ⟨⟩; rfl
  omitted := by rintro b ⟨⟩

/-- A slice of strings. -/
def texts (get : σ → List Text) (set : List Text → σ → σ)
    (set_get : ∀ s, set (get s) s = s := by exact fun _ => rfl) : Slot ν σ zero where
  name := name.toList
  get := get
  set := set
  write ts := some (.array (ts.map .string))
  read
    | .array items, _ => items.mapM fun d => stringField d []
    | .null, _ => some []
    | _, _ => none
  norm := id
  set_get := set_get
  read_write := by
    rintro ts _ ⟨⟩
    show (ts.map Datum.string).mapM (fun d => stringField d []) = some ts
    rw [List.mapM_map]
    have each : ts.mapM (fun t => (pure (id t) : Option Text)) = pure (ts.map id) := List.mapM_pure
    rwa [List.map_id] at each
  omitted := by rintro ts ⟨⟩

/-- A map of strings with `omitempty`, written in the order of its keys. -/
def textMap (get : σ → List (Text × Text)) (set : List (Text × Text) → σ → σ)
    (set_get : ∀ s, set (get s) s = s := by exact fun _ => rfl)
    (blank : get zero = [] := by rfl) : Slot ν σ zero where
  name := name.toList
  get := get
  set := set
  write m := if m = [] then none else some (.object (m.map fun e => (e.1, .string e.2)))
  read
    | .object fields, old => fields.foldlM (fun m e => (stringField e.2 []).map (put e.1 · m)) old
    | .null, _ => some []
    | _, _ => none
  norm m := m.foldl (fun m e => put e.1 e.2 m) []
  set_get := set_get
  read_write := by
    intro m d wrote
    obtain rfl := Option.some.inj ((if_neg fun empty => by simp [empty] at wrote).symm.trans wrote)
    show (m.map fun e => (e.1, Datum.string e.2)).foldlM _ (get zero) = _
    rw [blank, List.foldlM_map]
    exact List.foldlM_pure
  omitted := by
    intro m left
    by_cases empty : m = []
    · rw [blank, empty]; rfl
    · simp [empty] at left

/-- A structure. -/
def struct {τ : Type} {zero' : τ} (inner : Layout ν τ zero') (get : σ → τ) (set : τ → σ → σ)
    (set_get : ∀ s, set (get s) s = s := by exact fun _ => rfl)
    (blank : get zero = zero' := by rfl) : Slot ν σ zero where
  name := name.toList
  get := get
  set := set
  write s := some (inner.encode s)
  read := inner.decode
  norm := inner.restored
  set_get := set_get
  read_write := by
    rintro s _ ⟨⟩
    rw [blank]
    exact inner.decode_encode s
  omitted := by rintro s ⟨⟩

/-- A number that is not negative. -/
def nat (get : σ → ℕ) (set : ℕ → σ → σ)
    (set_get : ∀ s, set (get s) s = s := by exact fun _ => rfl) : Slot Numeral σ zero where
  name := name.toList
  get := get
  set := set
  write n := some (.number (Numeral.ofNat n))
  read
    | .number n, _ => n.toNat?
    | .null, old => some old
    | _, _ => none
  norm := id
  set_get := set_get
  read_write := by
    rintro n _ ⟨⟩
    exact Numeral.toNat?_ofNat n
  omitted := by rintro n ⟨⟩

end Kinds

/-- A map that is in order comes back as it was. -/
theorem foldl_put_of_sorted {m : List (Text × Text)} (sorted : Sorted m) :
    m.foldl (fun m e => put e.1 e.2 m) [] = m := by
  induction m using List.reverseRecOn with
  | nil => rfl
  | append_singleton m e ih =>
    obtain ⟨before, -, last⟩ := List.pairwise_append.mp sorted
    rw [List.foldl_append, ih before, List.foldl_cons, List.foldl_nil]
    exact SortedMap.put_of_lt fun entry mem => last entry mem e (List.mem_singleton_self e)

end Slot

end Json
