import Aspm.Lib.JsonPrint

/-!
# Reading a JSON value

A reader for the texts of `Datum.print`: no white space, and the escapes of the encoder.  It takes
a value off the front of a text and returns what follows; `decode` asks that nothing does.

The reader recurses on a depth.  The length of the text is enough, since the text of a value is
longer than those of the values in it, so that `decode_print` needs no condition.
-/

namespace Json

namespace Datum

/-- A key, a colon and a value. -/
def readMember (readValue : Text → Option (Datum Numeral × Text)) (text : Text) :
    Option ((Text × Datum Numeral) × Text) := do
  let (key, rest) ← readString text
  match rest with
  | ':' :: rest => (readValue rest).map fun r => ((key, r.1), r.2)
  | _ => none

def readNumber (text : Text) : Option (Datum Numeral × Text) :=
  let digits := text.takeWhile isNumberChar
  if valid : isNumeral digits = true then
    some (.number ⟨digits, valid⟩, text.dropWhile isNumberChar)
  else none

/-- A literal that begins the text. -/
def readLiteral (literal : Text) (value : Datum Numeral) (text : Text) :
    Option (Datum Numeral × Text) :=
  if literal <+: text then some (value, text.drop literal.length) else none

def read : ℕ → Text → Option (Datum Numeral × Text)
  | 0, _ => none
  | _, [] => none
  | n + 1, c :: rest =>
    match kindOf c with
    | none => none
    | some .null => readLiteral "null".toList .null (c :: rest)
    | some (.bool true) => readLiteral "true".toList (.bool true) (c :: rest)
    | some (.bool false) => readLiteral "false".toList (.bool false) (c :: rest)
    | some .number => readNumber (c :: rest)
    | some .string => (readString (c :: rest)).map fun r => (.string r.1, r.2)
    | some .array => (readItems (read n) ']' rest).map fun r => (.array r.1, r.2)
    | some .object =>
      (readItems (readMember (read n)) '\x7d' rest).map fun r => (.object r.1, r.2)

/-- The whole text is one value. -/
def decode (text : Text) : Option (Datum Numeral) :=
  match read (text.length + 1) text with
  | some (v, []) => some v
  | _ => none

/-! ## Lists of values -/

theorem printElements_eq_printRest (items : List (Datum Numeral)) :
    printElements [','] items = printRest print ']' items := by
  induction items with
  | nil => rfl
  | cons v items ih => rw [printElements, ih, printRest, List.singleton_append, List.cons_append]

theorem printElements_eq_printItems (items : List (Datum Numeral)) :
    printElements [] items = printItems print ']' items := by
  cases items with
  | nil => rfl
  | cons v items => rw [printElements, printElements_eq_printRest, printItems, List.nil_append]

def printMember (entry : Text × Datum Numeral) : Text := printString entry.1 ++ ':' :: print entry.2

theorem printMembers_eq_printRest (fields : Fields Numeral) :
    printMembers [','] fields = printRest printMember '\x7d' fields := by
  induction fields with
  | nil => rfl
  | cons entry fields ih =>
    obtain ⟨k, v⟩ := entry
    rw [printMembers, ih, printRest, printMember, List.singleton_append, List.cons_append,
      List.append_assoc, List.cons_append]

theorem printMembers_eq_printItems (fields : Fields Numeral) :
    printMembers [] fields = printItems printMember '\x7d' fields := by
  cases fields with
  | nil => rfl
  | cons entry fields =>
    obtain ⟨k, v⟩ := entry
    rw [printMembers, printMembers_eq_printRest, printItems, printMember, List.nil_append,
      List.append_assoc, List.cons_append]

theorem length_print_lt_array {items : List (Datum Numeral)} {v : Datum Numeral} (mem : v ∈ items) :
    (print v).length < (print (.array items)).length := by
  rw [print, printElements_eq_printItems, List.length_cons]
  exact Nat.lt_succ_of_le (length_le_printItems mem)

theorem length_print_lt_object {fields : Fields Numeral} {entry : Text × Datum Numeral}
    (mem : entry ∈ fields) : (print entry.2).length < (print (.object fields)).length := by
  have value : (print entry.2).length ≤ (printMember entry).length := by
    rw [printMember, List.length_append, List.length_cons]
    omega
  rw [print, printMembers_eq_printItems, List.length_cons]
  exact Nat.lt_succ_of_le (value.trans (length_le_printItems mem))

/-! ## The law of the reader -/

theorem delimited_of_follows {close : Char} (bracket : close ∈ [']', '\x7d']) {rest : Text}
    (follows : Follows close rest) : Delimited rest := by
  obtain ⟨c, t, rfl, comma | same⟩ := follows
  · rintro d ⟨⟩
    rw [comma]
    exact List.mem_cons_self
  · rintro d ⟨⟩
    rw [same]
    exact List.mem_cons_of_mem _ bracket

theorem readLiteral_append (literal rest : Text) (value : Datum Numeral) :
    readLiteral literal value (literal ++ rest) = some (value, rest) := by
  rw [readLiteral, if_pos (List.prefix_append _ _), List.drop_left' rfl]

theorem readNumber_append (number : Numeral) {rest : Text} (delimited : Delimited rest) :
    readNumber (number.text ++ rest) = some (.number number, rest) := by
  have digits := takeWhile_number (n := number) delimited
  have after : (number.text ++ rest).dropWhile isNumberChar = rest := by
    have whole := List.takeWhile_append_dropWhile (p := isNumberChar) (l := number.text ++ rest)
    rw [digits] at whole
    exact List.append_cancel_left whole
  rw [readNumber]
  simp only [digits, after]
  rw [dif_pos number.valid]

theorem readMember_append {readValue : Text → Option (Datum Numeral × Text)}
    {entry : Text × Datum Numeral} {rest : Text}
    (value : readValue (print entry.2 ++ rest) = some (entry.2, rest)) :
    readMember readValue (printMember entry ++ rest) = some (entry, rest) := by
  have key := readString_printString entry.1 (':' :: (print entry.2 ++ rest))
  rw [readMember, printMember, List.append_assoc, List.cons_append, key]
  show (readValue (print entry.2 ++ rest)).map _ = _
  rw [value]
  rfl

/-- The value is read back, with fuel for its text. -/
theorem read_print (v : Datum Numeral) {n : ℕ} (enough : (print v).length < n) {rest : Text}
    (delimited : Delimited rest) : read n (print v ++ rest) = some (v, rest) := by
  induction v using ind generalizing n rest with
  | null =>
    obtain ⟨m, rfl⟩ := Nat.exists_eq_add_of_lt enough
    exact readLiteral_append "null".toList rest .null
  | bool b =>
    obtain ⟨m, rfl⟩ := Nat.exists_eq_add_of_lt enough
    cases b with
    | true => exact readLiteral_append "true".toList rest (.bool true)
    | false => exact readLiteral_append "false".toList rest (.bool false)
  | number number =>
    obtain ⟨m, rfl⟩ := Nat.exists_eq_add_of_lt enough
    obtain ⟨-, c, t, split, first⟩ := number.chars
    have law := readNumber_append number delimited
    rw [print]
    rw [split, List.cons_append] at law ⊢
    rw [read, kindOf_number first]
    exact law
  | string t =>
    obtain ⟨m, rfl⟩ := Nat.exists_eq_add_of_lt enough
    have law := readString_printString t rest
    rw [printString, List.cons_append, List.cons_append] at law
    rw [print, printString, List.cons_append, List.cons_append, read]
    show ((readString _).map fun r => (Datum.string r.1, r.2)) = _
    rw [law]
    rfl
  | array items each =>
    obtain ⟨m, rfl⟩ : ∃ m, n = m + 1 := ⟨n - 1, by omega⟩
    have law : readItems (read m) ']' (printItems print ']' items ++ rest) =
        some (items, rest) := readItems_printItems (by decide) items
      (fun v _ => by
        obtain ⟨c, t, printed, kind⟩ := print_cons v
        exact ⟨c, t, printed, by rintro rfl; cases kind⟩)
      (fun v mem after follows => each v mem
        (lt_of_lt_of_le (length_print_lt_array mem) (Nat.lt_succ_iff.mp enough))
        (delimited_of_follows (by simp) follows)) rest
    rw [print, printElements_eq_printItems, List.cons_append, read]
    show ((readItems _ _ _).map fun r => (Datum.array r.1, r.2)) = _
    rw [law]
    rfl
  | object fields each =>
    obtain ⟨m, rfl⟩ : ∃ m, n = m + 1 := ⟨n - 1, by omega⟩
    have law : readItems (readMember (read m)) '\x7d'
        (printItems printMember '\x7d' fields ++ rest) = some (fields, rest) :=
      readItems_printItems (by decide) fields
      (fun entry _ => ⟨'"', _, rfl, by decide⟩)
      (fun entry mem after follows => readMember_append (each entry mem
        (lt_of_lt_of_le (length_print_lt_object mem) (Nat.lt_succ_iff.mp enough))
        (delimited_of_follows (by simp) follows))) rest
    rw [print, printMembers_eq_printItems, List.cons_append, read]
    show ((readItems _ _ _).map fun r => (Datum.object r.1, r.2)) = _
    rw [law]
    rfl

/-- **A printed value is decoded.** -/
theorem decode_print (v : Datum Numeral) : decode (print v) = some v := by
  have nothing : Delimited [] := fun c mem => by cases mem
  have read := read_print v (Nat.lt_succ_self _) nothing
  rw [List.append_nil] at read
  rw [decode, read]

/-- **Different values have different texts.** -/
theorem print_injective : Function.Injective (print : Datum Numeral → Text) := by
  intro v w same
  have read := decode_print v
  rw [same, decode_print] at read
  exact (Option.some.inj read).symm

end Datum

end Json
