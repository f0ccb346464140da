import Mathlib

/-!
# Compact JSON records

The texts that a compact JSON encoder writes for a record, and a reader for them.  A value of a
record is a string, a truth value or a list of strings; a record is its fields in order.  Strings
are escaped as the encoder escapes them by default: the two delimiters, control characters, the
three characters with a meaning in HTML and the two line separators of JavaScript.

Each reader takes a value off the front of a text and returns what follows, and each has one law:
it reads back what was printed, whatever follows.  A reader may know fewer spellings than the
grammar of JSON has (white space, other escapes); it is meant for callers that print what they
read again and compare.
-/

namespace Json

abbrev Text := List Char

instance lawfulBEq_text : LawfulBEq Text := inferInstance

/-- The bytes of a text in UTF-8. -/
def byteLength (t : Text) : ℕ := (t.map Char.utf8Size).sum

@[simp] theorem byteLength_nil : byteLength [] = 0 := rfl

@[simp] theorem byteLength_cons (c : Char) (t : Text) :
    byteLength (c :: t) = c.utf8Size + byteLength t := by
  simp [byteLength]

@[simp] theorem byteLength_append (t u : Text) :
    byteLength (t ++ u) = byteLength t + byteLength u := by
  simp [byteLength]

theorem length_le_byteLength (t : Text) : t.length ≤ byteLength t := by
  induction t with
  | nil => rfl
  | cons c t ih =>
    have := c.utf8Size_pos
    rw [byteLength_cons, List.length_cons]
    omega

/-! ## Strings -/

/-- One hexadecimal digit. -/
def hexDigit (n : ℕ) : Char :=
  if n < 10 then Char.ofNat (48 + n) else Char.ofNat (87 + n)

def hexValue (c : Char) : Option ℕ :=
  if '0' ≤ c ∧ c ≤ '9' then some (c.toNat - 48)
  else if 'a' ≤ c ∧ c ≤ 'f' then some (c.toNat - 87)
  else if 'A' ≤ c ∧ c ≤ 'F' then some (c.toNat - 55)
  else none

theorem hexValue_hexDigit (n : Fin 16) : hexValue (hexDigit n) = some n.val := by
  revert n
  decide

/-- The escape `\uXXXX`. -/
def unicodeEscape (c : Char) : Text :=
  ['\\', 'u', hexDigit (c.toNat / 4096 % 16), hexDigit (c.toNat / 256 % 16),
    hexDigit (c.toNat / 16 % 16), hexDigit (c.toNat % 16)]

/-- The characters with an escape of two characters, and its second one. -/
def shortEscapes : List (Char × Char) :=
  [('"', '"'), ('\\', '\\'), ('\x08', 'b'), ('\x0c', 'f'), ('\n', 'n'), ('\r', 'r'), ('\t', 't')]

/-- The characters written as `\uXXXX`. -/
def isUnicodeEscaped (c : Char) : Bool :=
  c.toNat < 0x20 || c = '<' || c = '>' || c = '&' || c.toNat = 0x2028 || c.toNat = 0x2029

def escapeChar (c : Char) : Text :=
  match shortEscapes.lookup c with
  | some e => ['\\', e]
  | none => if isUnicodeEscaped c then unicodeEscape c else [c]

def printString (t : Text) : Text :=
  '"' :: t.flatMap escapeChar ++ ['"']

/-- The character of an escape, after its backslash. -/
def unescape : Text → Option (Char × Text)
  | [] => none
  | e :: rest =>
    if e = 'u' then
      match rest with
      | a :: b :: c :: d :: rest => do
        let code := (← hexValue a) * 4096 + (← hexValue b) * 256 + (← hexValue c) * 16 +
          (← hexValue d)
        if code.isValidChar then some (Char.ofNat code, rest) else none
      | _ => none
    else ((shortEscapes.map Prod.swap).lookup e).map (·, rest)

/-- The characters up to the closing quote. -/
def readChars : ℕ → Text → Option (Text × Text)
  | 0, _ => none
  | _, [] => none
  | n + 1, c :: rest =>
    if c = '"' then some ([], rest)
    else if c = '\\' then do
      let (d, rest) ← unescape rest
      let (t, rest) ← readChars n rest
      some (d :: t, rest)
    else if c.toNat < 0x20 then none
    else do
      let (t, rest) ← readChars n rest
      some (c :: t, rest)

def readString : Text → Option (Text × Text)
  | '"' :: rest => readChars (rest.length + 1) rest
  | _ => none

theorem unescape_unicodeEscape {c : Char} (small : c.toNat < 65536) (rest : Text) :
    unescape ((unicodeEscape c).tail ++ rest) = some (c, rest) := by
  have digit : ∀ k, hexValue (hexDigit (k % 16)) = some (k % 16) := fun k =>
    hexValue_hexDigit ⟨k % 16, Nat.mod_lt _ (by norm_num)⟩
  have whole : c.toNat / 4096 % 16 * 4096 + c.toNat / 256 % 16 * 256 + c.toNat / 16 % 16 * 16 +
      c.toNat % 16 = c.toNat := by
    omega
  have valid : c.toNat.isValidChar := c.valid
  simp only [unescape, unicodeEscape, List.tail_cons, List.cons_append, List.nil_append, if_true,
    digit, Option.bind_eq_bind, Option.bind_some, whole, if_pos valid, Char.ofNat_toNat]

theorem unescape_of_short {c e : Char} (short : shortEscapes.lookup c = some e) (rest : Text) :
    unescape (e :: rest) = some (c, rest) := by
  obtain ⟨before, after, listed, -⟩ := List.lookup_eq_some_iff.mp short
  have member : (c, e) ∈ shortEscapes := by simp [listed]
  simp only [shortEscapes, List.mem_cons, Prod.mk.injEq, List.not_mem_nil, or_false] at member
  rcases member with ⟨rfl, rfl⟩ | ⟨rfl, rfl⟩ | ⟨rfl, rfl⟩ | ⟨rfl, rfl⟩ | ⟨rfl, rfl⟩ | ⟨rfl, rfl⟩ |
    ⟨rfl, rfl⟩ <;> rfl

theorem small_of_isUnicodeEscaped {c : Char} (escaped : isUnicodeEscaped c = true) :
    c.toNat < 65536 := by
  simp only [isUnicodeEscaped, Bool.or_eq_true, decide_eq_true_eq] at escaped
  rcases escaped with ((((control | rfl) | rfl) | rfl) | line) | line
  · omega
  · decide
  · decide
  · decide
  · omega
  · omega

/-- One character is read back from its escaped form. -/
theorem readChars_escapeChar (n : ℕ) (c : Char) (rest : Text) :
    readChars (n + 1) (escapeChar c ++ rest) =
      (readChars n rest).map fun r => (c :: r.1, r.2) := by
  unfold escapeChar
  split
  case h_1 e short =>
    have same := unescape_of_short short rest
    cases h : readChars n rest <;> simp [readChars, same, h]
  case h_2 plain =>
    split
    case isTrue escaped =>
      have same := unescape_unicodeEscape (small_of_isUnicodeEscaped escaped) rest
      simp only [unicodeEscape, List.tail_cons, List.cons_append, List.nil_append] at same
      cases h : readChars n rest <;> simp [readChars, unicodeEscape, same, h]
    case isFalse unescaped =>
      have quote : c ≠ '"' := by
        rintro rfl
        exact absurd plain (by decide)
      have slash : c ≠ '\\' := by
        rintro rfl
        exact absurd plain (by decide)
      have control : ¬ c.toNat < 0x20 := by
        intro control
        exact unescaped (by simp [isUnicodeEscaped, control])
      cases h : readChars n rest <;> simp [readChars, quote, slash, control, h]

theorem readChars_escaped (t rest : Text) {n : ℕ} (enough : t.length < n) :
    readChars n (t.flatMap escapeChar ++ '"' :: rest) = some (t, rest) := by
  induction t generalizing n with
  | nil =>
    obtain ⟨m, rfl⟩ := Nat.exists_eq_add_of_lt enough
    simp [readChars]
  | cons c t ih =>
    obtain ⟨m, rfl⟩ : ∃ m, n = m + 1 := ⟨n - 1, by omega⟩
    rw [List.flatMap_cons, List.append_assoc, readChars_escapeChar,
      ih (by simpa using enough)]
    rfl

theorem length_escapeChar_pos (c : Char) : 0 < (escapeChar c).length := by
  unfold escapeChar
  split
  · simp
  · split <;> simp [unicodeEscape]

theorem length_le_escaped (t : Text) : t.length ≤ (t.flatMap escapeChar).length := by
  induction t with
  | nil => rfl
  | cons c t ih =>
    have := length_escapeChar_pos c
    rw [List.flatMap_cons, List.length_append, List.length_cons]
    omega

theorem readString_printString (t rest : Text) :
    readString (printString t ++ rest) = some (t, rest) := by
  have room : t.length < (t.flatMap escapeChar ++ '"' :: rest).length + 1 := by
    have := length_le_escaped t
    rw [List.length_append]
    omega
  simpa [printString, readString] using readChars_escaped t rest room

/-! ## Lists -/

section Lists

variable {α : Type*} (item : α → Text) (readItem : Text → Option (α × Text)) (close : Char)

/-- The items after the first, and the closing bracket. -/
def printRest : List α → Text
  | [] => [close]
  | a :: as => ',' :: item a ++ printRest as

/-- Items separated by commas, and the closing bracket. -/
def printItems : List α → Text
  | [] => [close]
  | a :: as => item a ++ printRest item close as

def readRest : ℕ → Text → Option (List α × Text)
  | 0, _ => none
  | _, [] => none
  | n + 1, c :: rest =>
    if c = close then some ([], rest)
    else if c = ',' then do
      let (a, rest) ← readItem rest
      let (as, rest) ← readRest n rest
      some (a :: as, rest)
    else none

def readItems : Text → Option (List α × Text)
  | [] => none
  | c :: rest =>
    if c = close then some ([], rest) else do
      let (a, after) ← readItem (c :: rest)
      let (as, after) ← readRest readItem close (after.length + 1) after
      some (a :: as, after)

variable {item readItem close}

/-- What follows an item of a list. -/
def Follows (close : Char) (rest : Text) : Prop := ∃ c t, rest = c :: t ∧ (c = ',' ∨ c = close)

theorem follows_printRest (as : List α) (rest : Text) :
    Follows close (printRest item close as ++ rest) := by
  cases as with
  | nil => exact ⟨close, rest, rfl, .inr rfl⟩
  | cons a as => exact ⟨',', _, rfl, .inl rfl⟩

theorem readRest_printRest (comma : close ≠ ',') (as : List α)
    (law : ∀ a ∈ as, ∀ rest, Follows close rest → readItem (item a ++ rest) = some (a, rest))
    (rest : Text) {n : ℕ} (enough : as.length < n) :
    readRest readItem close n (printRest item close as ++ rest) = some (as, rest) := by
  induction as generalizing n with
  | nil =>
    obtain ⟨m, rfl⟩ := Nat.exists_eq_add_of_lt enough
    simp [readRest, printRest]
  | cons a as ih =>
    obtain ⟨m, rfl⟩ : ∃ m, n = m + 1 := ⟨n - 1, by omega⟩
    rw [List.forall_mem_cons] at law
    have first := law.1 (printRest item close as ++ rest) (follows_printRest as rest)
    have rest_read := ih law.2 (n := m) (by simpa using enough)
    simp [readRest, printRest, comma.symm, first, rest_read]

theorem length_lt_printRest (as : List α) (rest : Text) :
    as.length < (printRest item close as ++ rest).length := by
  induction as with
  | nil => simp [printRest]
  | cons a as ih =>
    rw [List.length_append] at ih
    simp only [printRest, List.length_cons, List.cons_append, List.length_append]
    omega

/-- **What was printed is read back**, for items that do not start like the closing bracket. -/
theorem readItems_printItems (comma : close ≠ ',') (as : List α)
    (starts : ∀ a ∈ as, ∃ c t, item a = c :: t ∧ c ≠ close)
    (law : ∀ a ∈ as, ∀ rest, Follows close rest → readItem (item a ++ rest) = some (a, rest))
    (rest : Text) :
    readItems readItem close (printItems item close as ++ rest) = some (as, rest) := by
  cases as with
  | nil => simp [readItems, printItems]
  | cons a as =>
    rw [List.forall_mem_cons] at law
    obtain ⟨c, t, first, other⟩ := starts a List.mem_cons_self
    have head := law.1 (printRest item close as ++ rest) (follows_printRest as rest)
    rw [first] at head
    have room : as.length < (printRest item close as ++ rest).length :=
      length_lt_printRest as rest
    have tail := readRest_printRest comma as law.2 rest (Nat.lt_succ_of_lt room)
    rw [List.cons_append] at head
    rw [List.length_append] at tail
    simp [readItems, printItems, first, other, head, tail]

theorem length_le_printRest {a : α} {as : List α} (mem : a ∈ as) :
    (item a).length ≤ (printRest item close as).length := by
  induction as with
  | nil => cases mem
  | cons b as ih =>
    simp only [printRest, List.cons_append, List.length_cons, List.length_append]
    rcases List.mem_cons.mp mem with rfl | later
    · omega
    · exact (ih later).trans (by omega)

/-- A list takes at least the room of each item. -/
theorem length_le_printItems {a : α} {as : List α} (mem : a ∈ as) :
    (item a).length ≤ (printItems item close as).length := by
  cases as with
  | nil => cases mem
  | cons b as =>
    rw [printItems, List.length_append]
    rcases List.mem_cons.mp mem with rfl | later
    · omega
    · exact (length_le_printRest later).trans (Nat.le_add_left _ _)

end Lists

end Json
