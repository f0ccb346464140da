import Aspm.Lib.Utf8

/-!
# The text that a user consents to

`assessmentContextText.UnmarshalJSON` decodes a JSON string and then reads its bytes once more, to
refuse what the decoder repairs: an escape for one half of a surrogate pair, which the decoder
replaces.

A literal is a list of pieces, each a plain character or an escape.  `scan` is the loop over the
bytes, with an index that jumps; reading at an index outside of the bytes has an outcome of its own.
What a literal denotes is given without the decoder: a reading of its pieces as characters, where
an escape in the range of surrogates occurs in a pair only (`Denotes`).
-/

namespace Aspm.Assessment

open Json (Text hexValue)
open Utf8 (Bytes encode)

variable {rest data : Bytes} {b : UInt8} {i : ℕ}

/-! ## Literals -/

abbrev HexDigit := { c : Char // (hexValue c).isSome = true }

def HexDigit.value (d : HexDigit) : ℕ := (hexValue d.val).getD 0

/-- The four digits of `\uXXXX`. -/
structure Code where
  a : HexDigit
  b : HexDigit
  c : HexDigit
  d : HexDigit

namespace Code

def value (u : Code) : ℕ :=
  u.a.value * 4096 + u.b.value * 256 + u.c.value * 16 + u.d.value

def digits (u : Code) : Text := [u.a.val, u.b.val, u.c.val, u.d.val]

/-- The first half of a pair. -/
def high (u : Code) : Bool := 0xd800 ≤ u.value && u.value ≤ 0xdbff

/-- The second half of a pair. -/
def low (u : Code) : Bool := 0xdc00 ≤ u.value && u.value ≤ 0xdfff

def surrogate (u : Code) : Bool := u.high || u.low

end Code

inductive ShortEscape where
  | quote
  | backslash
  | slash
  | backspace
  | formFeed
  | newline
  | carriageReturn
  | tab
deriving DecidableEq

/-- The letter after the backslash. -/
def ShortEscape.letter : ShortEscape → Char
  | .quote => '"'
  | .backslash => '\\'
  | .slash => '/'
  | .backspace => 'b'
  | .formFeed => 'f'
  | .newline => 'n'
  | .carriageReturn => 'r'
  | .tab => 't'

def ShortEscape.char : ShortEscape → Char
  | .quote => '"'
  | .backslash => '\\'
  | .slash => '/'
  | .backspace => '\x08'
  | .formFeed => '\x0c'
  | .newline => '\n'
  | .carriageReturn => '\r'
  | .tab => '\t'

/-- The characters that stand for themselves. -/
abbrev PlainChar := { c : Char // c ≠ '"' ∧ c ≠ '\\' ∧ 0x20 ≤ c.toNat }

inductive Piece where
  | plain (c : PlainChar)
  | short (e : ShortEscape)
  | unicode (u : Code)

def Piece.text : Piece → Text
  | .plain c => [c.val]
  | .short e => ['\\', e.letter]
  | .unicode u => '\\' :: 'u' :: u.digits

/-- The pieces between their quotes. -/
def literal (pieces : List Piece) : Text := '"' :: (pieces.flatMap Piece.text ++ ['"'])

/-! ## The decoder -/

def HexDigit.read (c : Char) : Option HexDigit :=
  if isDigit : (hexValue c).isSome = true then some ⟨c, isDigit⟩ else none

def Code.read (a b c d : Char) : Option Code := do
  return ⟨← HexDigit.read a, ← HexDigit.read b, ← HexDigit.read c, ← HexDigit.read d⟩

def ShortEscape.read : Char → Option ShortEscape
  | '"' => some .quote
  | '\\' => some .backslash
  | '/' => some .slash
  | 'b' => some .backspace
  | 'f' => some .formFeed
  | 'n' => some .newline
  | 'r' => some .carriageReturn
  | 't' => some .tab
  | _ => none

def PlainChar.read (c : Char) : Option PlainChar :=
  if isPlain : c ≠ '"' ∧ c ≠ '\\' ∧ 0x20 ≤ c.toNat then some ⟨c, isPlain⟩ else none

/-- White space of JSON. -/
def blank (c : Char) : Bool := c == ' ' || c == '\t' || c == '\r' || c == '\n'

/-- The scanner of `encoding/json`, after the opening quote: the pieces before the closing one. -/
def readPieces : Text → Option (List Piece)
  | [] => none
  | '"' :: rest => if rest.all blank then some [] else none
  | '\\' :: 'u' :: a :: b :: c :: d :: rest => do
    return .unicode (← Code.read a b c d) :: (← readPieces rest)
  | '\\' :: letter :: rest => do
    return .short (← ShortEscape.read letter) :: (← readPieces rest)
  | c :: rest => do
    return .plain (← PlainChar.read c) :: (← readPieces rest)

/-- `utf16.DecodeRune`, of a pair. -/
def combine (u v : Code) : Char :=
  Char.ofNat (0x10000 + (u.value - 0xd800) * 0x400 + (v.value - 0xdc00))

def replacement : Char := Char.ofNat 0xfffd

/-- What `json.Unmarshal` makes of the pieces; half a pair is replaced. -/
def unquote : List Piece → Text
  | [] => []
  | .plain c :: rest => c.val :: unquote rest
  | .short e :: rest => e.char :: unquote rest
  | .unicode u :: rest =>
    if u.surrogate then
      match rest with
      | .unicode v :: after =>
        if u.high && v.low then combine u v :: unquote after
        else replacement :: unquote (.unicode v :: after)
      | rest => replacement :: unquote rest
    else Char.ofNat u.value :: unquote rest

/-! ## The loop -/

inductive Outcome where
  | accepted
  | invalid
  /-- The program would panic. -/
  | outOfBounds
deriving DecidableEq

/-- `data[from:to]`. -/
def slice (data : Bytes) (start stop : ℕ) : Option Bytes :=
  if stop ≤ data.length then some ((data.drop start).take (stop - start)) else none

def hexByte (b : UInt8) : Option ℕ := hexValue (Char.ofNat b.toNat)

/-- `strconv.ParseUint(digits, 16, 16)`, of at most four digits. -/
def parseUint (digits : Bytes) : Option ℕ :=
  match digits with
  | [] => none
  | digits => digits.foldlM (fun n b => (hexByte b).map (n * 16 + ·)) 0

/-- The loop, from the index `i`. -/
def scan (data : Bytes) (i : ℕ) : Outcome :=
  if i < data.length - 1 then
    match data[i]? with
    | none => .outOfBounds
    | some byte =>
      if byte ≠ 92 then scan data (i + 1)
      else match data[i + 1]? with
        | none => .outOfBounds
        | some escape =>
          if escape ≠ 117 then scan data (i + 2)
          else match slice data (i + 2) (i + 6) with
            | none => .outOfBounds
            | some digits =>
              match parseUint digits with
              | none => .invalid
              | some code =>
                if 0xdc00 ≤ code ∧ code ≤ 0xdfff then .invalid
                else if 0xd800 ≤ code ∧ code ≤ 0xdbff then
                  if data.length ≤ i + 11 then .invalid
                  else match data[i + 6]?, data[i + 7]? with
                    | some slash, some letter =>
                      if slash ≠ 92 ∨ letter ≠ 117 then .invalid
                      else match slice data (i + 8) (i + 12) with
                        | none => .outOfBounds
                        | some digits =>
                          match parseUint digits with
                          | none => .invalid
                          | some low =>
                            if low < 0xdc00 ∨ 0xdfff < low then .invalid
                            else scan data (i + 12)
                    | _, _ => .outOfBounds
                else scan data (i + 6)
  else .accepted
termination_by data.length - i

/-- The result of `UnmarshalJSON`: the stored text, or why there is none. -/
inductive Result where
  | stored (text : Text)
  | invalid
  | outOfBounds
deriving DecidableEq

/-- `json.Unmarshal(data, &value)`, of a text that starts with a quote. -/
def unmarshal : Text → Option Text
  | '"' :: rest => (readPieces rest).map unquote
  | _ => none

/-- `UnmarshalJSON`, of the bytes of a text. -/
def unmarshalJSON (text : Text) : Result :=
  let data := encode text
  if data.length < 2 ∨ data[0]? ≠ some 34 then .invalid
  else match unmarshal text with
    | none => .invalid
    | some value => match scan data 1 with
      | .accepted => .stored value
      | .invalid => .invalid
      | .outOfBounds => .outOfBounds

/-! ## What a literal denotes -/

/-- One character of the text, as it is written. -/
inductive Written where
  | plain (c : PlainChar)
  | short (e : ShortEscape)
  | unicode (u : Code) (alone : u.surrogate = false)
  | pair (u v : Code) (high : u.high = true) (low : v.low = true)

def Written.pieces : Written → List Piece
  | .plain c => [.plain c]
  | .short e => [.short e]
  | .unicode u _ => [.unicode u]
  | .pair u v _ _ => [.unicode u, .unicode v]

def Written.char : Written → Char
  | .plain c => c.val
  | .short e => e.char
  | .unicode u _ => Char.ofNat u.value
  | .pair u v _ _ => combine u v

/-- The pieces are a text: each is a character of it or, if it is half a surrogate pair, stands next
to the other half. -/
def Denotes (pieces : List Piece) (text : Text) : Prop :=
  ∃ written : List Written, written.flatMap Written.pieces = pieces ∧
    written.map Written.char = text

/-! ## The decoder reads literals -/

@[simp] theorem HexDigit.read_val (d : HexDigit) : HexDigit.read d.val = some d := dif_pos d.property

@[simp] theorem PlainChar.read_val (c : PlainChar) : PlainChar.read c.val = some c :=
  dif_pos c.property

@[simp] theorem Code.read_digits (u : Code) :
    Code.read u.a.val u.b.val u.c.val u.d.val = some u := by
  simp [Code.read]

@[simp] theorem ShortEscape.read_letter (e : ShortEscape) : ShortEscape.read e.letter = some e := by
  cases e <;> rfl

theorem ShortEscape.letter_ne_u (e : ShortEscape) : e.letter ≠ 'u' := by
  cases e <;> decide

theorem readPieces_text (pieces : List Piece) :
    readPieces (pieces.flatMap Piece.text ++ ['"']) = some pieces := by
  induction pieces with
  | nil => rfl
  | cons piece rest ih =>
    cases piece with
    | plain c =>
      have notQuote := c.property.1
      have notSlash := c.property.2.1
      rw [List.flatMap_cons]
      simp only [Piece.text, List.cons_append, List.nil_append]
      rw [readPieces]
      · simp [ih]
      · exact notQuote
      · intro a b c d rest slash
        exact absurd slash notSlash
      · intro letter rest slash
        exact absurd slash notSlash
    | short e =>
      simp only [List.flatMap_cons, Piece.text, List.cons_append, List.nil_append]
      rw [readPieces]
      · simp [ih]
      · intro a b c d rest eq
        exact absurd eq e.letter_ne_u
    | unicode u =>
      simp only [List.flatMap_cons, Piece.text, Code.digits, List.cons_append, List.nil_append]
      rw [readPieces]
      simp [ih]

theorem unmarshal_literal (pieces : List Piece) :
    unmarshal (literal pieces) = some (unquote pieces) := by
  change (readPieces _).map unquote = _
  rw [readPieces_text]
  rfl

/-! ## The loop, one piece at a time

The state of the loop is what is left of the bytes at its index. -/

section Bytes

theorem getElem?_of_drop (here : data.drop i = rest) (k : ℕ) : data[i + k]? = rest[k]? := by
  rw [← here, List.getElem?_drop]

theorem drop_of_drop (first : Bytes) (here : data.drop i = first ++ rest) :
    data.drop (i + first.length) = rest := by
  rw [← List.drop_drop, here, List.drop_left]

theorem length_of_drop (here : data.drop i = b :: rest) : data.length = i + 1 + rest.length := by
  have length : data.length - i = rest.length + 1 := by rw [← List.length_drop, here]; rfl
  omega

theorem slice_of_drop (here : data.drop i = b :: rest) {k : ℕ} (within : k + 4 ≤ rest.length + 1) :
    slice data (i + k) (i + (k + 4)) = some (((b :: rest).drop k).take 4) := by
  have length := length_of_drop here
  unfold slice
  rw [if_pos (by omega), ← List.drop_drop, here, show i + (k + 4) - (i + k) = 4 by omega]

/-- At the closing quote the loop ends. -/
theorem scan_end (here : data.drop i = [34]) : scan data i = .accepted := by
  have length := length_of_drop here
  rw [scan, if_neg (by simp only [length, List.length_nil]; omega)]

theorem scan_plain (here : data.drop i = b :: rest) (other : b ≠ 92) (more : rest ≠ []) :
    scan data i = scan data (i + 1) := by
  have length := length_of_drop here
  have positive := List.length_pos_iff.mpr more
  have byte : data[i]? = some b := getElem?_of_drop here 0
  conv_lhs => rw [scan]
  rw [if_pos (by omega)]
  simp only [byte, if_pos other]

theorem scan_short {escape : UInt8} (here : data.drop i = 92 :: escape :: rest)
    (other : escape ≠ 117) : scan data i = scan data (i + 2) := by
  have length := length_of_drop here
  have byte : data[i]? = some 92 := getElem?_of_drop here 0
  have letter : data[i + 1]? = some escape := getElem?_of_drop here 1
  conv_lhs => rw [scan]
  rw [if_pos (by rw [length, List.length_cons]; omega)]
  simp only [byte, letter, ne_eq, not_true_eq_false, if_false, if_pos other]

section Unicode

variable {a c d : UInt8} {code : ℕ}

/-- What the loop does at an escape of four digits, up to the choice by their value. -/
theorem scan_unicode (here : data.drop i = 92 :: 117 :: a :: b :: c :: d :: rest)
    (value : parseUint [a, b, c, d] = some code) :
    scan data i =
      if 0xdc00 ≤ code ∧ code ≤ 0xdfff then .invalid
      else if 0xd800 ≤ code ∧ code ≤ 0xdbff then
        if rest.length ≤ 5 then .invalid
        else match (rest[0]? : Option UInt8), (rest[1]? : Option UInt8) with
          | some slash, some letter =>
            if slash ≠ 92 ∨ letter ≠ 117 then .invalid
            else match parseUint ((rest.drop 2).take 4) with
              | none => .invalid
              | some low => if low < 0xdc00 ∨ 0xdfff < low then .invalid else scan data (i + 12)
          | _, _ => .outOfBounds
      else scan data (i + 6) := by
  have length := length_of_drop here
  simp only [List.length_cons] at length
  have byte : data[i]? = some 92 := getElem?_of_drop here 0
  have letter : data[i + 1]? = some 117 := getElem?_of_drop here 1
  have slash : data[i + 6]? = rest[0]? := getElem?_of_drop here 6
  have second : data[i + 7]? = rest[1]? := getElem?_of_drop here 7
  have digits : slice data (i + 2) (i + 6) = some [a, b, c, d] := by
    rw [show i + 6 = i + (2 + 4) from rfl, slice_of_drop here (by simp)]
    rfl
  have short : data.length ≤ i + 11 ↔ rest.length ≤ 5 := by omega
  conv_lhs => rw [scan]
  rw [if_pos (by omega)]
  simp only [byte, letter, digits, value, slash, second, short, ne_eq, not_true_eq_false, if_false]
  by_cases long : rest.length ≤ 5
  · simp only [if_pos long]
  · have lowDigits : slice data (i + 8) (i + 12) = some ((rest.drop 2).take 4) := by
      rw [show i + 12 = i + (8 + 4) from rfl, slice_of_drop here (by simp; omega)]
      rfl
    simp only [lowDigits]

theorem scan_low (here : data.drop i = 92 :: 117 :: a :: b :: c :: d :: rest)
    (value : parseUint [a, b, c, d] = some code) (low : 0xdc00 ≤ code ∧ code ≤ 0xdfff) :
    scan data i = .invalid := by
  rw [scan_unicode here value, if_pos low]

theorem scan_alone (here : data.drop i = 92 :: 117 :: a :: b :: c :: d :: rest)
    (value : parseUint [a, b, c, d] = some code) (notLow : ¬ (0xdc00 ≤ code ∧ code ≤ 0xdfff))
    (notHigh : ¬ (0xd800 ≤ code ∧ code ≤ 0xdbff)) : scan data i = scan data (i + 6) := by
  rw [scan_unicode here value, if_neg notLow, if_neg notHigh]

/-- Nothing but another escape of four digits may follow the first half of a pair. -/
theorem scan_lone (here : data.drop i = 92 :: 117 :: a :: b :: c :: d :: rest)
    (value : parseUint [a, b, c, d] = some code) (high : 0xd800 ≤ code ∧ code ≤ 0xdbff)
    (lone : rest[0]? ≠ some 92 ∨ rest[1]? ≠ some 117) : scan data i = .invalid := by
  rw [scan_unicode here value, if_neg (by omega), if_pos high]
  split
  · rfl
  · next long =>
    match rest, long, lone with
    | slash :: letter :: _, _, lone =>
      simp only [List.getElem?_cons_zero, List.getElem?_cons_succ, ne_eq, Option.some.injEq] at lone ⊢
      rw [if_pos lone]
    | [_], long, _ => exact absurd (by simp) long
    | [], long, _ => exact absurd (by simp) long

theorem scan_pair {e f g h : UInt8} {after : Bytes} {second : ℕ}
    (here : data.drop i = 92 :: 117 :: a :: b :: c :: d :: 92 :: 117 :: e :: f :: g :: h :: after)
    (value : parseUint [a, b, c, d] = some code) (high : 0xd800 ≤ code ∧ code ≤ 0xdbff)
    (follows : parseUint [e, f, g, h] = some second) :
    scan data i =
      if 0xdc00 ≤ second ∧ second ≤ 0xdfff then scan data (i + 12) else .invalid := by
  rw [scan_unicode here value, if_neg (by omega), if_pos high, if_neg (by simp)]
  simp only [List.getElem?_cons_zero, List.getElem?_cons_succ, ne_eq, not_true_eq_false, or_self,
    if_false, List.drop_succ_cons, List.drop_zero, List.take_succ_cons, List.take_zero, follows]
  by_cases low : 0xdc00 ≤ second ∧ second ≤ 0xdfff
  · rw [if_pos low, if_neg (by omega)]
  · rw [if_neg low, if_pos (by omega)]

end Unicode

end Bytes

/-! ## The bytes of a piece -/

/-- The byte of a character of ASCII. -/
def asciiByte (c : Char) : UInt8 := UInt8.ofNat c.toNat

theorem encode_cons_ascii {c : Char} (ascii : c.toNat ≤ 127) (text : Text) :
    encode (c :: text) = asciiByte c :: encode text := by
  change String.utf8EncodeChar c ++ encode text = _
  rw [Utf8.utf8EncodeChar_ascii ascii]
  rfl

theorem HexDigit.toNat_le (d : HexDigit) : d.val.toNat ≤ 127 := by
  obtain ⟨c, isDigit⟩ := d
  have digit (upper : Char) (small : upper.toNat ≤ 127) (le : c ≤ upper) : c.toNat ≤ 127 :=
    le_trans (UInt32.le_iff_toNat_le.mp le) small
  unfold hexValue at isDigit
  split at isDigit
  · next range => exact digit '9' (by decide) range.2
  · split at isDigit
    · next range => exact digit 'f' (by decide) range.2
    · split at isDigit
      · next range => exact digit 'F' (by decide) range.2
      · simp at isDigit

theorem HexDigit.hexByte_val (d : HexDigit) : hexByte (asciiByte d.val) = some d.value := by
  have small := d.toNat_le
  have byte : (asciiByte d.val).toNat = d.val.toNat := by
    rw [asciiByte, UInt8.toNat_ofNat']
    exact Nat.mod_eq_of_lt (by omega)
  obtain ⟨value, digit⟩ := Option.isSome_iff_exists.mp d.property
  rw [hexByte, byte, Char.ofNat_toNat, HexDigit.value, digit]
  rfl

namespace Code

variable (u : Code)

theorem encode_unicode (text : Text) :
    encode (Piece.text (.unicode u) ++ text) =
      92 :: 117 :: asciiByte u.a.val :: asciiByte u.b.val :: asciiByte u.c.val ::
        asciiByte u.d.val :: encode text := by
  simp only [Piece.text, digits, List.cons_append, List.nil_append]
  rw [encode_cons_ascii (by decide), encode_cons_ascii (by decide), encode_cons_ascii u.a.toNat_le,
    encode_cons_ascii u.b.toNat_le, encode_cons_ascii u.c.toNat_le, encode_cons_ascii u.d.toNat_le]
  rfl

theorem parseUint_digits :
    parseUint [asciiByte u.a.val, asciiByte u.b.val, asciiByte u.c.val, asciiByte u.d.val] =
      some u.value := by
  simp only [parseUint, List.foldlM_cons, List.foldlM_nil, HexDigit.hexByte_val, Option.map_some,
    Option.bind_eq_bind, Option.bind_some, Option.pure_def, value]
  congr 1
  omega

theorem low_iff : u.low = true ↔ 0xdc00 ≤ u.value ∧ u.value ≤ 0xdfff := by simp [low]

theorem high_iff : u.high = true ↔ 0xd800 ≤ u.value ∧ u.value ≤ 0xdbff := by simp [high]

end Code

theorem ShortEscape.encode_short (e : ShortEscape) (text : Text) :
    encode (Piece.text (.short e) ++ text) = 92 :: asciiByte e.letter :: encode text := by
  simp only [Piece.text, List.cons_append, List.nil_append]
  rw [encode_cons_ascii (by decide), encode_cons_ascii (by cases e <;> decide)]
  rfl

theorem ShortEscape.byte_ne_u (e : ShortEscape) : asciiByte e.letter ≠ 117 := by
  cases e <;> decide

theorem PlainChar.byte_ne_slash (c : PlainChar) (mem : b ∈ String.utf8EncodeChar c.val) :
    b ≠ 92 := by
  rintro rfl
  rcases Utf8.toNat_of_mem_utf8EncodeChar mem with same | above
  · exact c.property.2.1 (Char.toNat_inj.mp same.symm)
  · exact absurd above (by decide)

/-! ## The loop accepts the paired -/

/-- Every escape in the range of surrogates is in a pair. -/
def paired : List Piece → Bool
  | [] => true
  | .unicode u :: rest =>
    if u.low then false
    else if u.high then
      match rest with
      | .unicode v :: after => v.low && paired after
      | _ => false
    else paired rest
  | _ :: rest => paired rest

/-- The bytes that the loop has in front of it: the pieces, and the closing quote. -/
def ahead (pieces : List Piece) : Bytes := encode (pieces.flatMap Piece.text ++ ['"'])

@[simp] theorem ahead_nil : ahead [] = [34] := rfl

theorem ahead_cons (piece : Piece) (rest : List Piece) :
    ahead (piece :: rest) =
      encode (piece.text ++ (rest.flatMap Piece.text ++ ['"'])) := by
  simp [ahead, List.flatMap_cons]

theorem ahead_plain (c : PlainChar) (rest : List Piece) :
    ahead (.plain c :: rest) = String.utf8EncodeChar c.val ++ ahead rest := ahead_cons _ _

theorem ahead_ne_nil (pieces : List Piece) : ahead pieces ≠ [] := by
  simp [ahead, encode]

/-- The bytes of a plain character are passed one by one. -/
theorem scan_skip {bytes : Bytes} (other : ∀ b ∈ bytes, b ≠ 92) (more : rest ≠ [])
    (here : data.drop i = bytes ++ rest) : scan data i = scan data (i + bytes.length) := by
  induction bytes generalizing i with
  | nil => rfl
  | cons b bytes ih =>
    have next : data.drop (i + 1) = bytes ++ rest := drop_of_drop [b] here
    rw [scan_plain here (other b (by simp)) (by simp [more]),
      ih (fun b mem => other b (by simp [mem])) next, List.length_cons]
    congr 1
    omega

/-- What the loop returns when it has pieces in front of it. -/
def verdict (accepted : Bool) : Outcome := if accepted then .accepted else .invalid

/-- Only an escape of four digits starts as one. -/
theorem ahead_lone {pieces : List Piece} (other : ∀ v after, pieces ≠ .unicode v :: after) :
    (ahead pieces)[0]? ≠ some 92 ∨ (ahead pieces)[1]? ≠ some 117 := by
  match pieces, other with
  | [], _ => exact .inl (by simp)
  | .plain c :: rest, _ =>
    refine .inl ?_
    rw [ahead_plain]
    obtain ⟨b, bytes, eq⟩ := List.exists_cons_of_ne_nil (String.utf8EncodeChar_ne_nil (c := c.val))
    have notSlash := c.byte_ne_slash (b := b) (by simp [eq])
    simpa [eq] using notSlash
  | .short e :: rest, _ =>
    refine .inr ?_
    rw [ahead_cons, e.encode_short]
    simpa using e.byte_ne_u
  | .unicode v :: after, other => exact absurd rfl (other v after)

theorem scan_ahead (pieces : List Piece) (here : data.drop i = ahead pieces) :
    scan data i = verdict (paired pieces) := by
  fun_induction paired pieces generalizing i with
  | case1 => exact scan_end here
  | case2 u rest low =>
    rw [ahead_cons, u.encode_unicode] at here
    exact scan_low here u.parseUint_digits (u.low_iff.mp low)
  | case3 u notLow high v after ih =>
    rw [ahead_cons, u.encode_unicode, List.flatMap_cons, List.append_assoc, v.encode_unicode] at here
    rw [scan_pair here u.parseUint_digits (u.high_iff.mp high) v.parseUint_digits]
    by_cases low : v.low = true
    · rw [if_pos (v.low_iff.mp low), low, Bool.true_and]
      exact ih (drop_of_drop [_, _, _, _, _, _, _, _, _, _, _, _] here)
    · rw [if_neg (mt v.low_iff.mpr low), eq_false_of_ne_true low]
      rfl
  | case4 u notLow high rest other =>
    rw [ahead_cons, u.encode_unicode] at here
    exact scan_lone here u.parseUint_digits (u.high_iff.mp high) (ahead_lone other)
  | case5 u rest notLow notHigh ih =>
    rw [ahead_cons, u.encode_unicode] at here
    rw [scan_alone here u.parseUint_digits (mt u.low_iff.mpr notLow) (mt u.high_iff.mpr notHigh)]
    exact ih (drop_of_drop [_, _, _, _, _, _] here)
  | case6 piece rest other ih =>
    cases piece with
    | plain c =>
      rw [ahead_plain] at here
      rw [scan_skip (fun b mem => c.byte_ne_slash mem) (ahead_ne_nil rest) here]
      exact ih (drop_of_drop _ here)
    | short e =>
      rw [ahead_cons, e.encode_short] at here
      rw [scan_short here e.byte_ne_u]
      exact ih (drop_of_drop [_, _] here)
    | unicode u => exact (other u rfl).elim

/-! ## The paired are what has a meaning -/

theorem Written.unquote_pieces (w : Written) (rest : List Piece) :
    unquote (w.pieces ++ rest) = w.char :: unquote rest := by
  cases w with
  | plain c => rfl
  | short e => rfl
  | unicode u alone =>
    change unquote (.unicode u :: rest) = _
    rw [unquote.eq_def]
    simp only [alone, Bool.false_eq_true, if_false]
    rfl
  | pair u v high low => simp [pieces, char, unquote, Code.surrogate, high, low]

theorem Written.paired_pieces (w : Written) (rest : List Piece) :
    paired (w.pieces ++ rest) = paired rest := by
  cases w with
  | plain c => rfl
  | short e => rfl
  | unicode u alone =>
    obtain ⟨notHigh, notLow⟩ := Bool.or_eq_false_iff.mp alone
    change paired (.unicode u :: rest) = _
    rw [paired.eq_def]
    simp only [notHigh, notLow, Bool.false_eq_true, if_false]
  | pair u v high low =>
    have notLow : u.low = false := by
      have := u.high_iff.mp high
      rw [← Bool.not_eq_true, u.low_iff]
      omega
    simp [pieces, paired, notLow, high, low]

theorem Denotes.cons {pieces : List Piece} {text : Text} (denotes : Denotes pieces text)
    (w : Written) : Denotes (w.pieces ++ pieces) (w.char :: text) := by
  obtain ⟨written, rfl, rfl⟩ := denotes
  exact ⟨w :: written, rfl, rfl⟩

theorem denotes_of_paired {pieces : List Piece} (isPaired : paired pieces = true) :
    Denotes pieces (unquote pieces) := by
  fun_induction paired pieces with
  | case1 => exact ⟨[], rfl, rfl⟩
  | case2 => simp at isPaired
  | case3 u notLow high v after ih =>
    obtain ⟨low, rest⟩ := Bool.and_eq_true_iff.mp isPaired
    have denotes := (ih rest).cons (.pair u v high low)
    rwa [← Written.unquote_pieces] at denotes
  | case4 => simp at isPaired
  | case5 u rest notLow notHigh ih =>
    have alone : u.surrogate = false := by simp [Code.surrogate, notLow, notHigh]
    have denotes := (ih isPaired).cons (.unicode u alone)
    rwa [← Written.unquote_pieces] at denotes
  | case6 piece rest other ih =>
    cases piece with
    | plain c => exact (ih isPaired).cons (.plain c)
    | short e => exact (ih isPaired).cons (.short e)
    | unicode u => exact (other u rfl).elim

theorem denotes_iff (pieces : List Piece) (text : Text) :
    Denotes pieces text ↔ paired pieces = true ∧ unquote pieces = text := by
  constructor
  · rintro ⟨written, rfl, rfl⟩
    induction written with
    | nil => exact ⟨rfl, rfl⟩
    | cons w written ih =>
      rw [List.flatMap_cons, w.paired_pieces, w.unquote_pieces, List.map_cons, ih.2]
      exact ⟨ih.1, rfl⟩
  · rintro ⟨isPaired, rfl⟩
    exact denotes_of_paired isPaired

theorem unmarshalJSON_eq (pieces : List Piece) :
    unmarshalJSON (literal pieces) =
      if paired pieces then .stored (unquote pieces) else .invalid := by
  have bytes : encode (literal pieces) = 34 :: ahead pieces := rfl
  have enough : ¬ (encode (literal pieces)).length < 2 := by
    have := List.length_pos_iff.mpr (ahead_ne_nil pieces)
    rw [bytes, List.length_cons]
    omega
  have first : (encode (literal pieces))[0]? = some 34 := rfl
  have loop : scan (encode (literal pieces)) 1 = verdict (paired pieces) := scan_ahead pieces rfl
  unfold unmarshalJSON
  simp only [enough, first, unmarshal_literal, loop, ne_eq, not_true_eq_false, or_self, if_false]
  cases paired pieces <;> rfl

/-- Consented text is taken as it is written: a literal is stored as what it denotes, one that
denotes nothing is refused, and no index leaves the bytes. -/
theorem unmarshalJSON_literal (pieces : List Piece) :
    (∀ text, unmarshalJSON (literal pieces) = .stored text ↔ Denotes pieces text) ∧
      ((¬ ∃ text, Denotes pieces text) → unmarshalJSON (literal pieces) = .invalid) ∧
      unmarshalJSON (literal pieces) ≠ .outOfBounds := by
  rw [unmarshalJSON_eq]
  refine ⟨fun text => ?_, fun none => ?_, ?_⟩
  · rw [denotes_iff]
    cases paired pieces <;> simp
  · rw [if_neg fun isPaired => none ⟨_, denotes_of_paired isPaired⟩]
  · cases paired pieces <;> simp

end Aspm.Assessment
