import Aspm.Lib.JsonDatum

/-!
# The text of a JSON value

A number may be kept as it is written.  `Numeral` is such a number, and `Datum.print` is the
compact text that an encoder writes for a value over numerals, with the keys of an object in
their order.

The first character of a text tells the kind of its value, a string ends at its closing quote,
and everything else ends before the next delimiter.  So a value can be read back, and the text
determines it (`JsonRead`).
-/

namespace Json

/-! ## Numbers as they are written -/

def isDigit (c : Char) : Bool := '0' ≤ c && c ≤ '9'

/-- The characters that occur in numbers. -/
def isNumberChar (c : Char) : Bool := isDigit c || c ∈ ['+', '-', '.', 'e', 'E']

/-- Nothing, or an exponent. -/
def isExponent : Text → Bool
  | [] => true
  | e :: rest =>
    let digits := if rest.head? = some '+' || rest.head? = some '-' then rest.tail else rest
    (e = 'e' || e = 'E') && digits ≠ [] && digits.all isDigit

/-- Nothing, or a fraction, and then an exponent. -/
def isFraction : Text → Bool
  | '.' :: d :: rest => isDigit d && isExponent (rest.dropWhile isDigit)
  | t => isExponent t

/-- The digits before the point: zero, or no leading zero. -/
def isUnsigned : Text → Bool
  | [] => false
  | c :: rest =>
    if c = '0' then isFraction rest
    else isDigit c && isFraction (rest.dropWhile isDigit)

/-- The grammar of numbers. -/
def isNumeral : Text → Bool
  | '-' :: rest => isUnsigned rest
  | t => isUnsigned t

/-- A number as it is written. -/
structure Numeral where
  text : Text
  valid : isNumeral text = true
deriving DecidableEq

/-! ### Natural numbers -/

theorem isDigit_digitChar {n : ℕ} (small : n < 10) : isDigit n.digitChar = true := by
  interval_cases n <;> rfl

/-- The digits of a positive number do not begin with a zero. -/
theorem toDigits_positive {n : ℕ} (positive : 0 < n) :
    ∃ c rest, Nat.toDigits 10 n = c :: rest ∧ c ≠ '0' ∧ isDigit c = true ∧
      rest.all isDigit = true := by
  induction n using Nat.strongRecOn with
  | ind n ih =>
    by_cases small : n < 10
    · refine ⟨n.digitChar, [], Nat.toDigits_of_lt_base small, ?_, isDigit_digitChar small, rfl⟩
      interval_cases n <;> decide
    · obtain ⟨c, rest, digits, nonzero, digit, all⟩ := ih (n / 10) (by omega) (by omega)
      refine ⟨c, rest ++ [(n % 10).digitChar], ?_, nonzero, digit, ?_⟩
      · rw [Nat.toDigits_of_base_le (by norm_num) (by omega), digits, List.cons_append]
      · simp [all, isDigit_digitChar (Nat.mod_lt n (by norm_num : 0 < 10))]

theorem isNumeral_toDigits (n : ℕ) : isNumeral (Nat.toDigits 10 n) = true := by
  rcases Nat.eq_zero_or_pos n with rfl | positive
  · decide
  · obtain ⟨c, rest, digits, nonzero, digit, all⟩ := toDigits_positive positive
    have unsigned : c ≠ '-' := by
      rintro rfl
      cases digit
    have none_left : rest.dropWhile isDigit = [] :=
      List.dropWhile_eq_nil_iff.mpr (List.all_eq_true.mp all)
    rw [digits]
    unfold isNumeral
    split
    · next same => exact absurd (List.cons.inj same).1 unsigned
    · simp [isUnsigned, nonzero, digit, none_left, isFraction, isExponent]

namespace Numeral

def ofNat (n : ℕ) : Numeral := ⟨Nat.toDigits 10 n, isNumeral_toDigits n⟩

/-- A number without a sign, a fraction and an exponent. -/
def toNat? (n : Numeral) : Option ℕ :=
  if n.text.all isDigit then some (Nat.ofDigitChars 10 n.text 0) else none

theorem toNat?_ofNat (n : ℕ) : (ofNat n).toNat? = some n := by
  have digits : (Nat.toDigits 10 n).all isDigit = true := by
    rcases Nat.eq_zero_or_pos n with rfl | positive
    · decide
    · obtain ⟨c, rest, digits, -, digit, all⟩ := toDigits_positive positive
      rw [digits, List.all_cons, digit, all, Bool.and_self]
  show (if (Nat.toDigits 10 n).all isDigit then _ else _) = _
  rw [if_pos digits]
  exact congrArg some Nat.ofDigitChars_ten_toDigits

end Numeral

theorem all_of_dropWhile {p q : Char → Bool} (weaker : ∀ c, p c = true → q c = true) {t : Text}
    (rest : (t.dropWhile p).all q = true) : t.all q = true := by
  rw [← List.takeWhile_append_dropWhile (p := p) (l := t), List.all_append, rest, Bool.and_true,
    List.all_eq_true]
  exact fun c mem => weaker c (List.mem_takeWhile_imp mem)

theorem isNumberChar_of_isDigit (c : Char) (digit : isDigit c = true) : isNumberChar c = true := by
  rw [isNumberChar, digit, Bool.true_or]

theorem all_of_isExponent {t : Text} (valid : isExponent t = true) :
    t.all isNumberChar = true := by
  cases t with
  | nil => rfl
  | cons e rest =>
    simp only [isExponent, Bool.and_eq_true, Bool.or_eq_true, decide_eq_true_eq] at valid
    obtain ⟨⟨marker, -⟩, digits⟩ := valid
    have marked : isNumberChar e = true := by
      rcases marker with rfl | rfl <;> decide
    rw [List.all_cons, marked, Bool.true_and]
    have wide : ∀ {t : Text}, t.all isDigit = true → t.all isNumberChar = true := fun all =>
      List.all_eq_true.mpr fun c mem => isNumberChar_of_isDigit c (List.all_eq_true.mp all c mem)
    cases rest with
    | nil => rfl
    | cons sign rest =>
      simp only [List.head?_cons, Option.some.injEq, List.tail_cons] at digits
      split_ifs at digits with signed
      · have first : isNumberChar sign = true := by
          rcases signed with rfl | rfl <;> decide
        rw [List.all_cons, first, Bool.true_and]
        exact wide digits
      · exact wide digits

theorem all_of_isFraction {t : Text} (valid : isFraction t = true) :
    t.all isNumberChar = true := by
  unfold isFraction at valid
  split at valid
  · next d rest =>
      rw [Bool.and_eq_true] at valid
      rw [List.all_cons, List.all_cons, isNumberChar_of_isDigit d valid.1]
      have others := all_of_dropWhile isNumberChar_of_isDigit (all_of_isExponent valid.2)
      rw [others]
      rfl
  · exact all_of_isExponent valid

theorem all_of_isUnsigned {t : Text} (valid : isUnsigned t = true) :
    t.all isNumberChar = true ∧ ∃ c rest, t = c :: rest ∧ isDigit c = true := by
  cases t with
  | nil => cases valid
  | cons c rest =>
    simp only [isUnsigned] at valid
    split_ifs at valid with zero
    · subst zero
      exact ⟨by rw [List.all_cons, all_of_isFraction valid]; rfl, '0', rest, rfl, by decide⟩
    · rw [Bool.and_eq_true] at valid
      have others := all_of_dropWhile isNumberChar_of_isDigit (all_of_isFraction valid.2)
      refine ⟨?_, c, rest, rfl, valid.1⟩
      rw [List.all_cons, isNumberChar_of_isDigit c valid.1, others]
      rfl

/-- A number consists of its own characters, and starts with a digit or a sign. -/
theorem Numeral.chars (n : Numeral) : n.text.all isNumberChar = true ∧
    ∃ c rest, n.text = c :: rest ∧ (isDigit c = true ∨ c = '-') := by
  obtain ⟨text, valid⟩ := n
  unfold isNumeral at valid
  split at valid
  · next rest =>
      obtain ⟨all, -⟩ := all_of_isUnsigned valid
      exact ⟨by rw [List.all_cons, all]; rfl, '-', rest, rfl, .inr rfl⟩
  · obtain ⟨all, c, rest, split, digit⟩ := all_of_isUnsigned valid
    exact ⟨all, c, rest, split, .inl digit⟩

/-! ## Printing -/

namespace Datum

mutual

def print : Datum Numeral → Text
  | .null => ['n', 'u', 'l', 'l']
  | .bool true => ['t', 'r', 'u', 'e']
  | .bool false => ['f', 'a', 'l', 's', 'e']
  | .number n => n.text
  | .string t => printString t
  | .array items => '[' :: printElements [] items
  | .object fields => '{' :: printMembers [] fields

/-- The items, with the separator before the first one. -/
def printElements : Text → List (Datum Numeral) → Text
  | _, [] => [']']
  | separator, v :: rest => separator ++ (print v ++ printElements [','] rest)

def printMembers : Text → Fields Numeral → Text
  | _, [] => ['}']
  | separator, (k, v) :: rest =>
    separator ++ (printString k ++ ':' :: (print v ++ printMembers [','] rest))

end

/-- The kinds of values that the first character of a text tells apart. -/
inductive Kind where
  | null
  | bool (b : Bool)
  | number
  | string
  | array
  | object
deriving DecidableEq

def kind : Datum Numeral → Kind
  | .null => .null
  | .bool b => .bool b
  | .number _ => .number
  | .string _ => .string
  | .array _ => .array
  | .object _ => .object

def kindOf (c : Char) : Option Kind :=
  if c = 'n' then some .null
  else if c = 't' then some (.bool true)
  else if c = 'f' then some (.bool false)
  else if c = '"' then some .string
  else if c = '[' then some .array
  else if c = '{' then some .object
  else if isDigit c || c = '-' then some .number
  else none

theorem kindOf_number {c : Char} (first : isDigit c = true ∨ c = '-') :
    kindOf c = some .number := by
  rcases first with digit | rfl
  · have other : ∀ d : Char, isDigit d = false → c ≠ d := fun d not same => by
      rw [same, not] at digit
      cases digit
    simp [kindOf, digit, other 'n' (by decide), other 't' (by decide), other 'f' (by decide),
      other '"' (by decide), other '[' (by decide), other '{' (by decide)]
  · decide

/-- **The first character** tells the kind. -/
theorem print_cons (v : Datum Numeral) :
    ∃ c rest, print v = c :: rest ∧ kindOf c = some v.kind := by
  cases v with
  | null => exact ⟨'n', _, rfl, rfl⟩
  | bool b =>
    cases b with
    | true => exact ⟨'t', _, rfl, rfl⟩
    | false => exact ⟨'f', _, rfl, rfl⟩
  | number n =>
    obtain ⟨-, c, rest, split, first⟩ := n.chars
    exact ⟨c, rest, by rw [print, split], kindOf_number first⟩
  | string t => exact ⟨'"', _, rfl, rfl⟩
  | array items => exact ⟨'[', _, by rw [print], rfl⟩
  | object fields => exact ⟨'{', _, by rw [print], rfl⟩

/-! ## Where a number ends -/

/-- The rest of a text after a value: nothing, or a delimiter first. -/
def Delimited (t : Text) : Prop := ∀ c ∈ t.head?, c ∈ [',', ']', '}']

theorem takeWhile_number {n : Numeral} {r : Text} (delimited : Delimited r) :
    (n.text ++ r).takeWhile isNumberChar = n.text := by
  have all := List.all_eq_true.mp n.chars.1
  rw [List.takeWhile_append_of_pos all]
  cases r with
  | nil => simp
  | cons c r =>
    have stops : isNumberChar c = false := by
      have mem := delimited c rfl
      simp only [List.mem_cons, List.not_mem_nil, or_false] at mem
      rcases mem with rfl | rfl | rfl <;> decide
    simp [stops]

end Datum

end Json
