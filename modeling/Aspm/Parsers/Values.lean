import Aspm.Lib.Fallible
import Aspm.Lib.Strings
import Aspm.Lib.JsonMeasure
import Aspm.Lib.JsonPrint

/-!
# The values of a report

`internal/parsers` reads a report as a JSON value whose numbers stay as they are written, or
as the records of a CSV file, and turns every result of it into a finding.

The decoders of the standard library are parameters (`Platform`): they say which values and
records stand in the bytes.  `decodeJSON` admits exactly one value, and only if it is bounded.
The functions after it read a value the way the Go code does, where an index that is missing
or of another type reads as the zero value.
-/

namespace Aspm.Parsers

open Json SortedMap Fallible Strings

/-- A JSON value decoded with `UseNumber`. -/
abbrev Value := Datum Numeral

/-- `map[string]any`. -/
abbrev Object := Fields Numeral

inductive Error where
  | unsupported
  | invalid
deriving DecidableEq

inductive Severity where
  | critical
  | high
  | medium
  | low
  | info
deriving DecidableEq

structure Location where
  uri : Text := []
  line : ℤ := 0
deriving DecidableEq

structure Finding where
  identity : Text
  sourceFindingID : Text
  title : Text
  description : Text
  sourceSeverity : Text
  severity : Severity
  impact : Text
  remediation : Text
  evidenceText : Text
  sourceLabel : Text
  location : Location
  unmapped : Object
deriving DecidableEq

structure Mapping where
  sourceFindingID : Text := []
  title : Text := []
  sourceSeverity : Text := []
  sourceLocation : Text := []
  sourceLine : Text := []
  impact : Text := []
  remediation : Text := []
  description : Text := []
deriving DecidableEq

/-- `Mapping.Fields`. -/
def Mapping.fields (m : Mapping) : List Text :=
  [m.sourceFindingID, m.title, m.sourceSeverity, m.sourceLocation,
    m.sourceLine, m.impact, m.remediation, m.description]

/-- What a decoder finds in its input, one item after the other, and whether the input ends
after the last of them; otherwise the next read fails. -/
structure Scan (α : Type) where
  items : List α
  complete : Bool

/-- The decoders and the hash that the parsers use. -/
structure Platform (Bytes : Type) where
  length : Bytes → ℕ
  utf8Valid : Bytes → Bool
  /-- The JSON values as they are written, with all entries of their objects. -/
  json : Bytes → Scan Value
  /-- The records of `csv.Reader`, of any number of fields. -/
  csv : Bytes → Scan (List Text)
  sha256 : Text → List UInt8

def maxFindings : ℕ := 5000

def maxReportBytes : ℕ := 32 <<< 20

def nul : Char := Char.ofNat 0

/-- The text has no NUL character. -/
def Plain (t : Text) : Prop := nul ∉ t

instance (t : Text) : Decidable (Plain t) := inferInstanceAs (Decidable (nul ∉ t))

/-! ## Admitting a value -/

/-- `nodes++`, with the two limits. -/
def enter (depth nodes : ℕ) : Option ℕ :=
  if 64 < depth || 250000 < nodes + 1 then none else some (nodes + 1)

mutual

/-- `bounded`, with the number of nodes before and after. -/
def bounded : Value → ℕ → ℕ → Option ℕ
  | .object fields, depth, nodes => do
    let nodes ← enter depth nodes
    boundedFields fields (depth + 1) nodes
  | .array items, depth, nodes => do
    let nodes ← enter depth nodes
    boundedItems items (depth + 1) nodes
  | .string t, depth, nodes => do
    let nodes ← enter depth nodes
    if Plain t then some nodes else none
  | .number _, depth, nodes => enter depth nodes
  | .bool _, depth, nodes => enter depth nodes
  | .null, depth, nodes => enter depth nodes

def boundedItems : List Value → ℕ → ℕ → Option ℕ
  | [], _, nodes => some nodes
  | v :: rest, depth, nodes => do
    let nodes ← bounded v depth nodes
    boundedItems rest depth nodes

def boundedFields : Object → ℕ → ℕ → Option ℕ
  | [], _, nodes => some nodes
  | (k, v) :: rest, depth, nodes =>
    if Plain k then do
      let nodes ← bounded v depth nodes
      boundedFields rest depth nodes
    else none

end

/-- The first `Decode` reads a value, the second one finds the end of the input. -/
def onlyValue : Scan Value → Option Value
  | ⟨[v], true⟩ => some v
  | _ => none

variable {Bytes : Type}

def decodeJSON (platform : Platform Bytes) (data : Bytes) : Except Error Value := do
  let written ← present .invalid (onlyValue (platform.json data))
  let v := written.decoded
  check .invalid (bounded v 0 0).isSome
  pure v

/-! ## Reading values -/

def obj : Value → Option Object
  | .object fields => some fields
  | _ => none

def array : Value → Option (List Value)
  | .array items => some items
  | _ => none

def str : Value → Text
  | .string t => t
  | _ => []

def scalar : Value → Option Text
  | .string t => some t
  | .number n => some n.text
  | _ => none

/-- `m[key]`, where a missing key and the nil map read as `nil`. -/
def index (m : Option Object) (key : Text) : Value := (m.bind (get key)).getD .null

def field (m : Option Object) (key : String) : Value := index m key.toList

/-- The digits of `strconv.ParseUint` in base ten. -/
def parseUint (t : Text) : Option ℕ :=
  if t ≠ [] && t.all isDigit then some (t.foldl (fun n c => 10 * n + (c.toNat - '0'.toNat)) 0)
  else none

/-- An optional sign before the digits. -/
def parseSigned : Text → Option ℤ
  | '+' :: digits => (parseUint digits).map Int.ofNat
  | '-' :: digits => (parseUint digits).map fun n => -Int.ofNat n
  | digits => (parseUint digits).map Int.ofNat

/-- `strconv.ParseInt(t, 10, 32)`. -/
def parseInt (t : Text) : Option ℤ := do
  let n ← parseSigned t
  if -2 ^ 31 ≤ n && n < 2 ^ 31 then some n else none

def sourceLine (v : Value) : Except Error ℤ :=
  if v = .null || v = .string [] then .ok 0
  else do
    let s ← present .invalid (scalar v)
    let n ← present .invalid (parseInt s)
    check .invalid (0 ≤ n)
    pure n

def text (v : Value) : Text :=
  let m := obj v
  let s := str (field m "text")
  if s ≠ [] then s else str (field m "markdown")

def first (values : List Text) : Text := (values.find? (· ≠ [])).getD []

/-- A copy of the map without the keys. -/
def remaining (m : Option Object) (fields : List Text) : Object := removeAll fields (m.getD [])

/-- `%x`. -/
def hex (bytes : List UInt8) : Text :=
  bytes.flatMap fun b => [hexDigit (b.toNat / 16), hexDigit (b.toNat % 16)]

/-- The digest of the JSON array of the parts. -/
def identity (platform : Platform Bytes) (parts : List Text) : Text :=
  hex (platform.sha256 (Datum.print (.array (parts.map .string))))

/-- `unicode.ToLower`, as far as its results are ASCII letters: besides the capital letters,
the dotted capital I and the Kelvin sign have one. -/
def toLower (c : Char) : Char :=
  if 'A' ≤ c && c ≤ 'Z' then Char.ofNat (c.toNat + 32)
  else if c = Char.ofNat 0x130 then 'i'
  else if c = Char.ofNat 0x212A then 'k'
  else c

def severity (raw : Text) : Severity :=
  let name := (trimSpace raw).map toLower
  if name = "critical".toList then .critical
  else if name ∈ ["high".toList, "error".toList, "3".toList] then .high
  else if name ∈ ["medium".toList, "moderate".toList, "warning".toList, "2".toList] then .medium
  else if name ∈ ["low".toList, "1".toList] then .low
  else .info

/-- `strconv.Itoa`. -/
def itoa (n : ℤ) : Text :=
  if n < 0 then '-' :: Nat.toDigits 10 n.natAbs else Nat.toDigits 10 n.natAbs

/-- `reportadapter.ValidateFinding`; the severity is one of the five by its type. -/
def validateFinding (f : Finding) : Bool :=
  trimSpace f.identity ≠ [] && byteLength f.identity ≤ 4096 &&
    trimSpace f.sourceFindingID ≠ [] && byteLength f.sourceFindingID ≤ 4096 &&
    trimSpace f.title ≠ [] && byteLength f.title ≤ 4096 &&
    byteLength f.sourceSeverity ≤ 4096 && byteLength f.location.uri ≤ 8192 &&
    0 ≤ f.location.line && byteLength f.description ≤ 1 <<< 20 &&
    byteLength f.remediation ≤ 1 <<< 20 && byteLength f.impact ≤ 1 <<< 20 &&
    byteLength f.evidenceText ≤ 1 <<< 20 && byteLength f.sourceLabel ≤ 4096

end Aspm.Parsers
