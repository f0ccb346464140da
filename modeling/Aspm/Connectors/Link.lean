import Aspm.Lib.Strings

/-!
# The link to the next page

`nextLink` of the GitHub connector reads the `Link` headers of a page.  It first splits the joined
value at the commas outside of targets and quoted strings, with a state for each, and then splits
each entry at every semicolon.

Below it stands the grammar of RFC 8288: a header is a list of link-values, each with a target and
parameters, and white space where the grammar has it.  `expected` is what the RFC makes of them.
-/

namespace Aspm.Connectors

open Json (Text byteLength)
open Strings

/-! ## The reader -/

inductive LinkError where
  | limit
  | protocol
  | scope
deriving DecidableEq

/-- The variables of the loop over the characters; `current` is `value[start:i]`. -/
structure Scan where
  current : Text
  entries : List Text
  angle : Bool
  quoted : Bool
  escaped : Bool
deriving DecidableEq

def Scan.keep (s : Scan) (ch : Char) : Scan := { s with current := s.current ++ [ch] }

def scanChar (s : Scan) (ch : Char) : Scan :=
  if s.escaped then { s.keep ch with escaped := false }
  else if s.quoted && ch == '\\' then { s.keep ch with escaped := true }
  else if ch = '"' then
    if !s.angle then { s.keep ch with quoted := !s.quoted } else s.keep ch
  else if ch = '<' then
    if !s.quoted then { s.keep ch with angle := true } else s.keep ch
  else if ch = '>' then
    if !s.quoted then { s.keep ch with angle := false } else s.keep ch
  else if ch = ',' then
    if !s.angle && !s.quoted then { s with entries := s.entries ++ [s.current], current := [] }
    else s.keep ch
  else s.keep ch

/-- Outside of targets and quoted strings. -/
def outside (current : Text) (entries : List Text) : Scan := ⟨current, entries, false, false, false⟩

def splitEntries (value : Text) : Except LinkError (List Text) :=
  let s := value.foldl scanChar (outside [] [])
  if s.angle || s.quoted || s.escaped then .error .protocol
  else .ok (s.entries ++ [s.current])

def acceptRelation (candidate next relation : Text) : Except LinkError Text :=
  if relation = "next".toList then
    if next ≠ [] ∧ next ≠ candidate then .error .scope else .ok candidate
  else .ok next

def readParameter (candidate next parameter : Text) : Except LinkError Text :=
  match cut '=' (trimSpace parameter) with
  | none => .ok next
  | some (key, value) =>
    if equalFold key "rel".toList then
      (fields (trimChar '"' value)).foldlM (acceptRelation candidate) next
    else .ok next

def readEntry (next entry : Text) : Except LinkError Text :=
  let entry := trimSpace entry
  if entry = [] then .ok next
  else match cut '>' entry with
    | none => .error .protocol
    | some (before, parameters) =>
      if before.head? ≠ some '<' ∨ before.length < 2 then .error .protocol
      else (split ';' parameters).foldlM (readParameter before.tail) next

def linkLimit : ℕ := 16384

/-- The empty text is the absence of a next page. -/
def nextLink (headers : List Text) : Except LinkError Text := do
  let value := join ',' headers
  if byteLength value > linkLimit then .error .limit
  else
    let entries ← splitEntries value
    entries.foldlM readEntry []

/-! ## Link-values -/

/-- Optional white space. -/
abbrev Ows := { t : Text // ∀ c ∈ t, c = ' ' ∨ c = '\t' }

def Ows.none : Ows := ⟨[], by simp⟩

def tokenChar (c : Char) : Bool := alphanumeric c || c ∈ "!#$%&'*+-.^_`|~".toList

abbrev Token := { t : Text // t ≠ [] ∧ t.all tokenChar = true }

inductive QuotedItem where
  | plain (c : { c : Char // c ≠ '"' ∧ c ≠ '\\' })
  | escaped (c : Char)

def QuotedItem.text : QuotedItem → Text
  | .plain c => [c.val]
  | .escaped c => ['\\', c]

def QuotedItem.char : QuotedItem → Char
  | .plain c => c.val
  | .escaped c => c

inductive ParamValue where
  | token (t : Token)
  | quoted (items : List QuotedItem)

namespace ParamValue

def text : ParamValue → Text
  | .token t => t.val
  | .quoted items => '"' :: (items.flatMap QuotedItem.text ++ ['"'])

/-- What the value stands for. -/
def content : ParamValue → Text
  | .token t => t.val
  | .quoted items => items.map QuotedItem.char

end ParamValue

/-- What follows a name: an equals sign between optional white space, and the value. -/
structure Assigned where
  before : Ows
  after : Ows
  value : ParamValue

structure LinkParam where
  before : Ows
  after : Ows
  name : Token
  assigned : Option Assigned

namespace LinkParam

def assignedText : Option Assigned → Text
  | none => []
  | some a => a.before.val ++ '=' :: (a.after.val ++ a.value.text)

/-- The parameter without the semicolon before it. -/
def body (p : LinkParam) : Text := p.name.val ++ assignedText p.assigned

def text (p : LinkParam) : Text := p.before.val ++ ';' :: (p.after.val ++ p.body)

def isRel (p : LinkParam) : Bool := equalFold p.name.val "rel".toList

/-- The relation types of the value, which spaces separate. -/
def relations (p : LinkParam) : List Text :=
  match p.assigned with
  | none => []
  | some a => (split ' ' a.value.content).filter (· ≠ [])

end LinkParam

structure LinkValue where
  before : Ows
  target : { t : Text // '>' ∉ t }
  params : List LinkParam
  after : Ows

namespace LinkValue

def core (l : LinkValue) : Text := '<' :: (l.target.val ++ '>' :: l.params.flatMap LinkParam.text)

def text (l : LinkValue) : Text := l.before.val ++ l.core ++ l.after.val

/-- Only the first `rel` counts. -/
def relations (l : LinkValue) : List Text :=
  match l.params.find? LinkParam.isRel with
  | none => []
  | some p => p.relations

def isNext (l : LinkValue) : Bool := l.relations.any (equalFold · "next".toList)

end LinkValue

/-- A header: link-values, between commas. -/
def headerText (links : List LinkValue) : Text := join ',' (links.map LinkValue.text)

/-- The targets of the links to the next page. -/
def nextTargets (links : List LinkValue) : List Text :=
  (links.filter LinkValue.isNext).map (·.target.val)

/-- The only target, none, or an error. -/
def expected : List Text → Except LinkError Text
  | [] => .ok []
  | target :: others => if others.all (· == target) then .ok target else .error .scope

/-! ## Where the reader departs from the grammar -/

namespace LinkParam

/-- A `rel` that the reader takes as it is: no white space at its equals sign, no escapes, no white
space but spaces, and no relation type that only differs from `next` in case. -/
structure Simple (p : LinkParam) : Prop where
  tight : ∀ a ∈ p.assigned, a.before.val = [] ∧ a.after.val = []
  literal : ∀ a ∈ p.assigned, '\\' ∉ a.value.text
  spaces : ∀ a ∈ p.assigned, ∀ c ∈ a.value.content, isSpace c = true → c = ' '
  lower : ∀ relation ∈ p.relations, equalFold relation "next".toList = true →
    relation = "next".toList

end LinkParam

namespace LinkValue

structure Simple (l : LinkValue) : Prop where
  target : l.target.val ≠ []
  /-- No value has a semicolon. -/
  unbroken : ∀ p ∈ l.params, ∀ a ∈ p.assigned, ';' ∉ a.value.text
  single : (l.params.filter LinkParam.isRel).length ≤ 1
  rel : ∀ p ∈ l.params, p.isRel = true → p.Simple

end LinkValue

end Aspm.Connectors
