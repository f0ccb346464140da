import Aspm.Lib.EarlyReturn
import Aspm.Lib.JsonStruct
import Aspm.Lib.Utf8

/-!
# The verifier

`Verifier.Verify` reads evidence under an approval.  It asks for the approval before it opens the
evidence, before each read, after the evidence is closed and once more after it is decoded, and a
guard that runs beside it may cancel the reading at any moment.

The environment is a sequence of moves, one for each thing the program asks of it: what the lookup
answers, what the reader does, what the clock shows, and whether the caller's context or the guard
has cancelled before.  A context that is cancelled stays so; this is all that is assumed of the
environment.  The number of bytes that `io.ReadAll` offers to a read is left open.
-/

namespace Aspm.Verifier

open Json (Text Datum Member)
open Utf8 (Bytes)
open EarlyReturn

/-! ## Requests and approvals -/

/-- `evidence.Ref`. -/
structure Ref where
  workspaceID : Text
  bucket : Text
  key : Text
  sha256 : Text
  sizeBytes : ℤ
deriving DecidableEq

abbrev Time := ℤ

structure Approval where
  id : Text
  workspaceID : Text
  findingID : Text
  method : Text
  scopeRevision : Text
  environmentID : Text
  evidenceSHA256 : Text
  approved : Bool
  expiresAt : Time
deriving DecidableEq

structure Request where
  workspaceID : Text
  findingID : Text
  runID : Text
  approvalRef : Text
  method : Text
  scopeRevision : Text
  environmentID : Text
  evidence : Ref
deriving DecidableEq

/-- `matches`, when the clock shows `now`. -/
structure Matches (request : Request) (approval : Approval) (now : Time) : Prop where
  approved : approval.approved = true
  current : now < approval.expiresAt
  id : approval.id = request.approvalRef
  workspaceID : approval.workspaceID = request.workspaceID
  findingID : approval.findingID = request.findingID
  method : approval.method = request.method
  scopeRevision : approval.scopeRevision = request.scopeRevision
  environmentID : approval.environmentID = request.environmentID
  evidenceWorkspace : request.evidence.workspaceID = request.workspaceID
  evidence : approval.evidenceSHA256 = request.evidence.sha256

theorem matches_iff {request : Request} {approval : Approval} {now : Time} :
    Matches request approval now ↔
      approval.approved = true ∧ now < approval.expiresAt ∧ approval.id = request.approvalRef ∧
        approval.workspaceID = request.workspaceID ∧ approval.findingID = request.findingID ∧
        approval.method = request.method ∧ approval.scopeRevision = request.scopeRevision ∧
        approval.environmentID = request.environmentID ∧
        request.evidence.workspaceID = request.workspaceID ∧
        approval.evidenceSHA256 = request.evidence.sha256 :=
  ⟨fun ⟨a, b, c, d, e, f, g, h, i, j⟩ => ⟨a, b, c, d, e, f, g, h, i, j⟩,
    fun ⟨a, b, c, d, e, f, g, h, i, j⟩ => ⟨a, b, c, d, e, f, g, h, i, j⟩⟩

instance (request : Request) (approval : Approval) (now : Time) :
    Decidable (Matches request approval now) := decidable_of_iff _ matches_iff.symm

/-! ## Errors -/

/-- The errors that `errors.Is` is asked about. -/
inductive Kind where
  | policy
  | limit
  | format
  | integrity
  | canceled
  | deadlineExceeded
  | evidenceScope
  | other
deriving DecidableEq

/-- An error that is not nil, by the errors it is or wraps. -/
structure Err where
  kinds : List Kind
deriving DecidableEq

def Err.of (kind : Kind) : Err := ⟨[kind]⟩

/-- `errors.Is` -/
def Err.is (e : Err) (kind : Kind) : Bool := kind ∈ e.kinds

/-- `errors.Join`, of two errors. -/
def Err.join (e f : Err) : Err := ⟨e.kinds ++ f.kinds⟩

/-- `errors.Join`, of what may be nil. -/
def joinErrors : Option Err → Option Err → Option Err
  | none, f => f
  | e, none => e
  | some e, some f => some (e.join f)

/-! ## The environment -/

inductive ReadEnd where
  | eof
  | error (e : Err)
deriving DecidableEq

/-- What the environment does between two questions of the program, and what it answers. -/
structure Move where
  /-- The caller's context ends, with this error and this cause. -/
  cancel : Option (Err × Err)
  /-- The guard cancels the access. -/
  denied : Bool
  now : Time
  lookup : Except Err Approval
  /-- `Open`: an error, or a reader, which may be nil. -/
  opened : Except Err Bool
  chunk : Bytes
  readEnd : Option ReadEnd
  closeErr : Option Err

inductive Event where
  /-- The lookup answered with this approval, which matched at this time. -/
  | approved (approval : Approval) (now : Time)
  | opened
  | read (chunk : Bytes)
  | closed
  | decoded
deriving DecidableEq

structure World where
  /-- The number of moves made. -/
  time : ℕ
  /-- The error and the cause of the caller's context. -/
  parent : Option (Err × Err)
  /-- The cause of the access. -/
  access : Option Err
  trace : List Event

/-- A context keeps the first error that it gets. -/
def World.advance (w : World) (m : Move) : World :=
  let parent := w.parent.or m.cancel
  { w with
    time := w.time + 1
    parent := parent
    access := w.access.or ((parent.map Prod.snd).or (if m.denied then some (.of .policy) else none)) }

inductive Outcome where
  | blocked
  | cancelled
  | error
  | reproduced
  | notReproduced
deriving DecidableEq

structure Result where
  outcome : Outcome
  artifacts : List Ref
  error : Option Err
deriving DecidableEq

/-- The program returns a result, with the trace so far, or is still running. -/
abbrev Prog (α : Type) := Program (Option (Result × List Event)) World α

def exit {α : Type} (outcome : Outcome) (error : Option Err) : Prog α :=
  leave fun w => some (⟨outcome, [], error⟩, w.trace)

def exitIf (condition : Bool) (outcome : Outcome) (error : Err) : Prog PUnit :=
  if condition then exit outcome (some error) else pure ⟨⟩

def log (event : Event) : Prog PUnit := update fun w => { w with trace := w.trace ++ [event] }

/-! ## The program -/

/-- The configuration of a verifier that `Open` returned, with the functions it depends on: the digest of bytes, and
the reading of bytes as one JSON value with nothing after it. -/
structure Config (ν : Type) where
  maxBytes : ℕ
  digest : Bytes → Text
  parse : Bytes → Option (Datum ν)
  maxBytes_pos : 1 ≤ maxBytes
  maxBytes_le : maxBytes ≤ 16777216

structure Fixture where
  schema : Text
  environmentID : Text
  condition : Option Bool

def fixtureMembers (ν : Type) : List (Member ν Fixture) :=
  [{ name := "schema".toList
     assign := fun v s => (Json.stringField v s.schema).map fun t => { s with schema := t } },
   { name := "environmentId".toList
     assign := fun v s =>
      (Json.stringField v s.environmentID).map fun t => { s with environmentID := t } },
   { name := "condition".toList
     assign := fun v s => (Json.boolPointer v).map fun b => { s with condition := b } }]

def decodeFixture {ν : Type} (v : Datum ν) : Option Fixture :=
  Json.decodeStruct (fixtureMembers ν) true ⟨[], [], none⟩ v

section Program

variable {ν : Type} (v : Config ν) (env : ℕ → Move) (request : Request)

/-- One move of the environment. -/
def tick : Prog Move := fun w => .ok (env w.time, w.advance (env w.time))

/-- `ctx.Err()` -/
def ctxErr : Prog (Option Err) := do
  let _ ← tick env
  read fun w => w.parent.map Prod.fst

/-- `context.Cause(access)` -/
def accessCause : Prog (Option Err) := do
  let _ ← tick env
  read fun w => w.access

/-- `cancelAccess` -/
def cancelAccess (e : Err) : Prog PUnit := update fun w => { w with access := w.access.or (some e) }

/-- Leave if the caller's context has ended. -/
def cancelledCheck : Prog PUnit := do
  match ← ctxErr env with
  | none => pure ⟨⟩
  | some _ => do
    let e ← ctxErr env
    exit .cancelled e

/-- `matches`, of an answer. -/
def matchApproval (approval : Approval) : Prog Bool := do
  let m ← tick env
  if Matches request approval m.now then do
    log (.approved approval m.now)
    pure true
  else pure false

/-- `current` -/
def current : Prog (Option Err) := do
  match ← accessCause env with
  | some e => pure (some e)
  | none => do
    let m ← tick env
    match ← accessCause env with
    | some e => pure (some e)
    | none =>
      match m.lookup with
      | .error _ => pure (some (.of .policy))
      | .ok approval => do
        let isMatch ← matchApproval env request approval
        pure (if isMatch then none else some (.of .policy))

def boundaryOutcome (e : Err) : Outcome :=
  if e.is .canceled || e.is .deadlineExceeded then .cancelled
  else if e.is .evidenceScope then .blocked
  else .error

/-- Return what `accessFailure` makes of an error. -/
def accessFailure {α : Type} (e : Err) : Prog α := do
  match ← ctxErr env with
  | some _ => do
    let e ← ctxErr env
    exit .cancelled e
  | none => do
    let cause ← accessCause env
    if cause.any (·.is .policy) || e.is .policy then exit .blocked (some (.of .policy))
    else do
      let cause ← accessCause env
      if cause.any (·.is .limit) || e.is .limit then exit .blocked (some (.of .limit))
      else do
        match ← accessCause env with
        | some cause => exit (boundaryOutcome cause) (some (cause.join e))
        | none => exit (boundaryOutcome e) (some e)

/-- Go on unless there is an error. -/
def exitOn : Option Err → Prog PUnit
  | none => pure ⟨⟩
  | some e => accessFailure env e

/-- `io.ReadAll` of the limited, authorised reader; the fuel bounds the number of reads. -/
def readAll : ℕ → Bytes → Prog (Bytes × Option Err)
  | 0, _ => leave fun _ => none
  | fuel + 1, data =>
    if v.maxBytes + 1 ≤ data.length then pure (data, none)
    else do
      match ← current env request with
      | some e => do
        cancelAccess e
        pure (data, some e)
      | none => do
        let m ← tick env
        let chunk := m.chunk.take (v.maxBytes + 1 - data.length)
        log (.read chunk)
        match m.readEnd with
        | none => readAll fuel (data ++ chunk)
        | some .eof => pure (data ++ chunk, none)
        | some (.error e) => pure (data ++ chunk, some e)

def incomplete : Bool :=
  request.method ≠ "deterministic-evidence".toList || request.approvalRef = [] ||
    request.workspaceID = [] || request.findingID = [] || request.runID = [] ||
    request.environmentID = [] || request.scopeRevision = []

/-- The first lookup. -/
def firstApproval : Prog PUnit := do
  let m ← tick env
  cancelledCheck env
  match m.lookup with
  | .error e =>
    if e.is .canceled || e.is .deadlineExceeded then exit .cancelled (some e)
    else exit .blocked (some (.of .policy))
  | .ok approval => do
    let isMatch ← matchApproval env request approval
    exitIf (!isMatch) .blocked (.of .policy)

/-- `Evidence.Open`, under the guard's context. -/
def openEvidence : Prog PUnit := do
  update fun w => { w with access := w.parent.map Prod.snd }
  let m ← tick env
  match m.opened with
  | .error e => accessFailure env e
  | .ok false => exit .error (some (.of .other))
  | .ok true => log .opened

/-- The access ends with a failed read and with too much data. -/
def endAccess (data : Bytes) : Option Err → Prog PUnit
  | some e => cancelAccess e
  | none => if v.maxBytes < data.length then cancelAccess (.of .limit) else pure ⟨⟩

/-- Read and close. -/
def readEvidence (fuel : ℕ) : Prog Bytes := do
  let (data, readErr) ← readAll v env request fuel []
  endAccess v data readErr
  let m ← tick env
  log .closed
  cancelledCheck env
  exitOn env (joinErrors readErr m.closeErr)
  pure data

/-- The fixture in the bytes, if it is one for this request. -/
def readFixture (data : Bytes) : Option Bool := do
  let fixture ← (v.parse data).bind decodeFixture
  if fixture.schema = "aspm.synthetic-fixture/v1".toList ∧
      fixture.environmentID = request.environmentID then fixture.condition
  else none

def checkFixture (data : Bytes) : Prog Bool := do
  exitIf (v.maxBytes < data.length) .blocked (.of .limit)
  exitIf ((data.length : ℤ) ≠ request.evidence.sizeBytes ||
    v.digest data ≠ request.evidence.sha256) .error (.of .integrity)
  match readFixture v request data with
  | none => exit .error (some (.of .format))
  | some condition => do
    log .decoded
    pure condition

/-- Go on if the approval is still current. -/
def stillCurrent : Prog PUnit := do
  let e ← current env request
  exitOn env e

def verifyProgram (fuel : ℕ) : Prog Result := do
  cancelledCheck env
  exitIf (incomplete request) .blocked (.of .policy)
  exitIf (request.evidence.sizeBytes < 0 || (v.maxBytes : ℤ) < request.evidence.sizeBytes) .blocked
    (.of .limit)
  firstApproval env request
  cancelledCheck env
  openEvidence env
  let data ← readEvidence v env request fuel
  stillCurrent env request
  let condition ← checkFixture v request data
  cancelledCheck env
  stillCurrent env request
  pure ⟨if condition then .reproduced else .notReproduced, [request.evidence], none⟩

/-- `Verify`: the result and what happened, unless the reads outlast the fuel. -/
def verify (fuel : ℕ) : Option (Result × List Event) :=
  match verifyProgram v env request fuel ⟨0, none, none, []⟩ with
  | .ok (result, w) => some (result, w.trace)
  | .error e => e

end Program

end Aspm.Verifier
