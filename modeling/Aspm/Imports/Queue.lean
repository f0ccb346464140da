import Aspm.Lib.Nullable
import Aspm.Lib.RowTable
import Aspm.Lib.Machine
import Aspm.Reconcile.Model

/-!
# The import queue

The table `imports` as a queue of work, with the statements of the import worker that
move its rows: the two of `claimImport`, the transaction of `reconcile`, and the
updates with which `processImport` records a failure, releases its claim on shutdown or
fails an import whose actor lost permission.  The update of `changeUserRole` that fails
the imports of a demoted member is there as well.

Each statement is one action, and so is the end of a transaction.  A worker that
crashes takes no further action, and its open transaction rolls back.  What a worker
does between two statements (reading the report, parsing it, checking the actor)
decides only which statement it sends next, so a run may contain every statement of
every worker in any order.

A `Claim` is what a worker knows of its lease: any action may be taken with any claim,
also with one that has long been superseded.
-/

namespace Aspm.Imports

open Nullable RowTable
open Reconcile (Time ImportRecord Import Finding AssetContext)

abbrev WorkerID := String

inductive ImportState where
  | queued
  | processing
  | succeeded
  | failed
deriving DecidableEq

/-- The columns of `imports` that describe the report, and those of the queue. -/
structure ImportRow where
  record : ImportRecord
  submittedBy : Option String
  state : ImportState
  observationCount : ℕ
  failureCode : Option String
  failureMessage : Option String
  workerID : Option WorkerID
  fence : ℕ
  attempts : ℕ
  leaseUntil : Option Time
  availableAt : Time
deriving DecidableEq

/-- The lease part of `importRecord`, as `claimImport` returns it. -/
structure Claim (ID : Type) where
  id : ID
  workerID : WorkerID
  fence : ℕ
deriving DecidableEq

def second : Time := 1000000

def importLease : Time := 90 * second

def importAttempts : ℕ := 3

/-- Why `processImport` gives an import up.  Missing evidence is permanent when the
store says that the object is out of scope, not there or not intact. -/
inductive ProcessFailure where
  | evidenceUnavailable (permanent : Bool)
  | invalidReport
  | processingFailed
deriving DecidableEq

namespace ProcessFailure

def code : ProcessFailure → String
  | evidenceUnavailable _ => "evidence-unavailable"
  | invalidReport => "invalid-report"
  | processingFailed => "processing-failed"

def message : ProcessFailure → String
  | evidenceUnavailable _ => "Original report evidence could not be read and verified"
  | invalidReport => "Report does not match the admitted format or exceeds parser limits"
  | processingFailed => "Report processing could not be committed"

def retryable : ProcessFailure → Bool
  | evidenceUnavailable permanent => !permanent
  | invalidReport => false
  | processingFailed => true

end ProcessFailure

/-! ## Conditions and assignments of the statements -/

namespace ImportRow

/-- `WHERE` of the first statement of `claimImport`. -/
def exhausted (now : Time) (row : ImportRow) : Bool :=
  importAttempts ≤ row.attempts &&
    (row.state = .queued ||
      (row.state = .processing && (le row.leaseUntil (some now)).holds))

/-- `WHERE` of the second statement of `claimImport`. -/
def claimable (now : Time) (row : ImportRow) : Bool :=
  row.attempts < importAttempts &&
    ((row.state = .queued && row.availableAt ≤ now) ||
      (row.state = .processing && (le row.leaseUntil (some now)).holds))

/-- The row is processed under this claim. -/
def heldBy {ID : Type} (claim : Claim ID) (row : ImportRow) : Bool :=
  row.workerID = some claim.workerID && row.fence = claim.fence && row.state = .processing

/-- The row is processed under this claim, and the lease lasts beyond `now`. -/
def active {ID : Type} (claim : Claim ID) (now : Time) (row : ImportRow) : Bool :=
  row.heldBy claim && (lt (some now) row.leaseUntil).holds

def failExhausted (row : ImportRow) : ImportRow :=
  { row with
    state := .failed
    workerID := none
    leaseUntil := none
    failureCode := some "attempt-limit"
    failureMessage := some "Import could not complete within its permitted attempts" }

def claim (worker : WorkerID) (now : Time) (row : ImportRow) : ImportRow :=
  { row with
    state := .processing
    workerID := some worker
    fence := row.fence + 1
    attempts := row.attempts + 1
    leaseUntil := some (now + importLease) }

def succeed (count : ℕ) (row : ImportRow) : ImportRow :=
  { row with
    state := .succeeded
    observationCount := count
    failureCode := none
    failureMessage := none
    leaseUntil := none
    workerID := none }

/-- The failure update of `processImport`. -/
def fail (failure : ProcessFailure) (now : Time) (row : ImportRow) : ImportRow :=
  { row with
    state := if failure.retryable && row.attempts < importAttempts then .queued else .failed
    availableAt := now + second * row.attempts
    failureCode := some failure.code
    failureMessage := some failure.message
    workerID := none
    leaseUntil := none }

/-- The shutdown release of `processImport`. -/
def release (row : ImportRow) : ImportRow :=
  { row with state := .queued, workerID := none, leaseUntil := none }

def failRevoked (row : ImportRow) : ImportRow :=
  { row with
    state := .failed
    failureCode := some "authorization-revoked"
    failureMessage := some "Submitting actor no longer has selected-workspace write permission"
    workerID := none
    leaseUntil := none }

/-- The update of `changeUserRole`, which also takes the fence from a running worker. -/
def revoke (row : ImportRow) : ImportRow :=
  { row.failRevoked with fence := row.fence + 1 }

end ImportRow

/-! ## The queue -/

section Queue

variable (ID : Type)

/-- Who holds a row lock: a `reconcile` transaction, with its result once the final
update has run, or a transaction that does not write the columns of the queue. -/
inductive Owner where
  | reconcile (claim : Claim ID) (result : Option (Import × Time))
  | other
deriving DecidableEq

/-- A committed `reconcile` transaction: the claim it carried, the import it wrote and the
time its final update read. -/
structure Commit where
  claim : Claim ID
  imp : Import
  time : Time
deriving DecidableEq

structure Queue where
  table : Table ID ImportRow (Owner ID)
  ids : List ID
  /-- The tables that reconciliation writes. -/
  store : Reconcile.Store
  /-- The committed `reconcile` transactions, first to last. -/
  committed : List (Commit ID)

inductive Action where
  | tick (d : ℕ)
  | enqueue (id : ID) (record : ImportRecord) (submittedBy : Option String)
  | failExhausted
  | claim (worker : WorkerID)
  | check (claim : Claim ID) (time : Time)
  | finalize (id : ID) (findings : List Finding) (asset : AssetContext)
  | commit (id : ID)
  | rollback (id : ID)
  | lockOther (id : ID)
  | fail (claim : Claim ID) (failure : ProcessFailure) (time : Time)
  | release (claim : Claim ID)
  | failRevoked (claim : Claim ID)
  | revoke (id : ID)
deriving DecidableEq

end Queue

namespace Queue

variable {ID : Type} [LinearOrder ID]

def empty (now : Time) : Queue ID where
  table := ⟨now, fun _ => none, fun _ => now, fun _ => none⟩
  ids := []
  store := .empty
  committed := []

def availableAt (q : Queue ID) (id : ID) : Time :=
  ((q.table.rows id).map (·.availableAt)).getD 0

/-- `ORDER BY available_at,id`. -/
def before (q : Queue ID) (a b : ID) : Prop :=
  q.availableAt a < q.availableAt b ∨ (q.availableAt a = q.availableAt b ∧ a ≤ b)

instance (q : Queue ID) : DecidableRel q.before := fun a b => by
  unfold before
  infer_instance

/-- `WHERE … ORDER BY available_at,id FOR UPDATE SKIP LOCKED`. -/
def candidates (q : Queue ID) (condition : ImportRow → Bool) : List ID :=
  (q.ids.filter fun id => (q.table.locks id).isNone &&
    (q.table.rows id).any condition).insertionSort q.before

/-- The rows that the first statement of `claimImport` moves (`LIMIT 100`). -/
def exhausted (q : Queue ID) : List ID :=
  (q.candidates (·.exhausted q.table.now)).take 100

/-- An `UPDATE` of one row, whose condition may have been evaluated at `time`. -/
def updateRow (q : Queue ID) (id : ID) (time : Time) (condition : ImportRow → Bool)
    (set : ImportRow → ImportRow) : Option (Queue ID) :=
  match q.table.locks id, q.table.rows id with
  | none, some row =>
    if q.table.unchangedSince id time && condition row then
      some { q with table := q.table.update [id] set }
    else none
  | _, _ => none

def insertRow (record : ImportRecord) (submittedBy : Option String) (now : Time) : ImportRow where
  record := record
  submittedBy := submittedBy
  state := .queued
  observationCount := 0
  failureCode := none
  failureMessage := none
  workerID := none
  fence := 0
  attempts := 0
  leaseUntil := none
  availableAt := now

/-- `run_id` is unique. -/
def runTaken (q : Queue ID) (runID : Reconcile.RunID) : Bool :=
  q.ids.any fun id => (q.table.rows id).any (·.record.runID = runID)

variable (digestOf : Finding → String)

/-- **One statement, or one end of a transaction.** -/
def step (q : Queue ID) : Action ID → Option (Queue ID)
  | .tick d => some { q with table := q.table.tick d }
  | .enqueue id record submittedBy =>
    if (q.table.rows id).isSome || id ∈ q.ids || q.runTaken record.runID then none
    else some { q with
      table := q.table.insert id (insertRow record submittedBy q.table.now)
      ids := q.ids ++ [id] }
  | .failExhausted => some { q with table := q.table.update q.exhausted ImportRow.failExhausted }
  | .claim worker =>
    match q.candidates (·.claimable q.table.now) with
    | [] => none
    | id :: _ => some { q with table := q.table.update [id] (·.claim worker q.table.now) }
  | .check claim time =>
    -- `FOR UPDATE`, and the transaction goes on only if the claim is active
    match q.table.locks claim.id, q.table.rows claim.id with
    | none, some row =>
      if q.table.unchangedSince claim.id time && row.active claim time then
        some { q with table := q.table.lock (.reconcile claim none) claim.id }
      else none
    | _, _ => none
  | .finalize id findings asset =>
    match q.table.locks id, q.table.rows id with
    | some ⟨.reconcile claim none, _⟩, some row =>
      if row.active claim q.table.now then
        let result : Import × Time := (⟨row.record, findings, asset⟩, q.table.now)
        some { q with
          table := q.table.stage (.reconcile claim (some result)) id
            (row.succeed findings.length) }
      else none
    | _, _ => none
  | .commit id =>
    match q.table.locks id with
    | some ⟨.reconcile claim (some (imp, time)), _⟩ =>
      some { q with
        table := q.table.commit (.reconcile claim (some (imp, time)))
        store := Reconcile.reconcile digestOf q.store imp
        committed := q.committed ++ [⟨claim, imp, time⟩] }
    | _ => none
  | .rollback id =>
    match q.table.locks id with
    | some lock => some { q with table := q.table.abort lock.owner }
    | none => none
  | .lockOther id =>
    match q.table.locks id with
    | none => some { q with table := q.table.lock .other id }
    | some _ => none
  | .fail claim failure time =>
    q.updateRow claim.id time (·.active claim time) (·.fail failure time)
  | .release claim => q.updateRow claim.id q.table.now (·.heldBy claim) ImportRow.release
  | .failRevoked claim => q.updateRow claim.id q.table.now (·.heldBy claim) ImportRow.failRevoked
  | .revoke id =>
    q.updateRow id q.table.now (fun row => row.state = .queued || row.state = .processing)
      ImportRow.revoke

/-- The states of the queue that interleavings of the workers reach. -/
def Reachable (q : Queue ID) : Prop :=
  Machine.Reachable (step digestOf) (fun q => ∃ now, q = empty now) q

end Queue

end Aspm.Imports
