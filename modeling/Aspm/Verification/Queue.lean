import Aspm.Lib.Nullable
import Aspm.Lib.RowTable
import Aspm.Lib.Machine
import Aspm.Imports.Queue

/-!
# The verification queue

The tables `verification_jobs` and `verification_approvals` with the statements that move
their rows: the worker's `failExhausted`, `claimVerification`, `publishVerificationSuccess`,
`settleVerificationFailure`, `retryVerification` and `requeueCancelledVerification`, and the
application's `createVerificationApproval`, `enqueueVerification` and
`revokeVerificationApproval`.  Imports appear as the evidence revisions that they advance.

Three of these need more than one action.

* `publishVerificationSuccess` is one `UPDATE`, whose sub-query reads approvals and findings
  in the snapshot that the statement took at its start, while the row it updates is the
  current one.  So taking the snapshot and writing the row are two actions.
* `revokeVerificationApproval` locks and updates the approval, and then cancels the jobs that
  are open when that statement begins, one after the other, waiting for each.
* `enqueueVerification` reads the approval without a lock.  Its `INSERT` has to share the key
  of the approval with nobody who holds the row `FOR UPDATE`: that is its foreign key.

The database has its own clock (`now`), with which it judges leases.  Expiry of approvals is
judged by the clock of application and workers (`wall`), which they read before they send a
statement.
-/

namespace Aspm.Verification

open Nullable RowTable
open Reconcile (Time)
open Imports (second WorkerID)

abbrev ApprovalID := String

/-- A finding, within its workspace. -/
abbrev FindingKey := String × String

/-- The columns that the evidence, its approvals and their jobs share. -/
structure Binding where
  workspaceID : String
  findingID : String
  evidenceID : String
  method : String
  environmentID : String
  scopeRevision : String
  evidenceRevision : ℤ
  evidenceDigest : String
deriving DecidableEq

def Binding.finding (b : Binding) : FindingKey := (b.workspaceID, b.findingID)

structure Approval where
  binding : Binding
  approvedBy : String
  rationale : String
  expiresAt : Time
  revokedAt : Option Time
  revokedBy : Option String
  revocationRationale : Option String
deriving DecidableEq

/-- The column `current` of an approval, for the evidence revision of its finding. -/
def Approval.current (wall : Time) (revision : ℤ) (a : Approval) : Bool :=
  a.revokedAt.isNone && wall < a.expiresAt && a.binding.evidenceRevision = revision

inductive JobState where
  | queued
  | processing
  | succeeded
  | blocked
  | failed
  | cancelled
deriving DecidableEq

inductive Outcome where
  | reproduced
  | notReproduced
deriving DecidableEq

structure JobRow where
  approvalID : ApprovalID
  binding : Binding
  requestedBy : String
  idempotencyKey : String
  state : JobState
  outcome : Option Outcome
  failureCode : Option String
  failureMessage : Option String
  completedAt : Option Time
  workerID : Option WorkerID
  fence : ℕ
  attempts : ℕ
  leaseUntil : Option Time
  availableAt : Time
deriving DecidableEq

/-- The part of `verificationJobRecord` with which a worker comes back. -/
structure Record (ID : Type) where
  id : ID
  workerID : WorkerID
  fence : ℕ
  attempts : ℕ
deriving DecidableEq

def verificationAttempts : ℕ := 3

/-- What `verificationPolicyOutcome` may answer. -/
inductive PolicyOutcome where
  | bindingChanged
  | approvalRevoked
  | approvalExpired
  | notCurrent
deriving DecidableEq

/-- Why a job is settled without success. -/
inductive Settlement where
  | evidenceMetadata
  | fixtureFormat
  | evidenceIntegrity
  | policy (outcome : PolicyOutcome)
  | attemptLimit
deriving DecidableEq

namespace Settlement

def state : Settlement → JobState
  | policy .approvalRevoked => .cancelled
  | policy _ => .blocked
  | _ => .failed

def code : Settlement → String
  | evidenceMetadata => "evidence-integrity"
  | fixtureFormat => "fixture-format"
  | evidenceIntegrity => "evidence-integrity"
  | policy .bindingChanged => "binding-changed"
  | policy .approvalRevoked => "approval-revoked"
  | policy .approvalExpired => "approval-expired"
  | policy .notCurrent => "binding-changed"
  | attemptLimit => "attempt-limit"

def message : Settlement → String
  | evidenceMetadata => "Verification evidence metadata is unavailable"
  | fixtureFormat => "Verification fixture format is invalid"
  | evidenceIntegrity => "Verification evidence failed integrity validation"
  | policy .bindingChanged => "Verification evidence binding is no longer current"
  | policy .approvalRevoked => "Verification approval was revoked before completion"
  | policy .approvalExpired => "Verification approval expired before completion"
  | policy .notCurrent => "Verification approval is no longer current"
  | attemptLimit => "Verification could not complete within its permitted attempts"

/-- Whether the statement also asks for an unexpired lease. -/
def requireFence : Settlement → Bool
  | policy _ => false
  | _ => true

end Settlement

/-! ## Conditions and assignments of the statements -/

namespace JobRow

/-- `state IN ('queued','processing')`. -/
def isOpen (row : JobRow) : Bool := row.state = .queued || row.state = .processing

/-- The lease has run out. -/
def lapsed (now : Time) (row : JobRow) : Bool :=
  row.state = .processing && (le row.leaseUntil (some now)).holds

/-- `WHERE` of `failExhausted`. -/
def exhausted (now : Time) (row : JobRow) : Bool :=
  verificationAttempts ≤ row.attempts && row.lapsed now

/-- `WHERE` of `claimVerification`. -/
def claimable (now : Time) (row : JobRow) : Bool :=
  row.attempts < verificationAttempts &&
    ((row.state = .queued && row.availableAt ≤ now) || row.lapsed now)

def heldBy {ID : Type} (record : Record ID) (row : JobRow) : Bool :=
  row.workerID = some record.workerID && row.fence = record.fence && row.state = .processing

def active {ID : Type} (record : Record ID) (now : Time) (row : JobRow) : Bool :=
  row.heldBy record && (lt (some now) row.leaseUntil).holds

def claim (worker : WorkerID) (lease now : Time) (row : JobRow) : JobRow :=
  { row with
    state := .processing
    workerID := some worker
    fence := row.fence + 1
    attempts := row.attempts + 1
    leaseUntil := some (now + lease) }

def succeed (outcome : Outcome) (wall : Time) (row : JobRow) : JobRow :=
  { row with
    state := .succeeded
    outcome := some outcome
    completedAt := some wall
    workerID := none
    leaseUntil := none }

/-- `settleVerificationFailure`. -/
def settle (settlement : Settlement) (wall : Time) (row : JobRow) : JobRow :=
  { row with
    state := settlement.state
    outcome := none
    completedAt := some wall
    failureCode := some settlement.code
    failureMessage := some settlement.message
    workerID := none
    leaseUntil := none }

/-- `failExhausted`, which leaves the outcome column alone. -/
def failExhausted (wall : Time) (row : JobRow) : JobRow :=
  { row with
    state := .failed
    completedAt := some wall
    failureCode := some Settlement.attemptLimit.code
    failureMessage := some Settlement.attemptLimit.message
    workerID := none
    leaseUntil := none }

def requeue (availableAt : Time) (row : JobRow) : JobRow :=
  { row with state := .queued, availableAt := availableAt, workerID := none, leaseUntil := none }

/-- The cancellation by `revokeVerificationApproval`. -/
def cancel (wall : Time) (row : JobRow) : JobRow :=
  { row with
    state := .cancelled
    completedAt := some wall
    failureCode := some (Settlement.policy .approvalRevoked).code
    failureMessage := some (Settlement.policy .approvalRevoked).message
    workerID := none
    leaseUntil := none
    fence := row.fence + 1 }

end JobRow

def Approval.revoke (wall : Time) (userID rationale : String) (a : Approval) : Approval :=
  { a with
    revokedAt := some wall
    revokedBy := some userID
    revocationRationale := some rationale }

/-- What the sub-query of `publishVerificationSuccess` reads: the approvals and the evidence
revisions as they were committed when the statement began, and the clock value that was
sent along. -/
structure Snapshot where
  time : Time
  approvals : ApprovalID → Option Approval
  revisions : FindingKey → ℤ
  wall : Time

/-- The sub-query itself, for the row of the job. -/
def Snapshot.permits (s : Snapshot) (row : JobRow) : Bool :=
  (s.approvals row.approvalID).any fun a =>
    a.binding.workspaceID = row.binding.workspaceID && a.revokedAt.isNone &&
      s.wall < a.expiresAt && a.binding.evidenceRevision = s.revisions a.binding.finding &&
      a.binding.evidenceRevision = row.binding.evidenceRevision &&
      a.binding.evidenceDigest = row.binding.evidenceDigest

/-! ## The store -/

structure RevokeRequest where
  workspaceID : String
  findingID : String
  approvalID : ApprovalID
  userID : String
  rationale : String
deriving DecidableEq

structure EnqueueRequest where
  workspaceID : String
  findingID : String
  approvalID : ApprovalID
  idempotencyKey : String
  userID : String
deriving DecidableEq

section Store

variable (ID : Type)

/-- The call that a transaction serves. -/
inductive Request where
  | publish (record : Record ID) (outcome : Outcome)
  | revoke (request : RevokeRequest)
  | enqueue (request : EnqueueRequest)
deriving DecidableEq

structure Tx where
  number : ℕ
  request : Request ID
deriving DecidableEq

/-- How far a transaction has come. -/
inductive Progress where
  /-- `publish`: the update has begun. -/
  | scanning (snapshot : Snapshot)
  /-- `publish`: the row is written; the condition was evaluated at `time`. -/
  | published (snapshot : Snapshot) (time : Time)
  /-- `revoke`: the approval is locked and written. -/
  | revoking (wall : Time)
  /-- `revoke`: jobs are being cancelled, and these are still to come. -/
  | cancelling (wall : Time) (pending : List ID)
  /-- `enqueue`: the approval was read, and was current. -/
  | checked

structure Store where
  jobs : Table ID JobRow (Tx ID)
  ids : List ID
  approvals : Table ApprovalID Approval (Tx ID)
  /-- The committed `evidence_revision` of each finding. -/
  revisions : FindingKey → ℤ
  wall : Time
  progress : Tx ID → Option (Progress ID)
  /-- The records that `claimVerification` has returned. -/
  claimed : List (Record ID)

inductive Action where
  | tick (d : ℕ)
  | tickWall (d : ℕ)
  | advanceEvidence (finding : FindingKey)
  | approve (id : ApprovalID) (binding : Binding) (userID rationale : String)
      (expiresAt wall : Time)
  | checkApproval (number : ℕ) (request : EnqueueRequest) (wall : Time)
  | insertJob (number : ℕ) (request : EnqueueRequest) (id : ID)
  | failExhausted (wall : Time)
  | claim (worker : WorkerID) (lease : Time)
  | retry (record : Record ID) (wall time : Time)
  | requeueCancelled (record : Record ID)
  | settle (record : Record ID) (settlement : Settlement) (wall time : Time)
  | publish (number : ℕ) (record : Record ID) (outcome : Outcome) (wall : Time)
  | publishRow (number : ℕ) (record : Record ID) (outcome : Outcome) (time : Time)
  | revoke (number : ℕ) (request : RevokeRequest) (wall : Time)
  | cancelJobs (number : ℕ) (request : RevokeRequest)
  | cancelRow (number : ℕ) (request : RevokeRequest) (id : ID)
  | commit (tx : Tx ID)
  | rollback (tx : Tx ID)
deriving DecidableEq

end Store

namespace Store

variable {ID : Type} [LinearOrder ID]

def empty (now wall : Time) : Store ID where
  jobs := ⟨now, fun _ => none, fun _ => now, fun _ => none⟩
  ids := []
  approvals := ⟨now, fun _ => none, fun _ => now, fun _ => none⟩
  revisions := fun _ => 1
  wall := wall
  progress := fun _ => none
  claimed := []

def setProgress (q : Store ID) (tx : Tx ID) (p : Option (Progress ID)) : Store ID :=
  { q with progress := Function.update q.progress tx p }

theorem progress_setProgress (q : Store ID) (tx : Tx ID) (p : Option (Progress ID)) :
    (q.setProgress tx p).progress = Function.update q.progress tx p := rfl

def availableAt (q : Store ID) (id : ID) : Time :=
  ((q.jobs.rows id).map (·.availableAt)).getD 0

def leaseUntil (q : Store ID) (id : ID) : Time :=
  ((q.jobs.rows id).bind (·.leaseUntil)).getD 0

/-- `WHERE … ORDER BY key,id FOR UPDATE SKIP LOCKED`. -/
def candidates (q : Store ID) (key : ID → Time) (condition : JobRow → Bool) : List ID :=
  (q.ids.filter fun id => (q.jobs.locks id).isNone &&
    (q.jobs.rows id).any condition).insertionSort
      fun a b => key a < key b ∨ (key a = key b ∧ a ≤ b)

/-- The rows that `failExhausted` moves (`LIMIT 100`). -/
def exhausted (q : Store ID) : List ID :=
  (q.candidates q.leaseUntil (·.exhausted q.jobs.now)).take 100

/-- A single-statement `UPDATE` by a worker, whose condition was evaluated at `time`. -/
def updateRow (q : Store ID) (record : Record ID) (time : Time) (condition : JobRow → Bool)
    (set : JobRow → JobRow) : Option (Store ID) :=
  match q.jobs.locks record.id, q.jobs.rows record.id with
  | none, some row =>
    if record ∈ q.claimed && q.jobs.unchangedSince record.id time && condition row then
      some { q with jobs := q.jobs.update [record.id] set }
    else none
  | _, _ => none

/-- `settleVerificationFailure`. -/
def settle (q : Store ID) (record : Record ID) (settlement : Settlement) (wall time : Time) :
    Option (Store ID) :=
  q.updateRow record time
    (fun row => if settlement.requireFence then row.active record time else row.heldBy record)
    (·.settle settlement wall)

/-- The approval that a request names, in the version that is committed. -/
def approvalOf (q : Store ID) (workspaceID findingID : String) (id : ApprovalID) :
    Option Approval :=
  (q.approvals.rows id).filter fun a =>
    a.binding.workspaceID = workspaceID && a.binding.findingID = findingID

def insertRow (request : EnqueueRequest) (a : Approval) (now : Time) : JobRow where
  approvalID := request.approvalID
  binding := a.binding
  requestedBy := request.userID
  idempotencyKey := request.idempotencyKey
  state := .queued
  outcome := none
  failureCode := none
  failureMessage := none
  completedAt := none
  workerID := none
  fence := 0
  attempts := 0
  leaseUntil := none
  availableAt := now

/-- A job of the workspace already has the idempotency key. -/
def keyTaken (q : Store ID) (request : EnqueueRequest) : Bool :=
  q.ids.any fun id => (q.jobs.rows id).any fun row =>
    row.binding.workspaceID = request.workspaceID && row.idempotencyKey = request.idempotencyKey

/-- The open jobs of the approval that a revocation names. -/
def openJobs (q : Store ID) (request : RevokeRequest) : List ID :=
  q.ids.filter fun id => (q.jobs.rows id).any fun row =>
    row.binding.workspaceID = request.workspaceID && row.binding.findingID = request.findingID &&
      row.approvalID = request.approvalID && row.isOpen

def step (q : Store ID) : Action ID → Option (Store ID)
  | .tick d => some { q with jobs := q.jobs.tick d, approvals := q.approvals.tick d }
  | .tickWall d => some { q with wall := q.wall + d }
  | .advanceEvidence finding =>
    some { q with
      revisions := Function.update q.revisions finding (q.revisions finding + 1) }
  | .approve id binding userID rationale expiresAt wall =>
    if (q.approvals.rows id).isNone && binding.evidenceRevision = q.revisions binding.finding &&
        wall ≤ q.wall && wall < expiresAt && expiresAt ≤ wall + 86400 * second then
      some { q with
        approvals := q.approvals.insert id
          ⟨binding, userID, rationale, expiresAt, none, none, none⟩ }
    else none
  | .checkApproval number request wall =>
    match q.approvalOf request.workspaceID request.findingID request.approvalID with
    | some a =>
      if wall ≤ q.wall && a.current wall (q.revisions a.binding.finding) &&
          (q.progress ⟨number, .enqueue request⟩).isNone then
        some (q.setProgress ⟨number, .enqueue request⟩ (some .checked))
      else none
    | none => none
  | .insertJob number request id =>
    -- the foreign key shares the approval's key, which whoever holds it `FOR UPDATE` forbids;
    -- the columns it copies are those of the approval it read, which never change
    match q.progress ⟨number, .enqueue request⟩, q.approvals.locks request.approvalID,
        q.approvalOf request.workspaceID request.findingID request.approvalID with
    | some .checked, none, some a =>
      if (q.jobs.rows id).isNone && !q.keyTaken request then
        some { q.setProgress ⟨number, .enqueue request⟩ none with
          jobs := q.jobs.insert id (insertRow request a q.jobs.now)
          ids := q.ids ++ [id] }
      else none
    | _, _, _ => none
  | .failExhausted wall =>
    if wall ≤ q.wall then
      some { q with jobs := q.jobs.update q.exhausted (·.failExhausted wall) }
    else none
  | .claim worker lease =>
    match q.candidates q.availableAt (·.claimable q.jobs.now) with
    | [] => none
    | id :: _ =>
      match q.jobs.rows id with
      | some row =>
        some { q with
          jobs := q.jobs.update [id] (·.claim worker lease q.jobs.now)
          claimed := q.claimed ++ [⟨id, worker, row.fence + 1, row.attempts + 1⟩] }
      | none => none
  | .retry record wall time =>
    if verificationAttempts ≤ record.attempts then
      if wall ≤ q.wall then q.settle record .attemptLimit wall time else none
    else
      q.updateRow record time (·.active record time)
        fun row => row.requeue (time + second * row.attempts)
  | .requeueCancelled record =>
    q.updateRow record q.jobs.now (·.heldBy record) (·.requeue q.jobs.now)
  | .settle record settlement wall time =>
    if wall ≤ q.wall then q.settle record settlement wall time else none
  | .publish number record outcome wall =>
    let tx : Tx ID := ⟨number, .publish record outcome⟩
    if record ∈ q.claimed && wall ≤ q.wall && (q.progress tx).isNone then
      some (q.setProgress tx
        (some (.scanning ⟨q.jobs.now, q.approvals.rows, q.revisions, wall⟩)))
    else none
  | .publishRow number record outcome time =>
    let tx : Tx ID := ⟨number, .publish record outcome⟩
    match q.progress tx, q.jobs.locks record.id, q.jobs.rows record.id with
    | some (.scanning s), none, some row =>
      -- evaluated after the statement began and, if the row changed since, again
      if s.time ≤ time && q.jobs.unchangedSince record.id time && row.active record time &&
          s.permits row then
        some { q.setProgress tx (some (.published s time)) with
          jobs := q.jobs.stage tx record.id (row.succeed outcome s.wall) }
      else none
    | _, _, _ => none
  | .revoke number request wall =>
    let tx : Tx ID := ⟨number, .revoke request⟩
    match q.approvals.locks request.approvalID,
        q.approvalOf request.workspaceID request.findingID request.approvalID with
    | none, some a =>
      if a.revokedAt.isNone && wall ≤ q.wall && (q.progress tx).isNone then
        some { q.setProgress tx (some (.revoking wall)) with
          approvals := q.approvals.stage tx request.approvalID
            (a.revoke wall request.userID request.rationale) }
      else none
    | _, _ => none
  | .cancelJobs number request =>
    let tx : Tx ID := ⟨number, .revoke request⟩
    match q.progress tx with
    | some (.revoking wall) =>
      some (q.setProgress tx (some (.cancelling wall (q.openJobs request))))
    | _ => none
  | .cancelRow number request id =>
    let tx : Tx ID := ⟨number, .revoke request⟩
    match q.progress tx, q.jobs.locks id, q.jobs.rows id with
    | some (.cancelling wall pending), none, some row =>
      let q' := q.setProgress tx (some (.cancelling wall (pending.erase id)))
      if id ∈ pending then
        if row.isOpen then some { q' with jobs := q.jobs.stage tx id (row.cancel wall) }
        else some q'
      else none
    | _, _, _ => none
  | .commit tx =>
    match q.progress tx with
    | some (.published _ _) | some (.cancelling _ []) =>
      some { q.setProgress tx none with
        jobs := q.jobs.commit tx
        approvals := q.approvals.commit tx }
    | _ => none
  | .rollback tx =>
    some { q.setProgress tx none with
      jobs := q.jobs.abort tx
      approvals := q.approvals.abort tx }

/-- The states that interleavings of workers, requests and imports reach. -/
def Reachable (q : Store ID) : Prop :=
  Machine.Reachable step (fun q => ∃ now wall, q = empty now wall) q

end Store

end Aspm.Verification
