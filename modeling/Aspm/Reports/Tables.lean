import Aspm.Lib.Query
import Aspm.Correlation.Group
import Aspm.Notify.Policy

/-!
# The tables that reports read

The rows and columns that the work list and the reports read, with what the schema promises of
them: primary keys, and the foreign keys that the queries join along.  A `Database` cannot break
these.

A clock of the application has nanoseconds, a `timestamptz` has microseconds.  The statements are
written with the joins and conditions of their SQL texts.
-/

namespace Aspm.Reports

open Json (Text)
open Reconcile (Time Severity SourceState ChangeKind SourceStatus ScanKind Completeness)
open Correlation (WorkflowState Disposition)
open Notify (ID validID validText)
open Nullable (Truth isNull)
open Query (Unique join leftJoin noRow test)

/-- A value of the clock of the application, in nanoseconds. -/
abbrev Instant := ℤ

/-- A column, as the application scans it. -/
def instant (t : Time) : Instant := t * 1000

/-! ## Names -/

def severityName : Severity → Text
  | .critical => "critical".toList
  | .high => "high".toList
  | .medium => "medium".toList
  | .low => "low".toList
  | .info => "info".toList

def workflowStateName : WorkflowState → Text
  | .opened => "open".toList
  | .inProgress => "in-progress".toList
  | .pendingRetest => "pending-retest".toList
  | .resolved => "resolved".toList

def dispositionName : Disposition → Text
  | .none => "none".toList
  | .acceptedRisk => "accepted-risk".toList
  | .suppressed => "suppressed".toList
  | .falsePositive => "false-positive".toList

def sourceStateName : SourceState → Text
  | .observed => "observed".toList
  | .unknown => "unknown".toList
  | .stale => "stale".toList
  | .inferredResolved => "inferred-resolved".toList

/-! ## Rows -/

structure User where
  id : ID
  name : Text

structure Asset where
  id : ID
  workspaceID : ID
  name : Text
  kind : Text
  environment : Text
  criticality : Text
  tags : List Text
  ownerID : Option ID

structure Finding where
  id : ID
  workspaceID : ID
  assetID : ID
  title : Text
  severity : Severity
  ownerID : Option ID
  workflowState : WorkflowState
  disposition : Disposition
  acceptedRiskExpiresAt : Option Time
  decisionRevision : ℕ
  sourceState : SourceState
  sourceScanAt : Option Time
  collectedAt : Time
  importedAt : Time
  sourceFreshnessAt : Option Time
  changeKind : ChangeKind
  changeAt : Option Time
  firstObservedAt : Time
  scopeID : Text
  scopeRevision : Text
  scopeBranch : Text
  remediation : Text

structure CorrelationRow where
  id : ID
  workspaceID : ID
  primaryFindingID : ID
  /-- `state='active'`, and `split` otherwise. -/
  active : Bool

structure CorrelationMember where
  workspaceID : ID
  correlationID : ID
  findingID : ID
  releasedAt : Option Time

inductive ScopeKind where
  | finding
  | asset
  | source
  | scope
deriving DecidableEq

structure DispositionApproval where
  workspaceID : ID
  findingID : ID
  decisionRevision : ℕ
  actorID : ID
  disposition : Disposition
  scopeKind : ScopeKind
  scopeValue : Text
  rationale : Text
  expiresAt : Option Time

inductive EvidenceAvailability where
  | available
  | archived
  | expired
  | missing
  | corrupt
deriving DecidableEq

/-- What the document of an observation says of its source, read from its column `data` or, once
the evidence has expired, from `summary`. -/
structure ObservationDocument where
  id : Text
  sourceID : Text
  scanID : Text
  sourceFindingID : Text
  uri : Text
  line : ℤ
  evidenceDigest : Text

structure ObservationRow where
  id : ID
  workspaceID : ID
  findingID : ID
  document : ObservationDocument
  evidenceAvailability : EvidenceAvailability

inductive JobState where
  | queued
  | processing
  | succeeded
  | failed
deriving DecidableEq

structure ImportRow where
  workspaceID : ID
  assetID : ID
  sourceID : Text
  scopeID : Text
  scopeRevision : Text
  scopeBranch : Text
  sourceScanAt : Option Time
  state : JobState
  sourceStatus : SourceStatus
  scanKind : ScanKind
  completeness : Completeness

structure SLAPolicy where
  workspaceID : ID
  criticalDays : ℕ
  highDays : ℕ
  mediumDays : ℕ
  lowDays : ℕ
  infoDays : ℕ
  revision : ℕ

structure SnapshotRow where
  id : ID
  workspaceID : ID
  name : Text

inductive Format where
  | json
  | csv
deriving DecidableEq

structure ExportRow where
  id : ID
  workspaceID : ID
  snapshotID : ID
  requestedBy : ID
  format : Format
  state : JobState
  createdAt : Time
  completedAt : Option Time
  failureCode : Option Text
  failureMessage : Option Text
  contentDigest : Option Text
  contentSize : Option ℕ

structure WorkView where
  id : ID
  workspaceID : ID
  userID : ID
  query : Text

/-! ## The database -/

structure Tables where
  users : List User
  assets : List Asset
  findings : List Finding
  correlations : List CorrelationRow
  members : List CorrelationMember
  approvals : List DispositionApproval
  observations : List ObservationRow
  imports : List ImportRow
  policies : List SLAPolicy
  snapshots : List SnapshotRow
  exports : List ExportRow
  views : List WorkView

/-- What the schema promises. -/
structure Database extends Tables where
  users_unique : Unique User.id users
  /-- Every name went through `localIdentity` or `oidcProfile.validate`. -/
  users_named : ∀ u ∈ users, validText u.name 256 = true
  assets_unique : Unique Asset.id assets
  findings_unique : Unique Finding.id findings
  policies_unique : Unique SLAPolicy.workspaceID policies
  snapshots_unique : Unique SnapshotRow.id snapshots
  exports_unique : Unique ExportRow.id exports
  /-- Every workspace has its targets. -/
  findings_policy : ∀ f ∈ findings, ∃ policy ∈ policies, policy.workspaceID = f.workspaceID
  findings_asset : ∀ f ∈ findings, ∃ asset ∈ assets,
    asset.workspaceID = f.workspaceID ∧ asset.id = f.assetID
  exports_snapshot : ∀ e ∈ exports, ∃ s ∈ snapshots,
    s.workspaceID = e.workspaceID ∧ s.id = e.snapshotID

/-- `errInvalid`, `errNotFound`, `errConflict` and `errUnsupported`. -/
inductive Error where
  | invalid
  | notFound
  | conflict
  | unsupported
deriving DecidableEq

/-! ## The work list -/

section Work

variable (db : Database)

/-- The member is in a group that has another finding in front. -/
def hidden (f : Finding) (row : CorrelationMember × CorrelationRow) : Truth :=
  (test (row.1.workspaceID = f.workspaceID)).and <| (test (row.1.findingID = f.id)).and <|
    (isNull row.1.releasedAt).and (test (row.2.primaryFindingID ≠ f.id))

def workVisible (f : Finding) : Truth :=
  noRow (hidden f) <| join (fun cm c => (test (c.workspaceID = cm.workspaceID)).and <|
    (test (c.id = cm.correlationID)).and (test (c.active = true))) db.members db.correlations

abbrev WorkRow := (Finding × Asset) × Option User

def findingAsset (f : Finding) (asset : Asset) : Truth :=
  (test (asset.workspaceID = f.workspaceID)).and (test (asset.id = f.assetID))

def findingOwner (row : Finding × Asset) (owner : User) : Truth :=
  Query.eq (some owner.id) row.1.ownerID

def workFrom : List WorkRow :=
  leftJoin findingOwner (join findingAsset db.findings db.assets) db.users

end Work

end Aspm.Reports
