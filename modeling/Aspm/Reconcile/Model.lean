import Aspm.Lib.Nullable

/-!
# Reconciliation of an accepted report

The write part of `ImportWorker.reconcile`: one accepted report, parsed into a
list of findings, is folded into the `findings`, `observations`,
`finding_change_events` and `coverage` tables.

## The tables

* `findings` is indexed by its unique key, the scope together with the identity
  of the finding (`FindingKey`).  The generated column `id` is in bijection with
  that key for the lifetime of a row, so the key also plays the part of the
  foreign key `finding_id`.
* `coverage` holds one row per scope.
* `observations` and `finding_change_events` only grow, and are lists in insertion
  order.

The transaction takes the scope's advisory lock first and reads `coverage` once,
so imports of one scope run one after the other and `reconcile` is a function of
the store.  The checks of the lease and of the submitting actor that surround
these writes decide *whether* the transaction commits; they belong to the import
queue and not to this module.

The content digest is SHA-256 over the normalised content.  It is a parameter
`findingContentDigest` throughout: nothing here depends on how it is computed.
-/

namespace Aspm.Reconcile

open Nullable

/-- A `timestamptz`, in microseconds. -/
abbrev Time := Int

/-- The generated identity of an import's run (`imports.run_id`, unique). -/
abbrev RunID := String

inductive SourceStatus where
  | succeeded
  | failed
deriving DecidableEq

inductive ScanKind where
  | full
  | delta
deriving DecidableEq

/-- `complete`, `partial` and `unknown`. -/
inductive Completeness where
  | complete
  | partially
  | unknown
deriving DecidableEq

inductive Severity where
  | critical
  | high
  | medium
  | low
  | info
deriving DecidableEq

inductive SourceState where
  | observed
  | unknown
  | stale
  | inferredResolved
deriving DecidableEq

/-- `findings.change_kind`. -/
inductive ChangeKind where
  | new
  | changed
  | unchanged
  | reopened
  | inferredResolved
deriving DecidableEq

/-- The classification stored with an observation: the two that only an
observation can have, or the one of the finding. -/
inductive ObservationKind where
  | nonAuthoritative
  | historical
  | current (kind : ChangeKind)
deriving DecidableEq

inductive ChangeReason where
  | sourceStatusFailed
  | outOfOrder
  | partialScan
  | unknownCompleteness
  | deltaScan
  | unknownSourceTime
deriving DecidableEq

structure Location where
  uri : String
  line : Int
deriving DecidableEq

/-- `parsers.Finding`. -/
structure Finding where
  identity : String
  sourceFindingID : String
  title : String
  description : String
  sourceSeverity : String
  severity : Severity
  impact : String
  remediation : String
  evidenceText : String
  sourceLabel : String
  location : Location
  unmapped : List (String × String)
deriving DecidableEq

/-- The columns that `sameScope` compares. -/
structure ScopeKey where
  workspaceID : String
  assetID : String
  sourceID : String
  scopeID : String
  scopeRevision : String
  scopeBranch : String
deriving DecidableEq

/-- The unique key of `findings`. -/
structure FindingKey where
  scope : ScopeKey
  identity : String
deriving DecidableEq

/-- The part of `importRecord` that reconciliation reads. -/
structure ImportRecord where
  runID : RunID
  scanID : String
  scope : ScopeKey
  sourceScanAt : Option Time
  collectedAt : Time
  importedAt : Time
  sourceStatus : SourceStatus
  scanKind : ScanKind
  completeness : Completeness
  reportDigest : String
deriving DecidableEq

/-- What the transaction reads beside the scope's own tables: the owner and the
name of the asset, and the notification epoch of the workspace. -/
structure AssetContext where
  owner : Option String
  assetName : String
  policyEpoch : Int
deriving DecidableEq

/-- One import as it reaches `reconcile`. -/
structure Import where
  record : ImportRecord
  findings : List Finding
  asset : AssetContext
deriving DecidableEq

/-- A row of `findings`.  The last four columns carry the human decision; they only
ever get their defaults from an import.  `changeRunID` is `none` where the column is
the empty string. -/
structure FindingRow where
  title : String
  description : String
  remediation : String
  severity : Severity
  evidenceText : String
  sourceLabel : String
  sourceScanAt : Option Time
  collectedAt : Time
  importedAt : Time
  firstObservedAt : Time
  sourceFreshnessAt : Option Time
  sourceState : SourceState
  candidateURI : String
  candidateLine : Int
  contentDigest : String
  changeKind : ChangeKind
  changeAt : Option Time
  changeRunID : Option RunID
  changeRevision : Nat
  evidenceRevision : Nat
  ownerID : Option String
  workflowState : String
  disposition : String
  acceptedRiskExpiresAt : Option Time
  decisionRevision : Nat
deriving DecidableEq

/-- A row of `observations`, with the document of its column `data`. -/
structure Observation where
  finding : FindingKey
  runID : RunID
  ordinal : Nat
  scanID : String
  sourceScanAt : Option Time
  sourceFindingID : String
  sourceSeverity : String
  normalizedSeverity : Severity
  sourceLocation : Location
  impact : String
  remediation : String
  unmapped : List (String × String)
  evidenceDigest : String
  changeKind : ObservationKind
  changeReasons : List ChangeReason
deriving DecidableEq

/-- A row of `finding_change_events`. -/
structure ChangeEvent where
  finding : FindingKey
  policyEpoch : Int
  title : String
  severity : Severity
  assetName : String
  changeKind : ChangeKind
  changeRevision : Nat
  changeAt : Time
deriving DecidableEq

/-- The table `findings`, read through its unique key. -/
abbrev FindingTable := FindingKey → Option FindingRow

/-- The tables that reconciliation reads and writes. -/
structure Store where
  findings : FindingTable
  coverage : ScopeKey → Option Time
  observations : List Observation
  changeEvents : List ChangeEvent

/-- The columns an upsert returns (`reconciledFinding`). -/
structure ReconciledFinding where
  finding : FindingKey
  changeKind : ChangeKind
  changeAt : Option Time
  changeRevision : Nat
  sourceScanAt : Option Time
  changeRunID : Option RunID
  contentDigest : String
deriving DecidableEq

namespace ImportRecord

def succeeded (r : ImportRecord) : Bool := r.sourceStatus = .succeeded

/-- A scan whose silence about a finding means something. -/
def comparable (r : ImportRecord) : Bool :=
  r.sourceStatus = .succeeded && r.scanKind = .full &&
    r.completeness = .complete && r.sourceScanAt.isSome

/-- A complete scan of the scope with a later source time is already recorded. -/
def covered (r : ImportRecord) (coverage : Option Time) : Bool :=
  r.succeeded &&
    match r.sourceScanAt, coverage with
    | some scanned, some complete => scanned < complete
    | _, _ => false

/-- The `source_state` an observation of this import proposes. -/
def proposedState (r : ImportRecord) (coverage : Option Time) : SourceState :=
  if r.covered coverage then .inferredResolved
  else if r.succeeded then .observed
  else .unknown

/-- The `source_freshness_at` an observation of this import proposes.  For a
covered import it is the time of the scan that covers it. -/
def proposedFreshness (r : ImportRecord) (coverage : Option Time) : Option Time :=
  if r.covered coverage then coverage
  else if r.comparable then r.sourceScanAt
  else none

end ImportRecord

/-- Go's `unicode.IsSpace`. -/
def isSpace (c : Char) : Bool :=
  c = ' ' || ('\t' ≤ c && c ≤ '\r') || c = '\u0085' || c = '\u00a0' || c = '\u1680' ||
    ('\u2000' ≤ c && c ≤ '\u200a') || c = '\u2028' || c = '\u2029' || c = '\u202f' ||
    c = '\u205f' || c = '\u3000'

def trimSpace (s : String) : String :=
  String.ofList ((s.toList.dropWhile isSpace).reverse.dropWhile isSpace).reverse

def correlationCandidateLocation (location : Location) : String × Int :=
  let uri := trimSpace location.uri
  if uri = "" || location.line ≤ 0 then ("", 0) else (uri, location.line)

/-- The longest prefix of at most `limit` bytes that is well-formed UTF-8, found
by moving the cut back one byte at a time. -/
def boundedNotificationSnapshot (value : String) (limit : Nat) : String :=
  if value.utf8ByteSize ≤ limit then value else cut limit
where
  cut : Nat → String
    | 0 => ""
    | n + 1 =>
      match String.fromUTF8? (value.toUTF8.extract 0 (n + 1)) with
      | some text => text
      | none => cut n

/-- The kinds that raise a notification. -/
def notificationChangeKinds : List ChangeKind := [.new, .changed, .reopened]

section Writes

variable (findingContentDigest : Finding → String)

/-! ## The upsert of one finding -/

/-- The `VALUES` of the upsert, after its `CASE` expressions and the column
defaults: the row that is inserted when the key is new, `EXCLUDED` otherwise. -/
def proposedRow (r : ImportRecord) (asset : AssetContext) (coverage : Option Time)
    (f : Finding) : FindingRow where
  title := f.title
  description := f.description
  remediation := f.remediation
  severity := f.severity
  evidenceText := f.evidenceText
  sourceLabel := f.sourceLabel
  sourceScanAt := r.sourceScanAt
  collectedAt := r.collectedAt
  importedAt := r.importedAt
  firstObservedAt := r.importedAt
  sourceFreshnessAt := r.proposedFreshness coverage
  sourceState := r.proposedState coverage
  -- an import that did not succeed proposes no candidate location
  candidateURI := if r.succeeded then (correlationCandidateLocation f.location).1 else ""
  candidateLine := if r.succeeded then (correlationCandidateLocation f.location).2 else 0
  contentDigest := findingContentDigest f
  changeKind := if r.succeeded then .new else .unchanged
  changeAt := if r.succeeded then some r.importedAt else none
  changeRunID := if r.succeeded then some r.runID else none
  changeRevision := 1
  evidenceRevision := 1
  ownerID := asset.owner
  workflowState := "open"
  disposition := "none"
  acceptedRiskExpiresAt := none
  decisionRevision := 1

namespace FindingRow

/-- The condition `newer` of `findingUpsert`, operator by operator. -/
def newer (succeeded : Bool) (f excluded : FindingRow) : Bool :=
  ((Truth.ofBool succeeded).and
    (((isNotNull excluded.sourceScanAt).and
        ((isNull f.sourceScanAt).or (lt f.sourceScanAt excluded.sourceScanAt))).and
        ((isNull f.sourceFreshnessAt).or (le f.sourceFreshnessAt excluded.sourceScanAt))
      |>.or
      (((isNull excluded.sourceScanAt).and (isNull f.sourceScanAt)).and
        (isNull f.sourceFreshnessAt)))).holds

/-- `change_kind` of a row whose projection is replaced. -/
def changeAgainst (f excluded : FindingRow) : ChangeKind :=
  if f.sourceState = .inferredResolved then .reopened
  else if f.contentDigest = "" then .unchanged
  else if f.contentDigest ≠ excluded.contentDigest then .changed
  else .unchanged

/-- The columns that follow the condition `newer` together. -/
def project (f excluded : FindingRow) : FindingRow :=
  { f with
    title := excluded.title
    description := excluded.description
    remediation := excluded.remediation
    severity := excluded.severity
    evidenceText := excluded.evidenceText
    sourceLabel := excluded.sourceLabel
    sourceScanAt := excluded.sourceScanAt
    collectedAt := excluded.collectedAt
    importedAt := excluded.importedAt
    sourceState := excluded.sourceState
    contentDigest := excluded.contentDigest
    changeKind := f.changeAgainst excluded
    changeAt := excluded.changeAt
    changeRunID := excluded.changeRunID
    changeRevision := f.changeRevision + 1 }

/-- The watermark never moves back. -/
def raisedFreshness (authoritative : Bool) (f excluded : FindingRow) : Option Time :=
  if (((Truth.ofBool authoritative).and (isNotNull excluded.sourceFreshnessAt)).and
      ((isNull f.sourceFreshnessAt).or
        (lt f.sourceFreshnessAt excluded.sourceFreshnessAt))).holds
  then excluded.sourceFreshnessAt
  else f.sourceFreshnessAt

/-- `DO UPDATE SET` of `findingUpsert`.  Every right-hand side reads the stored
row, so the candidate columns and the watermark are computed from `f` and not
from the projected row. -/
def conflictUpdate (succeeded authoritative : Bool) (f excluded : FindingRow) : FindingRow :=
  let isNewer := f.newer succeeded excluded
  let candidateNewer := isNewer ||
    (f.candidateURI = "" && succeeded && excluded.candidateURI ≠ "")
  { (if isNewer then f.project excluded else f) with
    candidateURI := if candidateNewer then excluded.candidateURI else f.candidateURI
    candidateLine := if candidateNewer then excluded.candidateLine else f.candidateLine
    sourceFreshnessAt := f.raisedFreshness authoritative excluded
    evidenceRevision := f.evidenceRevision + 1 }

/-- `RETURNING`. -/
def returning (key : FindingKey) (row : FindingRow) : ReconciledFinding where
  finding := key
  changeKind := row.changeKind
  changeAt := row.changeAt
  changeRevision := row.changeRevision
  sourceScanAt := row.sourceScanAt
  changeRunID := row.changeRunID
  contentDigest := row.contentDigest

end FindingRow

/-- The row one observation leaves under its key. -/
def observeRow (r : ImportRecord) (asset : AssetContext) (coverage : Option Time)
    (stored : Option FindingRow) (f : Finding) : FindingRow :=
  let excluded := proposedRow findingContentDigest r asset coverage f
  match stored with
  | none => excluded
  | some row =>
    row.conflictUpdate r.succeeded (r.comparable || r.covered coverage) excluded

def upsertFinding (r : ImportRecord) (asset : AssetContext) (coverage : Option Time)
    (table : FindingTable) (f : Finding) : FindingTable × ReconciledFinding :=
  let key : FindingKey := ⟨r.scope, f.identity⟩
  let row := observeRow findingContentDigest r asset coverage (table key) f
  (Function.update table key (some row), row.returning key)

/-- The first batch of a slice: the upserts, each returning its row. -/
def upsertBatch (r : ImportRecord) (asset : AssetContext) (coverage : Option Time) :
    FindingTable → List Finding → FindingTable × List ReconciledFinding
  | table, [] => (table, [])
  | table, f :: rest =>
    let first := upsertFinding findingContentDigest r asset coverage table f
    let others := upsertBatch r asset coverage first.1 rest
    (others.1, first.2 :: others.2)

/-! ## The observation of one finding -/

def changeReasons (r : ImportRecord) (digest : String) (result : ReconciledFinding) :
    List ChangeReason :=
  (if r.sourceStatus ≠ .succeeded then [.sourceStatusFailed]
    else if result.changeRunID = some r.runID then []
    else if (lt r.sourceScanAt result.sourceScanAt).holds then [.outOfOrder]
    else if digest ≠ result.contentDigest then [.outOfOrder]
    else []) ++
  (match r.completeness with
    | .partially => [.partialScan]
    | .unknown => [.unknownCompleteness]
    | .complete => []) ++
  (if r.scanKind = .delta then [.deltaScan] else []) ++
  (if r.sourceScanAt.isNone then [.unknownSourceTime] else [])

def observationChange (r : ImportRecord) (digest : String) (result : ReconciledFinding) :
    ObservationKind × List ChangeReason :=
  let reasons := changeReasons r digest result
  if r.sourceStatus ≠ .succeeded then (.nonAuthoritative, reasons)
  else if .outOfOrder ∈ reasons then (.historical, reasons)
  else if result.changeRunID = some r.runID then (.current result.changeKind, reasons)
  else (.current .unchanged, reasons)

/-- The observation row of one finding of the report. -/
def observationOf (r : ImportRecord) (ordinal : Nat) (f : Finding)
    (result : ReconciledFinding) : Observation :=
  let change := observationChange r (findingContentDigest f) result
  { finding := result.finding
    runID := r.runID
    ordinal := ordinal
    scanID := r.scanID
    sourceScanAt := r.sourceScanAt
    sourceFindingID := f.sourceFindingID
    sourceSeverity := f.sourceSeverity
    normalizedSeverity := f.severity
    sourceLocation := f.location
    impact := f.impact
    remediation := f.remediation
    unmapped := f.unmapped
    evidenceDigest := r.reportDigest
    changeKind := change.1
    changeReasons := change.2 }

/-- The change event of one finding of the report, when it raises one. -/
def changeEventOf (r : ImportRecord) (asset : AssetContext) (f : Finding)
    (result : ReconciledFinding) : Option ChangeEvent :=
  if asset.policyEpoch > 0 && r.comparable && result.changeRunID = some r.runID &&
      notificationChangeKinds.contains result.changeKind then
    result.changeAt.map fun changeAt =>
      { finding := result.finding
        policyEpoch := asset.policyEpoch
        title := boundedNotificationSnapshot f.title 1024
        severity := f.severity
        assetName := boundedNotificationSnapshot asset.assetName 256
        changeKind := result.changeKind
        changeRevision := result.changeRevision
        changeAt := changeAt }
  else none

/-- `ON CONFLICT(workspace_id,finding_id,change_revision) DO NOTHING`. -/
def insertChangeEvent (events : List ChangeEvent) (event : ChangeEvent) : List ChangeEvent :=
  if events.any fun e => e.finding = event.finding && e.changeRevision = event.changeRevision
  then events
  else events ++ [event]

def recordObservation (r : ImportRecord) (asset : AssetContext) (s : Store) (ordinal : Nat)
    (f : Finding) (result : ReconciledFinding) : Store :=
  { s with
    observations := s.observations ++ [observationOf findingContentDigest r ordinal f result]
    changeEvents :=
      match changeEventOf r asset f result with
      | some event => insertChangeEvent s.changeEvents event
      | none => s.changeEvents }

/-- The second batch of a slice: the observations, numbered from `ordinal`. -/
def recordBatch (r : ImportRecord) (asset : AssetContext) :
    Store → Nat → List (Finding × ReconciledFinding) → Store
  | s, _, [] => s
  | s, ordinal, (f, result) :: rest =>
    recordBatch r asset (recordObservation findingContentDigest r asset s ordinal f result)
      (ordinal + 1) rest

/-! ## The transaction -/

/-- Two bounded batches: canonical identities first, then immutable observations. -/
def reconcileSlice (r : ImportRecord) (asset : AssetContext) (coverage : Option Time)
    (s : Store) (start : Nat) (slice : List Finding) : Store :=
  let upserted := upsertBatch findingContentDigest r asset coverage s.findings slice
  recordBatch findingContentDigest r asset { s with findings := upserted.1 } start
    (slice.zip upserted.2)

/-- The loop over the slices `findings[start:end]`, `remaining` being what the
slices before `start` left.  Each round takes at least one finding, so the length
of the report bounds the rounds. -/
def reconcileSlices (r : ImportRecord) (asset : AssetContext) (coverage : Option Time) :
    Nat → Store → Nat → List Finding → Store
  | 0, s, _, _ => s
  | _ + 1, s, _, [] => s
  | rounds + 1, s, start, f :: rest =>
    reconcileSlices r asset coverage rounds
      (reconcileSlice findingContentDigest r asset coverage s start ((f :: rest).take 100))
      (start + 100) ((f :: rest).drop 100)

/-- A finding of the scope, with a known older observation, that the complete
scan at `scanned` did not report. -/
def absentFrom (s : Store) (r : ImportRecord) (scanned : Time) (key : FindingKey)
    (f : FindingRow) : Bool :=
  key.scope = r.scope &&
    ((isNotNull f.sourceScanAt).and (lt f.sourceScanAt (some scanned))).holds &&
    f.sourceState ≠ .unknown &&
    ((isNull f.sourceFreshnessAt).or (lt f.sourceFreshnessAt (some scanned))).holds &&
    !(s.observations.any fun o => o.finding = key && o.runID = r.runID)

/-- The row of a finding that a complete scan no longer reports. -/
def FindingRow.inferResolved (r : ImportRecord) (scanned : Time) (f : FindingRow) : FindingRow :=
  { f with
    sourceState := .inferredResolved
    sourceFreshnessAt := some scanned
    evidenceRevision := f.evidenceRevision + 1
    changeKind := .inferredResolved
    changeAt := some r.importedAt
    changeRunID := some r.runID
    changeRevision := f.changeRevision + 1 }

/-- The absence update and the new coverage row. -/
def inferAbsent (s : Store) (r : ImportRecord) (scanned : Time) : Store :=
  { s with
    findings := fun key => (s.findings key).map fun f =>
      if absentFrom s r scanned key f then f.inferResolved r scanned else f
    coverage := Function.update s.coverage r.scope (some scanned) }

/-- The scan time of an import that becomes the coverage of its scope. -/
def newCoverage (r : ImportRecord) (coverage : Option Time) : Option Time :=
  if r.comparable then
    r.sourceScanAt.filter fun scanned =>
      match coverage with
      | none => true
      | some complete => complete < scanned
  else none

/-- **The writes of `reconcile`.** -/
def reconcile (s : Store) (imp : Import) : Store :=
  let coverage := s.coverage imp.record.scope
  let written := reconcileSlices findingContentDigest imp.record imp.asset coverage
    imp.findings.length s 0 imp.findings
  match newCoverage imp.record coverage with
  | some scanned => inferAbsent written imp.record scanned
  | none => written

/-- Imports reconciled one at a time, first to last. -/
def reconcileAll (s : Store) (imports : List Import) : Store :=
  imports.foldl (reconcile findingContentDigest) s

end Writes

def Store.empty : Store where
  findings := fun _ => none
  coverage := fun _ => none
  observations := []
  changeEvents := []

/-- No import has reached the scope yet. -/
structure Store.EmptyScope (s : Store) (scope : ScopeKey) : Prop where
  findings : ∀ identity, s.findings ⟨scope, identity⟩ = none
  coverage : s.coverage scope = none
  observations : ∀ o ∈ s.observations, o.finding.scope ≠ scope

theorem Store.empty_emptyScope (scope : ScopeKey) : Store.empty.EmptyScope scope :=
  ⟨fun _ => rfl, rfl, fun _ mem => absurd mem List.not_mem_nil⟩

end Aspm.Reconcile
