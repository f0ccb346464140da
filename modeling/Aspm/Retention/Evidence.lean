import Mathlib
import Aspm.Retention.Run

/-!
# The work on one retention item

What a retention worker does between its claim and the end of its item, for each of the actions
of `processRetentionItem`: the rows that it reads and updates, the objects that it stores and
deletes, and the ledger of archive publications.

The work is cut into *stages*.  One turn of a worker is one query, one call of the object store
or one transaction, and leads from a stage to the next.  `Guard` says what the turn needs of the
lease: a query needs nothing, a call of the store goes through `withRetentionLease`, which renews
the lease, and a transaction begins with `lockRetentionRun`.  The one transaction that takes
several turns is that of `deleteOrphanArchive`, which holds the lock of its publication row while
it calls the store.

The digest of evidence is SHA-256, which counts as injective here.
-/

namespace Aspm.Retention

open Reconcile (Time)

/-- Evidence as bytes, known by digest and size. -/
class Content (Data : Type) (Digest : outParam Type) where
  sha256 : Data → Digest
  size : Data → ℕ
  sha256_injective : Function.Injective sha256

/-! ## Resources and their rows -/

/-- The rows whose detail `archive-audit` archives. -/
inductive EventKind where
  | correlationEvent
  | findingDecisionEvent
  | notificationPolicyRevision
  | findingChangeEvent
  | notificationPolicyEvent
deriving DecidableEq

inductive ResourceKind where
  | importRecord
  | observation
  | event (kind : EventKind)
deriving DecidableEq

/-- `isHistoryRetentionKind`. -/
def ResourceKind.isHistory : ResourceKind → Bool
  | .event .correlationEvent => false
  | .event _ => true
  | _ => false

structure Resource (ID : Type) where
  kind : ResourceKind
  id : ID
deriving DecidableEq

/-- The key of an object.  The raw report of an import has a key of its own, and archive keys are
made of kind, id and digest (`archiveIdentity`); the two have disjoint prefixes. -/
structure Key (ID Digest : Type) where
  resource : Resource ID
  digest : Digest
deriving DecidableEq

/-- The columns that refer to an object: its key, and what it is checked against. -/
structure Ref (ID Digest : Type) where
  key : Key ID Digest
  digest : Digest
  size : ℕ
deriving DecidableEq

inductive Availability where
  | available
  | archived
  | expired
  | missing
  | corrupt
deriving DecidableEq

/-- The columns of a row that retention reads and writes. -/
structure Row (ID Data Digest : Type) where
  /-- The evidence itself, as long as the row has it. -/
  payload : Option Data
  availability : Availability
  /-- `evidence_revision` or `detail_revision`. -/
  revision : ℕ
  /-- `retention_transition = 'expiring'`. -/
  expiring : Bool
  stored : Option (Ref ID Digest)
  /-- The observations of an import, and the import of an observation. -/
  related : List (Resource ID)
deriving DecidableEq

inductive PublicationState where
  | publishing
  | referenced
  | orphan
  | deleted
deriving DecidableEq

/-- A row of `archive_publications`, which is found by its object key. -/
structure Publication (ID Digest : Type) where
  resource : Resource ID
  digest : Digest
  size : ℕ
  state : PublicationState
  revision : ℕ
  updatedAt : Time
deriving DecidableEq

/-- Who works: a run, and the fence of a claim. -/
structure Party (ID : Type) where
  run : ID
  fence : ℕ
deriving DecidableEq

/-- The data that workers share. -/
structure Evidence (ID Data Digest : Type) where
  rows : Resource ID → Option (Row ID Data Digest)
  objects : Key ID Digest → Option Data
  publications : Key ID Digest → Option (Publication ID Digest)
  /-- The publication rows that `deleteOrphanArchive` has locked. -/
  locks : Key ID Digest → Option (Party ID)

/-! ## Tasks and stages -/

/-- What an item asks for. -/
inductive Task (ID Digest : Type) where
  | archiveHistory (observation : ID)
  | expireRawReport (importID : ID)
  | expireArchive (observation : ID)
  | archiveAudit (kind : EventKind) (id : ID)
  | restoreArchive (observation : ID)
  | deleteOrphan (key : Key ID Digest) (digest : Digest) (revision : ℕ)
deriving DecidableEq

/-- A stage is named by what comes next, and holds what the worker knows. -/
inductive Stage (ID Data Digest : Type) where
  | start
  /-- Archiving: the first look at protections. -/
  | inspected (data : Data) (revision : ℕ)
  /-- `existingHistoryPublication` looks for a publication, -/
  | unprotected (data : Data) (revision : ℕ)
  /-- and reads the object of the one that it has found. -/
  | existing (data : Data) (revision publication : ℕ)
  /-- `beginArchivePublication`. -/
  | absent (data : Data) (revision : ℕ)
  /-- `putArchive`. -/
  | publishing (data : Data) (revision publication : ℕ)
  /-- The transaction that refers to the object. -/
  | published (data : Data) (revision publication : ℕ)
  /-- Expiring: the first look at protections. -/
  | seen (ref : Ref ID Digest) (revision : ℕ) (expiring : Bool)
  | verifying (ref : Ref ID Digest) (revision : ℕ)
  | unreadable (revision : ℕ) (state : OutcomeState)
  | marking (ref : Ref ID Digest) (revision : ℕ)
  /-- The last look at protections. -/
  | rechecking (ref : Ref ID Digest) (revision : ℕ)
  | deleting (ref : Ref ID Digest) (revision : ℕ)
  /-- `rawEvidencePresent`, `archiveEvidencePresent`. -/
  | locating (ref : Ref ID Digest) (revision : ℕ) (reasons : List String) (outcome : String)
  /-- `clearImportTransition`, `clearObservationTransition`. -/
  | clearing (reasons : List String) (outcome : String)
  | expiring (ref : Ref ID Digest) (revision : ℕ)
  /-- Restoring: the object is read, -/
  | fetching (ref : Ref ID Digest) (revision : ℕ)
  | forsaken (revision : ℕ) (state : OutcomeState)
  /-- and the row takes it back. -/
  | restoring (data : Data) (revision : ℕ)
  /-- Deleting an orphan: the publication row is locked, -/
  | locking
  | locked (publication : Publication ID Digest)
  | unreferenced (publication : Publication ID Digest)
  | condemned (publication : Publication ID Digest)
  /-- and the transaction ends. -/
  | deleted (publication : Publication ID Digest) (outcome : String)
  /-- `finishRetentionItem`. -/
  | done (outcome : Outcome)
  /-- `retryRetentionItem`. -/
  | failed
deriving DecidableEq

/-- What a turn needs of the lease. -/
inductive Guard where
  | query
  | renewal
  | transaction
deriving DecidableEq

/-- What comes of a turn. -/
inductive Effect (ID Data Digest : Type) where
  /-- The turn has to wait for the lock of a row. -/
  | waits
  /-- The lease is lost: the worker gives up, and records nothing. -/
  | givesUp
  | goes (evidence : Evidence ID Data Digest) (stage : Stage ID Data Digest)

variable {ID Data Digest : Type}

def Task.guard : Task ID Digest → Stage ID Data Digest → Guard
  | .deleteOrphan _ _ _, .start => .renewal
  | _, .existing _ _ _ | _, .publishing _ _ _ | _, .verifying _ _ | _, .locating _ _ _ _
  | _, .deleting _ _ | _, .fetching _ _ | _, .unreferenced _ | _, .condemned _ => .renewal
  | _, .absent _ _ | _, .published _ _ _ | _, .unreadable _ _ | _, .marking _ _
  | _, .clearing _ _ | _, .expiring _ _ | _, .forsaken _ _ | _, .restoring _ _ => .transaction
  | _, _ => .query

def stateChanged : Outcome := ⟨.guarded, "state-changed", ["state-changed"]⟩

/-- The availability of evidence that can expire. -/
def ResourceKind.live : ResourceKind → Availability
  | .importRecord => .available
  | _ => .archived

/-- `evidenceAvailabilityError`. -/
def OutcomeState.availability : OutcomeState → Availability
  | .corrupt => .corrupt
  | _ => .missing

def OutcomeState.name : OutcomeState → String
  | .corrupt => "corrupt"
  | _ => "missing"

def orphanArchiveGrace : Time := 24 * 60 * 60 * 1000000

inductive Reading (Data : Type) where
  | found (data : Data)
  | notFound
  | integrity
deriving DecidableEq

variable [DecidableEq ID] [DecidableEq Digest]

namespace Evidence

def setRow (e : Evidence ID Data Digest) (r : Resource ID) (row : Row ID Data Digest) :
    Evidence ID Data Digest :=
  { e with rows := Function.update e.rows r (some row) }

def setObject (e : Evidence ID Data Digest) (key : Key ID Digest) (object : Option Data) :
    Evidence ID Data Digest :=
  { e with objects := Function.update e.objects key object }

def setPublication (e : Evidence ID Data Digest) (key : Key ID Digest)
    (publication : Publication ID Digest) : Evidence ID Data Digest :=
  { e with publications := Function.update e.publications key (some publication) }

def setLock (e : Evidence ID Data Digest) (key : Key ID Digest) (party : Party ID) :
    Evidence ID Data Digest :=
  { e with locks := Function.update e.locks key (some party) }

/-- The end of the open transaction of a party. -/
def unlock (e : Evidence ID Data Digest) (party : Party ID) : Evidence ID Data Digest :=
  { e with locks := fun key => (e.locks key).filter fun owner => owner ≠ party }

/-- `archiveReferenceExists`.  Archive keys name their resource, so no other row has the key. -/
def referenced (e : Evidence ID Data Digest) (key : Key ID Digest) : Bool :=
  (e.rows key.resource).any fun row => row.stored.any fun ref => ref.key = key

/-- `finishArchivePublication`, if the publication still has its revision. -/
def finishArchivePublication (e : Evidence ID Data Digest) (key : Key ID Digest) (revision : ℕ)
    (state : PublicationState) (wall : Time) : Option (Evidence ID Data Digest) :=
  (e.publications key).bind fun publication =>
    if publication.revision = revision then
      some (e.setPublication key
        { publication with state, revision := revision + 1, updatedAt := wall })
    else none

/-- What the end of an expiry does to the publication of the object. -/
def retirePublication (e : Evidence ID Data Digest) (key : Key ID Digest) (wall : Time) :
    Evidence ID Data Digest :=
  match e.publications key with
  | some publication =>
    if publication.state = .deleted then e
    else e.setPublication key
      { publication with
        state := .deleted, revision := publication.revision + 1, updatedAt := wall }
  | none => e

end Evidence

open Content

variable [Content Data Digest]

/-- `archiveIdentity`: the object that holds the evidence of a resource. -/
def Resource.object (r : Resource ID) (data : Data) : Ref ID Digest :=
  ⟨⟨r, sha256 data⟩, sha256 data, size data⟩

/-- `readRaw`, `readArchive`: the object is read, and checked. -/
def Evidence.read (e : Evidence ID Data Digest) (ref : Ref ID Digest) : Reading Data :=
  match e.objects ref.key with
  | none => .notFound
  | some data => if sha256 data = ref.digest ∧ size data = ref.size then .found data else .integrity

/-! ## The actions

`protection` is the answer of the database about the resource, `wall` the clock of the worker. -/

namespace Work

variable (e : Evidence ID Data Digest) (r : Resource ID) (protection : List String)
  (leased : Bool) (wall : Time)

/-- A call of the store or a transaction, which needs the lease. -/
def withLease (leased : Bool) (body : Effect ID Data Digest) : Effect ID Data Digest :=
  if leased then body else .givesUp

/-- A publication is finished at the end of a transaction that goes on with `stage`. -/
def finishing (key : Key ID Digest) (publication : ℕ) (state : PublicationState)
    (stage : Stage ID Data Digest) : Effect ID Data Digest :=
  if (e.locks key).isSome then .waits
  else
    match e.finishArchivePublication key publication state wall with
    | some e' => .goes e' stage
    | none => .givesUp

/-- `beginArchivePublication`. -/
def beginArchivePublication (data : Data) (revision : ℕ) : Effect ID Data Digest :=
  let ref := r.object data
  if (e.locks ref.key).isSome then .waits
  else
    let publication := ((e.publications ref.key).map (·.revision + 1)).getD 1
    .goes (e.setPublication ref.key ⟨r, ref.digest, ref.size, .publishing, publication, wall⟩)
      (.publishing data revision publication)

/-- The row of an archived resource.  The rows of the history keep what they say. -/
def archivedRow (row : Row ID Data Digest) (data : Data) : Row ID Data Digest :=
  { row with
    payload := if r.kind.isHistory then row.payload else none
    availability := .archived
    revision := row.revision + 1
    expiring := false
    stored := some (r.object data) }

/-- The last transaction of `archiveObservation` and `archiveAuditEvent`. -/
def reference (data : Data) (revision publication : ℕ) : Effect ID Data Digest :=
  let key := (r.object data).key
  if protection ≠ [] then
    finishing e wall key publication .orphan
      (.done ⟨.guarded, "protected-after-archive-write", protection⟩)
  else
    match e.rows r with
    | some row =>
      if row.revision = revision && row.availability = .available then
        finishing (e.setRow r (archivedRow r row data)) wall key publication .referenced
          (.done ⟨.succeeded, "archived", []⟩)
      else .givesUp
    | none => .givesUp

/-- The last transaction of `archiveHistoryEvent`, which reads the row again. -/
def referenceHistory [DecidableEq Data] (data : Data) (publication : ℕ) : Effect ID Data Digest :=
  let key := (r.object data).key
  match e.rows r with
  | none => .goes e .failed
  | some row =>
    if row.availability ≠ .available || row.payload ≠ some data then
      finishing e wall key publication .orphan (.done stateChanged)
    else if protection ≠ [] then
      finishing e wall key publication .orphan (.done ⟨.guarded, "protected", protection⟩)
    else
      finishing (e.setRow r (archivedRow r row data)) wall key publication .referenced
        (.done ⟨.succeeded, "archived", []⟩)

/-- `archiveObservation`, `archiveAuditEvent` and `archiveHistoryEvent`.  The last looks for an
object that is there already. -/
def archive [DecidableEq Data] : Stage ID Data Digest → Effect ID Data Digest
  | .start =>
    match e.rows r with
    | none => .goes e .failed
    | some row =>
      match row.availability, row.payload with
      | .archived, _ => .goes e (.done ⟨.succeeded, "already-archived", []⟩)
      | .available, some data => .goes e (.inspected data row.revision)
      | .available, none => .goes e .failed
      | _, _ => .goes e (.done stateChanged)
  | .inspected data revision =>
    if protection ≠ [] then .goes e (.done ⟨.guarded, "protected", protection⟩)
    else if r.kind.isHistory then .goes e (.unprotected data revision)
    else .goes e (.absent data revision)
  | .unprotected data revision =>
    let ref := r.object data
    match e.publications ref.key with
    | some p =>
      if p.resource = r ∧ p.digest = ref.digest ∧ p.size = ref.size then
        .goes e (.existing data revision p.revision)
      else .goes e (.absent data revision)
    | none => .goes e (.absent data revision)
  | .existing data revision publication =>
    if leased && e.read (r.object data) = .found data then
      .goes e (.published data revision publication)
    else .goes e (.absent data revision)
  | .absent data revision =>
    withLease leased (beginArchivePublication e r wall data revision)
  | .publishing data revision publication =>
    withLease leased (.goes (e.setObject (r.object data).key (some data))
      (.published data revision publication))
  | .published data revision publication =>
    withLease leased (if r.kind.isHistory then
      referenceHistory e r protection wall data publication
      else reference e r protection wall data revision publication)
  | _ => .waits

/-- `markImportAvailability`, and the same for an observation, which does not ask whether it has
changed the row. -/
def markAvailability (revision : ℕ) (state : OutcomeState) : Effect ID Data Digest :=
  let outcome : Stage ID Data Digest := .done ⟨state, state.name, []⟩
  let unchanged := if r.kind = .importRecord then .givesUp else .goes e outcome
  match e.rows r with
  | some row =>
    if row.revision = revision then
      .goes (e.setRow r { row with
        availability := state.availability
        revision := row.revision + 1
        expiring := false }) outcome
    else unchanged
  | none => unchanged

/-- The resource is marked, so that its object may be deleted. -/
def markExpiring (ref : Ref ID Digest) (revision : ℕ) : Effect ID Data Digest :=
  if protection ≠ [] then .goes e (.done ⟨.guarded, "protected", protection⟩)
  else
    match e.rows r with
    | some row =>
      if row.revision = revision && row.availability = r.kind.live && !row.expiring then
        .goes (e.setRow r { row with expiring := true, revision := row.revision + 1 })
          (.rechecking ref (revision + 1))
      else .givesUp
    | none => .givesUp

/-- `clearImportTransition` and `clearObservationTransition`, which take any revision. -/
def clearTransition (reasons : List String) (outcome : String) : Effect ID Data Digest :=
  let stage : Stage ID Data Digest := .done ⟨.guarded, outcome, reasons⟩
  match e.rows r with
  | some row =>
    if row.expiring then
      .goes (e.setRow r { row with expiring := false, revision := row.revision + 1 }) stage
    else .goes e stage
  | none => .goes e stage

/-- The end of an expiry.  That of an observation retires the publication of its object. -/
def markExpired (ref : Ref ID Digest) (revision : ℕ) : Effect ID Data Digest :=
  match e.rows r with
  | some row =>
    if row.revision = revision && row.expiring then
      let expired := e.setRow r { row with
        availability := .expired
        revision := row.revision + 1
        expiring := false }
      let stage : Stage ID Data Digest := .done ⟨.succeeded, "expired", []⟩
      if r.kind = .importRecord then .goes expired stage
      else if (e.locks ref.key).isSome then .waits
      else .goes (expired.retirePublication ref.key wall) stage
    else .givesUp
  | none => .givesUp

/-- `expireRawReport` and `expireObservationArchive`. -/
def expire : Stage ID Data Digest → Effect ID Data Digest
  | .start =>
    match (e.rows r).bind fun row => row.stored.map (row, ·) with
    | none => .goes e .failed
    | some (row, ref) =>
      if row.availability = .expired then
        .goes e (.done ⟨.succeeded, "already-expired", []⟩)
      else if row.availability = .missing then .goes e (.done ⟨.missing, "missing", []⟩)
      else if row.availability = .corrupt then .goes e (.done ⟨.corrupt, "corrupt", []⟩)
      else if row.availability = r.kind.live then
        .goes e (.seen ref row.revision row.expiring)
      else .goes e (.done stateChanged)
  | .seen ref revision expiring =>
    if protection ≠ [] then
      if expiring then .goes e (.locating ref revision protection "protected")
      else .goes e (.done ⟨.guarded, "protected", protection⟩)
    else if expiring then .goes e (.rechecking ref revision)
    else .goes e (.verifying ref revision)
  | .verifying ref revision =>
    withLease leased <| match e.read ref with
      | .found _ => .goes e (.marking ref revision)
      | .notFound => .goes e (.unreadable revision .missing)
      | .integrity => .goes e (.unreadable revision .corrupt)
  | .unreadable revision state => withLease leased (markAvailability e r revision state)
  | .marking ref revision => withLease leased (markExpiring e r protection ref revision)
  | .rechecking ref revision =>
    if protection ≠ [] then
      .goes e (.locating ref revision protection "protected-before-delete")
    else .goes e (.deleting ref revision)
  | .locating ref revision reasons outcome =>
    withLease leased <| match e.read ref with
      | .notFound => .goes e (.expiring ref revision)
      | _ => .goes e (.clearing reasons outcome)
  | .clearing reasons outcome => withLease leased (clearTransition e r reasons outcome)
  | .deleting ref revision =>
    withLease leased (.goes (e.setObject ref.key none) (.expiring ref revision))
  | .expiring ref revision => withLease leased (markExpired e r wall ref revision)
  | _ => .waits

/-- `restoreObservation`. -/
def restore : Stage ID Data Digest → Effect ID Data Digest
  | .start =>
    match (e.rows r).bind fun row => row.stored.map (row, ·) with
    | none => .goes e .failed
    | some (row, ref) =>
      if row.availability = .available then
        .goes e (.done ⟨.succeeded, "already-available", []⟩)
      else if row.availability = .expired || row.expiring then .goes e (.done stateChanged)
      else .goes e (.fetching ref row.revision)
  | .fetching ref revision =>
    withLease leased <| match e.read ref with
      | .found data => .goes e (.restoring data revision)
      | .notFound => .goes e (.forsaken revision .missing)
      | .integrity => .goes e (.forsaken revision .corrupt)
  | .forsaken revision state =>
    let outcome : Stage ID Data Digest := .done ⟨state, state.name, []⟩
    withLease leased <| match e.rows r with
      | some row =>
        if row.revision = revision then
          .goes (e.setRow r { row with
            availability := state.availability
            revision := row.revision + 1 }) outcome
        else .goes e outcome
      | none => .goes e outcome
  | .restoring data revision =>
    withLease leased <| match e.rows r with
      | some row =>
        if row.revision = revision && row.availability ≠ .available &&
            row.availability ≠ .expired then
          .goes (e.setRow r { row with
            payload := some data
            availability := .available
            revision := row.revision + 1
            expiring := false }) (.done ⟨.succeeded, "restored", []⟩)
        else .givesUp
      | none => .givesUp
  | _ => .waits

/-- `deleteOrphanArchive`. -/
def deleteOrphan (party : Party ID) (key : Key ID Digest) (digest : Digest) (revision : ℕ) :
    Stage ID Data Digest → Effect ID Data Digest
  | .start => withLease leased (.goes e .locking)
  | .locking =>
    if (e.locks key).isSome then .waits
    else
      match e.publications key with
      | none => .goes e .failed
      | some p =>
        if p.digest = digest && p.revision = revision &&
            (p.state = .publishing || p.state = .orphan) &&
            p.updatedAt ≤ wall - orphanArchiveGrace then
          .goes (e.setLock key party) (.locked p)
        else .goes e (.done stateChanged)
  | .locked p =>
    if e.referenced key then
      match e.finishArchivePublication key p.revision .referenced wall with
      | some e' =>
        .goes (e'.unlock party) (.done ⟨.guarded, "protected", ["archive-reference"]⟩)
      | none => .givesUp
    else .goes e (.unreferenced p)
  | .unreferenced p =>
    withLease leased <| match e.read ⟨key, p.digest, p.size⟩ with
      | .notFound => .goes e (.deleted p "already-missing")
      | _ => .goes e (.condemned p)
  | .condemned p => withLease leased (.goes (e.setObject key none) (.deleted p "deleted"))
  | .deleted p outcome =>
    match e.finishArchivePublication key p.revision .deleted wall with
    | some e' => .goes (e'.unlock party) (.done ⟨.succeeded, outcome, []⟩)
    | none => .givesUp
  | _ => .waits

end Work

def Task.resource : Task ID Digest → Resource ID
  | .archiveHistory id => ⟨.observation, id⟩
  | .expireRawReport id => ⟨.importRecord, id⟩
  | .expireArchive id => ⟨.observation, id⟩
  | .archiveAudit kind id => ⟨.event kind, id⟩
  | .restoreArchive id => ⟨.observation, id⟩
  | .deleteOrphan key _ _ => key.resource

/-- `processRetentionItem`, one turn of it. -/
def Task.turn [DecidableEq Data] (task : Task ID Digest) (e : Evidence ID Data Digest)
    (party : Party ID) (protection : List String) (leased : Bool) (wall : Time)
    (stage : Stage ID Data Digest) : Effect ID Data Digest :=
  match task with
  | .archiveHistory _ => Work.archive e task.resource protection leased wall stage
  | .archiveAudit _ _ => Work.archive e task.resource protection leased wall stage
  | .expireRawReport _ => Work.expire e task.resource protection leased wall stage
  | .expireArchive _ => Work.expire e task.resource protection leased wall stage
  | .restoreArchive _ => Work.restore e task.resource leased stage
  | .deleteOrphan key digest revision =>
    Work.deleteOrphan e leased wall party key digest revision stage

end Aspm.Retention
