import Aspm.Lib.Machine
import Aspm.Lib.RowTable
import Aspm.Correlation.Group

/-!
# Merges, splits and edits of findings

The transactions of `mergeFindings` and `splitFinding` on the correlation groups of one
workspace, and with them those that change a finding by itself: `patchFinding`, `addNote`,
`bulkPatchFindings` and the writes of an import.

A transaction is taken apart where another one can come in between: each `SELECT` is an
action, with what it read kept in the progress of the transaction, and so are the writes,
which nobody sees before the commit.  The writes of a merge or of a split are one action.
Under the locks that it holds then, the statements between them could not observe anything
else, but this is a theorem and not an assumption: only the reads that decide which group is
written are taken before the writes, and they keep what they read.

The visibility of a finding is tested by a sub-query in the statement that locks it.  The
sub-query reads the groups at the start of the statement, before any wait for the lock, and a
waiting statement does not run it again.  So an edit has two actions for each finding:
`inspect` for the start of the statement and `seize` for the grant of the lock.

What a decision says is left out, except for the request: no condition here reads it.  A
request may fail anywhere, for reasons outside of this model too (a decision that is not
admitted, a role that was lost); then it ends with `abort`.
-/

namespace Aspm.Correlation

open RowTable

section Store

variable (FindingID GroupID : Type)

/-- The requests that change findings by themselves. -/
inductive Edit where
  | patch (finding : FindingID)
  | note (finding : FindingID)
  | bulkPatch (findingIDs : List FindingID)
deriving DecidableEq

inductive Work where
  | correlate (request : Request FindingID)
  | edit (edit : Edit FindingID)
deriving DecidableEq

/-- A transaction: one of any number that serve the same request. -/
structure Tx where
  number : ℕ
  work : Work FindingID
deriving DecidableEq

/-- The group of a finding, as `activeCorrelationMeta` returns it. -/
structure CorrelationMeta where
  id : GroupID
  primary : FindingID
  revision : ℕ
deriving DecidableEq

/-- How far a transaction has come. -/
inductive Progress where
  /-- The idempotency key is locked, and not used yet. -/
  | begun
  | lockedFirst
  | lockedBoth
  /-- A merge has read the group of the primary. -/
  | readPrimary (primaryGroup : Option (CorrelationMeta FindingID GroupID))
  /-- A merge has read the group of the other finding, too. -/
  | readOther (primaryGroup otherGroup : Option (CorrelationMeta FindingID GroupID))
  /-- A split has read the group that its primary leads. -/
  | readLed (id : GroupID) (revision : ℕ)
  /-- Everything is written but not committed, `group` for the group `id`. -/
  | written (id : GroupID) (group : Group FindingID)
  /-- An edit that has locked and written the findings `done`, and may have inspected
  another one. -/
  | editing (done : List FindingID) (inspected : Option FindingID)
  /-- A bulk patch that has read all of its findings once more. -/
  | rechecked
deriving DecidableEq

/-- A finding that a committed edit changed, and whether it was visible at the commit. -/
structure EditRecord where
  edit : Edit FindingID
  finding : FindingID
  visible : Bool
deriving DecidableEq

structure Store where
  findings : Table FindingID Finding (Tx FindingID)
  groups : GroupID → Option (Group FindingID)
  groupIDs : List GroupID
  /-- The transaction that generated a group id. -/
  generatedBy : GroupID → Option (Tx FindingID)
  /-- The advisory locks on idempotency keys. -/
  keys : String → Option (Tx FindingID)
  progress : Tx FindingID → Option (Progress FindingID GroupID)
  /-- The findings that edits changed, in the order of the commits. -/
  edits : List (EditRecord FindingID)

/-- The statements of a transaction, the writes of a merge or a split being one. -/
inductive Statement where
  | lockFirst
  | lockSecond
  | readPrimary
  | readOther
  | readLed
  | write (newID : GroupID)
  | inspect
  | seize
  | recheck
deriving DecidableEq

inductive Action where
  | importFinding (finding : FindingID) (assetID sourceID : String)
  | importEvidence (finding : FindingID)
  | start (tx : Tx FindingID)
  | execute (tx : Tx FindingID) (statement : Statement GroupID)
  | commit (tx : Tx FindingID)
  | abort (tx : Tx FindingID)
deriving DecidableEq

end Store

def maxBulkFindings : ℕ := 100

variable {FindingID GroupID : Type} [LinearOrder FindingID] [DecidableEq GroupID]

namespace Edit

/-- The findings of an edit, in the order in which it locks them. -/
def findings : Edit FindingID → List FindingID
  | .patch f => [f]
  | .note f => [f]
  | .bulkPatch ids => ids.insertionSort (· ≤ ·)

def valid : Edit FindingID → Bool
  | .bulkPatch ids => ids ≠ [] && ids.length ≤ maxBulkFindings && ids.Nodup
  | _ => true

/-- Only `bulkPatchFindings` reads its findings again before it commits. -/
def rechecks : Edit FindingID → Bool
  | .bulkPatch _ => true
  | _ => false

end Edit

namespace Request

/-- `lockCorrelationFindings` locks the findings in the order of their ids. -/
def first (request : Request FindingID) : FindingID := min request.primary request.other

def second (request : Request FindingID) : FindingID := max request.primary request.other

/-- The findings are at the revisions that the request was made for. -/
def current (request : Request FindingID) (primary other : Finding) : Bool :=
  primary.revisions = request.primaryRevisions && other.revisions = request.otherRevisions

/-- The comparison with which a merge goes on after its locks. -/
def comparable (request : Request FindingID) (primary other : Finding) : Bool :=
  primary.assetID = other.assetID && primary.sourceID ≠ other.sourceID &&
    request.current primary other

end Request

/-- `SET decision_revision=decision_revision+1`. -/
def Finding.advanceDecision (row : Finding) : Finding :=
  { row with decisionRevision := row.decisionRevision + 1 }

def Finding.advanceEvidence (row : Finding) : Finding :=
  { row with evidenceRevision := row.evidenceRevision + 1 }

namespace Store

def empty : Store FindingID GroupID where
  findings := ⟨0, fun _ => none, fun _ => 0, fun _ => none⟩
  groups _ := none
  groupIDs := []
  generatedBy _ := none
  keys _ := none
  progress _ := none
  edits := []

/-! ## Reads -/

/-- `workVisible`: no active group has the finding as an active member beside its primary. -/
def workVisible (q : Store FindingID GroupID) (f : FindingID) : Bool :=
  !q.groupIDs.any fun id => (q.groups id).any fun group =>
    group.state = .active && f ∈ group.activeMemberIDs && group.primary ≠ f

def activeCorrelationMeta (q : Store FindingID GroupID) (f : FindingID) :
    Option (CorrelationMeta FindingID GroupID) :=
  q.groupIDs.findSome? fun id => (q.groups id).bind fun group =>
    if group.state = .active && f ∈ group.activeMemberIDs then
      some ⟨id, group.primary, group.revision⟩
    else none

/-- The group that the primary leads, as `splitFinding` selects it. -/
def ledBy (q : Store FindingID GroupID) (primary : FindingID) : Option (GroupID × ℕ) :=
  q.groupIDs.findSome? fun id => (q.groups id).bind fun group =>
    if group.primary = primary && group.state = .active then some (id, group.revision) else none

/-- `correlationReplay`: the group of the event that has the key, if it is of the same
request. -/
def correlationReplay (q : Store FindingID GroupID) (request : Request FindingID) :
    Except RequestError (Option GroupID) :=
  let events := q.groupIDs.flatMap fun id =>
    ((q.groups id).map (·.events)).getD [] |>.map fun event => (id, event)
  match events.find? fun e => e.2.request.idempotencyKey = request.idempotencyKey with
  | none => .ok none
  | some (id, event) => if event.request = request then .ok (some id) else .error .conflict

/-! ## Writes -/

/-- The rest of `mergeFindings` after its reads: the group that it writes. -/
def merge (q : Store FindingID GroupID) (request : Request FindingID)
    (primaryGroup otherGroup : Option (CorrelationMeta FindingID GroupID)) (newID : GroupID) :
    Except RequestError (GroupID × Group FindingID) :=
  if otherGroup.isSome || primaryGroup.any (·.primary ≠ request.primary) then .error .conflict
  else
    match primaryGroup with
    | none =>
      if request.correlationRevision ≠ 0 then .error .conflict
      else .ok (newID, .create request)
    | some found =>
      match q.groups found.id with
      | none => .error .noRows
      | some group =>
        if group.state ≠ .active then .error .noRows
        else if request.correlationRevision ≠ group.revision then .error .conflict
        else if group.members.any
          (Group.refuses (sourceOf q.findings.rows) request.other) then .error .conflict
        else if 63 < group.members.length then .error .tooLarge
        else .ok (found.id, group.extend request)

/-- The rest of `splitFinding` after it has read which group its primary leads. -/
def split (q : Store FindingID GroupID) (request : Request FindingID) (id : GroupID)
    (revision : ℕ) (primary member : Finding) : Except RequestError (Group FindingID) :=
  if revision ≠ request.correlationRevision then .error .conflict
  else
    match q.groups id with
    | none => .error .conflict
    | some group =>
      if group.activeMemberIDs.length < 2 then .error .conflict
      else if request.other ∉ group.activeMemberIDs then .error .notFound
      else if !request.current primary member then .error .conflict
      else if (group.members.filter (group.released request)).length ≠ group.expectedReleased
        then .error .conflict
      else if group.revision ≠ revision || group.state ≠ .active then .error .conflict
      else .ok (group.release request)

/-! ## Steps -/

def proceed (q : Store FindingID GroupID) (tx : Tx FindingID)
    (progress : Progress FindingID GroupID) : Store FindingID GroupID :=
  { q with progress := Function.update q.progress tx (some progress) }

/-- The transaction ends, and its advisory lock with it. -/
def finish (q : Store FindingID GroupID) (tx : Tx FindingID) : Store FindingID GroupID :=
  { q with
    progress := Function.update q.progress tx none
    keys := fun key => (q.keys key).filter (· ≠ tx) }

/-- `FOR UPDATE` of one row, once it is free. -/
def lockRow (q : Store FindingID GroupID) (tx : Tx FindingID) (f : FindingID)
    (progress : Progress FindingID GroupID) : Option (Store FindingID GroupID) :=
  match q.findings.locks f, q.findings.rows f with
  | none, some _ => some ({ q with findings := q.findings.lock tx f }.proceed tx progress)
  | _, _ => none

def start (q : Store FindingID GroupID) (tx : Tx FindingID) : Option (Store FindingID GroupID) :=
  if (q.progress tx).isSome then none
  else
    match tx.work with
    | .correlate request =>
      if request.valid && (q.keys request.idempotencyKey).isNone then
        match q.correlationReplay request with
        | .ok none =>
          some ({ q with
            keys := Function.update q.keys request.idempotencyKey (some tx) }.proceed tx .begun)
        | _ => none
      else none
    | .edit edit => if edit.valid then some (q.proceed tx (.editing [] none)) else none

/-- The statements of a merge or of a split. -/
def correlate (q : Store FindingID GroupID) (tx : Tx FindingID) (request : Request FindingID) :
    Statement GroupID → Progress FindingID GroupID → Option (Store FindingID GroupID)
  | .lockFirst, .begun => q.lockRow tx request.first .lockedFirst
  | .lockSecond, .lockedFirst => q.lockRow tx request.second .lockedBoth
  | .readPrimary, .lockedBoth =>
    match q.findings.rows request.primary, q.findings.rows request.other with
    | some primary, some other =>
      if request.isMerge && request.comparable primary other then
        some (q.proceed tx (.readPrimary (q.activeCorrelationMeta request.primary)))
      else none
    | _, _ => none
  | .readOther, .readPrimary primaryGroup =>
    some (q.proceed tx (.readOther primaryGroup (q.activeCorrelationMeta request.other)))
  | .readLed, .lockedBoth =>
    if request.isMerge then none
    else (q.ledBy request.primary).map fun (id, revision) => q.proceed tx (.readLed id revision)
  | .write newID, .readOther primaryGroup otherGroup =>
    match q.findings.rows request.primary,
        q.merge request primaryGroup otherGroup newID with
    | some primary, .ok (id, group) =>
      -- a group id is random, and never generated twice
      if primaryGroup.isNone && (q.generatedBy newID).isSome then none
      else some ({ q with
        findings := q.findings.stage tx request.primary primary.advanceDecision
        generatedBy := if primaryGroup.isNone then
          Function.update q.generatedBy newID (some tx) else q.generatedBy }.proceed tx
            (.written id group))
    | _, _ => none
  | .write _, .readLed id revision =>
    match q.findings.rows request.primary, q.findings.rows request.other with
    | some primary, some member =>
      match q.split request id revision primary member with
      | .ok group =>
        some ({ q with
          findings := (q.findings.stage tx request.primary primary.advanceDecision).stage tx
            request.other member.advanceDecision }.proceed tx (.written id group))
      | .error _ => none
    | _, _ => none
  | _, _ => none

/-- The statements of an edit. -/
def edit (q : Store FindingID GroupID) (tx : Tx FindingID) (edit : Edit FindingID) :
    Statement GroupID → Progress FindingID GroupID → Option (Store FindingID GroupID)
  | .inspect, .editing done none =>
    match edit.findings[done.length]? with
    | some f =>
      if (q.findings.rows f).isSome && q.workVisible f then
        some (q.proceed tx (.editing done (some f)))
      else none
    | none => none
  | .seize, .editing done (some f) =>
    match q.findings.locks f, q.findings.rows f with
    | none, some row =>
      some ({ q with findings := q.findings.stage tx f row.advanceDecision }.proceed tx
        (.editing (done ++ [f]) none))
    | _, _ => none
  | .recheck, .editing done none =>
    if edit.rechecks && done = edit.findings && done.all q.workVisible then
      some (q.proceed tx .rechecked)
    else none
  | _, _ => none

def commit (q : Store FindingID GroupID) (tx : Tx FindingID) :
    Work FindingID → Progress FindingID GroupID → Option (Store FindingID GroupID)
  | .correlate _, .written id group =>
    some ({ q with
      findings := q.findings.commit tx
      groups := Function.update q.groups id (some group)
      groupIDs := if id ∈ q.groupIDs then q.groupIDs else q.groupIDs ++ [id] }.finish tx)
  | .edit edit, progress =>
    if progress = .rechecked || (!edit.rechecks && progress = .editing edit.findings none) then
      some ({ q with
        findings := q.findings.commit tx
        edits := q.edits ++ edit.findings.map fun f =>
          (⟨edit, f, q.workVisible f⟩ : EditRecord FindingID) }.finish tx)
    else none
  | _, _ => none

/-- **One action of one party.** -/
def step (q : Store FindingID GroupID) :
    Action FindingID GroupID → Option (Store FindingID GroupID)
  | .importFinding f assetID sourceID =>
    if (q.findings.rows f).isSome then none
    else some { q with findings := q.findings.insert f ⟨assetID, sourceID, 1, 1⟩ }
  | .importEvidence f =>
    if (q.findings.locks f).isSome then none
    else some { q with findings := q.findings.update [f] Finding.advanceEvidence }
  | .start tx => q.start tx
  | .execute tx statement =>
    (q.progress tx).bind fun progress =>
      match tx.work with
      | .correlate request => q.correlate tx request statement progress
      | .edit e => q.edit tx e statement progress
  | .commit tx => (q.progress tx).bind (q.commit tx tx.work)
  | .abort tx =>
    if (q.progress tx).isSome then some ({ q with findings := q.findings.abort tx }.finish tx)
    else none

/-- The states that interleavings of all parties reach. -/
def Reachable (q : Store FindingID GroupID) : Prop :=
  Machine.Reachable step (· = empty) q

end Store

end Aspm.Correlation
