import Aspm.Install.StateFile
import Aspm.Lib.EarlyReturn
import Aspm.Storage.Policy

/-!
# The records that are saved

`Execute`, text by text: the plan that a request comes to, the first record of a call, what the
steps do to the record in memory, and the records of a step that is crossed, completed or failed.
What a check, a step or a file says that no record depends on is an answer that comes with the
request or the call, and so is how a save ends.

The records that are given to `saveState` are kept in order (`World.saved`), whether or not they
reach the disk.
-/

namespace Aspm.Install.StateFile

open EarlyReturn (Program Triple leave update)
open Fallible
open Json (Text byteLength)
open SortedMap (Sorted put)
open Storage (lowerAlphanumeric validBucket validRuntimeScopes)
open Strings (alphanumeric split wordOf)
open Utf8 (Bytes)

/-! ## Digests -/

/-- `hex.EncodeToString`. -/
def hexEncode (data : List UInt8) : Text :=
  data.flatMap fun b => [Json.hexDigit (b.toNat / 16), Json.hexDigit (b.toNat % 16)]

theorem lowerHex_hexDigit : ∀ n < 16, lowerHex (Json.hexDigit n) = true := by decide

theorem lowerHex_hexEncode (data : List UInt8) : (hexEncode data).all lowerHex = true := by
  refine List.all_eq_true.mpr fun c mem => ?_
  obtain ⟨b, -, mem⟩ := List.mem_flatMap.mp mem
  have small := b.toNat_lt
  rcases List.mem_pair.mp mem with rfl | rfl
  · exact lowerHex_hexDigit _ (by omega)
  · exact lowerHex_hexDigit _ (Nat.mod_lt _ (by norm_num))

/-! ## Requests -/

/-- An error, with its sentinel and with what is said besides. -/
structure Refusal where
  failure : Failure
  detail : String
deriving DecidableEq

structure Request where
  operation : Operation
  deleteData : Bool
  roles : RuntimeRoles
  /-- The resolved configuration, and what is read from it. -/
  configuration : Bytes
  kind : TargetKind
  version : Text
  bucket : Text
  /-- The manifest of the bundle, and its release. -/
  manifest : Bytes
  release : Text
  /-- What identifies the caller and the target. -/
  caller : Bytes
  target : Bytes
  /-- What else `resolve` says. -/
  resolving : Option Refusal
  /-- What else `verifyBundle` says. -/
  verifying : Option Refusal
  /-- What `kubeCaller` and `inspect` say. -/
  inspecting : Option Refusal

structure Plan where
  id : Text
  configID : Text
  bundleDigest : Text
  currentRelease : Text
  currentBundleDigest : Text
  targetRelease : Text
  changeKind : ChangeKind
  rollbackPolicy : Text
  targetFingerprint : Text
  operation : Operation
  deleteData : Bool
  roles : RuntimeRoles

structure Host where
  /-- `sha256.Sum256`. -/
  sha256 : Bytes → { sum : List UInt8 // sum.length = 32 }
  /-- The JSON of a plan with the digests of the keys that the installer was opened with. -/
  bound : Request → Plan → Bytes
  /-- `containsPrivate`, of the plan. -/
  containsPrivate : Request → Plan → Bool

namespace Host

variable (host : Host) (r : Request)

def digest (data : Bytes) : Text := "sha256:".toList ++ hexEncode (host.sha256 data).val

def configID : Text := "config-sha256:".toList ++ hexEncode (host.sha256 r.configuration).val

def callerIdentity : Text :=
  match r.kind with
  | .linux => []
  | .kubernetes => host.digest r.caller

/-- `inspect`. -/
def fingerprint : Text :=
  match r.kind with
  | .linux => "linux-".toList ++ host.digest r.target
  | .kubernetes => "kubernetes-".toList ++ host.digest r.target

theorem fileDigest_digest (data : Bytes) : fileDigest (host.digest data) = true := by
  have length : (hexEncode (host.sha256 data).val).length = 64 := by
    simp [hexEncode, (host.sha256 data).property]
  have rest : (host.digest data).drop 7 = hexEncode (host.sha256 data).val := rfl
  have begins : "sha256:".toList.isPrefixOf (host.digest data) = true :=
    List.isPrefixOf_iff_prefix.mpr (List.prefix_append _ _)
  rw [fileDigest, rest, begins, length, lowerHex_hexEncode]
  rfl

theorem callerIdentity_valid :
    host.callerIdentity r = [] ∨ fileDigest (host.callerIdentity r) = true := by
  rw [callerIdentity]
  split
  · exact .inl rfl
  · exact .inr (host.fileDigest_digest _)

end Host

/-! ## `resolve` -/

/-- `^[a-z0-9](?:[a-z0-9-]{0,61}[a-z0-9])?$`. -/
def dnsLabel (label : Text) : Bool :=
  label ≠ [] && label.length ≤ 63 && label.all (fun c => lowerAlphanumeric c || c = '-') &&
    label.head?.all lowerAlphanumeric && label.getLast?.all lowerAlphanumeric

/-- `^[A-Za-z0-9][A-Za-z0-9._-]{0,252}$`. -/
def dataKey (key : Text) : Bool :=
  key.length ≤ 253 && wordOf alphanumeric (fun c => alphanumeric c || c ∈ ['.', '_', '-']) key

def validSecretName (name : Text) : Bool :=
  byteLength name ≤ 253 && (split '.' name).all dnsLabel

def reservedKeys : List Text :=
  ["database-url".toList, "postgres-password".toList, "bootstrap-token".toList, "s3.json".toList,
    "s3-access-key".toList, "s3-secret-key".toList]

def validSecret (s : SecretSelection) : Bool :=
  validSecretName s.name && dataKey s.accessKeyKey && dataKey s.secretKeyKey &&
    s.accessKeyKey ≠ s.secretKeyKey && s.name ≠ "aspm-secrets".toList &&
    s.name ≠ "aspm-storage-policy".toList &&
    [s.accessKeyKey, s.secretKeyKey].all fun key => key ∉ reservedKeys

def slash : UInt8 := 47
def backslash : UInt8 := 92

/-- `relativePath` accepts the string.  The bytes it refuses are `:`, NUL, CR and LF. -/
def relativePath (value : Bytes) : Bool :=
  value ≠ [] && value.all (fun b => b ≠ 58 && b ≠ 0 && b ≠ 13 && b ≠ 10) &&
    ((value.map fun b => if b = backslash then slash else b).splitOn slash).all
      fun part => part ≠ [] && part ≠ [46] && part ≠ [46, 46]

/-- Without a byte of `*?[]{}`. -/
def globFree (value : Bytes) : Bool :=
  value.all fun b => b ≠ 42 && b ≠ 63 && b ≠ 91 && b ≠ 93 && b ≠ 123 && b ≠ 125

/-- There is no limit to its length. -/
def validReadinessKey (scope : Text) (key : Bytes) : Bool :=
  (Utf8.encode scope).isPrefixOf key && (Utf8.encode scope).length < key.length &&
    relativePath key && globFree key

def validateSelection (role : RoleSelection) : Bool :=
  validSecret role.s3Secret && validReadinessKey role.rawPrefix role.readinessKey

def distinctSecrets (roles : RuntimeRoles) : Bool :=
  roles.core.s3Secret.name ≠ roles.ingestion.s3Secret.name &&
    roles.core.s3Secret.name ≠ roles.retention.s3Secret.name &&
    roles.ingestion.s3Secret.name ≠ roles.retention.s3Secret.name

def consistentPrefixes (roles : RuntimeRoles) : Bool :=
  roles.core.normalizedPrefix = [] && roles.ingestion.archivePrefix = [] &&
    roles.retention.normalizedPrefix = [] && roles.core.rawPrefix = roles.ingestion.rawPrefix &&
    roles.core.rawPrefix = roles.retention.rawPrefix && roles.core.archivePrefix ≠ [] &&
    roles.core.archivePrefix = roles.retention.archivePrefix

def resolve (r : Request) : Except Refusal Unit := do
  check ⟨.unsupported, ""⟩ (!r.deleteData || r.operation = .uninstall)
  check ⟨.credential, ""⟩ (validateSelection r.roles.core && validateSelection r.roles.ingestion &&
    validateSelection r.roles.retention)
  check ⟨.credential, ""⟩ (distinctSecrets r.roles)
  check ⟨.unsupported, ""⟩ (consistentPrefixes r.roles)
  check ⟨.unsupported, ""⟩ (validBucket r.bucket && validRuntimeScopes r.roles.core.rawPrefix
    r.roles.ingestion.rawPrefix r.roles.ingestion.normalizedPrefix r.roles.retention.archivePrefix)
  check ⟨.unsupported, ""⟩ (r.kind ≠ .linux || !r.deleteData)
  absent r.resolving

/-! ## `prepare` -/

section Prepare

variable (host : Host) (record : StateRecord) (r : Request)

/-- The selected bundle is the one of the record. -/
def sameRelease : Bool :=
  record.release = r.version && record.bundleDigest = host.digest r.manifest

/-- The change that an `apply` comes to, with the release that is there and its bundle digest. -/
def applyKind : Except Refusal (ChangeKind × Text × Text) :=
  if record.targetFingerprint = [] then .ok (.initialInstall, [], [])
  else if record.release = [] then
    if record.state.phase ≠ Phase.applied.text ∨ record.configID ≠ host.configID r ∨
        record.runtimeRoles ≠ r.roles then .error ⟨.unsupported, ""⟩
    else .ok (.checkpointMigration, r.version, host.digest r.manifest)
  else if record.state.phase ≠ Phase.applied.text ∧
      record.state.changeKind = ChangeKind.initialInstall.text ∧ sameRelease host record r then
    .ok (.initialInstall, [], [])
  else if record.state.phase ≠ Phase.applied.text ∧
      record.state.changeKind = ChangeKind.upgrade.text ∧ record.previousRelease ≠ [] ∧
      sameRelease host record r then
    .ok (.upgrade, record.previousRelease, record.previousBundleDigest)
  else if sameRelease host record r then .ok (.reapply, record.release, record.bundleDigest)
  else if record.state.phase ≠ Phase.applied.text then
    .error ⟨.approval, "incomplete release checkpoint does not match the selected signed bundle"⟩
  else .ok (.upgrade, record.release, record.bundleDigest)

def changeKind : Except Refusal (ChangeKind × Text × Text) :=
  match r.operation with
  | .uninstall =>
    if record.release = [] then .error ⟨.unsupported, ""⟩
    else .ok (.uninstall, record.release, record.bundleDigest)
  | .rollback =>
    if record.state.rollbackMode = RollbackMode.dataRestoreRequired.text then
      .error ⟨.restoreRequired, ""⟩
    else if record.state.rollbackMode ≠ RollbackMode.activationEligible.text ∨
        record.previousRelease = [] ∨ record.previousRelease ≠ r.version ∨
        record.previousBundleDigest ≠ host.digest r.manifest ∨
        record.previousConfigID ≠ host.configID r then .error ⟨.unsupported, ""⟩
    else .ok (.rollback, record.release, record.bundleDigest)
  | .apply => applyKind host record r

def rollbackPolicy : ChangeKind → Text
  | .upgrade | .rollback => "activation-before-runtime-or-data-restore".toList
  | .initialInstall | .checkpointMigration | .reapply | .uninstall => "not-applicable".toList

/-- The plan, before it has an id. -/
def makePlan (change : ChangeKind × Text × Text) : Plan where
  id := []
  configID := host.configID r
  bundleDigest := host.digest r.manifest
  currentRelease := change.2.1
  currentBundleDigest := change.2.2
  targetRelease := r.version
  changeKind := change.1
  rollbackPolicy := rollbackPolicy change.1
  targetFingerprint := host.fingerprint r
  operation := r.operation
  deleteData := r.deleteData
  roles := r.roles

/-- The two cases in which a plan gets the id of the checkpoint. -/
def keepsID (plan : Plan) : Bool :=
  record.state.planID ≠ [] && record.targetFingerprint = plan.targetFingerprint &&
    record.callerIdentity = host.callerIdentity r &&
    (plan.changeKind = .reapply ||
      r.operation = .apply &&
        (record.state.phase = Phase.planned.text || record.state.phase = Phase.failed.text) &&
        record.state.changeKind = plan.changeKind.text && record.release = plan.targetRelease &&
        record.bundleDigest = plan.bundleDigest && record.configID = plan.configID &&
        record.runtimeRoles = r.roles)

def identify (plan : Plan) : Except Refusal Plan :=
  if keepsID host record r plan then .ok { plan with id := record.state.planID }
  else
    let named := { plan with id := "deployment-".toList ++ host.digest (host.bound r plan) }
    if host.containsPrivate r named then .error ⟨.credential, ""⟩ else .ok named

end Prepare

structure Prepared where
  plan : Plan
  record : StateRecord
  request : Request
  /-- `caller.digest`. -/
  caller : Text

def prepare (host : Host) (file : Option Bytes) (r : Request) : Except Refusal Prepared := do
  resolve r
  let record ← (loadState file).mapError fun detail => ⟨.other, detail⟩
  check ⟨.unsupported, "legacy caller-bound ownership requires a separately reviewed migration; " ++
    "checkpoint and credentials were preserved"⟩ (record.version ≠ 1)
  check ⟨.restoreRequired, ""⟩ (r.operation ≠ .rollback ||
    record.state.rollbackMode ≠ RollbackMode.dataRestoreRequired.text)
  absent r.verifying
  check ⟨.bundle, ""⟩ (releaseVersion r.release && r.release = r.version)
  absent r.inspecting
  let change ← changeKind host record r
  let plan ← identify host record r (makePlan host r change)
  pure ⟨plan, record, r, host.callerIdentity r⟩

/-! ## What happens to a record -/

namespace StateRecord

variable (record : StateRecord) (p : Prepared)

/-- `syncStateMetadata`. -/
def sync : StateRecord :=
  { record with
    state := { record.state with
      release := record.release
      bundleDigest := record.bundleDigest
      previousRelease := record.previousRelease
      previousBundleDigest := record.previousBundleDigest } }

/-- The release of the plan becomes the one of the record. -/
def adopt : StateRecord :=
  { record with
    release := p.plan.targetRelease, bundleDigest := p.plan.bundleDigest
    configID := p.plan.configID }

/-- No release to go back to. -/
def forget : StateRecord :=
  { record with previousRelease := [], previousBundleDigest := [], previousConfigID := [] }

/-- The release of the record becomes the one to go back to. -/
def remember : StateRecord :=
  { record with
    previousRelease := record.release, previousBundleDigest := record.bundleDigest
    previousConfigID := record.configID }

def mode (m : RollbackMode) : StateRecord :=
  { record with state := { record.state with rollbackMode := m.text } }

/-- A phase without a failure. -/
def enter (phase : Phase) (kind : ChangeKind) : StateRecord :=
  { record with
    state := { record.state with
      planID := p.plan.id, trust := "signed".toList, phase := phase.text, failedStep := []
      failureCode := [], changeKind := kind.text } }

/-- The target and the caller of the plan. -/
def claim : StateRecord :=
  { record with
    version := stateVersion, targetFingerprint := p.plan.targetFingerprint
    callerIdentity := p.caller, runtimeRoles := p.request.roles }

def migrate : StateRecord :=
  ((((record.adopt p).claim p).enter p .applied .checkpointMigration).mode .notNeeded).sync

/-- An applied release is applied again. -/
def reapplies : Bool :=
  record.state.phase = Phase.applied.text && p.plan.changeKind = .reapply &&
    record.release = p.plan.targetRelease && record.bundleDigest = p.plan.bundleDigest

def reset (reapply : Bool) : StateRecord :=
  if reapply || record.state.planID ≠ p.plan.id then
    { record with state := { record.state with completed := [] } }
  else record

/-- What the kind of the change does. -/
def retarget : StateRecord :=
  match p.plan.changeKind with
  | .initialInstall => ((record.adopt p).forget).mode .notNeeded
  | .upgrade =>
    if record.state.planID ≠ p.plan.id then (record.remember.adopt p).mode .activationEligible
    else record
  | .reapply => record.adopt p
  | .uninstall => record.mode .notNeeded
  | .rollback | .checkpointMigration => record

/-- The first checkpoint of a call. -/
def start : StateRecord := (((record.claim p).retarget p).enter p .planned p.plan.changeKind).sync

def cross : StateRecord := (record.mode .dataRestoreRequired).sync

def complete (s : StepName) : StateRecord :=
  if s.text ∈ record.state.completed then record
  else { record with
    state := { record.state with completed := record.state.completed ++ [s.text] } }

def hold : StateRecord :=
  { record with state := { record.state with secretFiles := credentialPaths } }

/-- The record of a unit file that was written. -/
def own (host : Host) (unit : UnitName × Bytes) : StateRecord :=
  { record with ownedUnits := put unit.1.path (host.digest unit.2) record.ownedUnits }

/-- The last checkpoint of a call. -/
def finish : StateRecord :=
  let done := { record with
    state := { record.state with
      phase := if p.request.operation = Operation.uninstall then Phase.uninstalled.text
        else Phase.applied.text } }
  if p.plan.changeKind = .rollback then (((done.adopt p).forget).mode .notNeeded).sync
  else done.sync

/-- `failedStep`. -/
def fail (s : StepName) (cause : Failure) : StateRecord :=
  { record with
    state := { record.state with
      phase := Phase.failed.text, failedStep := s.text
      failureCode := (Record.failureCode cause).text } }.sync

end StateRecord

/-! ## `Execute` -/

/-- How a save ends. -/
inductive Saving where
  | published
  /-- It fails before the rename. -/
  | refused (error : Refusal)
  /-- The process ends in it, or before the next save; `reached` if that is after the rename. -/
  | killed (reached : Bool)
deriving DecidableEq

/-- The errors that a save returns, if it returns. -/
def Saving.errors : Saving → Option (List Refusal)
  | .published => some []
  | .refused error => some [error]
  | .killed _ => none

def Saving.reaches : Saving → Bool
  | .published => true
  | .refused _ => false
  | .killed reached => reached

/-- How a step goes. -/
structure Answer where
  /-- `requireApprovedBundle`. -/
  approved : Option Refusal
  crossing : Saving
  /-- The contents of the unit files that `quadlet-files` writes, up to its failure. -/
  unitFiles : List Bytes
  failure : Option Refusal
  failing : Saving
  completing : Saving
  /-- The output of the progress succeeds. -/
  printed : Bool

structure Call where
  request : Request
  dryRun : Bool
  approval : Text
  /-- `validateOwnedUnits`. -/
  units : Option Refusal
  opening : Saving
  answer : StepName → Answer
  closing : Saving

structure World where
  /-- The file of the checkpoint. -/
  file : Option Bytes
  saved : List StateRecord

def World.save (w : World) (record : StateRecord) (saving : Saving) : World where
  file := if saving.reaches then some (marshal record) else w.file
  saved := w.saved ++ [record]

structure Frame where
  world : World
  record : StateRecord

/-- A call that is over, with what it returned, if the process is still there. -/
structure Ended where
  world : World
  returned : Option (State × List Refusal)

abbrev Prog := Program Ended Frame PUnit

def change (f : StateRecord → StateRecord) : Prog := update fun s => { s with record := f s.record }

def refuse (error : Refusal) : Prog := leave fun s => ⟨s.world, some (s.record.state, [error])⟩

def demand : Option Refusal → Prog
  | none => pure ⟨⟩
  | some error => refuse error

/-- `saveState`. -/
def save (saving : Saving) : Prog := do
  update fun s => { s with world := s.world.save s.record saving }
  if saving = .published then pure ⟨⟩
  else leave fun s => ⟨s.world, saving.errors.map fun errors => (s.record.state, errors)⟩

def failedStep (s : StepName) (saving : Saving) : Option Refusal → Prog
  | none => pure ⟨⟩
  | some cause => leave fun f =>
    ⟨f.world.save (f.record.fail s cause.failure) saving,
      saving.errors.map fun errors => ((f.record.fail s cause.failure).state, cause :: errors)⟩

/-- The order in which `quadlet-files` writes. -/
def quadletUnits : List UnitName := [.postgres, .storage, .core, .ingestion, .retention, .reports]

/-- What running a step does to the record. -/
def runs (host : Host) (a : Answer) : StepName → StateRecord → StateRecord
  | .quadletFiles, record => (quadletUnits.zip a.unitFiles).foldl (StateRecord.own · host) record
  | .protectedCredentials, record | .deleteOwnedData, record =>
    if a.failure = none then record.hold else record
  | _, record => record

def crosses (p : Prepared) (s : StepName) (record : StateRecord) : Bool :=
  s.boundary && (p.plan.changeKind = .upgrade || p.plan.changeKind = .rollback) &&
    record.state.rollbackMode = RollbackMode.activationEligible.text

def skips (reapply : Bool) (s : StepName) (record : StateRecord) : Bool :=
  s ≠ .protectedCredentials && !reapply && s.text ∈ record.state.completed

/-- The checkpoint before an activation boundary. -/
def crossBoundary (p : Prepared) (s : StepName) (saving : Saving) : Prog := do
  let crossing ← EarlyReturn.read fun f => crosses p s f.record
  if crossing then do
    change .cross
    save saving
  else pure ⟨⟩

/-- A step that is not passed over. -/
def take (host : Host) (p : Prepared) (a : Answer) (s : StepName) : Prog := do
  failedStep s a.failing a.approved
  crossBoundary p s a.crossing
  change (runs host a s)
  failedStep s a.failing a.failure
  change (.complete · s)
  save a.completing
  demand (if a.printed then none else some ⟨.other, "installer progress output failed"⟩)

def step (host : Host) (p : Prepared) (reapply : Bool) (answer : StepName → Answer)
    (s : StepName) : Prog := do
  let skipped ← EarlyReturn.read fun f => skips reapply s f.record
  if skipped then pure ⟨⟩ else take host p (answer s) s

def runSteps (host : Host) (p : Prepared) (reapply : Bool) (answer : StepName → Answer) :
    List StepName → Prog
  | [] => pure ⟨⟩
  | s :: rest => do
    step host p reapply answer s
    runSteps host p reapply answer rest

def steps (r : Request) : List StepName :=
  .protectedCredentials :: match r.operation, r.kind with
    | .uninstall, .linux => linuxUninstall
    | .uninstall, .kubernetes => kubernetesUninstall r.deleteData
    | .apply, .linux | .rollback, .linux => linuxApply
    | .apply, .kubernetes | .rollback, .kubernetes => kubernetesApply

/-- The part of `Execute` that saves. -/
def body (host : Host) (p : Prepared) (c : Call) : Prog :=
  if p.plan.changeKind = .checkpointMigration then do
    change (.migrate · p)
    save c.opening
  else do
    let reapply ← EarlyReturn.read fun f => f.record.reapplies p
    change (.reset · p reapply)
    let owns ← EarlyReturn.read fun f => decide (f.record.ownedUnits ≠ [])
    demand (if p.request.kind = .linux && owns then c.units else none)
    let eligible ← EarlyReturn.read fun f =>
      decide (f.record.state.rollbackMode = RollbackMode.activationEligible.text)
    demand (if p.plan.changeKind = .rollback && !eligible then some ⟨.restoreRequired, ""⟩
      else none)
    change (.start · p)
    save c.opening
    runSteps host p reapply c.answer (steps p.request)
    change (.finish · p)
    save c.closing

/-- What a dry run returns. -/
def Plan.preview (plan : Plan) : State :=
  { State.zero with
    phase := Phase.planned.text
    planID := plan.id
    trust := "signed".toList
    release := plan.targetRelease
    bundleDigest := plan.bundleDigest
    previousRelease := plan.currentRelease
    previousBundleDigest := plan.currentBundleDigest
    changeKind := plan.changeKind.text }

/-- The checks of `Execute` that return no state. -/
def approve (p : Prepared) (approval : Text) : Except Refusal Unit := do
  check ⟨.approval, "approved plan does not match the current inspected inputs"⟩
    (approval ≠ [] && approval = p.plan.id)
  check ⟨.approval, "selected target does not match the installed target"⟩
    (p.record.targetFingerprint = [] || p.record.targetFingerprint = p.plan.targetFingerprint)
  check ⟨.approval, ""⟩ (p.request.operation ≠ .uninstall || p.record.targetFingerprint ≠ [] &&
    p.record.configID = p.plan.configID && p.record.runtimeRoles = p.request.roles)

def ended : Except Ended (PUnit × Frame) → Ended
  | .error e => e
  | .ok (_, f) => ⟨f.world, some (f.record.state, [])⟩

def perform (host : Host) (w : World) (c : Call) (p : Prepared) : Ended :=
  if c.dryRun then ⟨w, some (p.plan.preview, [])⟩
  else match approve p c.approval with
    | .error e => ⟨w, some (.zero, [e])⟩
    | .ok _ => ended (body host p c ⟨w, p.record⟩)

def execute (host : Host) (w : World) (c : Call) : Ended :=
  match prepare host w.file c.request with
  | .error e => ⟨w, some (.zero, [e])⟩
  | .ok p => perform host w c p

/-- The calls one after the other, where there is no checkpoint at first. -/
def run (host : Host) (calls : List Call) : World :=
  calls.foldl (fun w c => (execute host w c).world) ⟨none, []⟩

def plan (host : Host) (w : World) (r : Request) : Except Refusal Plan :=
  (prepare host w.file r).map Prepared.plan

def status (w : World) : Except String State :=
  (loadState w.file).map fun record => record.sync.state

end Aspm.Install.StateFile
