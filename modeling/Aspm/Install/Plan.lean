import Aspm.Lib.Strings
import Aspm.Lib.Fallible

/-!
# What the installer plans

A request names an operation, a configuration, a signed bundle and the roles of the runtime;
the caller's credentials, the trust key and the target come with it.  `prepare` compares it
with the checkpoint on disk and makes a plan.  A plan has an id, which a caller approves.

The id is a digest of the plan and of what the caller brought along.  Digests are injective
here: the digest of a value is the value, so a bundle stands for its digest, a configuration
for its id, and a unit file for the digest that proves who wrote it.  But an id is not
always computed.  In two cases `prepare` hands out the one in the checkpoint, and what these
cases compare is less than what the digest covers.
-/

namespace Aspm.Install

open Json (Text byteLength)

/-! ## Requests -/

structure SecretSelection where
  name : Text
  accessKeyKey : Text
  secretKeyKey : Text
deriving DecidableEq

structure RoleSelection where
  s3Secret : SecretSelection
  rawPrefix : Text
  readinessKey : Text
  normalizedPrefix : Text
  archivePrefix : Text
deriving DecidableEq

structure RuntimeRoles where
  core : RoleSelection
  ingestion : RoleSelection
  retention : RoleSelection
deriving DecidableEq

structure RoleCredential where
  accessKey : Text
  secretKey : Text
deriving DecidableEq

structure RoleCredentials where
  core : RoleCredential
  ingestion : RoleCredential
  retention : RoleCredential
deriving DecidableEq

inductive TargetKind where
  | linux
  | kubernetes
deriving DecidableEq

/-- A resolved configuration.  `rest` is what the installer does not look at by itself. -/
structure Configuration where
  /-- `Release.Version`. -/
  version : Text
  /-- `Target.Kind`. -/
  kind : TargetKind
  /-- The references of the bootstrap, database and object store secrets. -/
  references : Text
  rest : Text
deriving DecidableEq

/-- The unit files of an activation. -/
inductive UnitName where
  | core
  | ingestion
  | retention
  | reports
  | storage
  | postgres
deriving DecidableEq

def activationUnits : List UnitName :=
  [.core, .ingestion, .retention, .reports, .storage, .postgres]

@[simp] theorem mem_activationUnits (u : UnitName) : u ∈ activationUnits := by
  cases u <;> decide

/-- A manifest with the files that it digests.  `rest` stands for all but the sources of the
unit files. -/
structure Bundle where
  release : Text
  application : Text
  postgres : Text
  storage : Text
  units : List (UnitName × Text)
  rest : Text
deriving DecidableEq

namespace Bundle

/-- `p.bundle.files["deploy/quadlet/" + unit.name]`. -/
def source (b : Bundle) (u : UnitName) : Text := (b.units.lookup u).getD []

/-- `p.plan.Images[unit.image]`. -/
def image (b : Bundle) : UnitName → Text
  | .postgres => b.postgres
  | .storage => b.storage
  | .core | .ingestion | .retention | .reports => b.application

end Bundle

inductive Operation where
  | apply
  | rollback
  | uninstall
deriving DecidableEq

/-- An intent, with the options of the installer that it is given to and with the target as
it is inspected.  On Linux there is no caller identity. -/
structure Request where
  operation : Operation
  deleteData : Bool
  config : Configuration
  bundle : Bundle
  roles : RuntimeRoles
  roleKeys : RoleCredentials
  trustKey : Text
  caller : Option Text
  fingerprint : Text
deriving DecidableEq

inductive Failure where
  | approval
  | bundle
  | credential
  | command
  | restoreRequired
  | unsupported
  /-- An error without a sentinel. -/
  | other
deriving DecidableEq

/-! ## The checkpoint -/

inductive Phase where
  | notStarted
  | planned
  | failed
  | applied
  | uninstalled
deriving DecidableEq

inductive ChangeKind where
  | initialInstall
  | checkpointMigration
  | reapply
  | upgrade
  | rollback
  | uninstall
deriving DecidableEq

inductive RollbackMode where
  | notNeeded
  | activationEligible
  | dataRestoreRequired
deriving DecidableEq

/-- A plan without its id.  The trust, the policy of a rollback, the images and the target
release are functions of these. -/
structure Plan where
  config : Configuration
  bundle : Bundle
  /-- `CurrentRelease` and `CurrentBundleDigest`. -/
  current : Option Bundle
  kind : ChangeKind
  fingerprint : Text
  operation : Operation
  deleteData : Bool
  roles : RuntimeRoles
deriving DecidableEq

/-- `"deployment-" + digest(…)`. -/
structure PlanID where
  plan : Plan
  roleKeys : RoleCredentials
  trustKey : Text
  caller : Option Text
deriving DecidableEq

inductive StepName where
  | protectedCredentials
  -- `linuxApply`
  | storagePolicySecret
  | quadletFiles
  | systemManagerReload
  | startPostgres
  | waitPostgresReady
  | startStorage
  | waitStorageReady
  | startCore
  | waitCoreReady
  | startIngestion
  | waitIngestionReady
  | startRetention
  | waitRetentionReady
  | startReports
  | waitReportsReady
  -- `linuxUninstall`
  | stopOwnedServices
  | removeOwnedActivationDefinitions
  | reloadAfterUninstall
  -- `kubernetesApply`
  | namespaceObject
  | databaseBootstrapSecret
  | coreStorageSecret
  | ingestionStorageSecret
  | retentionStorageSecret
  | operatorStoragePolicy
  | helmUpgrade
  -- `kubernetesUninstall`
  | helmUninstall
  | deleteOwnedData
deriving DecidableEq

/-- `failedStep`'s `FailureCode`. -/
inductive FailureCode where
  | stepFailed
  | commandFailed
  | approvalMismatch
  | bundleInvalid
deriving DecidableEq

/-- `stateRecord` with its `State`.  An empty text is `none`; a release comes with its bundle
digest. -/
structure Record where
  version : ℕ
  fingerprint : Option Text
  config : Option Configuration
  bundle : Option Bundle
  previous : Option (Bundle × Configuration)
  caller : Option Text
  roles : Option RuntimeRoles
  phase : Phase
  planID : Option PlanID
  kind : Option ChangeKind
  mode : Option RollbackMode
  failure : Option (StepName × FailureCode)
  completed : List StepName
  ownedUnits : UnitName → Option Text

def stateVersion : ℕ := 3

namespace Record

/-- What `loadState` returns where there is no checkpoint. -/
def fresh : Record where
  version := stateVersion
  fingerprint := none
  config := none
  bundle := none
  previous := none
  caller := none
  roles := none
  phase := .notStarted
  planID := none
  kind := none
  mode := none
  failure := none
  completed := []
  ownedUnits := fun _ => none

/-- The release that is there, as an upgrade remembers it for a rollback. -/
def lineage (record : Record) : Option (Bundle × Configuration) :=
  match record.bundle, record.config with
  | some bundle, some config => some (bundle, config)
  | _, _ => none

end Record

/-! ## The host -/

/-- `quadlet.Config`; the environment file is a function of the role. -/
structure QuadletConfig where
  role : UnitName
  rawPrefix : Text
  readinessKey : Text
  normalizedPrefix : Text
  archivePrefix : Text
deriving DecidableEq

/-- The selection that a unit is rendered with.  The images of the database and the object
store are not rendered. -/
def quadletConfig (roles : RuntimeRoles) : UnitName → Option QuadletConfig
  | .core => some ⟨.core, roles.core.rawPrefix, roles.core.readinessKey, [],
      roles.core.archivePrefix⟩
  | .ingestion => some ⟨.ingestion, roles.ingestion.rawPrefix, roles.ingestion.readinessKey,
      roles.ingestion.normalizedPrefix, []⟩
  | .retention => some ⟨.retention, roles.retention.rawPrefix, roles.retention.readinessKey, [],
      roles.retention.archivePrefix⟩
  | .reports => some ⟨.reports, [], [], [], []⟩
  | .storage | .postgres => none

/-- What the installer calls and does not decide itself. -/
structure Host where
  /-- `resolve`, after its test of the operation. -/
  resolves : Request → Option Failure
  /-- `verifyBundle`, apart from its test of the release. -/
  trusts : Request → Bool
  /-- `kubeCaller` and `inspect`. -/
  inspects : Request → Option Failure
  /-- `containsPrivate`, of the plan. -/
  leaks : Request → Plan → Bool
  /-- The secrets that the references name can be read and are usable. -/
  secrets : Request → Option Failure
  /-- `storagepolicy.BuildRuntime` and `roleEnvironments`. -/
  environments : Request → Option Failure
  /-- `quadlet.RenderRole`. -/
  renderRole : Text → QuadletConfig → Option Text
  /-- The pattern `pinnedImage`. -/
  pinnedImage : Text → Bool

/-- The limit of a unit's source, and of reading a unit file back. -/
def unitLimit : ℕ := 64 * 1024

/-- `strings.ReplaceAll(source, "\r\n", "\n")`. -/
def normalizeLines : Text → Text
  | '\r' :: '\n' :: rest => '\n' :: normalizeLines rest
  | c :: rest => c :: normalizeLines rest
  | [] => []

/-- The section that a line belongs to. -/
def sectionAt (current trimmed : Text) : Text :=
  if ['['].isPrefixOf trimmed && [']'].isSuffixOf trimmed then trimmed else current

/-- The loop of `pinImage` over the lines, from the section so far; it counts the images that
it sets. -/
def pinLines (image : Text) : Text → List Text → Except Failure (List Text × ℕ)
  | _, [] => .ok ([], 0)
  | current, line :: lines =>
    let trimmed := Strings.trimSpace line
    let current := sectionAt current trimmed
    if "Image=".toList.isPrefixOf trimmed then
      if current ≠ "[Container]".toList then .error .unsupported
      else (pinLines image current lines).map fun (rest, count) =>
        (("Image=".toList ++ image) :: rest, count + 1)
    else (pinLines image current lines).map fun (rest, count) => (line :: rest, count)

def pinImage (host : Host) (source image : Text) : Except Failure Text :=
  if !host.pinnedImage image || unitLimit < byteLength source then .error .bundle
  else match pinLines image [] (Strings.split '\n' (normalizeLines source)) with
    | .error failure => .error failure
    | .ok (lines, count) =>
      if count = 1 then .ok (Strings.join '\n' lines) else .error .unsupported

/-- A unit file of a bundle, as `quadlet-files` writes it. -/
def renderUnit (host : Host) (bundle : Bundle) (roles : RuntimeRoles) (u : UnitName) :
    Except Failure Text :=
  match quadletConfig roles u with
  | none => pinImage host (bundle.source u) (bundle.image u)
  | some selection =>
    match host.renderRole (bundle.source u) selection with
    | none => .error .unsupported
    | some data => pinImage host data (bundle.image u)

theorem exists_mem_of_pinLines {image current : Text} {lines pinned : List Text} {count : ℕ}
    (result : pinLines image current lines = .ok (pinned, count)) (pos : 0 < count) :
    "Image=".toList ++ image ∈ pinned := by
  induction lines generalizing current pinned count with
  | nil =>
    cases result
    exact absurd pos (lt_irrefl 0)
  | cons line lines ih =>
    simp only [pinLines] at result
    split at result
    · split at result
      · cases result
      · obtain ⟨⟨rest, counted⟩, -, same⟩ := Fallible.map_eq_ok.mp result
        cases same
        exact List.mem_cons_self
    · obtain ⟨⟨rest, counted⟩, inner, same⟩ := Fallible.map_eq_ok.mp result
      cases same
      exact List.mem_cons_of_mem _ (ih inner pos)

/-- A pinned unit has at least the line of its image. -/
theorem pinImage_ne_nil {host : Host} {source image text : Text}
    (result : pinImage host source image = .ok text) : text ≠ [] := by
  unfold pinImage at result
  split at result
  · cases result
  · split at result
    · cases result
    · rename_i lines count pinned
      split at result
      · next one =>
          cases result
          exact Strings.join_ne_nil (exists_mem_of_pinLines pinned (by omega)) (by simp)
      · cases result

theorem renderUnit_ne_nil {host : Host} {bundle : Bundle} {roles : RuntimeRoles} {u : UnitName}
    {text : Text} (result : renderUnit host bundle roles u = .ok text) : text ≠ [] := by
  unfold renderUnit at result
  split at result
  · exact pinImage_ne_nil result
  · split at result
    · cases result
    · exact pinImage_ne_nil result

/-! ## `prepare` -/

/-- The change that an `apply` comes to, with the release that is there now. -/
def applyKind (record : Record) (r : Request) : Except Failure (ChangeKind × Option Bundle) :=
  match record.fingerprint, record.bundle with
  | none, _ => .ok (.initialInstall, none)
  | some _, none =>
    if record.phase ≠ .applied ∨ record.config ≠ some r.config ∨
        record.roles ≠ some r.roles then .error .unsupported
    else .ok (.checkpointMigration, some r.bundle)
  | some _, some current =>
    if record.phase ≠ .applied ∧ record.kind = some .initialInstall ∧ current = r.bundle then
      .ok (.initialInstall, none)
    else if record.phase ≠ .applied ∧ record.kind = some .upgrade ∧
        record.previous ≠ none ∧ current = r.bundle then
      .ok (.upgrade, record.previous.map Prod.fst)
    else if current = r.bundle then .ok (.reapply, some current)
    else if record.phase ≠ .applied then .error .approval
    else .ok (.upgrade, some current)

def changeKind (record : Record) (r : Request) : Except Failure (ChangeKind × Option Bundle) :=
  match r.operation with
  | .uninstall =>
    if record.bundle = none then .error .unsupported else .ok (.uninstall, record.bundle)
  | .rollback =>
    if record.mode = some .dataRestoreRequired then .error .restoreRequired
    else if record.mode ≠ some .activationEligible ∨
        record.previous ≠ some (r.bundle, r.config) then .error .unsupported
    else .ok (.rollback, record.bundle)
  | .apply => applyKind record r

def makePlan (r : Request) (kind : ChangeKind) (current : Option Bundle) : Plan where
  config := r.config
  bundle := r.bundle
  current := current
  kind := kind
  fingerprint := r.fingerprint
  operation := r.operation
  deleteData := r.deleteData
  roles := r.roles

/-- The id that is a digest. -/
def boundID (r : Request) (plan : Plan) : PlanID := ⟨plan, r.roleKeys, r.trustKey, r.caller⟩

/-- A reapplied release keeps the id of the checkpoint. -/
def keepsReapplied (record : Record) (r : Request) (kind : ChangeKind) : Bool :=
  kind = .reapply && record.fingerprint = some r.fingerprint && record.caller = r.caller

/-- So does an `apply` that takes an unfinished one up again. -/
def keepsUnfinished (record : Record) (r : Request) (kind : ChangeKind) : Bool :=
  r.operation = .apply && (record.phase = .planned || record.phase = .failed) &&
    record.kind = some kind && record.bundle = some r.bundle && record.config = some r.config &&
    record.fingerprint = some r.fingerprint && record.caller = r.caller &&
    record.roles = some r.roles

/-- The id of the checkpoint, where it is handed out again. -/
def keptID (record : Record) (r : Request) (kind : ChangeKind) : Option PlanID :=
  if keepsReapplied record r kind || keepsUnfinished record r kind then record.planID else none

structure Prepared where
  request : Request
  plan : Plan
  id : PlanID
deriving DecidableEq

/-- The plan's id, and that the plan shows no secret. -/
def identify (host : Host) (record : Record) (r : Request) (plan : Plan) :
    Except Failure PlanID :=
  match keptID record r plan.kind with
  | some id => .ok id
  | none => if host.leaks r plan then .error .credential else .ok (boundID r plan)

def prepare (host : Host) (record : Record) (r : Request) : Except Failure Prepared := do
  Fallible.check .unsupported (!r.deleteData || r.operation = .uninstall)
  Fallible.absent (host.resolves r)
  Fallible.check .unsupported (!r.deleteData || r.config.kind = .kubernetes)
  Fallible.check .unsupported (record.version ≠ 1)
  Fallible.check .restoreRequired
    (r.operation ≠ .rollback || record.mode ≠ some .dataRestoreRequired)
  Fallible.check .bundle (host.trusts r)
  Fallible.check .bundle (r.bundle.release = r.config.version)
  Fallible.absent (host.inspects r)
  let change ← changeKind record r
  let plan := makePlan r change.1 change.2
  let id ← identify host record r plan
  return ⟨r, plan, id⟩

/-! ## What a prepared plan says -/

/-- The tests of a request that no checkpoint has a part in. -/
structure Host.Accepts (host : Host) (r : Request) : Prop where
  deletes : (!r.deleteData || decide (r.operation = .uninstall)) = true
  resolved : host.resolves r = none
  clusters : (!r.deleteData || decide (r.config.kind = .kubernetes)) = true
  trusted : host.trusts r = true
  release : r.bundle.release = r.config.version
  inspected : host.inspects r = none

section Prepare

variable {host : Host} {record : Record} {r : Request} {p : Prepared}

theorem prepare_eq_ok :
    prepare host record r = .ok p ↔ host.Accepts r ∧ record.version ≠ 1 ∧
      (r.operation ≠ .rollback ∨ record.mode ≠ some .dataRestoreRequired) ∧
      ∃ kind current, changeKind record r = .ok (kind, current) ∧
        ∃ id, identify host record r (makePlan r kind current) = .ok id ∧
          ⟨r, makePlan r kind current, id⟩ = p := by
  simp only [prepare, Fallible.bind_eq_ok, Fallible.check_eq_ok, Fallible.absent_eq_ok,
    Fallible.pure_eq_ok, exists_const, decide_eq_true_eq, Prod.exists, Bool.or_eq_true]
  constructor
  · rintro ⟨deletes, resolved, clusters, version, mode, trusted, release, inspected, change⟩
    exact ⟨⟨by simpa using deletes, resolved, by simpa using clusters, trusted, release,
      inspected⟩, version, mode, change⟩
  · rintro ⟨accepts, version, mode, change⟩
    exact ⟨by simpa using accepts.deletes, accepts.resolved, by simpa using accepts.clusters,
      version, mode, accepts.trusted, accepts.release, accepts.inspected, change⟩

theorem identify_eq_ok {plan : Plan} {id : PlanID} (result : identify host record r plan = .ok id) :
    keptID record r plan.kind = some id ∨ id = boundID r plan := by
  unfold identify at result
  split at result
  · next kept =>
      cases result
      exact .inl kept
  · split at result
    · cases result
    · cases result
      exact .inr rfl

theorem planID_of_keptID {kind : ChangeKind} {id : PlanID}
    (kept : keptID record r kind = some id) :
    record.planID = some id ∧
      (keepsReapplied record r kind = true ∨ keepsUnfinished record r kind = true) := by
  unfold keptID at kept
  split at kept
  · next keeps => exact ⟨kept, Bool.or_eq_true_iff.mp keeps⟩
  · cases kept

/-- A rollback whose target the checkpoint does not offer is refused, and with one of two
errors. -/
theorem prepare_rollback (accepts : host.Accepts r) (version : record.version ≠ 1)
    (operation : r.operation = .rollback)
    (refused : record.mode = some .activationEligible →
      record.previous ≠ some (r.bundle, r.config)) :
    prepare host record r = .error .restoreRequired ∨
      prepare host record r = .error .unsupported := by
  have deletes : r.deleteData = false := by
    have := accepts.deletes
    simpa [operation] using this
  by_cases restored : record.mode = some .dataRestoreRequired
  · left
    simp [prepare, deletes, operation, accepts.resolved, version, restored, Fallible.check,
      Fallible.absent, bind, Except.bind]
  · right
    have change : changeKind record r = .error .unsupported := by
      simp only [changeKind, operation, if_neg restored]
      rw [if_pos]
      by_cases eligible : record.mode = some .activationEligible
      · exact .inr (refused eligible)
      · exact .inl eligible
    simp [prepare, deletes, operation, accepts.resolved, version, restored, accepts.trusted,
      accepts.release, accepts.inspected, change, Fallible.check, Fallible.absent, bind,
      Except.bind]

end Prepare

end Aspm.Install
