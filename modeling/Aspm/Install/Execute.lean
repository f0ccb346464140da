import Aspm.Install.Plan
import Aspm.Lib.Machine

/-!
# Executing a plan

`Execute` writes a checkpoint, runs the steps of the plan one after the other with a
checkpoint after each, and writes a last checkpoint.  A step is a few effects: a file is
written, a native command is issued.  Any of them can fail, which ends the call with the
checkpoint of a failed step, and the process can die between any two of them.

A step whose name is in the checkpoint's list of completed steps is passed over.  The list is
emptied when the plan id changes, or when a release that was applied is applied again.

A call that ends with an error and could not write its checkpoint leaves on disk what a dead
process leaves, so `kill` stands for both.
-/

namespace Aspm.Install

open Json (Text byteLength)

/-! ## The disk -/

/-- `credentialMaterial`, without the secrets that are only passed on. -/
structure Material where
  fingerprint : Text
  references : Text
  keys : RoleCredentials
deriving DecidableEq

structure Disk where
  checkpoint : Option Record
  units : UnitName → Option Text
  material : Option Material
  /-- Whether `etc/aspm/s3.json` is there. -/
  policy : Bool

namespace Disk

/-- `loadState`. -/
def record (d : Disk) : Record := d.checkpoint.getD .fresh

def save (d : Disk) (record : Record) : Disk := { d with checkpoint := some record }

/-- A host on which nothing was installed. -/
def blank : Disk where
  checkpoint := none
  units := fun _ => none
  material := none
  policy := false

@[simp] theorem record_save (d : Disk) (record : Record) : (d.save record).record = record := rfl

@[simp] theorem units_save (d : Disk) (record : Record) : (d.save record).units = d.units := rfl

@[simp] theorem material_save (d : Disk) (record : Record) :
    (d.save record).material = d.material := rfl

@[simp] theorem policy_save (d : Disk) (record : Record) : (d.save record).policy = d.policy := rfl

end Disk

/-- `i.read(ctx, path, 64<<10)` succeeds on these bytes. -/
def readable (data : Text) : Bool := data ≠ [] && byteLength data ≤ unitLimit

/-- One round of `validateOwnedUnits`: a file that is gone is passed over. -/
def ownedUnitValid (record : Record) (d : Disk) (u : UnitName) : Bool :=
  match record.ownedUnits u, d.units u with
  | some expected, some data => readable data && data = expected
  | _, _ => true

def validateOwnedUnits (record : Record) (d : Disk) : Bool :=
  activationUnits.all (ownedUnitValid record d)

/-- The owned units, in the order of `activationUnits`. -/
def ownedList (record : Record) : List UnitName :=
  activationUnits.filter fun u => (record.ownedUnits u).isSome

/-! ## Steps and their effects -/

inductive Command where
  | removePolicySecret
  | createPolicySecret
  | daemonReload
  | start (u : UnitName)
  /-- The loop of `waitForPodman`. -/
  | ready (u : UnitName)
  | stop (us : List UnitName)
  | applyNamespace
  | applyDatabaseSecret
  | applyRoleSecret (role : UnitName)
  | applyPolicySecret
  | helmUpgrade
  | helmUninstall
  | deleteVolumes
  | deleteSecrets
deriving DecidableEq

inductive Effect where
  /-- `materialize`, up to the file of the credentials. -/
  | material
  | policy
  | environments
  | readPolicy
  | native (c : Command)
  | unit (u : UnitName)
  | networkFiles
  | requireOwned
  | validate
  | remove (u : UnitName)
  | values
deriving DecidableEq

def effects (record : Record) : StepName → List Effect
  | .protectedCredentials => [.material, .policy, .environments]
  | .storagePolicySecret => [.readPolicy, .native .removePolicySecret, .native .createPolicySecret]
  | .quadletFiles =>
    [.unit .postgres, .unit .storage, .unit .core, .unit .ingestion, .unit .retention,
      .unit .reports, .networkFiles]
  | .systemManagerReload | .reloadAfterUninstall => [.native .daemonReload]
  | .startPostgres => [.native (.start .postgres)]
  | .waitPostgresReady => [.native (.ready .postgres)]
  | .startStorage => [.native (.start .storage)]
  | .waitStorageReady => [.native (.ready .storage)]
  | .startCore => [.native (.start .core)]
  | .waitCoreReady => [.native (.ready .core)]
  | .startIngestion => [.native (.start .ingestion)]
  | .waitIngestionReady => [.native (.ready .ingestion)]
  | .startRetention => [.native (.start .retention)]
  | .waitRetentionReady => [.native (.ready .retention)]
  | .startReports => [.native (.start .reports)]
  | .waitReportsReady => [.native (.ready .reports)]
  | .stopOwnedServices => [.requireOwned, .validate, .native (.stop (ownedList record))]
  | .removeOwnedActivationDefinitions => .validate :: (ownedList record).map .remove
  | .namespaceObject => [.native .applyNamespace]
  | .databaseBootstrapSecret => [.native .applyDatabaseSecret]
  | .coreStorageSecret => [.native (.applyRoleSecret .core)]
  | .ingestionStorageSecret => [.native (.applyRoleSecret .ingestion)]
  | .retentionStorageSecret => [.native (.applyRoleSecret .retention)]
  | .operatorStoragePolicy => [.readPolicy, .native .applyPolicySecret]
  | .helmUpgrade => [.values, .native .helmUpgrade]
  | .helmUninstall => [.native .helmUninstall]
  | .deleteOwnedData => [.native .deleteVolumes, .native .deleteSecrets]

/-- `activationBoundary`. -/
def StepName.boundary : StepName → Bool
  | .startCore | .helmUpgrade => true
  | _ => false

def linuxApply : List StepName :=
  [.storagePolicySecret, .quadletFiles, .systemManagerReload, .startPostgres,
    .waitPostgresReady, .startStorage, .waitStorageReady, .startCore, .waitCoreReady,
    .startIngestion, .waitIngestionReady, .startRetention, .waitRetentionReady, .startReports,
    .waitReportsReady]

def linuxUninstall : List StepName :=
  [.stopOwnedServices, .removeOwnedActivationDefinitions, .reloadAfterUninstall]

def kubernetesApply : List StepName :=
  [.namespaceObject, .databaseBootstrapSecret, .coreStorageSecret, .ingestionStorageSecret,
    .retentionStorageSecret, .operatorStoragePolicy, .helmUpgrade]

def kubernetesUninstall (deleteData : Bool) : List StepName :=
  .helmUninstall :: if deleteData then [.deleteOwnedData] else []

def steps (r : Request) : List StepName :=
  .protectedCredentials :: match r.operation, r.config.kind with
    | .uninstall, .linux => linuxUninstall
    | .uninstall, .kubernetes => kubernetesUninstall r.deleteData
    | .apply, .linux | .rollback, .linux => linuxApply
    | .apply, .kubernetes | .rollback, .kubernetes => kubernetesApply

/-- `materialize`, up to the file of the credentials. -/
def materialize (host : Host) (r : Request) (d : Disk) : Except Failure Material :=
  match d.material with
  | some m =>
    if m.fingerprint ≠ r.fingerprint ∨ m.references ≠ r.config.references ∨
        m.keys.core ≠ r.roleKeys.core ∨ m.keys.ingestion ≠ r.roleKeys.ingestion then
      .error .credential
    else if m.keys.retention = ⟨[], []⟩ then
      -- credentials that were written before there was a retention role
      if r.operation ≠ .apply then .error .approval
      else match host.environments r with
        | some failure => .error failure
        | none => .ok { m with keys.retention := r.roleKeys.retention }
    else if m.keys.retention ≠ r.roleKeys.retention then .error .credential
    else match host.environments r with
      | some failure => .error failure
      | none => .ok m
  | none =>
    if r.operation ≠ .apply then .error .approval
    else match host.secrets r with
      | some failure => .error failure
      | none =>
        match host.environments r with
        | some failure => .error failure
        | none => .ok ⟨r.fingerprint, r.config.references, r.roleKeys⟩

/-- The limit of a file that is written. -/
def maxInputBytes : ℕ := 1024 * 1024

/-- An effect, on the disk and on the record in memory. -/
def perform (host : Host) (r : Request) (d : Disk) (record : Record) :
    Effect → Except Failure (Disk × Record)
  | .material => (materialize host r d).map fun m => ({ d with material := some m }, record)
  | .policy => .ok ({ d with policy := true }, record)
  | .environments | .native _ | .networkFiles | .values => .ok (d, record)
  | .readPolicy => if d.policy then .ok (d, record) else .error .credential
  | .unit u =>
    match renderUnit host r.bundle r.roles u with
    | .error failure => .error failure
    | .ok data =>
      if maxInputBytes < byteLength data then .error .other
      else .ok ({ d with units := Function.update d.units u (some data) },
        { record with ownedUnits := Function.update record.ownedUnits u (some data) })
  | .requireOwned => if ownedList record = [] then .error .approval else .ok (d, record)
  | .validate => if validateOwnedUnits record d then .ok (d, record) else .error .approval
  | .remove u => .ok ({ d with units := Function.update d.units u none }, record)

/-! ## `Execute` -/

/-- A call that was prepared, with what it found out about the checkpoint. -/
structure Call where
  prepared : Prepared
  /-- An applied release is applied again. -/
  reapply : Bool
deriving DecidableEq

namespace Call

abbrev request (c : Call) : Request := c.prepared.request
abbrev plan (c : Call) : Plan := c.prepared.plan
abbrev id (c : Call) : PlanID := c.prepared.id

end Call

namespace Record

/-- `checkpoint-migration` gives an old checkpoint its release, and is done. -/
def migrate (record : Record) (p : Prepared) : Record :=
  { record with
    version := stateVersion
    bundle := some p.plan.bundle
    fingerprint := some p.plan.fingerprint
    config := some p.plan.config
    caller := p.request.caller
    roles := some p.request.roles
    planID := some p.id
    phase := .applied
    failure := none
    kind := some .checkpointMigration
    mode := some .notNeeded }

/-- The part of the first checkpoint that the kind of the change decides. -/
def retarget (record : Record) (p : Prepared) : Record :=
  match p.plan.kind with
  | .initialInstall =>
    { record with
      bundle := some p.plan.bundle, config := some p.plan.config, previous := none
      mode := some .notNeeded }
  | .upgrade =>
    if record.planID = some p.id then record
    else
      { record with
        previous := record.lineage, bundle := some p.plan.bundle, config := some p.plan.config
        mode := some .activationEligible }
  | .reapply => { record with bundle := some p.plan.bundle, config := some p.plan.config }
  | .uninstall => { record with mode := some .notNeeded }
  | .rollback | .checkpointMigration => record

/-- The first checkpoint of a call. -/
def start (record : Record) (c : Call) : Record :=
  { record.retarget c.prepared with
    version := stateVersion
    fingerprint := some c.plan.fingerprint
    caller := c.request.caller
    roles := some c.request.roles
    completed := if c.reapply ∨ record.planID ≠ some c.id then [] else record.completed
    planID := some c.id
    phase := .planned
    failure := none
    kind := some c.plan.kind }

/-- A step is passed over. -/
def skips (record : Record) (c : Call) (s : StepName) : Bool :=
  s ≠ .protectedCredentials && !c.reapply && s ∈ record.completed

/-- A boundary step of an upgrade or a rollback is checkpointed before it runs. -/
def crosses (record : Record) (c : Call) (s : StepName) : Bool :=
  s.boundary && (c.plan.kind = .upgrade || c.plan.kind = .rollback) &&
    record.mode = some .activationEligible

def cross (record : Record) : Record := { record with mode := some .dataRestoreRequired }

def complete (record : Record) (s : StepName) : Record :=
  { record with
    completed := if s ∈ record.completed then record.completed else record.completed ++ [s] }

/-- The last checkpoint of a call. -/
def finish (record : Record) (c : Call) : Record :=
  let done := { record with
    phase := if c.request.operation = .uninstall then .uninstalled else .applied }
  if c.plan.kind = .rollback then
    { done with
      bundle := some c.plan.bundle, config := some c.plan.config, previous := none
      mode := some .notNeeded }
  else done

section Finish

variable (record : Record) (c : Call)

@[simp] theorem finish_planID : (record.finish c).planID = record.planID := by
  by_cases kind : c.plan.kind = .rollback <;> simp [finish, kind]

@[simp] theorem finish_kind : (record.finish c).kind = record.kind := by
  by_cases kind : c.plan.kind = .rollback <;> simp [finish, kind]

@[simp] theorem finish_completed : (record.finish c).completed = record.completed := by
  by_cases kind : c.plan.kind = .rollback <;> simp [finish, kind]

@[simp] theorem finish_roles : (record.finish c).roles = record.roles := by
  by_cases kind : c.plan.kind = .rollback <;> simp [finish, kind]

@[simp] theorem finish_ownedUnits : (record.finish c).ownedUnits = record.ownedUnits := by
  by_cases kind : c.plan.kind = .rollback <;> simp [finish, kind]

@[simp] theorem finish_phase : (record.finish c).phase =
    if c.request.operation = .uninstall then .uninstalled else .applied := by
  by_cases kind : c.plan.kind = .rollback <;> simp [finish, kind]

end Finish

def failureCode : Failure → FailureCode
  | .command => .commandFailed
  | .approval => .approvalMismatch
  | .bundle => .bundleInvalid
  | .credential | .restoreRequired | .unsupported | .other => .stepFailed

/-- `failedStep`. -/
def fail (record : Record) (s : StepName) (cause : Failure) : Record :=
  { record with phase := .failed, failure := some (s, failureCode cause) }

end Record

/-- `Execute` up to its first checkpoint. -/
def enter (host : Host) (d : Disk) (r : Request) (approval : Option PlanID) :
    Except Failure Call := do
  let record := d.record
  let p ← prepare host record r
  Fallible.check .approval (approval = some p.id)
  Fallible.check .approval
    (record.fingerprint = none || record.fingerprint = some p.plan.fingerprint)
  if p.plan.kind = .checkpointMigration then return ⟨p, false⟩
  else do
    Fallible.check .approval (r.operation ≠ .uninstall ||
      (record.fingerprint ≠ none && record.config = some p.plan.config &&
        record.roles = some r.roles))
    Fallible.check .approval (r.config.kind ≠ .linux || validateOwnedUnits record d)
    Fallible.check .restoreRequired
      (p.plan.kind ≠ .rollback || record.mode = some .activationEligible)
    return ⟨p, record.phase = .applied && p.plan.kind = .reapply &&
      record.bundle = some p.plan.bundle⟩

/-! ## The machine -/

/-- Where a process stands. -/
inductive Stage where
  | idle
  /-- Before the first checkpoint. -/
  | opening (c : Call)
  /-- Before the steps of `todo`. -/
  | looping (c : Call) (record : Record) (todo : List StepName)
  /-- In a step, with the effects that are to come. -/
  | running (c : Call) (record : Record) (s : StepName) (pending : List Effect)
      (todo : List StepName)

inductive Entry where
  /-- `Plan` returned. -/
  | planned (r : Request) (id : PlanID)
  | rejected (r : Request) (failure : Failure)
  /-- An approved call wrote its first checkpoint. -/
  | began (r : Request) (id : PlanID)
  /-- A step was run. -/
  | ran (r : Request) (s : StepName)
  | issued (r : Request) (c : Command)
  | failed (r : Request) (s : StepName)
  | returned (r : Request) (phase : Phase)
deriving DecidableEq

/-- The log has the newest entry first. -/
structure World where
  disk : Disk
  stage : Stage
  log : List Entry

inductive Action where
  | plan (r : Request)
  | execute (r : Request) (approval : Option PlanID)
  /-- The process takes its next step, with success. -/
  | proceed
  /-- What the process does next fails; a command may have had its effect. -/
  | fail (cause : Failure)
  | kill
deriving DecidableEq

def World.blank : World := ⟨.blank, .idle, []⟩

/-- The entry that an effect leaves. -/
def Effect.entries (r : Request) : Effect → List Entry
  | .native c => [.issued r c]
  | _ => []

def failStep (w : World) (c : Call) (record : Record) (s : StepName) (cause : Failure) : World where
  disk := w.disk.save (record.fail s cause)
  stage := .idle
  log := .failed c.request s :: w.log

/-- The first checkpoint.  A migration has no steps and returns. -/
def openCall (w : World) (c : Call) : World :=
  if c.plan.kind = .checkpointMigration then
    { disk := w.disk.save (w.disk.record.migrate c.prepared), stage := .idle
      log := .returned c.request .applied :: .began c.request c.id :: w.log }
  else
    let record := w.disk.record.start c
    { disk := w.disk.save record, stage := .looping c record (steps c.request)
      log := .began c.request c.id :: w.log }

/-- The loop comes to a step. -/
def enterStep (w : World) (c : Call) (record : Record) (s : StepName) (todo : List StepName) :
    World :=
  if record.skips c s then { w with stage := .looping c record todo }
  else if record.crosses c s then
    { disk := w.disk.save record.cross, stage := .running c record.cross s (effects record s) todo
      log := .ran c.request s :: w.log }
  else
    { w with
      stage := .running c record s (effects record s) todo, log := .ran c.request s :: w.log }

def performNext (host : Host) (w : World) (c : Call) (record : Record) (s : StepName)
    (e : Effect) (pending : List Effect) (todo : List StepName) : World :=
  match perform host c.request w.disk record e with
  | .error cause => failStep w c record s cause
  | .ok (disk, record) =>
    { disk := disk, stage := .running c record s pending todo
      log := e.entries c.request ++ w.log }

def completeStep (w : World) (c : Call) (record : Record) (s : StepName)
    (todo : List StepName) : World :=
  { w with
    disk := w.disk.save (record.complete s), stage := .looping c (record.complete s) todo }

def finishCall (w : World) (c : Call) (record : Record) : World where
  disk := w.disk.save (record.finish c)
  stage := .idle
  log := .returned c.request (record.finish c).phase :: w.log

def proceed (host : Host) (w : World) : Option World :=
  match w.stage with
  | .idle => none
  | .opening c => some (openCall w c)
  | .looping c record [] => some (finishCall w c record)
  | .looping c record (s :: todo) => some (enterStep w c record s todo)
  | .running c record s (e :: pending) todo => some (performNext host w c record s e pending todo)
  | .running c record s [] todo => some (completeStep w c record s todo)

/-- A step that is not passed over fails, at its start by `requireApprovedBundle`, or later. -/
def failNext (w : World) (cause : Failure) : Option World :=
  match w.stage with
  | .idle | .opening _ | .looping _ _ [] => none
  | .looping c record (s :: _) =>
    if record.skips c s then none else some (failStep w c record s cause)
  | .running c record s _ _ => some (failStep w c record s cause)

def step (host : Host) (w : World) : Action → Option World
  | .plan r =>
    match w.stage, prepare host w.disk.record r with
    | .idle, .ok p => some { w with log := .planned r p.id :: w.log }
    | .idle, .error failure => some { w with log := .rejected r failure :: w.log }
    | _, _ => none
  | .execute r approval =>
    match w.stage, enter host w.disk r approval with
    | .idle, .ok c => some { w with stage := .opening c }
    | .idle, .error failure => some { w with log := .rejected r failure :: w.log }
    | _, _ => none
  | .proceed => proceed host w
  | .fail cause => failNext w cause
  | .kill => some { w with stage := .idle }

/-! ## What a step does -/

/-- The steps of the machine, one by one. -/
inductive Taken (host : Host) (w : World) : Action → World → Prop where
  | planned {r : Request} {p : Prepared} (idle : w.stage = .idle)
      (prepared : prepare host w.disk.record r = .ok p) :
      Taken host w (.plan r) { w with log := .planned r p.id :: w.log }
  | planRefused {r : Request} {failure : Failure} (idle : w.stage = .idle)
      (refused : prepare host w.disk.record r = .error failure) :
      Taken host w (.plan r) { w with log := .rejected r failure :: w.log }
  | entered {r : Request} {approval : Option PlanID} {c : Call} (idle : w.stage = .idle)
      (admitted : enter host w.disk r approval = .ok c) :
      Taken host w (.execute r approval) { w with stage := .opening c }
  | refused {r : Request} {approval : Option PlanID} {failure : Failure} (idle : w.stage = .idle)
      (refused : enter host w.disk r approval = .error failure) :
      Taken host w (.execute r approval) { w with log := .rejected r failure :: w.log }
  | opened {c : Call} (at_ : w.stage = .opening c) : Taken host w .proceed (openCall w c)
  | finished {c : Call} {record : Record} (at_ : w.stage = .looping c record []) :
      Taken host w .proceed (finishCall w c record)
  | stepped {c : Call} {record : Record} {s : StepName} {todo : List StepName}
      (at_ : w.stage = .looping c record (s :: todo)) :
      Taken host w .proceed (enterStep w c record s todo)
  | performed {c : Call} {record : Record} {s : StepName} {e : Effect} {pending : List Effect}
      {todo : List StepName} (at_ : w.stage = .running c record s (e :: pending) todo) :
      Taken host w .proceed (performNext host w c record s e pending todo)
  | completed {c : Call} {record : Record} {s : StepName} {todo : List StepName}
      (at_ : w.stage = .running c record s [] todo) :
      Taken host w .proceed (completeStep w c record s todo)
  | refusedStep {c : Call} {record : Record} {s : StepName} {todo : List StepName}
      {cause : Failure} (at_ : w.stage = .looping c record (s :: todo))
      (runs : record.skips c s = false) :
      Taken host w (.fail cause) (failStep w c record s cause)
  | failed {c : Call} {record : Record} {s : StepName} {pending : List Effect}
      {todo : List StepName} {cause : Failure}
      (at_ : w.stage = .running c record s pending todo) :
      Taken host w (.fail cause) (failStep w c record s cause)
  | killed : Taken host w .kill { w with stage := .idle }

theorem taken_of_step {host : Host} {w w' : World} {a : Action}
    (taken : step host w a = some w') : Taken host w a w' := by
  cases a with
  | plan r =>
    simp only [step] at taken
    split at taken
    · next p idle prepared => cases taken; exact .planned idle prepared
    · next failure idle refused => cases taken; exact .planRefused idle refused
    · cases taken
  | execute r approval =>
    simp only [step] at taken
    split at taken
    · next c idle admitted => cases taken; exact .entered idle admitted
    · next failure idle refused => cases taken; exact .refused idle refused
    · cases taken
  | proceed =>
    simp only [step, proceed] at taken
    split at taken
    · cases taken
    · next at_ => cases taken; exact .opened at_
    · next at_ => cases taken; exact .finished at_
    · next at_ => cases taken; exact .stepped at_
    · next at_ => cases taken; exact .performed at_
    · next at_ => cases taken; exact .completed at_
  | fail cause =>
    simp only [step, failNext] at taken
    split at taken
    · cases taken
    · cases taken
    · cases taken
    · next at_ =>
        split at taken
        · cases taken
        · next runs => cases taken; exact .refusedStep at_ (Bool.eq_false_iff.mpr runs)
    · next at_ => cases taken; exact .failed at_
  | kill =>
    cases taken
    exact .killed

end Aspm.Install
