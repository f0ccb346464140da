import Aspm.Install.Execute
import Aspm.Lib.JsonRead
import Aspm.Lib.JsonSlots

/-!
# The file of the checkpoint

`Plan` and `Execute` speak of checkpoints whose digests are what they digest and whose releases
come with their bundles.  Here a checkpoint is the `stateRecord` that `saveState` writes, text by
text, with the mirror of its release in `State`, and `loadState` is what it takes to read one.

A text is a list of characters where the installer has made it from digests, names of its own or
JSON that it has read.  The readiness keys are the only texts that come from the caller and are
not limited to ASCII: they are strings of bytes, and `json.Marshal` replaces what is not UTF-8 in
them (`StateRecord.clean`).

The reader of the file knows the spelling that `json.Marshal` has, and no other.
-/

namespace Aspm.Install

open Json (Text Datum Numeral Layout Slot)

variable {record : StateRecord}

/-! ## Names -/

def Phase.text (v : Phase) : Text := String.toList <|
  match v with
  | .notStarted => "not-started"
  | .planned => "planned"
  | .failed => "failed"
  | .applied => "applied"
  | .uninstalled => "uninstalled"

def ChangeKind.text (v : ChangeKind) : Text := String.toList <|
  match v with
  | .initialInstall => "initial-install"
  | .checkpointMigration => "checkpoint-migration"
  | .reapply => "reapply"
  | .upgrade => "upgrade"
  | .rollback => "rollback"
  | .uninstall => "uninstall"

def RollbackMode.text (v : RollbackMode) : Text := String.toList <|
  match v with
  | .notNeeded => "not-needed"
  | .activationEligible => "activation-eligible"
  | .dataRestoreRequired => "data-restore-required"

def FailureCode.text (v : FailureCode) : Text := String.toList <|
  match v with
  | .stepFailed => "step-failed"
  | .commandFailed => "command-failed"
  | .approvalMismatch => "approval-mismatch"
  | .bundleInvalid => "bundle-invalid"

def StepName.text (v : StepName) : Text := String.toList <|
  match v with
  | .protectedCredentials => "protected-credentials"
  | .storagePolicySecret => "storage-policy-secret"
  | .quadletFiles => "quadlet-files"
  | .systemManagerReload => "system-manager-reload"
  | .startPostgres => "start-postgres"
  | .waitPostgresReady => "wait-postgres-ready"
  | .startStorage => "start-storage"
  | .waitStorageReady => "wait-storage-ready"
  | .startCore => "start-core"
  | .waitCoreReady => "wait-core-ready"
  | .startIngestion => "start-ingestion"
  | .waitIngestionReady => "wait-ingestion-ready"
  | .startRetention => "start-retention"
  | .waitRetentionReady => "wait-retention-ready"
  | .startReports => "start-reports"
  | .waitReportsReady => "wait-reports-ready"
  | .stopOwnedServices => "stop-owned-services"
  | .removeOwnedActivationDefinitions => "remove-owned-activation-definitions"
  | .reloadAfterUninstall => "reload-after-uninstall"
  | .namespaceObject => "namespace"
  | .databaseBootstrapSecret => "database-bootstrap-secret"
  | .coreStorageSecret => "core-storage-secret"
  | .ingestionStorageSecret => "ingestion-storage-secret"
  | .retentionStorageSecret => "retention-storage-secret"
  | .operatorStoragePolicy => "operator-storage-policy"
  | .helmUpgrade => "helm-upgrade"
  | .helmUninstall => "helm-uninstall"
  | .deleteOwnedData => "delete-owned-data"

def UnitName.file (u : UnitName) : Text := String.toList <|
  match u with
  | .core => "aspm-core.container"
  | .ingestion => "aspm-ingestion.container"
  | .retention => "aspm-retention.container"
  | .reports => "aspm-reports.container"
  | .storage => "aspm-storage.container"
  | .postgres => "aspm-postgres.container"

def UnitName.path (u : UnitName) : Text := "etc/containers/systemd/".toList ++ u.file

namespace StateFile

open SortedMap (Sorted)
open Strings (alphanumeric split cut)
open Utf8 (Bytes)
open Fallible

def ownedActivationPath (path : Text) : Bool := activationUnits.any fun u => path = u.path

def credentialPaths : List Text :=
  ["etc/aspm/installer-credentials.json", "etc/aspm/core.env", "etc/aspm/ingestion.env",
    "etc/aspm/retention.env", "etc/aspm/reports.env", "etc/aspm/postgres.env",
    "etc/aspm/s3.json"].map String.toList

/-! ## Patterns -/

def lowerHex (c : Char) : Bool := ('0' ≤ c && c ≤ '9') || ('a' ≤ c && c ≤ 'f')

/-- `^sha256:[a-f0-9]{64}$`. -/
def fileDigest (value : Text) : Bool :=
  "sha256:".toList.isPrefixOf value && (value.drop 7).length = 64 && (value.drop 7).all lowerHex

/-- `[0-9]+\.[0-9]+\.[0-9]+`. -/
def versionCore (value : Text) : Bool :=
  (split '.' value).length = 3 && (split '.' value).all fun p => p ≠ [] && p.all Json.isDigit

/-- `^[0-9]+\.[0-9]+\.[0-9]+(?:-[0-9A-Za-z]+(?:\.[0-9A-Za-z]+)*)?$`. -/
def releaseVersion (value : Text) : Bool :=
  match cut '-' value with
  | none => versionCore value
  | some (core, pre) =>
    versionCore core && (split '.' pre).all fun p => p ≠ [] && p.all alphanumeric

def validChangeKind (value : Text) : Bool :=
  value = [] || [ChangeKind.initialInstall, .checkpointMigration, .reapply, .upgrade, .rollback,
    .uninstall].any fun kind => value = kind.text

def validRollbackMode (value : Text) : Bool :=
  value = [] || [RollbackMode.notNeeded, .activationEligible, .dataRestoreRequired].any
    fun mode => value = mode.text

theorem validChangeKind_text (kind : ChangeKind) : validChangeKind kind.text = true := by
  cases kind <;> decide

theorem validRollbackMode_text (mode : RollbackMode) : validRollbackMode mode.text = true := by
  cases mode <;> decide

/-! ## The record -/

structure SecretSelection where
  name : Text
  accessKeyKey : Text
  secretKeyKey : Text
deriving DecidableEq

structure RoleSelection where
  s3Secret : SecretSelection
  rawPrefix : Text
  readinessKey : Bytes
  normalizedPrefix : Text
  archivePrefix : Text
deriving DecidableEq

structure RuntimeRoles where
  core : RoleSelection
  ingestion : RoleSelection
  retention : RoleSelection
deriving DecidableEq

structure State where
  phase : Text
  planID : Text
  trust : Text
  release : Text
  bundleDigest : Text
  previousRelease : Text
  previousBundleDigest : Text
  changeKind : Text
  rollbackMode : Text
  failedStep : Text
  failureCode : Text
  completed : List Text
  secretFiles : List Text
deriving DecidableEq

structure StateRecord where
  version : ℕ
  targetFingerprint : Text
  configID : Text
  release : Text
  bundleDigest : Text
  previousRelease : Text
  previousBundleDigest : Text
  previousConfigID : Text
  callerIdentity : Text
  runtimeRoles : RuntimeRoles
  state : State
  ownedUnits : List (Text × Text)
deriving DecidableEq

def SecretSelection.zero : SecretSelection := ⟨[], [], []⟩

def RoleSelection.zero : RoleSelection := ⟨.zero, [], [], [], []⟩

def RuntimeRoles.zero : RuntimeRoles := ⟨.zero, .zero, .zero⟩

def State.zero : State := ⟨[], [], [], [], [], [], [], [], [], [], [], [], []⟩

def StateRecord.zero : StateRecord := ⟨0, [], [], [], [], [], [], [], [], .zero, .zero, []⟩

/-! ## Its fields in the file -/

def secretSelectionLayout : Layout Numeral SecretSelection .zero where
  slots := [
    .text "name" (·.name) (fun v s => { s with name := v }),
    .text "accessKeyKey" (·.accessKeyKey) (fun v s => { s with accessKeyKey := v }),
    .text "secretKeyKey" (·.secretKeyKey) (fun v s => { s with secretKeyKey := v })]
  names := by decide
  apart := by simp [Slot.text]

def roleSelectionLayout : Layout Numeral RoleSelection .zero where
  slots := [
    .struct "s3Secret" secretSelectionLayout (·.s3Secret) (fun v s => { s with s3Secret := v }),
    .text "rawPrefix" (·.rawPrefix) (fun v s => { s with rawPrefix := v }),
    .bytes "readinessKey" (·.readinessKey) (fun v s => { s with readinessKey := v }),
    .textOmitted "normalizedPrefix" (·.normalizedPrefix)
      (fun v s => { s with normalizedPrefix := v }),
    .textOmitted "archivePrefix" (·.archivePrefix) (fun v s => { s with archivePrefix := v })]
  names := by decide
  apart := by simp [Slot.text, Slot.textOmitted, Slot.bytes, Slot.struct]

def runtimeRolesLayout : Layout Numeral RuntimeRoles .zero where
  slots := [
    .struct "core" roleSelectionLayout (·.core) (fun v s => { s with core := v }),
    .struct "ingestion" roleSelectionLayout (·.ingestion) (fun v s => { s with ingestion := v }),
    .struct "retention" roleSelectionLayout (·.retention) (fun v s => { s with retention := v })]
  names := by decide
  apart := by simp [Slot.struct]

def stateLayout : Layout Numeral State .zero where
  slots := [
    .text "phase" (·.phase) (fun v s => { s with phase := v }),
    .text "planId" (·.planID) (fun v s => { s with planID := v }),
    .text "trust" (·.trust) (fun v s => { s with trust := v }),
    .textOmitted "release" (·.release) (fun v s => { s with release := v }),
    .textOmitted "bundleDigest" (·.bundleDigest) (fun v s => { s with bundleDigest := v }),
    .textOmitted "previousRelease" (·.previousRelease) (fun v s => { s with previousRelease := v }),
    .textOmitted "previousBundleDigest" (·.previousBundleDigest)
      (fun v s => { s with previousBundleDigest := v }),
    .textOmitted "changeKind" (·.changeKind) (fun v s => { s with changeKind := v }),
    .textOmitted "rollbackMode" (·.rollbackMode) (fun v s => { s with rollbackMode := v }),
    .textOmitted "failedStep" (·.failedStep) (fun v s => { s with failedStep := v }),
    .textOmitted "failureCode" (·.failureCode) (fun v s => { s with failureCode := v }),
    .texts "completed" (·.completed) (fun v s => { s with completed := v }),
    .texts "secretFiles" (·.secretFiles) (fun v s => { s with secretFiles := v })]
  names := by decide
  apart := by simp [Slot.text, Slot.textOmitted, Slot.texts]

def stateRecordLayout : Layout Numeral StateRecord .zero where
  slots := [
    .nat "version" (·.version) (fun v s => { s with version := v }),
    .text "targetFingerprint" (·.targetFingerprint) (fun v s => { s with targetFingerprint := v }),
    .text "configId" (·.configID) (fun v s => { s with configID := v }),
    .textOmitted "release" (·.release) (fun v s => { s with release := v }),
    .textOmitted "bundleDigest" (·.bundleDigest) (fun v s => { s with bundleDigest := v }),
    .textOmitted "previousRelease" (·.previousRelease) (fun v s => { s with previousRelease := v }),
    .textOmitted "previousBundleDigest" (·.previousBundleDigest)
      (fun v s => { s with previousBundleDigest := v }),
    .textOmitted "previousConfigId" (·.previousConfigID)
      (fun v s => { s with previousConfigID := v }),
    .textOmitted "callerIdentity" (·.callerIdentity) (fun v s => { s with callerIdentity := v }),
    .struct "runtimeRoles" runtimeRolesLayout (·.runtimeRoles)
      (fun v s => { s with runtimeRoles := v }),
    .struct "state" stateLayout (·.state) (fun v s => { s with state := v }),
    .textMap "ownedUnits" (·.ownedUnits) (fun v s => { s with ownedUnits := v })]
  names := by decide
  apart := by simp [Slot.nat, Slot.text, Slot.textOmitted, Slot.struct, Slot.textMap]

/-! ## Writing and reading -/

/-- `json.Marshal`. -/
def marshal (record : StateRecord) : Bytes :=
  Utf8.encode (Datum.print (stateRecordLayout.encode record))

/-- `installer.read`, of a regular file. -/
def read (data : Bytes) (limit : ℕ) : Option Bytes :=
  if data.length = 0 || limit < data.length then none else some data

def decode (data : Bytes) : Option StateRecord :=
  if data.length = 0 || maxInputBytes < data.length then none
  else (Datum.decode (Utf8.decode data)).bind fun d => stateRecordLayout.decode d .zero

/-- What `loadState` returns where there is no checkpoint. -/
def fresh : StateRecord :=
  { StateRecord.zero with version := stateVersion, state.phase := Phase.notStarted.text }

/-- The release lineage is one that `loadState` accepts. -/
def lineageValid (record : StateRecord) : Bool :=
  decide (record.release = [] ↔ record.bundleDigest = []) &&
  (record.release = [] || releaseVersion record.release && fileDigest record.bundleDigest) &&
  decide (record.previousRelease = [] ↔ record.previousBundleDigest = []) &&
  decide (record.previousRelease = [] ↔ record.previousConfigID = []) &&
  (record.previousRelease = [] ||
    releaseVersion record.previousRelease && fileDigest record.previousBundleDigest) &&
  (record.callerIdentity = [] || fileDigest record.callerIdentity) &&
  validChangeKind record.state.changeKind && validRollbackMode record.state.rollbackMode

/-- The release in the state is the one of the record. -/
def mirrored (record : StateRecord) : Bool :=
  record.state.release = record.release && record.state.bundleDigest = record.bundleDigest &&
    record.state.previousRelease = record.previousRelease &&
    record.state.previousBundleDigest = record.previousBundleDigest

/-- The state has no release. -/
def unmirrored (record : StateRecord) : Bool :=
  record.state.release = [] && record.state.bundleDigest = [] &&
    record.state.previousRelease = [] && record.state.previousBundleDigest = []

/-- The last checks of `loadState`. -/
def checkReleaseState (record : StateRecord) : Except String PUnit :=
  if record.release = [] then
    check "installer checkpoint release state is invalid" (unmirrored record)
  else check "installer checkpoint release state is inconsistent" (mirrored record)

def loadState : Option Bytes → Except String StateRecord
  | none => .ok fresh
  | some data => do
    let data ← present "installer checkpoint could not be read" (read data maxInputBytes)
    let record ← present "installer checkpoint is invalid" (decode data)
    check "installer checkpoint is invalid"
      (record.version = 1 || record.version = 2 || record.version = stateVersion)
    check "installer checkpoint contains an unowned secret reference"
      (record.state.secretFiles.all fun path => path ∈ credentialPaths)
    check "installer checkpoint contains an unowned activation definition"
      (record.ownedUnits.all fun unit => ownedActivationPath unit.1 && fileDigest unit.2)
    check "installer checkpoint release lineage is invalid" (lineageValid record)
    checkReleaseState record
    pure record

/-! ## What comes back -/

/-- The readiness key as it is written. -/
def RoleSelection.clean (role : RoleSelection) : RoleSelection :=
  { role with readinessKey := Utf8.encode (Utf8.coerce role.readinessKey) }

def RuntimeRoles.clean (roles : RuntimeRoles) : RuntimeRoles :=
  ⟨roles.core.clean, roles.ingestion.clean, roles.retention.clean⟩

def StateRecord.clean (record : StateRecord) : StateRecord :=
  { record with runtimeRoles := record.runtimeRoles.clean }

/-- The readiness keys are UTF-8. -/
def RuntimeRoles.WellEncoded (roles : RuntimeRoles) : Prop :=
  ∀ role ∈ [roles.core, roles.ingestion, roles.retention], Utf8.valid role.readinessKey = true

theorem RoleSelection.clean_eq {role : RoleSelection}
    (valid : Utf8.valid role.readinessKey = true) : role.clean = role := by
  rw [RoleSelection.clean, Utf8.encode_coerce valid]

theorem StateRecord.clean_eq (encoded : record.runtimeRoles.WellEncoded) :
    record.clean = record := by
  have roles : record.runtimeRoles.clean = record.runtimeRoles := by
    simp only [RuntimeRoles.WellEncoded, List.forall_mem_cons] at encoded
    obtain ⟨core, ingestion, retention, -⟩ := encoded
    simp only [RuntimeRoles.clean, RoleSelection.clean_eq core, RoleSelection.clean_eq ingestion,
      RoleSelection.clean_eq retention]
  rw [StateRecord.clean, roles]

theorem marshal_ne_nil (record : StateRecord) : marshal record ≠ [] := by
  have wrote : 0 < (Datum.print (stateRecordLayout.encode record)).length := Nat.succ_pos _
  rw [← List.length_pos_iff, marshal, Utf8.length_encode]
  exact wrote.trans_le (Json.length_le_byteLength _)

/-- Whatever is too long cannot be read. -/
theorem read_eq_some :
    read (marshal record) maxInputBytes = some (marshal record) ↔
      (marshal record).length ≤ maxInputBytes := by
  simp [read, marshal_ne_nil]

theorem stateLayout_restored (state : State) : stateLayout.restored state = state := by
  simp only [Layout.restored, Layout.copied, stateLayout, List.foldl_cons, List.foldl_nil,
    Slot.text, Slot.textOmitted, Slot.texts, State.zero, id]

theorem roleSelectionLayout_restored (role : RoleSelection) :
    roleSelectionLayout.restored role = role.clean := by
  simp only [Layout.restored, Layout.copied, roleSelectionLayout, secretSelectionLayout,
    List.foldl_cons, List.foldl_nil, Slot.text, Slot.textOmitted, Slot.bytes, Slot.struct,
    RoleSelection.zero, SecretSelection.zero, RoleSelection.clean, id]

theorem runtimeRolesLayout_restored (roles : RuntimeRoles) :
    runtimeRolesLayout.restored roles = roles.clean := by
  simp only [Layout.restored, Layout.copied, runtimeRolesLayout, List.foldl_cons, List.foldl_nil,
    Slot.struct, RuntimeRoles.zero, RuntimeRoles.clean, ← roleSelectionLayout_restored]

theorem stateRecordLayout_restored (ordered : Sorted record.ownedUnits) :
    stateRecordLayout.restored record = record.clean := by
  rw [Layout.restored]
  simp only [Layout.copied, stateRecordLayout, List.foldl_cons, List.foldl_nil, Slot.nat,
    Slot.text, Slot.textOmitted, Slot.struct, Slot.textMap, StateRecord.zero, id,
    runtimeRolesLayout_restored, stateLayout_restored, Slot.foldl_put_of_sorted ordered,
    StateRecord.clean]

/-- A record whose units are in order is decoded to what was written. -/
theorem decode_marshal (ordered : Sorted record.ownedUnits)
    (fits : (marshal record).length ≤ maxInputBytes) :
    decode (marshal record) = some record.clean := by
  have bounded : ¬ ((marshal record).length = 0 || maxInputBytes < (marshal record).length) := by
    simp [marshal_ne_nil, fits]
  rw [decode, if_neg bounded, marshal, Utf8.decode_encode, Datum.decode_print, Option.bind_some,
    Layout.decode_encode, stateRecordLayout_restored ordered]

/-! ## Records that can be loaded -/

/-- A release with the digest of its bundle and the id of its configuration. -/
structure Released (release bundleDigest configID : Text) : Prop where
  release : releaseVersion release = true
  bundleDigest : fileDigest bundleDigest = true
  configID : configID ≠ []

namespace Released

variable {release bundleDigest configID : Text}

theorem release_ne_nil (released : Released release bundleDigest configID) : release ≠ [] := by
  rintro rfl
  exact absurd released.release (by decide)

theorem bundleDigest_ne_nil (released : Released release bundleDigest configID) :
    bundleDigest ≠ [] := by
  rintro rfl
  exact absurd released.bundleDigest (by decide)

end Released

/-- What is true of a record at any moment of a call, whatever its state mirrors.  `loadState` does
not ask for a configuration id, but the lineage of the next upgrade depends on it. -/
structure Consistent (record : StateRecord) : Prop where
  version : record.version = stateVersion
  secrets : ∀ path ∈ record.state.secretFiles, path ∈ credentialPaths
  units : ∀ unit ∈ record.ownedUnits, ownedActivationPath unit.1 = true ∧ fileDigest unit.2 = true
  ordered : Sorted record.ownedUnits
  current : Released record.release record.bundleDigest record.configID
  previous : record.previousRelease = [] ∧ record.previousBundleDigest = [] ∧
      record.previousConfigID = [] ∨
    Released record.previousRelease record.previousBundleDigest record.previousConfigID
  caller : record.callerIdentity = [] ∨ fileDigest record.callerIdentity = true
  changeKind : validChangeKind record.state.changeKind = true
  rollbackMode : validRollbackMode record.state.rollbackMode = true

/-- A record as it is saved. -/
structure Sound (record : StateRecord) : Prop extends Consistent record where
  mirrored : mirrored record = true

theorem Consistent.lineageValid (consistent : Consistent record) : lineageValid record = true := by
  have release := consistent.current.release_ne_nil
  have digest := consistent.current.bundleDigest_ne_nil
  have caller : (record.callerIdentity = [] || fileDigest record.callerIdentity) = true := by
    simpa using consistent.caller
  unfold StateFile.lineageValid
  rcases consistent.previous with ⟨none, none', none''⟩ | previous
  · simp [release, digest, consistent.current.release, consistent.current.bundleDigest, none,
      none', none'', caller, consistent.changeKind, consistent.rollbackMode]
  · simp [release, digest, consistent.current.release, consistent.current.bundleDigest,
      previous.release_ne_nil, previous.bundleDigest_ne_nil, previous.configID, previous.release,
      previous.bundleDigest, caller, consistent.changeKind, consistent.rollbackMode]

/-- The checks of `loadState` do not look at the readiness keys. -/
theorem Sound.clean (sound : Sound record) : Sound record.clean := { sound with }

/-- **A sound record is loaded exactly when it is not too long.** -/
theorem loadState_marshal (sound : Sound record) :
    loadState (some (marshal record)) =
      if (marshal record).length ≤ maxInputBytes then .ok record.clean
      else .error "installer checkpoint could not be read" := by
  by_cases fits : (marshal record).length ≤ maxInputBytes
  · have checked := sound.clean
    have version : (record.clean.version = 1 || record.clean.version = 2 ||
        record.clean.version = stateVersion) = true := by simp [checked.version]
    have secrets : (record.clean.state.secretFiles.all fun path => path ∈ credentialPaths) = true :=
      List.all_eq_true.mpr fun path mem => decide_eq_true (checked.secrets path mem)
    have units : (record.clean.ownedUnits.all fun unit =>
        ownedActivationPath unit.1 && fileDigest unit.2) = true :=
      List.all_eq_true.mpr fun unit mem => Bool.and_eq_true_iff.mpr (checked.units unit mem)
    have state : checkReleaseState record.clean = .ok ⟨⟩ := by
      rw [checkReleaseState, if_neg checked.current.release_ne_nil]
      exact check_eq_ok.mpr checked.mirrored
    rw [if_pos fits]
    simp only [loadState, bind_eq_ok, present_eq_ok, check_eq_ok, pure_eq_ok]
    exact ⟨_, read_eq_some.mpr fits, _, decode_marshal sound.ordered fits, ⟨⟩, version, ⟨⟩, secrets,
      ⟨⟩, units, ⟨⟩, checked.lineageValid, ⟨⟩, state, rfl⟩
  · have unread : read (marshal record) maxInputBytes = none := by
      simp only [read, not_le.mp fits, decide_true, Bool.or_true, if_true]
    rw [if_neg fits, loadState, unread]
    rfl

end StateFile

end Aspm.Install
