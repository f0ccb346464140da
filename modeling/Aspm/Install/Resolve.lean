import Aspm.Lib.Fallible
import Aspm.Install.Merge

/-!
# Resolving an installation configuration

`install.Resolve` merges a supplied configuration into the defaults of its target, validates
the result and names it by its digest.  The result is a configuration of its own, and is
resolved again whenever a plan is prepared from it; so a resolved configuration has to
resolve to itself.

The result passes the checks before the merge (`precheck_resolved`), merges to itself
(`merge_resolved`) and is therefore reviewed and encoded as it was.
-/

namespace Aspm.Resolve

open Json SortedMap Fallible

variable {kind : Text} {v : Datum ℚ} {key : String}

/-- Numbers are `float64`, which are rational; their sums below are sums of bounded integers
and therefore exact. -/
abbrev Document := Fields ℚ

/-- The JSON codec over texts of some type, the schema validator, the URL parser and the
hash, as `Resolve` uses them. -/
structure Specification (Bytes : Type) where
  length : Bytes → ℕ
  /-- `json.Unmarshal` into a map; no result for an error and for `null`. -/
  unmarshal : Bytes → Option Document
  marshal : Document → Bytes
  unmarshal_canonical : ∀ input document, unmarshal input = some document →
    Fields.Canonical document
  unmarshal_marshal : ∀ document, Fields.Canonical document →
    unmarshal (marshal document) = some document
  length_marshal : ∀ document, 0 < length (marshal document)
  /-- The embedded schema accepts the document. -/
  validate : Document → Bool
  /-- The URL parses, and has a host and neither credentials nor a query nor a fragment. -/
  acceptsURL : Text → Bool
  sha256 : Bytes → Text

inductive Failure where
  | rejected (message : String)
  | panicked
deriving DecidableEq

structure Plan (Bytes : Type) where
  id : Text
  configuration : Bytes
deriving DecidableEq

def object? : Datum ℚ → Option Document
  | .object fields => some fields
  | _ => none

def string? : Datum ℚ → Option Text
  | .string t => some t
  | _ => none

def number? : Datum ℚ → Option ℚ
  | .number n => some n
  | _ => none

/-- `document[key]`, where a missing key reads as `nil`. -/
def field (document : Document) (key : String) : Datum ℚ :=
  (get key.toList document).getD .null

/-! ### The embedded defaults -/

def text (s : String) : Datum ℚ := .string s.toList

def record (entries : List (String × Datum ℚ)) : Datum ℚ :=
  .object (entries.map fun entry => (entry.1.toList, entry.2))

def generated (name : String) : Datum ℚ := record [("kind", text "generated"), ("name", text name)]

def service (replicas dbConnectionsPerReplica : ℚ) : Datum ℚ :=
  record [("replicas", .number replicas),
    ("dbConnectionsPerReplica", .number dbConnectionsPerReplica)]

/-- The two profiles, which differ in the target and in the exposure. -/
def profile (target : Datum ℚ) (exposure : String) : Datum ℚ :=
  record [
    ("apiVersion", text "aspm/v1alpha1"),
    ("kind", text "Installation"),
    ("release", record [("version", text "0.0.0-dev.1"),
      ("artifactSource", text "installer-bundle")]),
    ("target", target),
    ("access", record [("exposure", text exposure), ("tlsMode", text "internal-ca"),
      ("baseURL", text "https://aspm.example.invalid"), ("publicExposureApproved", .bool false)]),
    ("bootstrap", record [("method", text "one-time-enrollment"),
      ("secretRef", generated "aspm-enrollment")]),
    ("postgres", record [("mode", text "managed"), ("engine", text "postgresql"),
      ("image", text "postgres:18.6-alpine"), ("persistent", .bool true),
      ("publicAccess", .bool false), ("volumeName", text "aspm-postgres"),
      ("credentialRef", generated "aspm-postgres")]),
    ("objectStore", record [("mode", text "managed"), ("engine", text "seaweedfs-community"),
      ("api", text "s3"), ("persistent", .bool true), ("publicAccess", .bool false),
      ("volumeName", text "aspm-evidence"), ("bucket", text "aspm-evidence"),
      ("credentialRef", generated "aspm-evidence"),
      ("image", record [("version", text "4.47"), ("digest", text
        "sha256:ce9e796f1fe6f06968f4c04bdaf8f678dad9c8acdfef3d244133d71bfa6bf882")]),
      ("seaweedfs", record [("masterTelemetry", .bool false), ("adminUI", .bool false),
        ("webdav", .bool false), ("icebergPort", .number 0), ("lancePort", .number 0),
        ("publishedAPIs", .array [text "s3"]), ("managementExposure", text "internal-only")])]),
    ("ai", record [("mode", text "disabled"), ("profiles", .array []),
      ("fallbackProfiles", .array []), ("hostedProcessingApproved", .bool false)]),
    ("proof", record [("enabled", .bool false),
      ("executionPolicy", text "controlled-fixtures-only")]),
    ("services", record [("core-api", service 1 10), ("ingestion-parser", service 1 10),
      ("ingestion-reconciler", service 1 10), ("background-worker", service 1 10),
      ("ai-service", service 0 0), ("proof-service", service 0 0)]),
    ("databaseConnectionBudget", record [("max", .number 80),
      ("reservedMaintenance", .number 10)]),
    ("artifacts", record [("mode", text "online"), ("signatureRequired", .bool true),
      ("outboundRetrievalRequiresApproval", .bool true)]),
    ("retentionProfile", text "small")]

/-- `defaults` of `loadSpecification`. -/
def profiles : List (Text × Datum ℚ) :=
  [("linux-small".toList, profile (record [("kind", text "linux"), ("host", text "localhost")])
      "loopback"),
    ("kubernetes-small".toList, profile (record [("kind", text "kubernetes"),
      ("context", text "synthetic-context"), ("namespace", text "aspm")]) "private")]

/-- The profile of a target, decoded anew. -/
def defaultsFor (kind : Text) : Option Document :=
  ((profiles.lookup (kind ++ "-small".toList)).map Datum.decoded).bind object?

/-! ### The checks around the merge -/

/-- The fields that a target of each kind must have. -/
def requiredFields (kind : Text) : Option (List String) :=
  if kind = "linux".toList then some ["host"]
  else if kind = "kubernetes".toList then some ["context", "namespace"]
  else none

/-- `value, ok := target[field].(string); ok && value != ""`. -/
def isNamed (target : Document) (name : String) : Bool :=
  match string? (field target name) with
  | some value => value ≠ []
  | none => false

/-- The checks before the merge, which leave the target and its kind. -/
def precheck (supplied : Document) : Except Failure (Text × Document) := do
  check (.rejected "unsupported installation configuration version or kind")
    (field supplied "apiVersion" = text "aspm/v1alpha1" &&
      field supplied "kind" = text "Installation")
  let target ← present (.rejected "an explicit deployment target is required")
    (object? (field supplied "target"))
  let kind := (string? (field target "kind")).getD []
  let required ← present (.rejected "target must be linux or kubernetes") (requiredFields kind)
  absent ((required.find? fun name => !isNamed target name).map fun name =>
    .rejected ("target." ++ name ++ " is required"))
  check (.rejected "access.baseURL is required")
    ((object? (field supplied "access")).any fun access => field access "baseURL" ≠ .null)
  pure (kind, target)

/-- The database connections of the services. -/
def connections : Document → Except Failure ℚ
  | [] => pure 0
  | (_, value) :: rest => do
    let service ← present .panicked (object? value)
    let replicas ← present .panicked (number? (field service "replicas"))
    let perReplica ← present .panicked (number? (field service "dbConnectionsPerReplica"))
    let others ← connections rest
    pure (replicas * perReplica + others)

/-- The checks after the merge. -/
def review {Bytes : Type} (spec : Specification Bytes) (resolved : Document) : Except Failure Unit := do
  check (.rejected ("installation configuration violates the versioned schema; " ++
    "check required fields, safe exposure and secret references")) (spec.validate resolved)
  let access ← present .panicked (object? (field resolved "access"))
  let baseURL ← present .panicked (string? (field access "baseURL"))
  check (.rejected "access.baseURL must be an uncredentialed HTTPS URL") (spec.acceptsURL baseURL)
  let budget ← present .panicked (object? (field resolved "databaseConnectionBudget"))
  let reserved ← present .panicked (number? (field budget "reservedMaintenance"))
  let services ← present .panicked (object? (field resolved "services"))
  let used ← connections services
  let max ← present .panicked (number? (field budget "max"))
  check (.rejected ("configured service connections plus maintenance " ++
    "exceed the database connection budget")) (reserved + used ≤ max)

def maxConfigurationBytes : ℕ := 2 ^ 20

def targetKey : Text := "target".toList

/-- **`install.Resolve`**, in a context that is not cancelled. -/
def resolve {Bytes : Type} (spec : Specification Bytes) (input : Bytes) :
    Except Failure (Plan Bytes) := do
  check (.rejected "installation configuration must be between 1 byte and 1 MiB")
    (0 < spec.length input && spec.length input ≤ maxConfigurationBytes)
  let supplied ← present (.rejected "installation configuration must be valid JSON")
    (spec.unmarshal input)
  let (kind, target) ← precheck supplied
  let defaults ← present (.rejected "selected default profile is unavailable") (defaultsFor kind)
  let merged ← present .panicked (mergeFields supplied defaults)
  let resolved := put targetKey (.object target) merged
  review spec resolved
  let encoded := spec.marshal resolved
  pure ⟨"config-sha256:".toList ++ spec.sha256 encoded, encoded⟩

/-! ### Resolving a resolved configuration -/

/-- The target is of a known kind and names what the kind requires. -/
def Selects (target : Document) (kind : Text) : Prop :=
  (string? (field target "kind")).getD [] = kind ∧
    ∃ required, requiredFields kind = some required ∧
      required.find? (fun name => !isNamed target name) = none

theorem precheck_eq_ok {supplied target : Document} :
    precheck supplied = .ok (kind, target) ↔
      (field supplied "apiVersion" = text "aspm/v1alpha1" ∧
        field supplied "kind" = text "Installation") ∧
      object? (field supplied "target") = some target ∧ Selects target kind ∧
      ∃ access, object? (field supplied "access") = some access ∧
        field access "baseURL" ≠ .null := by
  simp only [precheck, bind_eq_ok, check_eq_ok, present_eq_ok, absent_eq_ok, pure_eq_ok,
    Bool.and_eq_true, decide_eq_true_eq, Option.map_eq_none_iff, Option.any_eq_true, Selects]
  constructor
  · rintro ⟨-, version, target', found, required, known, -, named, -, ⟨access, given, base⟩, same⟩
    obtain ⟨rfl, rfl⟩ := Prod.mk.inj same
    exact ⟨version, found, ⟨rfl, required, known, named⟩, access, given, base⟩
  · rintro ⟨version, found, ⟨rfl, required, known, named⟩, access, given, base⟩
    exact ⟨⟨⟩, version, target, found, required, known, ⟨⟩, named, ⟨⟩, ⟨access, given, base⟩, rfl⟩

theorem object?_eq_some {fields : Document} : object? v = some fields ↔ v = .object fields := by
  cases v <;> simp [object?]

/-- A value that is not null is in its object. -/
theorem get_of_field {document : Document} (read : field document key = v) (present : v ≠ .null) :
    get key.toList document = some v := by
  unfold field at read
  cases found : get key.toList document with
  | none =>
    rw [found] at read
    exact absurd read.symm present
  | some w =>
    rw [found] at read
    exact congrArg some read

theorem field_of_get {document : Document} (found : get key.toList document = some v) :
    field document key = v := by
  rw [field, found, Option.getD_some]

theorem scalarKinds_profiles : profiles.all (fun p => scalarKinds p.2.decoded) = true := by
  decide +kernel

/-- The embedded defaults are maps, and their kinds can be compared. -/
theorem defaultsFor_comparable {defaults : Document} (selected : defaultsFor kind = some defaults) :
    Fields.Canonical defaults ∧ scalarKindsIn defaults = true := by
  obtain ⟨decoded, listed, object⟩ := Option.bind_eq_some_iff.mp selected
  obtain ⟨written, found, rfl⟩ := Option.map_eq_some_iff.mp listed
  have same := object?_eq_some.mp object
  refine ⟨canonical_object.mp (same ▸ Datum.canonical_decoded written), ?_⟩
  obtain ⟨before, after, split, -⟩ := List.lookup_eq_some_iff.mp found
  have mem : (kind ++ "-small".toList, written) ∈ profiles := by
    rw [split]
    exact List.mem_append_right _ List.mem_cons_self
  have scalar := List.all_eq_true.mp scalarKinds_profiles _ mem
  simp only [same, scalarKinds, Bool.and_eq_true] at scalar
  exact scalar.2

section Resolved

variable {supplied defaults merged target : Document}

/-- A scalar that was supplied is in the result. -/
theorem field_put_merged (sorted : Sorted supplied)
    (merges : mergeFields supplied defaults = some merged) (other : key.toList ≠ targetKey)
    (scalar : isScalar v = true) (given : field supplied key = v) (present : v ≠ .null) :
    field (put targetKey (.object target) merged) key = v := by
  have stored := get_mergeFields sorted merges key.toList
  rw [get_of_field given present] at stored
  obtain ⟨w, value, stored⟩ := stored
  rw [mergeValue_scalar scalar, Option.some.injEq] at value
  exact field_of_get (by rw [get_put, if_neg other, stored, value])

/-- **The result passes the checks before the merge**, with the same target. -/
theorem precheck_resolved (canonical : Fields.Canonical supplied)
    (admitted : precheck supplied = .ok (kind, target))
    (merges : mergeFields supplied defaults = some merged) :
    precheck (put targetKey (.object target) merged) = .ok (kind, target) := by
  obtain ⟨⟨version, kind'⟩, -, selects, access, given, base⟩ := precheck_eq_ok.mp admitted
  refine precheck_eq_ok.mpr ⟨⟨?_, ?_⟩, ?_, selects, ?_⟩
  · exact field_put_merged canonical.sorted merges (by decide) rfl version nofun
  · exact field_put_merged canonical.sorted merges (by decide) rfl kind' nofun
  · exact object?_eq_some.mpr (field_of_get (by rw [← targetKey, get_put, if_pos rfl]))
  · have stored := get_mergeFields canonical.sorted merges "access".toList
    have present := get_of_field (object?_eq_some.mp given) nofun
    rw [present] at stored
    obtain ⟨w, value, stored⟩ := stored
    have inner := canonical_object.mp (canonical.values _ _ present)
    obtain ⟨access', rfl, kept⟩ := mergeValue_object inner.sorted value
    obtain ⟨url, found, present⟩ := kept "baseURL".toList _ (get_of_field rfl base) base
    refine ⟨access', object?_eq_some.mpr (field_of_get ?_), ?_⟩
    · rw [get_put, if_neg (by decide), stored]
    · rw [field_of_get found]
      exact present

/-- **The result merges to itself**, once the target is put in its place. -/
theorem merge_resolved (canonical : Fields.Canonical defaults)
    (scalar : scalarKindsIn defaults = true) (canonical' : Fields.Canonical supplied)
    (canonicalTarget : (Datum.object target).Canonical)
    (merges : mergeFields supplied defaults = some merged) :
    Fields.Canonical (put targetKey (.object target) merged) ∧
      ∃ again, mergeFields (put targetKey (.object target) merged) defaults = some again ∧
        put targetKey (.object target) again = put targetKey (.object target) merged := by
  obtain ⟨merged', merges', absorbed⟩ := mergeFields_twice canonical scalar canonical'
  obtain rfl := Option.some.inj (merges.symm.trans merges')
  have canonicalMerged : Fields.Canonical merged := canonical_mergeFields canonical
    (fun k v base w found base' value =>
      canonical_mergeValue (canonical'.values k v found) base' value) canonical'.sorted merges
  have resolved := canonicalMerged.put targetKey canonicalTarget
  obtain ⟨again, merges'', -⟩ := mergeFields_twice canonical scalar resolved
  refine ⟨resolved, again, merges'', ?_⟩
  have sortedAgain := sorted_mergeFields canonical.sorted merges''
  refine ext (sorted_put sortedAgain _ _) resolved.sorted fun k => ?_
  rw [get_put, get_put]
  split_ifs with at_
  · rfl
  · -- elsewhere the two merges read the same values
    have first := get_mergeFields canonicalMerged.sorted absorbed k
    have second := get_mergeFields resolved.sorted merges'' k
    rw [get_put, if_neg at_] at second
    cases found : get k merged with
    | none =>
      rw [found] at first second
      rw [second, ← first]
    | some v =>
      rw [found] at first second
      obtain ⟨w, value, same⟩ := first
      obtain ⟨w', value', stored⟩ := second
      rw [stored, same, Option.some.inj (value.symm.trans value')]

end Resolved

/-- **Resolving is idempotent.**  A resolved configuration within the size limit resolves to
itself, under the same id; and an object merged into defaults whose nested kinds are scalars
is left alone by a second merge. -/
theorem resolve_idempotent {Bytes : Type} (spec : Specification Bytes) :
    (∀ input plan, resolve spec input = .ok plan →
      spec.length plan.configuration ≤ maxConfigurationBytes →
      resolve spec plan.configuration = .ok plan) ∧
    ∀ defaults supplied : Document, Fields.Canonical defaults → Fields.Canonical supplied →
      scalarKindsIn defaults = true →
      ∃ merged, mergeFields supplied defaults = some merged ∧
        mergeFields merged defaults = some merged := by
  refine ⟨fun input plan resolves small => ?_,
    fun defaults supplied canonical canonical' scalar => mergeFields_twice canonical scalar canonical'⟩
  simp only [resolve, bind_eq_ok, check_eq_ok, present_eq_ok, pure_eq_ok] at resolves ⊢
  obtain ⟨-, -, supplied, read, ⟨kind, target⟩, admitted, defaults, selected, merged, merges,
    ⟨⟩, reviewed, rfl⟩ := resolves
  obtain ⟨canonical, scalar⟩ := defaultsFor_comparable selected
  have canonical' := spec.unmarshal_canonical input supplied read
  have canonicalTarget : (Datum.object target).Canonical := by
    obtain ⟨-, found, -, -⟩ := precheck_eq_ok.mp admitted
    exact canonical'.values _ _ (get_of_field (object?_eq_some.mp found) (by simp))
  obtain ⟨resolved, again, merges', same⟩ :=
    merge_resolved canonical scalar canonical' canonicalTarget merges
  refine ⟨⟨⟩, ?_, _, spec.unmarshal_marshal _ resolved, (kind, target),
    precheck_resolved canonical' admitted merges, defaults, selected, again, merges', ⟨⟩, ?_, ?_⟩
  · simpa using ⟨spec.length_marshal _, small⟩
  · simp only [same]
    exact reviewed
  · simp only [same]

/-- Texts that are already parsed, and a schema that admits everything. -/
def parsedSpecification : Specification Document where
  length _ := 1
  unmarshal written := some (Datum.decodedFields written [])
  marshal document := document
  unmarshal_canonical written document decodes := by
    obtain rfl := Option.some.inj decodes
    exact Datum.canonical_decodedFields (fun entry _ => Datum.canonical_decoded entry.2)
      Fields.canonical_nil
  unmarshal_marshal document canonical :=
    congrArg some (Datum.object.inj (Datum.decoded_of_canonical (canonical_object.mpr canonical)))
  length_marshal _ := Nat.one_pos
  validate _ := true
  acceptsURL _ := true
  sha256 _ := []

/-- An external database on a Linux host. -/
def externalDatabase : Document :=
  [("apiVersion".toList, text "aspm/v1alpha1"), ("kind".toList, text "Installation"),
    ("target".toList, record [("kind", text "linux"), ("host", text "db")]),
    ("access".toList, record [("baseURL", text "https://aspm.test")]),
    ("postgres".toList, record [("mode", text "external")])]

theorem resolve_idempotent_external :
    ∃ plan, resolve parsedSpecification externalDatabase = .ok plan ∧
      resolve parsedSpecification plan.configuration = .ok plan := by
  have accepted : (resolve parsedSpecification externalDatabase).toBool = true := by
    decide +kernel
  cases resolved : resolve parsedSpecification externalDatabase with
  | error failure =>
    rw [resolved] at accepted
    cases accepted
  | ok plan =>
    exact ⟨plan, rfl, (resolve_idempotent parsedSpecification).1 _ _ resolved Nat.one_le_two_pow⟩

/-- A default that has an object as its kind: the first merge copies it, and the second one
compares it with itself and panics. -/
theorem merge_panics_on_object_kind :
    let defaults : Document := [("a".toList, .object [(kindKey, .object [])])]
    let supplied : Document := [("a".toList, .object [])]
    mergeFields supplied defaults = some defaults ∧ mergeFields defaults defaults = none := by
  decide +kernel

end Aspm.Resolve
