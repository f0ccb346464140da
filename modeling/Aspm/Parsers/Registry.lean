import Aspm.Parsers.Formats

/-!
# The adapters and their registry

`pkg/reportadapter` runs a compiled-in adapter on report bytes: its descriptor and the mapping
have to be valid, the bytes are bounded UTF-8 text, and whatever the adapter returns is
validated again.  `internal/parsers` registers seven adapters under their ids.

The ids are pairwise different and the descriptors are valid (`builtin_registered`), so the
registry is built and finds each of them.
-/

namespace Aspm.Parsers

open Json SortedMap Fallible Strings

structure Descriptor where
  ID : Text
  name : Text
  kind : Text
  implementationStatus : Text
  supportMaturity : Text
  countsAsNativeFamily : Bool
  readyToImport : Bool
  supportedVersions : List Text
  fieldCoverage : List Text
  lifecycleCapabilities : List Text
  mappingMode : Text
  testFixture : Text

def isLower (c : Char) : Bool := 'a' ≤ c && c ≤ 'z'

def validID (value : Text) : Bool :=
  byteLength value ≤ 64 && value.head?.any isLower && value.getLast? ≠ some '-' &&
    value.all (fun c => c = '-' || isLower c || isDigit c) && !decide ("--".toList <:+: value)

def validReference (value : Text) : Bool :=
  value ≠ [] && byteLength value ≤ 512 && '\\' ∉ value && value.head? ≠ some '/' &&
    ':' ∉ value && (split '/' value).all fun part =>
      part ≠ [] && part ≠ ".".toList && part ≠ "..".toList

def validSet (values : List Text) : Bool :=
  0 < values.length && values.length ≤ 64 && values.Nodup && values.all fun value =>
    trimSpace value = value && value ≠ [] && byteLength value ≤ 256

def validateDescriptor (d : Descriptor) : Bool :=
  validID d.ID && trimSpace d.name = d.name && d.name ≠ [] && byteLength d.name ≤ 256 &&
    (d.kind = "report-importer".toList || d.kind = "manual-intake".toList) &&
    d.implementationStatus = "implemented".toList &&
    (d.supportMaturity = "experimental".toList || d.supportMaturity = "supported".toList) &&
    !d.countsAsNativeFamily && d.readyToImport &&
    (d.mappingMode = "none".toList || d.mappingMode = "declarative-fields".toList) &&
    validReference d.testFixture && validSet d.supportedVersions && validSet d.fieldCoverage &&
    validSet d.lifecycleCapabilities

/-- `compiledAdapter`. -/
structure Adapter (Bytes : Type) where
  descriptor : Descriptor
  validate : Mapping → Except Error Unit
  parse : Bytes → Mapping → Except Error (List Finding)

def noMapping (mapping : Mapping) : Except Error Unit := check .invalid (mapping = {})

def declarativeMapping (mapping : Mapping) : Except Error Unit := do
  check .invalid (trimSpace mapping.sourceFindingID ≠ [] && trimSpace mapping.title ≠ [])
  check .invalid (mapping.fields.all fun key => byteLength key ≤ 256 && decide (Plain key))
  check .invalid (mapping.fields.filter (· ≠ [])).Nodup

def coverage : List String :=
  ["sourceFindingId", "title", "sourceSeverity", "normalizedSeverity",
    "sourceLocation", "impact", "remediation", "unmapped"]

def descriptor (id name kind version fixture : String) (mapping : Bool)
    (omitted : List String) : Descriptor where
  ID := id.toList
  name := name.toList
  kind := kind.toList
  implementationStatus := "implemented".toList
  supportMaturity := "experimental".toList
  countsAsNativeFamily := false
  readyToImport := true
  supportedVersions := [version.toList]
  fieldCoverage := (coverage.filter (· ∉ omitted)).map String.toList
  lifecycleCapabilities := ["stable-source-identity".toList, "per-run-observation".toList,
    "source-time-envelope".toList, "completeness-envelope".toList,
    "change-classification".toList]
  mappingMode := if mapping then "declarative-fields".toList else "none".toList
  testFixture := fixture.toList

/-! ## The seven adapters -/

inductive Format where
  | sarif
  | trivy
  | zap
  | gitleaks
  | genericJSON
  | genericCSV
  | manual
deriving DecidableEq

def Format.all : List Format :=
  [.sarif, .trivy, .zap, .gitleaks, .genericJSON, .genericCSV, .manual]

def Format.descriptor : Format → Descriptor
  | .sarif => Parsers.descriptor "sarif" "SARIF 2.1.0" "report-importer"
      "SARIF 2.1.0" "internal/parsers/testdata/sarif-2.1.0.json" false []
  | .trivy => Parsers.descriptor "trivy" "Trivy JSON" "report-importer"
      "SchemaVersion 2" "internal/parsers/testdata/trivy-schema-2.json" false []
  | .zap => Parsers.descriptor "zap" "OWASP ZAP JSON" "report-importer"
      "traditional JSON @version 2.16.1" "internal/parsers/testdata/zap-2.16.1.json" false []
  | .gitleaks => Parsers.descriptor "gitleaks" "Gitleaks JSON" "report-importer"
      "v8 JSON array with Fingerprint" "internal/parsers/testdata/gitleaks-v8.json" false
      ["sourceSeverity", "remediation"]
  | .genericJSON => Parsers.descriptor "generic-json" "Mapped JSON" "report-importer"
      "declarative mapping v1" "internal/parsers/testdata/generic-json-v1.json" true []
  | .genericCSV => Parsers.descriptor "generic-csv" "Mapped CSV" "report-importer"
      "UTF-8 comma-delimited mapping v1" "internal/parsers/testdata/generic-csv-v1.csv" true []
  | .manual => Parsers.descriptor "manual" "Manual structured finding" "manual-intake"
      "manual finding v1" "internal/parsers/testdata/manual-v1.json" false []

/-- The id under which the format is registered. -/
def Format.id (format : Format) : Text := format.descriptor.ID

variable {Bytes : Type} (platform : Platform Bytes)

/-- The parser of a format that is decoded from JSON. -/
def Format.parseJSON (root : Value) (mapping : Mapping) : Format → Except Error (List Finding)
  | .sarif => parseSARIF platform root
  | .trivy => parseTrivy platform root
  | .zap => parseZAP platform root
  | .gitleaks => parseGitleaks platform root
  | .genericJSON => parseGeneric platform root mapping
  | .manual => parseManual platform root
  | .genericCSV => .error .invalid

/-- `builtinAdapters`, by format. -/
def Format.adapter (format : Format) : Adapter Bytes where
  descriptor := format.descriptor
  validate := if format = .genericJSON || format = .genericCSV then declarativeMapping
    else noMapping
  parse data mapping :=
    if format = .genericCSV then parseCSV platform data mapping
    else do
      let root ← decodeJSON platform data
      format.parseJSON platform root mapping

/-- `reportadapter.Parse`; a compiled adapter is never nil. -/
def Adapter.run (adapter : Adapter Bytes) (data : Bytes) (mapping : Mapping) :
    Except Error (List Finding) := do
  check .invalid (validateDescriptor adapter.descriptor)
  adapter.validate mapping
  check .invalid (0 < platform.length data && platform.length data ≤ maxReportBytes &&
    platform.utf8Valid data)
  let findings ← adapter.parse data mapping
  check .invalid (findings.length ≤ maxFindings)
  check .invalid (findings.all validateFinding)
  pure findings

/-- `parsers.Parse`: the adapter registered under the id. -/
def parse (id : Text) (data : Bytes) (mapping : Mapping) : Except Error (List Finding) := do
  let format ← present .unsupported (Format.all.find? fun format => format.id = id)
  (format.adapter platform).run platform data mapping

/-- **The registry is built**: every descriptor is valid and no id is registered twice. -/
theorem builtin_registered :
    (Format.all.all fun format => validateDescriptor format.descriptor) = true ∧
      (Format.all.map Format.id).Nodup := by
  decide +kernel

theorem find_format {id : Text} {format : Format} :
    Format.all.find? (fun format => format.id = id) = some format ↔ format.id = id := by
  constructor
  · intro found
    simpa using List.find?_some found
  · rintro rfl
    cases format <;> decide +kernel

theorem Format.id_injective : Function.Injective Format.id := fun _ _ same =>
  Option.some.inj ((find_format.mpr same).symm.trans (find_format.mpr rfl))

/-- **What acceptance says**: the format is known, its mapping and the bytes are admitted, its
parser succeeds, and every finding is valid. -/
theorem parse_eq_ok {id : Text} {data : Bytes} {mapping : Mapping} {findings : List Finding} :
    parse platform id data mapping = .ok findings ↔
      ∃ format : Format, format.id = id ∧
        (format.adapter platform).validate mapping = .ok () ∧
        0 < platform.length data ∧ platform.length data ≤ maxReportBytes ∧
        platform.utf8Valid data = true ∧
        (format.adapter platform).parse data mapping = .ok findings ∧
        findings.length ≤ maxFindings ∧ ∀ f ∈ findings, validateFinding f = true := by
  have valid : ∀ format : Format, validateDescriptor format.descriptor = true := fun format =>
    List.all_eq_true.mp builtin_registered.1 format (by cases format <;> decide)
  simp only [parse, bind_eq_ok, present_eq_ok, find_format, Adapter.run, check_eq_ok,
    pure_eq_ok, Bool.and_eq_true, decide_eq_true_eq, List.all_eq_true]
  constructor
  · rintro ⟨format, known, -, -, ⟨⟩, mapped, -, ⟨⟨nonempty, small⟩, utf8⟩, findings, parsed, -, few,
      -, all, rfl⟩
    exact ⟨format, known, mapped, nonempty, small, utf8, parsed, few, all⟩
  · rintro ⟨format, known, mapped, nonempty, small, utf8, parsed, few, all⟩
    exact ⟨format, known, ⟨⟩, valid format, (), mapped, ⟨⟩, ⟨⟨nonempty, small⟩, utf8⟩, findings,
      parsed, ⟨⟩, few, ⟨⟩, all, rfl⟩

/-! ## Reports given as values -/

/-- A code of a text, in place of its digest. -/
def unary (t : Text) : List UInt8 := t.flatMap fun c => List.replicate c.toNat 0 ++ [1]

/-- The platform on which a JSON report is given by its value. -/
def valuePlatform : Platform Value where
  length _ := 1
  utf8Valid _ := true
  json v := ⟨[v], true⟩
  csv _ := ⟨[], true⟩
  sha256 := unary

/-- A value that is a text, and one that is an object, as they are written. -/
def written (s : String) : Value := .string s.toList

def writtenObject (fields : List (String × Value)) : Value :=
  .object (fields.map fun entry => (entry.1.toList, entry.2))

/-- A manual finding with the source id `a`. -/
def manualReport : Value :=
  writtenObject [("sourceFindingId", written "a"), ("title", written "t"),
    ("sourceLocation", .object [])]

/-- An accepted report with one finding, which passes a test. -/
theorem one_such {result : Except Error (List Finding)} (test : Finding → Bool)
    (one : result.toOption.map (List.map test) = some [true]) :
    ∃ f, result = .ok [f] ∧ test f = true := by
  cases result with
  | error e => cases one
  | ok findings =>
    obtain ⟨f, rfl, passed⟩ := List.map_eq_singleton_iff.mp (Option.some.inj one)
    exact ⟨f, rfl, passed⟩

theorem one_of_length {result : Except Error (List Finding)}
    (one : result.toOption.map List.length = some 1) : ∃ f, result = .ok [f] := by
  cases result with
  | error e => cases one
  | ok findings =>
    obtain ⟨f, rfl⟩ := List.length_eq_one_iff.mp (Option.some.inj one)
    exact ⟨f, rfl⟩

end Aspm.Parsers
