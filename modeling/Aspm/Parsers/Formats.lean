import Aspm.Parsers.Values

/-!
# The report formats

The seven parsers of `internal/parsers`, from `portable.go`, `sarif.go` and
`native_reports.go`.  Every one of them walks over the results of a decoded report and makes
one finding of each, and stops with an error at the first result it cannot read.

The body of each innermost loop is a function of its own (`sarifFinding`, `trivyFinding`, …),
so that what a finding holds can be said without the loops around it.
-/

namespace Aspm.Parsers

open Json SortedMap Fallible Strings

variable {Bytes : Type} (platform : Platform Bytes)

/-! ## Mapped reports -/

def mappedFinding (item : Option Object) (mapping : Mapping) : Except Error Finding := do
  check .invalid item.isSome
  check .invalid (mapping.fields.all fun key => key = [] || (item.bind (get key)).isSome)
  let line ← sourceLine (index item mapping.sourceLine)
  let sourceFindingID := str (index item mapping.sourceFindingID)
  let title := str (index item mapping.title)
  let sourceSeverity := str (index item mapping.sourceSeverity)
  let description := str (index item mapping.description)
  pure {
    identity := identity platform ["mapped".toList, sourceFindingID]
    sourceFindingID, title, sourceSeverity, description
    impact := str (index item mapping.impact)
    remediation := str (index item mapping.remediation)
    location := { uri := str (index item mapping.sourceLocation), line }
    unmapped := remaining item mapping.fields
    severity := severity sourceSeverity
    evidenceText := first [description, title]
    sourceLabel := [] }

/-- One record of a mapped report, with the label of its format. -/
def labelledFinding (mapping : Mapping) (label : String) (item : Option Object) :
    Except Error Finding := do
  let f ← mappedFinding platform item mapping
  pure { f with sourceLabel := label.toList }

def jsonLabel : String := "Mapped JSON report"

def csvLabel : String := "Mapped CSV report"

def parseGeneric (root : Value) (mapping : Mapping) : Except Error (List Finding) := do
  let items ← present .invalid (array root)
  check .invalid (items.length ≤ maxFindings)
  forEach (fun item => labelledFinding platform mapping jsonLabel (obj item)) items

/-- The record as a map, under the headers. -/
def csvItem (headers record : List Text) : Object :=
  (headers.zip record).foldl (fun item entry => put entry.1 (.string entry.2) item) []

def csvRecord (mapping : Mapping) (headers : List Text) (result : List Finding)
    (record : List Text) : Except Error (List Finding) := do
  -- A record of another length is an error of the reader.
  check .invalid (record.length = headers.length && result.length < maxFindings)
  check .invalid (record.all fun value => decide (Plain value))
  let f ← mappedFinding platform (some (csvItem headers record)) mapping
  check .invalid (validateFinding f)
  pure (result ++ [{ f with sourceLabel := csvLabel.toList }])

def parseCSV (data : Bytes) (mapping : Mapping) : Except Error (List Finding) := do
  let scan := platform.csv data
  let headers ← present .invalid scan.items.head?
  check .invalid (headers.length ≤ 256)
  check .invalid (headers.all fun header =>
    header ≠ [] && byteLength header ≤ 256 && decide (Plain header))
  check .invalid headers.Nodup
  check .invalid (mapping.fields.all fun key => key = [] || key ∈ headers)
  let result ← scan.items.tail.foldlM (csvRecord platform mapping headers) []
  check .invalid scan.complete
  pure result

/-! ## Manual findings -/

def manualKeys : List Text :=
  ["sourceFindingId".toList, "title".toList, "severity".toList, "description".toList,
    "impact".toList, "remediation".toList, "sourceLocation".toList]

def manualFinding (root : Value) : Except Error Finding := do
  let item := obj root
  check .invalid item.isSome
  let loc := obj (field item "sourceLocation")
  check .invalid loc.isSome
  let line ← sourceLine (field loc "line")
  let sourceFindingID := str (field item "sourceFindingId")
  let title := str (field item "title")
  let sourceSeverity := str (field item "severity")
  let description := str (field item "description")
  pure {
    identity := identity platform ["manual".toList, sourceFindingID]
    sourceFindingID, title, sourceSeverity, description
    impact := str (field item "impact")
    remediation := str (field item "remediation")
    location := { uri := str (field loc "uri"), line }
    sourceLabel := "Manual report".toList
    unmapped := remaining item manualKeys
    severity := severity sourceSeverity
    evidenceText := first [description, title] }

def parseManual (root : Value) : Except Error (List Finding) := do
  let f ← manualFinding platform root
  pure [f]

/-! ## SARIF -/

/-- The driver of a run, which has the label and the rules. -/
def sarifDriver (run : Value) : Option Object := obj (field (obj (field (obj run) "tool")) "driver")

/-- `rules[id] = rule` for each of the listed rules. -/
def sarifRule (rules : List (Text × Object)) (rawRule : Value) :
    Except Error (List (Text × Object)) := do
  let rule := obj rawRule
  let id := str (field rule "id")
  check .invalid (id ≠ [] && (get id rules).isNone)
  pure (put id (rule.getD []) rules)

def sarifRules (driver : Option Object) : Except Error (List (Text × Object)) :=
  ((array (field driver "rules")).getD []).foldlM sarifRule []

def sarifLocation (result : Option Object) : Except Error Location :=
  match (array (field result "locations")).getD [] with
  | [] => pure {}
  | location :: _ => do
    let physical := obj (field (obj location) "physicalLocation")
    let line ← sourceLine (field (obj (field physical "region")) "startLine")
    pure { uri := str (field (obj (field physical "artifactLocation")) "uri"), line }

/-- The partial fingerprints, or the fingerprints if there are none. -/
def sarifFingerprints (result : Option Object) : Object :=
  let fingerprints := (obj (field result "partialFingerprints")).getD []
  if fingerprints = [] then (obj (field result "fingerprints")).getD [] else fingerprints

/-- The parts that the identity of a result is made of. -/
def sarifParts (result : Option Object) (location : Location) : List Text :=
  let guid := str (field result "guid")
  let ruleID := str (field result "ruleId")
  let fingerprints := sarifFingerprints result
  if guid ≠ [] then ["sarif-guid".toList, guid]
  else if fingerprints ≠ [] then
    ["sarif-fingerprint".toList, ruleID, Datum.print (.object fingerprints)]
  else ["sarif-location".toList, ruleID, location.uri, itoa location.line]

def impactKey : Text := "impact".toList

/-- `unmapped[name] = value` for the properties that are not there already. -/
def sarifProperty (unmapped : Object) (property : Text × Value) : Object :=
  if property.1 ≠ impactKey && (get property.1 unmapped).isNone then
    put property.1 property.2 unmapped
  else unmapped

def sarifKeys : List Text := ["guid".toList, "level".toList, "message".toList]

def sarifFinding (sourceLabel : Text) (rules : List (Text × Object)) (rawResult : Value) :
    Except Error Finding := do
  let result := obj rawResult
  let ruleID := str (field result "ruleId")
  let rule := get ruleID rules
  let message := text (field result "message")
  check .invalid (result.isSome && ruleID ≠ [] && message ≠ [])
  let location ← sarifLocation result
  let guid := str (field result "guid")
  let properties := obj (field result "properties")
  let rawSeverity := str (field result "level")
  pure {
    identity := identity platform (sarifParts result location)
    sourceFindingID := if guid = [] then ruleID else guid
    title := first [text (field rule "shortDescription"), message, ruleID]
    description := first [text (field rule "fullDescription"), message]
    sourceSeverity := rawSeverity
    severity := severity (first [rawSeverity,
      str (field (obj (field rule "defaultConfiguration")) "level"), "warning".toList])
    location
    impact := str (field properties "impact")
    remediation := text (field rule "help")
    evidenceText := message
    sourceLabel
    unmapped := (properties.getD []).foldl sarifProperty (remaining result sarifKeys) }

def sarifRun (findings : List Finding) (run : Value) : Except Error (List Finding) := do
  let driver := sarifDriver run
  let sourceLabel := str (field driver "name")
  let results ← present .invalid (array (field (obj run) "results"))
  check .invalid (sourceLabel ≠ [] && findings.length + results.length ≤ maxFindings)
  let rules ← sarifRules driver
  let new ← forEach (sarifFinding platform sourceLabel rules) results
  pure (findings ++ new)

def parseSARIF (root : Value) : Except Error (List Finding) := do
  let report := obj root
  check .invalid (str (field report "version") = "2.1.0".toList)
  let runs ← present .invalid (array (field report "runs"))
  runs.foldlM (sarifRun platform) []

/-! ## Trivy -/

def trivyKeys : List Text :=
  ["VulnerabilityID".toList, "Title".toList, "Description".toList, "Severity".toList]

def trivyRemediation (item : Option Object) : Text :=
  let fixed := str (field item "FixedVersion")
  if fixed ≠ [] then
    "Update ".toList ++ str (field item "PkgName") ++ " to a fixed version: ".toList ++ fixed
  else []

def trivyFinding (target : Text) (rawItem : Value) : Finding :=
  let item := obj rawItem
  let nativeID := str (field item "VulnerabilityID")
  let description := str (field item "Description")
  { identity := identity platform
      ["trivy".toList, nativeID, str (field item "PkgName"), target]
    sourceFindingID := nativeID
    title := first [str (field item "Title"), nativeID]
    description
    impact := description
    remediation := trivyRemediation item
    sourceSeverity := str (field item "Severity")
    severity := severity (str (field item "Severity"))
    location := { uri := target }
    evidenceText := description
    sourceLabel := "Trivy report".toList
    unmapped := remaining item trivyKeys }

def vulnerabilitiesKey : Text := "Vulnerabilities".toList

def trivyResult (findings : List Finding) (rawResult : Value) : Except Error (List Finding) := do
  let result := obj rawResult
  let target := str (field result "Target")
  let rawItems ← present .invalid (result.bind (get vulnerabilitiesKey))
  let items := array rawItems
  check .invalid ((rawItems = .null || items.isSome) && target ≠ [] &&
    findings.length + (items.getD []).length ≤ maxFindings)
  pure (findings ++ (items.getD []).map (trivyFinding platform target))

def parseTrivy (root : Value) : Except Error (List Finding) := do
  let report := obj root
  let results ← present .invalid (array (field report "Results"))
  check .invalid (scalar (field report "SchemaVersion") = some "2".toList)
  results.foldlM (trivyResult platform) []

/-! ## ZAP -/

def instancesKey : Text := "instances".toList

def zapKeys : List Text :=
  ["alertRef".toList, "alert".toList, "riskcode".toList, "desc".toList, "solution".toList,
    instancesKey]

def zapFinding (alert : Option Object) (rawSeverity : Text) (rawInstance : Value) :
    Except Error Finding := do
  let instance_ := obj rawInstance
  let uri := str (field instance_ "uri")
  check .invalid (uri ≠ [])
  let nativeID := str (field alert "alertRef")
  let description := str (field alert "desc")
  pure {
    identity := identity platform ["zap".toList, nativeID, uri]
    sourceFindingID := nativeID
    title := str (field alert "alert")
    description
    impact := description
    sourceSeverity := rawSeverity
    severity := severity rawSeverity
    remediation := str (field alert "solution")
    location := { uri }
    evidenceText := first [str (field instance_ "evidence"), description]
    sourceLabel := "ZAP report".toList
    unmapped := put instancesKey (.array [.object (instance_.getD [])]) (remaining alert zapKeys) }

def zapAlert (findings : List Finding) (rawAlert : Value) : Except Error (List Finding) := do
  let alert := obj rawAlert
  let instances ← present .invalid (array (field alert "instances"))
  check .invalid (instances ≠ [] && findings.length + instances.length ≤ maxFindings)
  let rawSeverity ← present .invalid (scalar (field alert "riskcode"))
  let new ← forEach (zapFinding platform alert rawSeverity) instances
  pure (findings ++ new)

def zapSite (findings : List Finding) (rawSite : Value) : Except Error (List Finding) := do
  let alerts ← present .invalid (array (field (obj rawSite) "alerts"))
  alerts.foldlM (zapAlert platform) findings

def parseZAP (root : Value) : Except Error (List Finding) := do
  let report := obj root
  let sites ← present .invalid (array (field report "site"))
  check .invalid (str (field report "@version") = "2.16.1".toList)
  sites.foldlM (zapSite platform) []

/-! ## Gitleaks -/

def gitleaksKeys : List Text :=
  ["Fingerprint".toList, "Description".toList, "File".toList, "StartLine".toList]

def gitleaksFinding (rawItem : Value) : Except Error Finding := do
  let item := obj rawItem
  let line ← sourceLine (field item "StartLine")
  check .invalid item.isSome
  let nativeID := str (field item "Fingerprint")
  let description := str (field item "Description")
  pure {
    identity := identity platform ["gitleaks".toList, nativeID]
    sourceFindingID := nativeID
    title := description
    description
    impact := description
    remediation := []
    severity := .high
    sourceSeverity := []
    location := { uri := str (field item "File"), line }
    evidenceText := description
    sourceLabel := "Gitleaks report".toList
    unmapped := remaining item gitleaksKeys }

def parseGitleaks (root : Value) : Except Error (List Finding) := do
  let items ← present .invalid (array root)
  check .invalid (items.length ≤ maxFindings)
  forEach (gitleaksFinding platform) items

end Aspm.Parsers
