import Aspm.Parsers.Registry

/-!
# The entries of a report

What a report contains, said without the parsers: an *entry* is one result of the report
together with what it stands under.  `entries` lists them, and `Entry.finding` is what the
innermost loop of a parser makes of one of them.

The theorem of this module is `parse_entries`: an accepted report has one finding for each of
its entries, in their order, and each finding is made of its own entry alone.  Everything that
is proved of findings afterwards is proved entry by entry.  What an entry is made of is a part of
the report, and has every property that a value passes on to its parts (`Inherited`).
-/

namespace Aspm.Parsers

open Json SortedMap Fallible

variable {v : Value} {format : Format}

/-- The items of an array, and nothing of anything else. -/
def elements (v : Value) : List Value := (array v).getD []

theorem elements_of_array {items : List Value} (listed : array v = some items) :
    elements v = items := by
  rw [elements, listed, Option.getD_some]

inductive Entry where
  /-- A record of a mapped JSON report. -/
  | record (item : Value)
  /-- A record of a mapped CSV report, as a map. -/
  | row (item : Object)
  | manual (item : Value)
  | sarif (run result : Value)
  | trivy (result item : Value)
  | zap (alert instance_ : Value)
  | gitleaks (item : Value)

def sarifEntries (run : Value) : List Entry :=
  (elements (field (obj run) "results")).map (.sarif run)

def trivyEntries (result : Value) : List Entry :=
  (elements (field (obj result) "Vulnerabilities")).map (.trivy result)

def zapEntries (alert : Value) : List Entry :=
  (elements (field (obj alert) "instances")).map (.zap alert)

/-- The entries of a decoded report. -/
def Format.rootEntries (root : Value) : Format → List Entry
  | .sarif => (elements (field (obj root) "runs")).flatMap sarifEntries
  | .trivy => (elements (field (obj root) "Results")).flatMap trivyEntries
  | .zap => (elements (field (obj root) "site")).flatMap fun site =>
    (elements (field (obj site) "alerts")).flatMap zapEntries
  | .gitleaks => (elements root).map .gitleaks
  | .genericJSON => (elements root).map .record
  | .manual => [.manual root]
  | .genericCSV => []

/-- The records after the headers. -/
def csvEntries (records : List (List Text)) : List Entry :=
  records.tail.map fun record => .row (csvItem (records.head?.getD []) record)

variable {Bytes : Type} (platform : Platform Bytes)

/-- The value that a JSON report is decoded to. -/
def root (data : Bytes) : Value := ((onlyValue (platform.json data)).map Datum.decoded).getD .null

def entries (format : Format) (data : Bytes) : List Entry :=
  if format = .genericCSV then csvEntries (platform.csv data).items
  else format.rootEntries (root platform data)

/-- The finding that is made of an entry. -/
def Entry.finding (mapping : Mapping) : Entry → Except Error Finding
  | .record item => labelledFinding platform mapping jsonLabel (obj item)
  | .row item => labelledFinding platform mapping csvLabel (some item)
  | .manual item => manualFinding platform item
  | .sarif run result => do
    let rules ← sarifRules (sarifDriver run)
    sarifFinding platform (str (field (sarifDriver run) "name")) rules result
  | .trivy result item => pure (trivyFinding platform (str (field (obj result) "Target")) item)
  | .zap alert instance_ => do
    let rawSeverity ← present .invalid (scalar (field (obj alert) "riskcode"))
    zapFinding platform (obj alert) rawSeverity instance_
  | .gitleaks item => gitleaksFinding platform item

/-- Each finding is made of the entry at its place. -/
def Made (mapping : Mapping) (entries : List Entry) (findings : List Finding) : Prop :=
  List.Forall₂ (fun entry f => entry.finding platform mapping = .ok f) entries findings

variable {platform} {mapping : Mapping}
variable {findings : List Finding}

theorem made_map {α : Type} {make : α → Except Error Finding} {entry : α → Entry}
    (same : ∀ a, (entry a).finding platform mapping = make a) {as : List α}
    (ok : forEach make as = .ok findings) : Made platform mapping (as.map entry) findings := by
  rw [Made, List.forall₂_map_left_iff]
  exact (forEach_eq_ok.mp ok).imp fun a f made => (same a).trans made

theorem entry_of_mem {entries : List Entry} {f : Finding}
    (made : Made platform mapping entries findings) (mem : f ∈ findings) :
    ∃ entry ∈ entries, entry.finding platform mapping = .ok f := by
  induction made with
  | nil => cases mem
  | @cons entry g entries findings here there ih =>
    rcases List.mem_cons.mp mem with rfl | mem
    · exact ⟨entry, List.mem_cons_self, here⟩
    · obtain ⟨other, listed, made⟩ := ih mem
      exact ⟨other, List.mem_cons_of_mem _ listed, made⟩

/-! ## The loops of each format -/

variable {found result : List Finding}

theorem sarifRun_made {run : Value} (ok : sarifRun platform found run = .ok result) :
    ∃ new, result = found ++ new ∧ Made platform mapping (sarifEntries run) new := by
  simp only [sarifRun, bind_eq_ok, present_eq_ok, pure_eq_ok] at ok
  obtain ⟨results, listed, -, -, rules, read, new, each, rfl⟩ := ok
  refine ⟨new, rfl, ?_⟩
  rw [sarifEntries, elements_of_array listed]
  refine made_map (fun result => ?_) each
  rw [Entry.finding, read]
  rfl

theorem trivyResult_made {raw : Value} (ok : trivyResult platform found raw = .ok result) :
    ∃ new, result = found ++ new ∧ Made platform mapping (trivyEntries raw) new := by
  simp only [trivyResult, bind_eq_ok, present_eq_ok, pure_eq_ok] at ok
  obtain ⟨items, listed, -, -, rfl⟩ := ok
  refine ⟨_, rfl, ?_⟩
  have there : field (obj raw) "Vulnerabilities" = items := by
    rw [field, index]
    exact congrArg (Option.getD · .null) listed
  rw [trivyEntries, there, Made, List.forall₂_map_left_iff, List.forall₂_map_right_iff]
  exact List.forall₂_same.mpr fun item _ => rfl

theorem zapAlert_made {alert : Value} (ok : zapAlert platform found alert = .ok result) :
    ∃ new, result = found ++ new ∧ Made platform mapping (zapEntries alert) new := by
  simp only [zapAlert, bind_eq_ok, present_eq_ok, pure_eq_ok] at ok
  obtain ⟨instances, listed, -, -, rawSeverity, read, new, each, rfl⟩ := ok
  refine ⟨new, rfl, ?_⟩
  rw [zapEntries, elements_of_array listed]
  refine made_map (fun instance_ => ?_) each
  rw [Entry.finding, read]
  rfl

theorem zapSite_made {site : Value} (ok : zapSite platform found site = .ok result) :
    ∃ new, result = found ++ new ∧
      Made platform mapping ((elements (field (obj site) "alerts")).flatMap zapEntries) new := by
  simp only [zapSite, bind_eq_ok, present_eq_ok] at ok
  obtain ⟨alerts, listed, ok⟩ := ok
  rw [elements_of_array listed]
  exact foldlM_append (fun found alert result ok => zapAlert_made ok) ok

theorem csvRecord_made {headers record : List Text}
    (ok : csvRecord platform mapping headers found record = .ok result) :
    ∃ new, result = found ++ new ∧
      Made platform mapping [.row (csvItem headers record)] new := by
  simp only [csvRecord, bind_eq_ok, pure_eq_ok] at ok
  obtain ⟨-, -, -, -, f, read, -, -, rfl⟩ := ok
  refine ⟨_, rfl, .cons ?_ .nil⟩
  rw [Entry.finding, labelledFinding, read]
  rfl

/-- A loop that starts with nothing found. -/
theorem made_of_loop {α : Type} {step : List Finding → α → Except Error (List Finding)}
    {entries : α → List Entry} (appends : ∀ found a result, step found a = .ok result →
      ∃ new, result = found ++ new ∧ Made platform mapping (entries a) new) {as : List α}
    (ok : as.foldlM step [] = .ok findings) :
    Made platform mapping (as.flatMap entries) findings := by
  obtain ⟨new, rfl, made⟩ := foldlM_append appends ok
  exact made

/-! ## Whole reports -/

theorem parseJSON_made {root : Value} (ok : format.parseJSON platform root mapping = .ok findings) :
    Made platform mapping (format.rootEntries root) findings := by
  cases format with
  | sarif =>
    simp only [Format.parseJSON, parseSARIF, bind_eq_ok, present_eq_ok] at ok
    obtain ⟨-, -, runs, listed, ok⟩ := ok
    rw [Format.rootEntries, elements_of_array listed]
    exact made_of_loop (fun found run result ok => sarifRun_made ok) ok
  | trivy =>
    simp only [Format.parseJSON, parseTrivy, bind_eq_ok, present_eq_ok] at ok
    obtain ⟨results, listed, -, -, ok⟩ := ok
    rw [Format.rootEntries, elements_of_array listed]
    exact made_of_loop (fun found run result ok => trivyResult_made ok) ok
  | zap =>
    simp only [Format.parseJSON, parseZAP, bind_eq_ok, present_eq_ok] at ok
    obtain ⟨sites, listed, -, -, ok⟩ := ok
    rw [Format.rootEntries, elements_of_array listed]
    exact made_of_loop (fun found run result ok => zapSite_made ok) ok
  | gitleaks =>
    simp only [Format.parseJSON, parseGitleaks, bind_eq_ok, present_eq_ok] at ok
    obtain ⟨items, listed, -, -, ok⟩ := ok
    rw [Format.rootEntries, elements_of_array listed]
    exact made_map (fun item => rfl) ok
  | genericJSON =>
    simp only [Format.parseJSON, parseGeneric, bind_eq_ok, present_eq_ok] at ok
    obtain ⟨items, listed, -, -, ok⟩ := ok
    rw [Format.rootEntries, elements_of_array listed]
    exact made_map (fun item => rfl) ok
  | manual =>
    simp only [Format.parseJSON, parseManual, bind_eq_ok, pure_eq_ok] at ok
    obtain ⟨f, read, rfl⟩ := ok
    exact .cons read .nil
  | genericCSV => cases ok

variable {data : Bytes}

theorem parseCSV_made (ok : parseCSV platform data mapping = .ok findings) :
    Made platform mapping (csvEntries (platform.csv data).items) findings := by
  simp only [parseCSV, bind_eq_ok, present_eq_ok, pure_eq_ok] at ok
  obtain ⟨headers, first, -, -, -, -, -, -, -, -, result, ok, -, -, rfl⟩ := ok
  rw [csvEntries, first, Option.getD_some, List.map_eq_flatMap]
  exact made_of_loop (fun found record result ok => csvRecord_made ok) ok

theorem root_of_decodeJSON (ok : decodeJSON platform data = .ok v) :
    ∃ written, onlyValue (platform.json data) = some written ∧ v = written.decoded ∧
      root platform data = v ∧ (bounded v 0 0).isSome = true := by
  simp only [decodeJSON, bind_eq_ok, present_eq_ok, check_eq_ok, pure_eq_ok] at ok
  obtain ⟨written, only, -, small, rfl⟩ := ok
  exact ⟨written, only, rfl, by rw [root, only]; rfl, small⟩

/-- What the adapter of a format does with the bytes. -/
theorem adapter_parse_eq_ok (ok : (format.adapter platform).parse data mapping = .ok findings) :
    (format = .genericCSV ∧ parseCSV platform data mapping = .ok findings) ∨
      format ≠ .genericCSV ∧ ∃ v, decodeJSON platform data = .ok v ∧
        format.parseJSON platform v mapping = .ok findings := by
  simp only [Format.adapter] at ok
  split_ifs at ok with csv
  · exact .inl ⟨csv, ok⟩
  · exact .inr ⟨csv, bind_eq_ok.mp ok⟩

/-- **One finding for each entry**, made of that entry. -/
theorem parse_entries {id : Text} (ok : parse platform id data mapping = .ok findings) :
    ∃ format : Format, format.id = id ∧
      Made platform mapping (entries platform format data) findings := by
  obtain ⟨format, known, -, -, -, -, parsed, -⟩ := (parse_eq_ok platform).mp ok
  refine ⟨format, known, ?_⟩
  rcases adapter_parse_eq_ok parsed with ⟨csv, parsed⟩ | ⟨json, v, decoded, parsed⟩
  · rw [entries, if_pos csv]
    exact parseCSV_made parsed
  · obtain ⟨-, -, -, rooted, -⟩ := root_of_decodeJSON decoded
    rw [entries, if_neg json, rooted]
    exact parseJSON_made parsed

/-! ## Properties of the parts of a report -/

/-- A property that a value passes on to its parts. -/
structure Inherited (P : Value → Prop) : Prop where
  null : P .null
  item : ∀ {items : List Value} {v : Value}, P (.array items) → v ∈ items → P v
  field : ∀ {fields : Object} {k : Text} {v : Value}, P (.object fields) →
    get k fields = some v → P v

/-- The property holds of the object, if it is one. -/
def HoldsOf (P : Value → Prop) (m : Option Object) : Prop :=
  ∀ fields, m = some fields → P (.object fields)

namespace Inherited

variable {P : Value → Prop} (inherited : Inherited P)

include inherited

theorem index {m : Option Object} (holds : HoldsOf P m) (key : Text) : P (index m key) := by
  cases m with
  | none => exact inherited.null
  | some fields =>
    rw [Parsers.index, Option.bind_some]
    cases found : get key fields with
    | none => exact inherited.null
    | some v => exact inherited.field (holds fields rfl) found

theorem elements {w : Value} (holds : P v) (mem : w ∈ elements v) : P w := by
  cases v with
  | array items => exact inherited.item holds mem
  | _ => cases mem

omit inherited in
theorem obj (holds : P v) : HoldsOf P (obj v) := by
  rintro fields same
  cases v with
  | object entries => exact Option.some.inj same ▸ holds
  | _ => cases same

theorem ofField (holds : P v) (key : String) : P (Parsers.field (Parsers.obj v) key) :=
  inherited.index (obj holds) key.toList

end Inherited

/-- The property holds of the parts of the report that the entry consists of. -/
def Entry.Holds (P : Value → Prop) : Entry → Prop
  | .record item => P item
  | .row item => P (.object item)
  | .manual item => P item
  | .sarif run result => P run ∧ P result
  | .trivy result item => P result ∧ P item
  | .zap alert instance_ => P alert ∧ P instance_
  | .gitleaks item => P item

theorem rootEntries_hold {P : Value → Prop} (inherited : Inherited P) {root : Value}
    (holds : P root) {entry : Entry} (mem : entry ∈ format.rootEntries root) : entry.Holds P := by
  cases format with
  | sarif =>
    obtain ⟨run, listed, mem⟩ := List.mem_flatMap.mp mem
    obtain ⟨result, here, rfl⟩ := List.mem_map.mp mem
    have run := inherited.elements (inherited.ofField holds _) listed
    exact ⟨run, inherited.elements (inherited.ofField run _) here⟩
  | trivy =>
    obtain ⟨result, listed, mem⟩ := List.mem_flatMap.mp mem
    obtain ⟨item, here, rfl⟩ := List.mem_map.mp mem
    have result := inherited.elements (inherited.ofField holds _) listed
    exact ⟨result, inherited.elements (inherited.ofField result _) here⟩
  | zap =>
    obtain ⟨site, listed, mem⟩ := List.mem_flatMap.mp mem
    obtain ⟨alert, raised, mem⟩ := List.mem_flatMap.mp mem
    obtain ⟨instance_, here, rfl⟩ := List.mem_map.mp mem
    have site := inherited.elements (inherited.ofField holds _) listed
    have alert := inherited.elements (inherited.ofField site _) raised
    exact ⟨alert, inherited.elements (inherited.ofField alert _) here⟩
  | gitleaks =>
    obtain ⟨item, listed, rfl⟩ := List.mem_map.mp mem
    exact inherited.elements holds listed
  | genericJSON =>
    obtain ⟨item, listed, rfl⟩ := List.mem_map.mp mem
    exact inherited.elements holds listed
  | manual =>
    obtain rfl := List.mem_singleton.mp mem
    exact holds
  | genericCSV => cases mem

end Aspm.Parsers
