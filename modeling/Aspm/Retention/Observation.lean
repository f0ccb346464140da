import Aspm.Lib.JsonDatum

/-!
# Observations as JSON

The record `Observation` with its members as `encoding/json` writes them and reads them back,
and the summary that an archived observation leaves behind.  A member that is absent or
`null` is read as the zero value of its type, and so is what `omitempty` leaves out.

A map is listed by its entries; in the JSON value the keys are in order (`Datum.decoded`).
Names of members are compared exactly; `encoding/json` takes other cases too, which it never
writes.
-/

namespace Aspm.Retention

open Json (Text Datum Fields)
open SortedMap (get)

/-- A type of times with the text that `encoding/json` uses for them. -/
class Timestamp (T : Type) where
  format : T → Text
  parse : Text → Option T
  parse_format : ∀ t, parse (format t) = some t

structure Scope where
  id : Text
  revision : Text
  branch : Text
deriving DecidableEq

structure Location where
  uri : Text
  line : Int64
deriving DecidableEq

structure Observation (T : Type) where
  id : Text
  runID : Text
  sourceID : Text
  scanID : Text
  scope : Scope
  sourceScanAt : Option T
  sourceFindingID : Text
  sourceSeverity : Text
  normalizedSeverity : Text
  sourceLocation : Location
  impact : Text
  remediation : Text
  /-- A map may be `nil`, and so may a slice. -/
  unmapped : Option (Fields ℚ)
  evidenceDigest : Text
  evidenceAvailability : Text
  changeKind : Text
  changeReasons : Option (List Text)

/-! ## Writing -/

def Scope.json (s : Scope) : Datum ℚ :=
  .object [
    ("branch".toList, .string s.branch),
    ("id".toList, .string s.id),
    ("revision".toList, .string s.revision)]

def Location.json (l : Location) : Datum ℚ :=
  .object [("line".toList, .number l.line.toInt), ("uri".toList, .string l.uri)]

def timeJson {T : Type} [Timestamp T] : Option T → Datum ℚ
  | none => .null
  | some t => .string (Timestamp.format t)

def textsJson : Option (List Text) → Datum ℚ
  | none => .null
  | some texts => .array (texts.map .string)

def mapJson : Option (Fields ℚ) → Datum ℚ
  | none => .null
  | some fields => (Datum.object fields).decoded

namespace Observation

variable {T : Type} [Timestamp T]

/-- `omitempty`. -/
def availabilityField (o : Observation T) : Fields ℚ :=
  if o.evidenceAvailability = [] then []
  else [("evidenceAvailability".toList, .string o.evidenceAvailability)]

def json (o : Observation T) : Datum ℚ :=
  .object ([
    ("changeKind".toList, .string o.changeKind),
    ("changeReasons".toList, textsJson o.changeReasons)] ++
    o.availabilityField ++ [
    ("evidenceDigest".toList, .string o.evidenceDigest),
    ("id".toList, .string o.id),
    ("impact".toList, .string o.impact),
    ("normalizedSeverity".toList, .string o.normalizedSeverity),
    ("remediation".toList, .string o.remediation),
    ("runId".toList, .string o.runID),
    ("scanId".toList, .string o.scanID),
    ("scope".toList, o.scope.json),
    ("sourceFindingId".toList, .string o.sourceFindingID),
    ("sourceId".toList, .string o.sourceID),
    ("sourceLocation".toList, o.sourceLocation.json),
    ("sourceScanAt".toList, timeJson o.sourceScanAt),
    ("sourceSeverity".toList, .string o.sourceSeverity),
    ("unmapped".toList, mapJson o.unmapped)])

end Observation

/-! ## Reading -/

/-- The member of an object, where it is there. -/
def member (fields : Fields ℚ) (name : String) : Datum ℚ := (get name.toList fields).getD .null

def readText : Datum ℚ → Option Text
  | .null => some []
  | .string t => some t
  | _ => none

def readInt : Datum ℚ → Option Int64
  | .null => some 0
  | .number n => if n = (Int64.ofInt n.num).toInt then some (Int64.ofInt n.num) else none
  | _ => none

def readTime {T : Type} [Timestamp T] : Datum ℚ → Option (Option T)
  | .null => some none
  | .string t => (Timestamp.parse t).map some
  | _ => none

def readTexts : Datum ℚ → Option (Option (List Text))
  | .null => some none
  | .array items => (items.mapM readText).map some
  | _ => none

def readMap : Datum ℚ → Option (Option (Fields ℚ))
  | .null => some none
  | .object fields => some (some fields)
  | _ => none

/-- A record that is `null` has no members. -/
def readRecord : Datum ℚ → Option (Fields ℚ)
  | .null => some []
  | .object fields => some fields
  | _ => none

def Scope.ofJson (v : Datum ℚ) : Option Scope := do
  let fields ← readRecord v
  return {
    id := ← readText (member fields "id")
    revision := ← readText (member fields "revision")
    branch := ← readText (member fields "branch") }

def Location.ofJson (v : Datum ℚ) : Option Location := do
  let fields ← readRecord v
  return {
    uri := ← readText (member fields "uri")
    line := ← readInt (member fields "line") }

namespace Observation

variable {T : Type} [Timestamp T]

/-- `json.Unmarshal` into an `Observation`. -/
def ofJson (v : Datum ℚ) : Option (Observation T) := do
  let fields ← readRecord v
  return {
    id := ← readText (member fields "id")
    runID := ← readText (member fields "runId")
    sourceID := ← readText (member fields "sourceId")
    scanID := ← readText (member fields "scanId")
    scope := ← Scope.ofJson (member fields "scope")
    sourceScanAt := ← readTime (member fields "sourceScanAt")
    sourceFindingID := ← readText (member fields "sourceFindingId")
    sourceSeverity := ← readText (member fields "sourceSeverity")
    normalizedSeverity := ← readText (member fields "normalizedSeverity")
    sourceLocation := ← Location.ofJson (member fields "sourceLocation")
    impact := ← readText (member fields "impact")
    remediation := ← readText (member fields "remediation")
    unmapped := ← readMap (member fields "unmapped")
    evidenceDigest := ← readText (member fields "evidenceDigest")
    evidenceAvailability := ← readText (member fields "evidenceAvailability")
    changeKind := ← readText (member fields "changeKind")
    changeReasons := ← readTexts (member fields "changeReasons") }

/-- The observation without its detail. -/
def compact (o : Observation T) : Observation T :=
  { o with
    impact := []
    remediation := []
    unmapped := some []
    evidenceAvailability := [] }

end Observation

/-- `compactObservation`, from JSON to JSON. -/
def compactObservation (T : Type) [Timestamp T] (v : Datum ℚ) : Option (Datum ℚ) :=
  (Observation.ofJson (T := T) v).map fun o => o.compact.json

/-! ## What is written is read back -/

theorem readTexts_textsJson (texts : Option (List Text)) :
    readTexts (textsJson texts) = some texts := by
  cases texts with
  | none => rfl
  | some texts =>
    have each : (texts.map Datum.string).mapM readText = some texts := by
      induction texts with
      | nil => rfl
      | cons t texts ih => simp [readText, ih]
    rw [textsJson, readTexts, each]
    rfl

theorem readTime_timeJson {T : Type} [Timestamp T] (t : Option T) :
    readTime (timeJson t) = some t := by
  cases t with
  | none => rfl
  | some t => rw [timeJson, readTime, Timestamp.parse_format, Option.map_some]

theorem readInt_toInt (n : Int64) : readInt (.number n.toInt) = some n := by
  rw [readInt, Rat.num_intCast, Int64.ofInt_toInt, if_pos rfl]

/-- The entries of a map in the order of their keys. -/
def listed (fields : Fields ℚ) : Fields ℚ := Datum.decodedFields fields []

theorem readMap_mapJson (m : Option (Fields ℚ)) : readMap (mapJson m) = some (m.map listed) := by
  cases m <;> rfl

theorem Scope.ofJson_json (s : Scope) : Scope.ofJson s.json = some s := rfl

theorem Location.ofJson_json (l : Location) : Location.ofJson l.json = some l := by
  show ((readInt (.number l.line.toInt)).bind fun line => some ⟨l.uri, line⟩) = some l
  rw [readInt_toInt]
  rfl

namespace Observation

variable {T : Type} [Timestamp T]

/-- **What is written is read back**, with the map of unmapped members in order. -/
theorem ofJson_json (o : Observation T) :
    ofJson o.json = some { o with unmapped := o.unmapped.map listed } := by
  have parts (availability : Text) : (do
      let scope ← Scope.ofJson o.scope.json
      let sourceScanAt ← readTime (timeJson o.sourceScanAt)
      let sourceLocation ← Location.ofJson o.sourceLocation.json
      let unmapped ← readMap (mapJson o.unmapped)
      let changeReasons ← readTexts (textsJson o.changeReasons)
      some ({ o with
        scope, sourceScanAt, sourceLocation, unmapped, changeReasons
        evidenceAvailability := availability } : Observation T)) =
      some { o with
        unmapped := o.unmapped.map listed, evidenceAvailability := availability } := by
    rw [Scope.ofJson_json, readTime_timeJson, Location.ofJson_json, readMap_mapJson,
      readTexts_textsJson]
    rfl
  -- the members that are texts are read by looking them up
  unfold json availabilityField
  split
  case isTrue empty =>
    refine (parts []).trans ?_
    rw [← empty]
  case isFalse => exact parts o.evidenceAvailability

/-- The summary of an observation says all but its detail. -/
theorem compactObservation_json (o : Observation T) :
    compactObservation T o.json = some o.compact.json := by
  rw [compactObservation, ofJson_json]
  rfl

/-- The names of all members, in order. -/
def names : List String := [
  "changeKind", "changeReasons", "evidenceAvailability", "evidenceDigest", "id", "impact",
  "normalizedSeverity", "remediation", "runId", "scanId", "scope", "sourceFindingId", "sourceId",
  "sourceLocation", "sourceScanAt", "sourceSeverity", "unmapped"]

/-- The keys are in order, in the observation and in all that it has. -/
theorem canonical_json (o : Observation T) : o.json.Canonical := by
  have reasons : (textsJson o.changeReasons).Canonical := by
    cases o.changeReasons with
    | none => trivial
    | some texts =>
      refine Datum.canonicalItems_iff.mpr fun v mem => ?_
      obtain ⟨t, -, rfl⟩ := List.mem_map.mp mem
      trivial
  have time : (timeJson o.sourceScanAt).Canonical := by
    cases o.sourceScanAt <;> trivial
  have unmapped : (mapJson o.unmapped).Canonical := by
    cases o.unmapped with
    | none => trivial
    | some fields => exact Datum.canonical_decoded _
  have scope : o.scope.json.Canonical :=
    ⟨List.pairwise_map.mp (show List.Pairwise (· < ·) ["branch".toList, "id".toList,
      "revision".toList] by decide +kernel), trivial, trivial, trivial, trivial⟩
  have location : o.sourceLocation.json.Canonical :=
    ⟨List.pairwise_map.mp (show List.Pairwise (· < ·) ["line".toList, "uri".toList]
      by decide +kernel), trivial, trivial, trivial⟩
  have ordered : List.Pairwise (· < ·) (names.map String.toList) := by decide +kernel
  have omitted : ((names.erase "evidenceAvailability").map String.toList).Sublist
      (names.map String.toList) := List.erase_sublist.map _
  unfold json availabilityField
  split
  · refine ⟨List.pairwise_map.mp (ordered.sublist omitted), ?_⟩
    exact ⟨trivial, reasons, trivial, trivial, trivial, trivial, trivial, trivial, trivial, scope,
      trivial, trivial, location, time, trivial, unmapped, trivial⟩
  · refine ⟨List.pairwise_map.mp ordered, ?_⟩
    exact ⟨trivial, reasons, trivial, trivial, trivial, trivial, trivial, trivial, trivial,
      trivial, scope, trivial, trivial, location, time, trivial, unmapped, trivial⟩

end Observation

end Aspm.Retention
