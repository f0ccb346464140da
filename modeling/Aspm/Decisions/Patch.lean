import Aspm.Lib.Fallible
import Aspm.Correlation.Group

/-!
# Decision patches

What `applyFindingDecisionPatch` computes between its `SELECT` and its `COMMIT`, for one finding:
the decision as it is read, the patched one, and the rows that are written.

A decision is stored in two places.  Owner, workflow state, disposition and the expiry of an
accepted risk are columns of the finding; scope and rationale of the disposition, and the expiry
of a suppression, are columns of the latest row of `finding_disposition_approvals` that has the
disposition of the finding.  `Finding.decisionWith` joins the two, and it takes the approval as
an argument: a reader does not always see the approval that belongs to the finding it sees.
`decision_write` is the law that holds if it does: what is written is what is read back, up to
the times, of which the columns keep the microseconds only.
-/

namespace Aspm.Decisions

open Fallible
open Reconcile (Time)
open Correlation (ActorID WorkflowState Disposition FindingDecision RequestError validText)

/-- The zero time of Go, in nanoseconds like all times here. -/
def zeroTime : Time := -62135596800000000000

/-- What a column keeps of a time: the microseconds. -/
def stored (time : Time) : Time := time / 1000 * 1000

@[simp] theorem stored_stored (time : Time) : stored (stored time) = stored time := by
  unfold stored
  rw [Int.mul_ediv_cancel _ (by decide)]

/-- A decision as far as its times can be stored. -/
def storable (decision : FindingDecision) : FindingDecision :=
  { decision with
    acceptedRiskExpiresAt := decision.acceptedRiskExpiresAt.map stored
    suppressionExpiresAt := decision.suppressionExpiresAt.map stored }

def parseWorkflowState : String → Option WorkflowState
  | "open" => some .opened
  | "in-progress" => some .inProgress
  | "pending-retest" => some .pendingRetest
  | "resolved" => some .resolved
  | _ => none

def parseDisposition : String → Option Disposition
  | "none" => some .none
  | "accepted-risk" => some .acceptedRisk
  | "suppressed" => some .suppressed
  | "false-positive" => some .falsePositive
  | _ => none

def validDispositionScope (value : String) : Bool :=
  value = "finding" || value = "asset" || value = "source" || value = "scope"

/-- `findingDecisionPatch`.  A field is absent, or set to a value or to null. -/
structure FindingDecisionPatch where
  ownerID : Option (Option ActorID)
  workflowState : Option (Option String)
  disposition : Option (Option String)
  acceptedRiskExpiresAt : Option (Option Time)
  dispositionScope : Option (Option String)
  suppressionExpiresAt : Option (Option Time)
  rationale : String
  expectedRevision : Option ℕ
  rejectNoChange : Bool
deriving DecidableEq

/-- The patch sets no time that a column would cut. -/
def FindingDecisionPatch.whole (patch : FindingDecisionPatch) : Bool :=
  (patch.acceptedRiskExpiresAt.all fun time => time.map stored = time) &&
    patch.suppressionExpiresAt.all fun time => time.map stored = time

/-! ## The patched decision -/

/-- The names under which `changed_fields` lists the parts of a decision. -/
def decisionChanges (before after : FindingDecision) : List String :=
  (if before.ownerID ≠ after.ownerID then ["ownerId"] else []) ++
  (if before.workflowState ≠ after.workflowState then ["workflowState"] else []) ++
  (if before.disposition ≠ after.disposition then ["disposition"] else []) ++
  (if before.acceptedRiskExpiresAt ≠ after.acceptedRiskExpiresAt
    then ["acceptedRiskExpiresAt"] else []) ++
  (if before.dispositionScope ≠ after.dispositionScope then ["dispositionScope"] else []) ++
  (if before.suppressionExpiresAt ≠ after.suppressionExpiresAt
    then ["suppressionExpiresAt"] else []) ++
  (if before.dispositionRationale ≠ after.dispositionRationale
    then ["dispositionRationale"] else [])

/-- The parts of a decision. -/
inductive Field where
  | ownerID
  | workflowState
  | disposition
  | acceptedRiskExpiresAt
  | dispositionScope
  | suppressionExpiresAt
  | dispositionRationale
deriving DecidableEq

def Field.name : Field → String
  | .ownerID => "ownerId"
  | .workflowState => "workflowState"
  | .disposition => "disposition"
  | .acceptedRiskExpiresAt => "acceptedRiskExpiresAt"
  | .dispositionScope => "dispositionScope"
  | .suppressionExpiresAt => "suppressionExpiresAt"
  | .dispositionRationale => "dispositionRationale"

/-- Two decisions have this part in common. -/
def Field.Agree (before after : FindingDecision) : Field → Prop
  | .ownerID => before.ownerID = after.ownerID
  | .workflowState => before.workflowState = after.workflowState
  | .disposition => before.disposition = after.disposition
  | .acceptedRiskExpiresAt => before.acceptedRiskExpiresAt = after.acceptedRiskExpiresAt
  | .dispositionScope => before.dispositionScope = after.dispositionScope
  | .suppressionExpiresAt => before.suppressionExpiresAt = after.suppressionExpiresAt
  | .dispositionRationale => before.dispositionRationale = after.dispositionRationale

/-- The listed names are those of the parts that differ. -/
theorem mem_decisionChanges {before after : FindingDecision} {name : String} :
    name ∈ decisionChanges before after ↔ ∃ field : Field, field.name = name ∧
      ¬ field.Agree before after := by
  have listed : ∀ (agree : Prop) [Decidable agree] (label : String),
      name ∈ (if ¬ agree then [label] else []) ↔ label = name ∧ ¬ agree := by
    intro agree _ label
    split <;> simp_all [eq_comm]
  simp only [decisionChanges, List.mem_append, ne_eq, listed]
  constructor
  · rintro ((((((found | found) | found) | found) | found) | found) | found)
    · exact ⟨.ownerID, found⟩
    · exact ⟨.workflowState, found⟩
    · exact ⟨.disposition, found⟩
    · exact ⟨.acceptedRiskExpiresAt, found⟩
    · exact ⟨.dispositionScope, found⟩
    · exact ⟨.suppressionExpiresAt, found⟩
    · exact ⟨.dispositionRationale, found⟩
  · rintro ⟨field, found⟩
    cases field with
    | ownerID => exact .inl (.inl (.inl (.inl (.inl (.inl found)))))
    | workflowState => exact .inl (.inl (.inl (.inl (.inl (.inr found)))))
    | disposition => exact .inl (.inl (.inl (.inl (.inr found))))
    | acceptedRiskExpiresAt => exact .inl (.inl (.inl (.inr found)))
    | dispositionScope => exact .inl (.inl (.inr found))
    | suppressionExpiresAt => exact .inl (.inr found)
    | dispositionRationale => exact .inr found

/-- No name is listed twice. -/
theorem nodup_decisionChanges (before after : FindingDecision) :
    (decisionChanges before after).Nodup := by
  have sublist : (decisionChanges before after).Sublist
      (["ownerId"] ++ ["workflowState"] ++ ["disposition"] ++ ["acceptedRiskExpiresAt"] ++
        ["dispositionScope"] ++ ["suppressionExpiresAt"] ++ ["dispositionRationale"]) := by
    have part : ∀ (c : Prop) [Decidable c] (label : String),
        (if c then [label] else []).Sublist [label] := by
      intro c _ label
      split <;> simp
    unfold decisionChanges
    iterate 6 refine List.Sublist.append ?_ (part _ _)
    exact part _ _
  exact sublist.nodup (by decide)

namespace FindingDecisionPatch

/-- `dispositionTouched`. -/
def touched (patch : FindingDecisionPatch) : Bool :=
  patch.disposition.isSome || patch.acceptedRiskExpiresAt.isSome ||
    patch.dispositionScope.isSome || patch.suppressionExpiresAt.isSome

/-- Fields that may be null take the value as it is. -/
def setNullable {α : Type} (field : Option (Option α)) (old : Option α) : Option α :=
  field.getD old

/-- Fields that may not be null: a value that is not admitted, or null, is an error. -/
def setParsed {α : Type} (parse : String → Option α) (field : Option (Option String)) (old : α) :
    Except RequestError α :=
  match field with
  | none => .ok old
  | some value =>
    match value.bind parse with
    | some new => .ok new
    | none => .error .invalid

/-- What a change of the disposition does to the rest of the decision. -/
def follow (patch : FindingDecisionPatch) (after : FindingDecision) :
    Except RequestError FindingDecision :=
  match after.disposition with
  | .none =>
    .ok { after with
      acceptedRiskExpiresAt := none
      suppressionExpiresAt := none
      dispositionScope := ""
      dispositionRationale := "" }
  | .acceptedRisk =>
    .ok { after with
      suppressionExpiresAt := none
      dispositionScope :=
        if patch.dispositionScope.isSome then after.dispositionScope else "finding" }
  | .suppressed =>
    if patch.dispositionScope.isSome then .ok { after with acceptedRiskExpiresAt := none }
    else .error .invalid
  | .falsePositive =>
    .ok { after with
      acceptedRiskExpiresAt := none
      suppressionExpiresAt := none
      dispositionScope :=
        if patch.dispositionScope.isSome then after.dispositionScope else "finding" }

/-- The decision with the fields of the patch set. -/
def set (patch : FindingDecisionPatch) (before : FindingDecision) :
    Except RequestError FindingDecision := do
  let workflowState ← setParsed parseWorkflowState patch.workflowState before.workflowState
  let disposition ← setParsed parseDisposition patch.disposition before.disposition
  let dispositionScope ← setParsed some patch.dispositionScope before.dispositionScope
  let after : FindingDecision :=
    { ownerID := setNullable patch.ownerID before.ownerID
      workflowState
      disposition
      acceptedRiskExpiresAt := setNullable patch.acceptedRiskExpiresAt before.acceptedRiskExpiresAt
      dispositionScope
      suppressionExpiresAt := setNullable patch.suppressionExpiresAt before.suppressionExpiresAt
      dispositionRationale := before.dispositionRationale }
  if disposition ≠ before.disposition then patch.follow after else .ok after

/-- The rationale of a patch goes to the disposition if the patch touches it. -/
def rationalize (patch : FindingDecisionPatch) (after : FindingDecision) :
    Except RequestError FindingDecision :=
  if patch.touched then
    if !validText patch.rationale 8192 then .error .invalid
    else if after.disposition = .none then
      .ok { after with
        dispositionScope := ""
        dispositionRationale := ""
        acceptedRiskExpiresAt := none
        suppressionExpiresAt := none }
    else .ok { after with dispositionRationale := patch.rationale }
  else if patch.rationale ≠ "" && !validText patch.rationale 8192 then .error .invalid
  else .ok after

end FindingDecisionPatch

/-- The last check of a patched decision, at the wall-clock time `now`. -/
def admitted (now : Time) (after : FindingDecision) : Bool :=
  match after.disposition with
  | .none => after.acceptedRiskExpiresAt = none && after.suppressionExpiresAt = none &&
      after.dispositionScope = "" && after.dispositionRationale = ""
  | .acceptedRisk => after.dispositionScope = "finding" && after.suppressionExpiresAt = none &&
      after.acceptedRiskExpiresAt ≠ some zeroTime
  | .suppressed => validDispositionScope after.dispositionScope &&
      after.acceptedRiskExpiresAt = none &&
      after.suppressionExpiresAt.any fun time => time ≠ zeroTime && now < time
  | .falsePositive => after.dispositionScope = "finding" &&
      after.acceptedRiskExpiresAt = none && after.suppressionExpiresAt = none

/-- **The decision that a patch makes of another**, or why it does not.  `ownerExists` is the
answer of `checkOwner` about an owner that is set. -/
def FindingDecisionPatch.apply (patch : FindingDecisionPatch) (now : Time) (ownerExists : Bool)
    (revision : ℕ) (before : FindingDecision) : Except RequestError FindingDecision := do
  check .conflict (patch.expectedRevision.all (· = revision))
  let set ← patch.set before
  check .invalid (set.ownerID.isNone || ownerExists)
  let after ← patch.rationalize set
  check .invalid (admitted now after)
  check .conflict (!patch.rejectNoChange || decisionChanges before after ≠ [])
  return after

/-! ## What is stored -/

inductive DecisionAction where
  | update
  | bulkUpdate
deriving DecidableEq

/-- A row of `finding_disposition_approvals`. -/
structure Approval where
  decisionRevision : ℕ
  actorID : ActorID
  disposition : Disposition
  scopeKind : String
  scopeValue : String
  rationale : String
  expiresAt : Option Time
deriving DecidableEq

/-- A row of `finding_decision_events`. -/
structure DecisionEvent where
  decisionRevision : ℕ
  actorID : ActorID
  action : DecisionAction
  rationale : String
  changedFields : List String
  before : FindingDecision
  after : FindingDecision
deriving DecidableEq

/-- A finding with its approvals and decision events, which are written under its row lock and
commit with it. -/
structure Finding where
  id : String
  assetID : String
  sourceID : String
  scopeID : String
  scopeRevision : String
  scopeBranch : String
  ownerID : Option ActorID
  workflowState : WorkflowState
  disposition : Disposition
  acceptedRiskExpiresAt : Option Time
  decisionRevision : ℕ
  approvals : List Approval
  events : List DecisionEvent
  /-- The revision of the last merge or split that decided about the finding. -/
  correlatedAt : ℕ
deriving DecidableEq

namespace Finding

/-- The latest approval of the disposition that the finding has. -/
def approval (row : Finding) : Option Approval :=
  (row.approvals.filter fun a => a.disposition = row.disposition &&
    a.decisionRevision ≤ row.decisionRevision).argmax (·.decisionRevision)

/-- The decision as it is read, with an approval joined to the finding. -/
def decisionWith (row : Finding) (approval : Option Approval) : FindingDecision where
  ownerID := row.ownerID
  workflowState := row.workflowState
  disposition := row.disposition
  acceptedRiskExpiresAt := row.acceptedRiskExpiresAt
  dispositionScope :=
    if row.disposition = .none then "" else (approval.map (·.scopeKind)).getD "finding"
  suppressionExpiresAt :=
    if row.disposition = .suppressed then approval.bind (·.expiresAt) else none
  dispositionRationale := (approval.map (·.rationale)).getD ""

/-- The decision that a statement reads which sees the finding and its approvals as they are. -/
def decision (row : Finding) : FindingDecision := row.decisionWith row.approval

def dispositionScopeValue (row : Finding) (scope : String) : Option String :=
  if scope = "finding" then some row.id
  else if scope = "asset" then some row.assetID
  else if scope = "source" then some row.sourceID
  else if scope = "scope" then
    let value :=
      row.scopeID ++ " / " ++ row.scopeBranch ++ " (revision " ++ row.scopeRevision ++ ")"
    if value = " /  (revision )" then none else some value
  else none

/-- The expiry that an approval records, if the decision can be approved. -/
def approvedExpiry (now : Time) (after : FindingDecision) : Option (Option Time) :=
  match after.disposition with
  | .none => none
  | .acceptedRisk =>
    if after.dispositionScope = "finding" && after.suppressionExpiresAt = none then
      some after.acceptedRiskExpiresAt
    else none
  | .suppressed =>
    if after.acceptedRiskExpiresAt = none &&
        (after.suppressionExpiresAt.any fun time => time ≠ zeroTime && now < time) then
      some after.suppressionExpiresAt
    else none
  | .falsePositive =>
    if after.dispositionScope = "finding" && after.acceptedRiskExpiresAt = none &&
        after.suppressionExpiresAt = none then
      some none
    else none

/-- The rationale of the decision, or else that of the request. -/
def approvedRationale (after : FindingDecision) (fallbackRationale : String) : String :=
  if after.dispositionRationale = "" then fallbackRationale else after.dispositionRationale

/-- `insertDispositionApproval`, of a decision that has a disposition. -/
def insertDispositionApproval (row : Finding) (now : Time) (actor : ActorID) (revision : ℕ)
    (after : FindingDecision) (fallbackRationale : String) : Except RequestError Approval :=
  if !validText (approvedRationale after fallbackRationale) 8192 ||
      !validDispositionScope after.dispositionScope then
    .error .invalid
  else
    match row.dispositionScopeValue after.dispositionScope, approvedExpiry now after with
    | some scopeValue, some expiresAt =>
      if scopeValue.toList.any (·.toNat = 0) || 4096 < scopeValue.utf8ByteSize then
        .error .invalid
      else .ok ⟨revision, actor, after.disposition, after.dispositionScope, scopeValue,
        approvedRationale after fallbackRationale, expiresAt.map stored⟩
    | _, _ => .error .invalid

/-- The approvals that are inserted for a decision, if one is due. -/
def approve (row : Finding) (due : Bool) (now : Time) (actor : ActorID) (after : FindingDecision)
    (fallbackRationale : String) : Except RequestError (List Approval) :=
  if due && after.disposition ≠ .none then
    (row.insertDispositionApproval now actor (row.decisionRevision + 1) after
      fallbackRationale).map ([·])
  else .ok []

/-- The columns of the finding take a decision, at the next revision. -/
def setDecision (row : Finding) (after : FindingDecision) (approvals : List Approval) : Finding :=
  { row with
    ownerID := after.ownerID
    workflowState := after.workflowState
    disposition := after.disposition
    acceptedRiskExpiresAt := after.acceptedRiskExpiresAt.map stored
    decisionRevision := row.decisionRevision + 1
    approvals := row.approvals ++ approvals }

end Finding

/-- Who patches, and how it is recorded. -/
structure Author where
  actor : ActorID
  action : DecisionAction
deriving DecidableEq

/-- **What a patch writes**, having read the finding joined with `approval`. -/
def FindingDecisionPatch.write (patch : FindingDecisionPatch) (author : Author) (now : Time)
    (ownerExists : Bool) (approval : Option Approval) (row : Finding) :
    Except RequestError Finding := do
  let before := row.decisionWith approval
  let after ← patch.apply now ownerExists row.decisionRevision before
  let approvals ← row.approve patch.touched now author.actor after patch.rationale
  return { row.setDecision after approvals with
    events := row.events ++ [⟨row.decisionRevision + 1, author.actor, author.action,
      patch.rationale, decisionChanges before after, before, after⟩] }

/-! ## What is written is what is read back -/

section ReadBack

variable {patch : FindingDecisionPatch} {now : Time} {ownerExists : Bool} {revision : ℕ}
  {before after : FindingDecision} {row row' : Finding} {author : Author}
  {approval : Option Approval}

/-- A patch that does not touch the disposition leaves it alone. -/
theorem set_untouched (untouched : patch.touched = false) (set : patch.set before = .ok after) :
    after = { before with ownerID := after.ownerID, workflowState := after.workflowState } := by
  simp only [FindingDecisionPatch.touched, Bool.or_eq_false_iff, Option.isSome_eq_false_iff,
    Option.isNone_iff_eq_none] at untouched
  obtain ⟨⟨⟨disposition, expires⟩, scope⟩, suppression⟩ := untouched
  unfold FindingDecisionPatch.set at set
  simp only [disposition, expires, scope, suppression, FindingDecisionPatch.setParsed,
    FindingDecisionPatch.setNullable, Option.getD_none] at set
  obtain ⟨workflowState, -, set⟩ := bind_eq_ok.mp set
  obtain ⟨_, same, set⟩ := bind_eq_ok.mp set
  obtain ⟨_, same', set⟩ := bind_eq_ok.mp set
  obtain rfl := Except.ok.inj same
  obtain rfl := Except.ok.inj same'
  rw [if_neg (not_not.mpr rfl)] at set
  rw [← Except.ok.inj set]

/-- When a patch succeeds. -/
theorem applied_iff :
    patch.apply now ownerExists revision before = .ok after ↔ ∃ set,
      patch.expectedRevision.all (· = revision) = true ∧ patch.set before = .ok set ∧
      (set.ownerID.isNone || ownerExists) = true ∧ patch.rationalize set = .ok after ∧
      admitted now after = true ∧
      (!patch.rejectNoChange || decisionChanges before after ≠ []) = true := by
  simp only [FindingDecisionPatch.apply, bind_eq_ok, check_eq_ok, pure_eq_ok]
  constructor
  · rintro ⟨-, expected, set, assigned, -, owner, result, rationalized, -, passed, -, changed, rfl⟩
    exact ⟨set, expected, assigned, owner, rationalized, passed, changed⟩
  · rintro ⟨set, expected, assigned, owner, rationalized, passed, changed⟩
    exact ⟨⟨⟩, expected, set, assigned, ⟨⟩, owner, after, rationalized, ⟨⟩, passed, ⟨⟩, changed, rfl⟩

/-- What the success of a patch says about the decision that it makes. -/
theorem apply_eq_ok (applied : patch.apply now ownerExists revision before = .ok after) :
    admitted now after = true ∧
      (patch.touched = false →
        after = { before with ownerID := after.ownerID, workflowState := after.workflowState }) ∧
      (patch.touched = true → after.disposition ≠ .none →
        after.dispositionRationale = patch.rationale) := by
  obtain ⟨set, -, assigned, -, rationalized, passed, -⟩ := applied_iff.mp applied
  unfold FindingDecisionPatch.rationalize at rationalized
  refine ⟨passed, ?_, ?_⟩
  · intro untouched
    rw [untouched, if_neg Bool.false_ne_true] at rationalized
    split at rationalized
    · cases rationalized
    · obtain rfl := Except.ok.inj rationalized
      exact set_untouched untouched assigned
  · intro touched disposed
    rw [touched, if_pos rfl] at rationalized
    split at rationalized
    · cases rationalized
    · split at rationalized
      case isTrue none =>
        obtain rfl := Except.ok.inj rationalized
        exact absurd none disposed
      case isFalse =>
        obtain rfl := Except.ok.inj rationalized
        rfl

/-- What follows from a new disposition is only about the disposition. -/
theorem kept_of_follow (followed : patch.follow before = .ok after) :
    after.disposition = before.disposition ∧ after.ownerID = before.ownerID ∧
      after.workflowState = before.workflowState := by
  unfold FindingDecisionPatch.follow at followed
  split at followed
  case h_1 | h_2 | h_4 =>
    obtain rfl := Except.ok.inj followed
    exact ⟨rfl, rfl, rfl⟩
  case h_3 =>
    split at followed
    case isTrue =>
      obtain rfl := Except.ok.inj followed
      exact ⟨rfl, rfl, rfl⟩
    case isFalse => cases followed

/-- And so is the rationale of a patch. -/
theorem kept_of_rationalize (rationalized : patch.rationalize before = .ok after) :
    after.disposition = before.disposition ∧ after.ownerID = before.ownerID ∧
      after.workflowState = before.workflowState := by
  unfold FindingDecisionPatch.rationalize at rationalized
  split_ifs at rationalized <;> obtain rfl := Except.ok.inj rationalized <;> exact ⟨rfl, rfl, rfl⟩

/-- The fields of a patch that are set, are set. -/
theorem set_eq_ok (set : patch.set before = .ok after) :
    FindingDecisionPatch.setParsed parseDisposition patch.disposition before.disposition =
        .ok after.disposition ∧
      after.ownerID = FindingDecisionPatch.setNullable patch.ownerID before.ownerID ∧
      FindingDecisionPatch.setParsed parseWorkflowState patch.workflowState
        before.workflowState = .ok after.workflowState := by
  unfold FindingDecisionPatch.set at set
  obtain ⟨workflowState, workflow, set⟩ := bind_eq_ok.mp set
  obtain ⟨disposition, disposed, set⟩ := bind_eq_ok.mp set
  obtain ⟨scope, -, set⟩ := bind_eq_ok.mp set
  split at set
  case isTrue =>
    obtain ⟨same, owner, state⟩ := kept_of_follow set
    exact ⟨by rw [disposed, same], owner, by rw [workflow, state]⟩
  case isFalse =>
    obtain rfl := Except.ok.inj set
    exact ⟨disposed, rfl, workflow⟩

/-- The disposition that a patch sets is the one that it makes. -/
theorem disposition_of_apply {value : String} {disposition : Disposition}
    (sets : patch.disposition = some (some value))
    (parses : parseDisposition value = some disposition)
    (applied : patch.apply now ownerExists revision before = .ok after) :
    after.disposition = disposition := by
  obtain ⟨set, -, assigned, -, rationalized, -⟩ := applied_iff.mp applied
  have parsed := (set_eq_ok assigned).1
  rw [sets, FindingDecisionPatch.setParsed, Option.bind_some, parses] at parsed
  rw [(kept_of_rationalize rationalized).1]
  exact (Except.ok.inj parsed).symm

/-- The owner that a patch leaves is a member. -/
theorem ownerID_of_apply (applied : patch.apply now ownerExists revision before = .ok after) :
    after.ownerID = FindingDecisionPatch.setNullable patch.ownerID before.ownerID ∧
      (after.ownerID.isNone || ownerExists) = true := by
  obtain ⟨set, -, assigned, owner, rationalized, -⟩ := applied_iff.mp applied
  have kept := (kept_of_rationalize rationalized).2.1
  exact ⟨kept.trans (set_eq_ok assigned).2.1, kept ▸ owner⟩

/-- A decision can be stored as it is if both of its times can. -/
theorem storable_eq_self {decision : FindingDecision} :
    storable decision = decision ↔
      decision.acceptedRiskExpiresAt.map stored = decision.acceptedRiskExpiresAt ∧
        decision.suppressionExpiresAt.map stored = decision.suppressionExpiresAt := by
  cases decision
  simp [storable]

theorem storable_follow (whole : storable before = before)
    (followed : patch.follow before = .ok after) : storable after = after := by
  obtain ⟨expires, suppression⟩ := storable_eq_self.mp whole
  unfold FindingDecisionPatch.follow at followed
  rw [storable_eq_self]
  split at followed
  case h_1 | h_2 | h_4 =>
    obtain rfl := Except.ok.inj followed
    simp [expires]
  case h_3 =>
    split at followed
    case isTrue =>
      obtain rfl := Except.ok.inj followed
      simp [suppression]
    case isFalse => cases followed

theorem storable_set (whole : patch.whole = true) (whole' : storable before = before)
    (set : patch.set before = .ok after) : storable after = after := by
  obtain ⟨expires, suppression⟩ := storable_eq_self.mp whole'
  simp only [FindingDecisionPatch.whole, Bool.and_eq_true, Option.all_eq_true,
    decide_eq_true_eq] at whole
  have nullable : ∀ (field : Option (Option Time)) (old : Option Time),
      (∀ time ∈ field, time.map stored = time) → old.map stored = old →
      (FindingDecisionPatch.setNullable field old).map stored =
        FindingDecisionPatch.setNullable field old := by
    intro field old new kept
    cases field with
    | none => exact kept
    | some time => exact new time rfl
  unfold FindingDecisionPatch.set at set
  obtain ⟨workflowState, -, set⟩ := bind_eq_ok.mp set
  obtain ⟨disposition, -, set⟩ := bind_eq_ok.mp set
  obtain ⟨scope, -, set⟩ := bind_eq_ok.mp set
  have times := And.intro (nullable _ _ whole.1 expires) (nullable _ _ whole.2 suppression)
  split at set
  case isTrue => exact storable_follow (storable_eq_self.mpr times) set
  case isFalse =>
    obtain rfl := Except.ok.inj set
    exact storable_eq_self.mpr times

/-- A patch of whole times makes a decision of whole times. -/
theorem storable_apply (whole : patch.whole = true) (whole' : storable before = before)
    (applied : patch.apply now ownerExists revision before = .ok after) :
    storable after = after := by
  obtain ⟨set, -, assigned, -, rationalized, -⟩ := applied_iff.mp applied
  have times := storable_set whole whole' assigned
  unfold FindingDecisionPatch.rationalize at rationalized
  split at rationalized
  case isTrue =>
    split at rationalized
    · cases rationalized
    · split at rationalized
      · obtain rfl := Except.ok.inj rationalized
        rfl
      · obtain rfl := Except.ok.inj rationalized
        have times := storable_eq_self.mp times
        exact storable_eq_self.mpr times
  case isFalse =>
    split at rationalized
    · cases rationalized
    · obtain rfl := Except.ok.inj rationalized
      exact times

/-- The join only looks at the scope, the rationale and the expiry of an approval. -/
theorem decisionWith_setDecision (approvals : List Approval) :
    (row.setDecision after approvals).decisionWith approval =
      { after with
        acceptedRiskExpiresAt := after.acceptedRiskExpiresAt.map stored
        dispositionScope :=
          if after.disposition = .none then "" else (approval.map (·.scopeKind)).getD "finding"
        suppressionExpiresAt :=
          if after.disposition = .suppressed then approval.bind (·.expiresAt) else none
        dispositionRationale := (approval.map (·.rationale)).getD "" } := rfl

/-- Approvals are of dispositions, and of revisions that the finding has had. -/
def Finding.Approved (row : Finding) : Prop :=
  ∀ a ∈ row.approvals, a.disposition ≠ .none ∧ a.decisionRevision ≤ row.decisionRevision

/-- The times of the finding and its approvals are times that the columns keep. -/
def Finding.Whole (row : Finding) : Prop :=
  row.acceptedRiskExpiresAt.map stored = row.acceptedRiskExpiresAt ∧
    ∀ a ∈ row.approvals, a.expiresAt.map stored = a.expiresAt

variable {approvals : List Approval}

theorem Finding.Whole.setDecision (whole : row.Whole) (after : FindingDecision)
    (new : ∀ a ∈ approvals, a.expiresAt.map stored = a.expiresAt) :
    (row.setDecision after approvals).Whole := by
  refine ⟨by simp [Finding.setDecision, Function.comp_def], fun a mem => ?_⟩
  rcases List.mem_append.mp mem with old | added
  · exact whole.2 a old
  · exact new a added

/-- What is read of whole times can be stored. -/
theorem Finding.Whole.storable (whole : row.Whole) : storable row.decision = row.decision := by
  have expiry : (row.approval.bind (·.expiresAt)).map stored = row.approval.bind (·.expiresAt) := by
    cases found : row.approval with
    | none => rfl
    | some a => exact whole.2 a (List.mem_of_mem_filter (List.argmax_mem found))
  have suppression : (if row.disposition = .suppressed then row.approval.bind (·.expiresAt)
      else none).map stored =
        if row.disposition = .suppressed then row.approval.bind (·.expiresAt) else none := by
    split
    · exact expiry
    · rfl
  simp only [Decisions.storable, Finding.decision, Finding.decisionWith, whole.1, suppression]

theorem Finding.Approved.setDecision (approved : row.Approved) (after : FindingDecision)
    (new : ∀ a ∈ approvals, a.disposition ≠ .none ∧ a.decisionRevision = row.decisionRevision + 1) :
    (row.setDecision after approvals).Approved := by
  intro a mem
  rcases List.mem_append.mp mem with old | added
  · have old := approved a old
    exact ⟨old.1, old.2.trans (Nat.le_succ _)⟩
  · have added := new a added
    exact ⟨added.1, added.2.le⟩

/-- As long as the disposition stays and no approval is added, the approval stays. -/
theorem approval_setDecision_nil (approved : row.Approved)
    (same : after.disposition = row.disposition) :
    (row.setDecision after []).approval = row.approval := by
  unfold Finding.approval
  simp only [Finding.setDecision, List.append_nil, same]
  congr 1
  apply List.filter_congr
  intro a mem
  have le := (approved a mem).2
  simp [le, le.trans (Nat.le_succ _)]

/-- Without a disposition there is no approval. -/
theorem approval_none (approved : row.Approved) (none : row.disposition = .none) :
    row.approval = Option.none := by
  unfold Finding.approval
  rw [List.argmax_eq_none, List.filter_eq_nil_iff]
  intro a mem
  simp [none, (approved a mem).1]

/-- An approval of the new revision is the one that is found. -/
theorem approval_setDecision_singleton (approved : row.Approved) {a : Approval}
    (disposition : a.disposition = after.disposition)
    (revision : a.decisionRevision = row.decisionRevision + 1) :
    (row.setDecision after [a]).approval = some a := by
  show ((row.approvals ++ [a]).filter fun b => decide (b.disposition = after.disposition) &&
    decide (b.decisionRevision ≤ row.decisionRevision + 1)).argmax (·.decisionRevision) = some a
  have found : [a].filter (fun b => decide (b.disposition = after.disposition) &&
      decide (b.decisionRevision ≤ row.decisionRevision + 1)) = [a] := by
    simp [disposition, revision]
  rw [List.filter_append, found, List.argmax_concat]
  cases best : List.argmax (fun b : Approval => b.decisionRevision) (row.approvals.filter fun b =>
    decide (b.disposition = after.disposition) &&
      decide (b.decisionRevision ≤ row.decisionRevision + 1)) with
  | none => rfl
  | some b =>
    have mem := List.mem_of_mem_filter (List.argmax_mem best)
    have lt : b.decisionRevision < a.decisionRevision := by
      rw [revision]
      exact Nat.lt_succ_of_le (approved b mem).2
    exact if_pos lt

variable {actor : ActorID}

/-- What an inserted approval says. -/
theorem insertDispositionApproval_eq_ok {fallback : String} {a : Approval}
    (inserted : row.insertDispositionApproval now actor revision after fallback = .ok a) :
    a.decisionRevision = revision ∧ a.disposition = after.disposition ∧
      a.scopeKind = after.dispositionScope ∧
      a.rationale = Finding.approvedRationale after fallback ∧
      ∃ expiresAt, Finding.approvedExpiry now after = some expiresAt ∧
        a.expiresAt = expiresAt.map stored := by
  unfold Finding.insertDispositionApproval at inserted
  split at inserted
  · cases inserted
  · split at inserted
    case h_2 => cases inserted
    case h_1 scopeValue expiresAt _ expiry =>
      split at inserted
      · cases inserted
      · obtain rfl := Except.ok.inj inserted
        exact ⟨rfl, rfl, rfl, rfl, expiresAt, expiry, rfl⟩

/-- What an admitted decision says about the approval that it needs: its expiry is that of the
suppression, if there is one, and nothing else of the decision is lost. -/
theorem suppressionExpiresAt_eq {expiresAt : Option Time}
    (expiry : Finding.approvedExpiry now after = some expiresAt) :
    after.suppressionExpiresAt =
      if after.disposition = .suppressed then expiresAt else none := by
  unfold Finding.approvedExpiry at expiry
  cases disposition : after.disposition with
  | none => simp [disposition] at expiry
  | acceptedRisk =>
    simp only [disposition] at expiry
    split at expiry
    case isTrue fits =>
      simp only [Bool.and_eq_true, decide_eq_true_eq] at fits
      simp [fits.2]
    case isFalse => cases expiry
  | suppressed =>
    simp only [disposition] at expiry
    split at expiry
    case isTrue => simpa using Option.some.inj expiry
    case isFalse => cases expiry
  | falsePositive =>
    simp only [disposition] at expiry
    split at expiry
    case isTrue fits =>
      simp only [Bool.and_eq_true, decide_eq_true_eq] at fits
      simp [fits.2]
    case isFalse => cases expiry

/-- A decision that is approved anew is read back with the rationale of its approval. -/
theorem decision_setDecision (approved : row.Approved) {fallback : String}
    (shaped : after.disposition = .none → after.suppressionExpiresAt = none ∧
      after.dispositionScope = "" ∧ after.dispositionRationale = "")
    (inserted : row.approve true now actor after fallback = .ok approvals) :
    (row.setDecision after approvals).decision =
      storable { after with
        dispositionRationale := if after.disposition = .none then ""
          else Finding.approvedRationale after fallback } := by
  unfold Finding.approve at inserted
  unfold Finding.decision
  rw [decisionWith_setDecision]
  by_cases none : after.disposition = .none
  · rw [none] at inserted
    obtain rfl : approvals = [] := by simpa using inserted
    rw [approval_none (approved.setDecision after (by simp)) none]
    obtain ⟨suppression, scope, rationale⟩ := shaped none
    simp [storable, none, suppression, scope]
  · rw [if_pos (by simpa using none)] at inserted
    obtain ⟨a, written, rfl⟩ := map_eq_ok.mp inserted
    obtain ⟨revision, disposition, scope, rationale, expiresAt, expiry, kept⟩ :=
      insertDispositionApproval_eq_ok written
    rw [approval_setDecision_singleton approved disposition revision]
    simp only [Option.map_some, Option.getD_some, Option.bind_some, if_neg none, scope, rationale,
      kept, storable, suppressionExpiresAt_eq expiry]
    split <;> rfl

/-- A patch that touches the disposition leaves the finding with the decision that it made, as
far as the times can be stored, whatever it has read. -/
theorem decision_of_touched (approved : row.Approved) (touched : patch.touched = true)
    (applied : patch.apply now ownerExists revision before = .ok after)
    (inserted : row.approve true now actor after patch.rationale = .ok approvals) :
    (row.setDecision after approvals).decision = storable after := by
  obtain ⟨passed, -, said⟩ := apply_eq_ok applied
  rw [decision_setDecision approved ?_ inserted]
  · by_cases none : after.disposition = .none
    · simp only [admitted, none, Bool.and_eq_true, decide_eq_true_eq] at passed
      rw [if_pos none, ← passed.2]
    · rw [if_neg none, Finding.approvedRationale, ← said touched none, ite_self]
  · intro none
    simp only [admitted, none, Bool.and_eq_true, decide_eq_true_eq] at passed
    exact ⟨passed.1.1.2, passed.1.2, passed.2⟩

/-- A patch that does not touch it leaves everything but the owner and the workflow state. -/
theorem decision_of_untouched (approved : row.Approved) (whole : row.Whole)
    (disposition : after.disposition = row.disposition)
    (expires : after.acceptedRiskExpiresAt = row.acceptedRiskExpiresAt) :
    (row.setDecision after []).decision =
      { row.decision with ownerID := after.ownerID, workflowState := after.workflowState } := by
  unfold Finding.decision
  rw [decisionWith_setDecision, approval_setDecision_nil approved disposition, disposition, expires,
    whole.1]
  rfl

/-- **What is written is what is read back**: a patch that has read the decision as it is leaves
the finding with the decision that it made, as far as the times can be stored. -/
theorem decision_write (approved : row.Approved) (whole : row.Whole)
    (applied : patch.apply now ownerExists row.decisionRevision row.decision = .ok after)
    (inserted : row.approve patch.touched now author.actor after patch.rationale =
      .ok approvals) : (row.setDecision after approvals).decision = storable after := by
  cases changes : patch.touched with
  | false =>
    rw [changes, Finding.approve, Bool.false_and, if_neg Bool.false_ne_true] at inserted
    obtain rfl := Except.ok.inj inserted
    have kept := (apply_eq_ok applied).2.1 changes
    rw [decision_of_untouched approved whole (congrArg (·.disposition) kept)
      (congrArg (·.acceptedRiskExpiresAt) kept)]
    have times := storable_eq_self.mp whole.storable
    rw [kept]
    refine (storable_eq_self.mpr ?_).symm
    exact times
  | true =>
    rw [changes] at inserted
    exact decision_of_touched approved changes applied inserted

theorem approve_eq_ok {due : Bool} {rationale : String}
    (inserted : row.approve due now actor after rationale = .ok approvals) :
    ∀ a ∈ approvals, a.disposition ≠ .none ∧ a.decisionRevision = row.decisionRevision + 1 := by
  unfold Finding.approve at inserted
  split at inserted
  case isTrue disposed =>
    simp only [ne_eq, decide_not, Bool.and_eq_true, Bool.not_eq_true', decide_eq_false_iff_not]
      at disposed
    obtain ⟨a, written, rfl⟩ := map_eq_ok.mp inserted
    obtain ⟨revision, disposition, -⟩ := insertDispositionApproval_eq_ok written
    simp [revision, disposition, disposed.2]
  case isFalse =>
    obtain rfl := Except.ok.inj inserted
    simp

/-- Approvals are inserted with times that the columns keep. -/
theorem whole_of_approve {due : Bool} {rationale : String}
    (inserted : row.approve due now actor after rationale = .ok approvals) :
    ∀ a ∈ approvals, a.expiresAt.map stored = a.expiresAt := by
  unfold Finding.approve at inserted
  split at inserted
  case isTrue =>
    obtain ⟨a, written, rfl⟩ := map_eq_ok.mp inserted
    obtain ⟨-, -, -, -, expiresAt, -, kept⟩ := insertDispositionApproval_eq_ok written
    simp [kept, Function.comp_def]
  case isFalse =>
    obtain rfl := Except.ok.inj inserted
    simp

/-- What the success of a patch says about the row that it writes. -/
theorem write_eq_ok (written : patch.write author now ownerExists approval row = .ok row') :
    ∃ after approvals,
      patch.apply now ownerExists row.decisionRevision (row.decisionWith approval) = .ok after ∧
      row.approve patch.touched now author.actor after patch.rationale = .ok approvals ∧
      row' = { row.setDecision after approvals with
        events := row.events ++ [⟨row.decisionRevision + 1, author.actor, author.action,
          patch.rationale, decisionChanges (row.decisionWith approval) after,
          row.decisionWith approval, after⟩] } := by
  unfold FindingDecisionPatch.write at written
  obtain ⟨after, applied, written⟩ := bind_eq_ok.mp written
  obtain ⟨approvals, inserted, written⟩ := bind_eq_ok.mp written
  exact ⟨after, approvals, applied, inserted, (pure_eq_ok.mp written).symm⟩

end ReadBack

end Aspm.Decisions
