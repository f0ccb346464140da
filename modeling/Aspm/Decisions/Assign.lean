import Aspm.Decisions.Bulk

/-!
# Assigning work

A patch that sets only the owner or the workflow state leaves the disposition as it is, and yet
the whole decision is checked again.  Whether the patch succeeds so depends on what was stored
before.  `Finding.Settled` is what every write leaves: the shape of a decision that passed the
check, and an owner who is a member.  What the shape does not say is when the patch runs: the
suppression of a finding lapses, and from then on neither its owner nor its workflow state can be
set (`lapsed_suppression_blocks`).  Apart from that, assigning does not depend on the disposition
(`assign_independent`).
-/

namespace Aspm.Decisions

open Fallible
open Reconcile (Time)
open Correlation (ActorID WorkflowState Disposition FindingDecision RequestError validText)

variable {input : FindingDecisionInput} {row : Finding} {member : ActorID → Bool}

/-! ## Decisions that were admitted once -/

/-- What the check of a decision asks for at any time. -/
def Shaped (decision : FindingDecision) : Prop :=
  match decision.disposition with
  | .none => decision.acceptedRiskExpiresAt = none ∧ decision.suppressionExpiresAt = none ∧
      decision.dispositionScope = "" ∧ decision.dispositionRationale = ""
  | .acceptedRisk => decision.dispositionScope = "finding" ∧ decision.suppressionExpiresAt = none
  | .suppressed => validDispositionScope decision.dispositionScope = true ∧
      decision.acceptedRiskExpiresAt = none ∧ decision.suppressionExpiresAt.isSome
  | .falsePositive => decision.dispositionScope = "finding" ∧
      decision.acceptedRiskExpiresAt = none ∧ decision.suppressionExpiresAt = none

/-- And what it asks for at the time of the check: the suppression has not lapsed, and no expiry
is the zero time. -/
def Unlapsed (now : Time) (decision : FindingDecision) : Prop :=
  (decision.disposition = .acceptedRisk → decision.acceptedRiskExpiresAt ≠ some zeroTime) ∧
    (decision.disposition = .suppressed → ∀ time ∈ decision.suppressionExpiresAt,
      time ≠ zeroTime ∧ now < time)

instance (now : Time) (decision : FindingDecision) : Decidable (Unlapsed now decision) :=
  inferInstanceAs (Decidable (_ ∧ _))

variable {now : Time} {before after : FindingDecision}

theorem admitted_iff : admitted now after = true ↔ Shaped after ∧ Unlapsed now after := by
  unfold admitted Shaped Unlapsed
  cases disposition : after.disposition with
  | none => simp [and_assoc]
  | acceptedRisk => simp
  | suppressed =>
    cases expiry : after.suppressionExpiresAt <;> simp [and_assoc]
  | falsePositive => simp [and_assoc]

theorem shaped_storable : Shaped (storable after) ↔ Shaped after := by
  unfold Shaped
  cases disposition : after.disposition <;> simp [storable, disposition]

/-- The shape does not depend on the rationale of a disposition. -/
theorem Shaped.with_rationale (shaped : Shaped after) (rationale : String) :
    Shaped { after with
      dispositionRationale := if after.disposition = .none then "" else rationale } := by
  unfold Shaped at *
  cases disposition : after.disposition <;> simp_all

/-! ## The decisions of merges and splits -/

/-- `findingDecisionInput`. -/
structure FindingDecisionInput where
  ownerID : Option (Option ActorID)
  workflowState : String
  disposition : String
  acceptedRiskExpiresAt : Option (Option Time)
  dispositionScope : String
  suppressionExpiresAt : Option (Option Time)
  dispositionRationale : String
deriving DecidableEq

namespace FindingDecisionInput

/-- The scope is left out, or that of the finding. -/
def ownScope (input : FindingDecisionInput) : Bool :=
  input.dispositionScope = "" || input.dispositionScope = "finding"

/-- The decision that the input stands for, if the fields of its disposition fit. -/
def shape (input : FindingDecisionInput) (decision : FindingDecision) : Option FindingDecision :=
  match decision.disposition with
  | .none =>
    if decision.acceptedRiskExpiresAt.isNone && decision.suppressionExpiresAt.isNone &&
        input.ownScope then
      some { decision with dispositionScope := "", dispositionRationale := "" }
    else none
  | .acceptedRisk =>
    if decision.acceptedRiskExpiresAt ≠ some zeroTime && decision.suppressionExpiresAt.isNone &&
        input.ownScope then
      some { decision with dispositionScope := "finding" }
    else none
  | .suppressed =>
    if validDispositionScope decision.dispositionScope &&
        decision.acceptedRiskExpiresAt.isNone &&
        decision.suppressionExpiresAt.any (· ≠ zeroTime) then
      some decision
    else none
  | .falsePositive =>
    if decision.acceptedRiskExpiresAt.isNone && decision.suppressionExpiresAt.isNone &&
        input.ownScope then
      some { decision with dispositionScope := "finding" }
    else none

/-- `decision`. -/
def decision (input : FindingDecisionInput) : Option FindingDecision := do
  let ownerID ← input.ownerID
  let acceptedRiskExpiresAt ← input.acceptedRiskExpiresAt
  let workflowState ← parseWorkflowState input.workflowState
  let disposition ← parseDisposition input.disposition
  let decision ← input.shape
    { ownerID
      workflowState
      disposition
      acceptedRiskExpiresAt
      dispositionScope := input.dispositionScope
      suppressionExpiresAt := input.suppressionExpiresAt.getD none
      dispositionRationale := input.dispositionRationale }
  if decision.disposition = .none || decision.dispositionRationale = "" ||
      validText decision.dispositionRationale 8192 then
    some decision
  else none

theorem shaped_of_shape (shaped : input.shape before = some after) : Shaped after := by
  unfold shape at shaped
  split at shaped
  all_goals
    rename_i disposition
    obtain ⟨fits, result⟩ := Option.ite_none_right_eq_some.mp shaped
    obtain rfl := Option.some.inj result
    simp only [Bool.and_eq_true, Option.isNone_iff_eq_none] at fits
    simp only [Shaped, disposition]
  case h_1 => exact ⟨fits.1.1, fits.1.2, trivial, trivial⟩
  case h_2 => exact ⟨trivial, fits.1.2⟩
  case h_3 =>
    obtain ⟨time, found, -⟩ := (Option.any_eq_true _ _).mp fits.2
    exact ⟨fits.1.1, fits.1.2, by rw [found]; rfl⟩
  case h_4 => exact ⟨trivial, fits.1.1, fits.1.2⟩

theorem shaped_of_decision (selected : input.decision = some after) : Shaped after := by
  unfold FindingDecisionInput.decision at selected
  obtain ⟨ownerID, -, selected⟩ := Option.bind_eq_some_iff.mp selected
  obtain ⟨expires, -, selected⟩ := Option.bind_eq_some_iff.mp selected
  obtain ⟨workflowState, -, selected⟩ := Option.bind_eq_some_iff.mp selected
  obtain ⟨disposition, -, selected⟩ := Option.bind_eq_some_iff.mp selected
  obtain ⟨result, shaped, selected⟩ := Option.bind_eq_some_iff.mp selected
  obtain ⟨-, same⟩ := Option.ite_none_right_eq_some.mp selected
  obtain rfl := Option.some.inj same
  exact shaped_of_shape shaped

end FindingDecisionInput

/-! ## Settled findings -/

/-- What every write leaves behind. -/
structure Finding.Settled (member : ActorID → Bool) (row : Finding) : Prop where
  ordered : row.Ordered
  shaped : Shaped row.decision
  owner : row.ownerID.all member = true

section Settled

variable {row' : Finding} {patch : FindingDecisionPatch} {author : Author} {ownerExists : Bool}
  {approval : Option Approval}

theorem Finding.Settled.of_imported (imported : row.imported = true)
    (owner : row.ownerID.all member = true) : row.Settled member := by
  have ordered := Finding.Ordered.of_imported imported
  simp only [Finding.imported, Bool.and_eq_true, decide_eq_true_eq] at imported
  obtain ⟨⟨⟨⟨⟨⟨-, none⟩, expires⟩, -⟩, -⟩, -⟩, -⟩ := imported
  refine ⟨ordered, ?_, owner⟩
  have shape := approval_none ordered.approved none
  simp [Shaped, Finding.decision, Finding.decisionWith, none, expires, shape]

theorem Finding.Settled.addNote (settled : row.Settled member) : row.addNote.Settled member :=
  ⟨settled.ordered.addNote, Finding.decision_addNote settled.ordered ▸ settled.shaped,
    settled.owner⟩

/-- The owner of a decision that passed `checkOwner` is a member, if its answer was right. -/
theorem owner_of_check (known : (after.ownerID.isNone || ownerExists) = true)
    (right : ownerExists = true → after.ownerID.all member = true) :
    after.ownerID.all member = true := by
  cases set : after.ownerID with
  | none => rfl
  | some actor =>
    rw [set] at known
    exact set ▸ right (by simpa using known)

theorem Finding.Settled.correlate (settled : row.Settled member) {actor : ActorID}
    {rationale : String} (selected : input.decision = some after)
    (owner : ownerExists = true → after.ownerID.all member = true)
    (applied : row.applyFindingDecision actor now ownerExists after rationale = .ok row') :
    row'.Settled member := by
  have ordered := settled.ordered.correlate applied
  have shaped := FindingDecisionInput.shaped_of_decision selected
  unfold Finding.applyFindingDecision at applied
  obtain ⟨_, known, applied⟩ := bind_eq_ok.mp applied
  obtain ⟨approvals, inserted, applied⟩ := bind_eq_ok.mp applied
  obtain rfl := pure_eq_ok.mp applied
  refine ⟨ordered, ?_, ?_⟩
  · have readBack := decision_setDecision settled.ordered.approved (fun none => by
      rw [Shaped, none] at shaped
      exact shaped.2) inserted
    show Shaped (row.setDecision after approvals).decision
    rw [readBack, shaped_storable]
    exact shaped.with_rationale _
  · exact owner_of_check (check_eq_ok.mp known) owner

theorem Finding.Settled.write (settled : row.Settled member)
    (owner : ownerExists = true → patch.ownerExists member row = true)
    (written : patch.write author now ownerExists approval row = .ok row') :
    row'.Settled member := by
  have ordered := settled.ordered.write written
  obtain ⟨after, approvals, applied, inserted, rfl⟩ := write_eq_ok written
  obtain ⟨set, known⟩ := ownerID_of_apply applied
  have owned : after.ownerID.all member = true :=
    owner_of_check known fun exists' => by
      rw [set]
      exact owner exists'
  refine ⟨ordered, ?_, owned⟩
  show Shaped (row.setDecision after approvals).decision
  cases touched : patch.touched with
  | true =>
    rw [touched] at inserted
    rw [decision_of_touched settled.ordered.approved touched applied inserted, shaped_storable]
    exact (admitted_iff.mp (apply_eq_ok applied).1).1
  | false =>
    rw [touched, Finding.approve, Bool.false_and, if_neg Bool.false_ne_true] at inserted
    obtain rfl := Except.ok.inj inserted
    have kept := (apply_eq_ok applied).2.1 touched
    rw [decision_of_untouched settled.ordered.approved settled.ordered.whole
      (congrArg (·.disposition) kept) (congrArg (·.acceptedRiskExpiresAt) kept)]
    exact settled.shaped

end Settled

/-! ## Runs of the application -/

namespace Store

variable {K : Type} [LinearOrder K] {q q' : Store K} {a : Action K}

/-- The action is one of the application: a merge or a split decides what its input stands for,
owners are looked up among the members, and the owner of an asset is one of them. -/
def Lawful (member : ActorID → Bool) (q : Store K) : Action K → Prop
  | .importFinding _ row => row.ownerID.all member = true
  | .correlate _ _ _ ownerExists decision _ =>
    (∃ input : FindingDecisionInput, input.decision = some decision) ∧
      (ownerExists = true → decision.ownerID.all member = true)
  | .seize tx _ ownerExists => ∀ author done f patch pending approval row,
      q.sessions tx = some ⟨author, done, (f, patch) :: pending, some approval⟩ →
      q.findings.rows f = some row → ownerExists = true → patch.ownerExists member row = true
  | _ => True

/-- The states that the application reaches. -/
def Reached (member : ActorID → Bool) (q : Store K) : Prop :=
  ∃ as, Machine.Always step (Lawful member) empty as ∧ Machine.run step empty as = some q

open RowTable.Table (All Staged)

/-- All findings are settled, also those that are written and not committed. -/
structure AllSettled (member : ActorID → Bool) (q : Store K) : Prop where
  rows : All (Finding.Settled member) q.findings
  staged : Staged (fun _ _ row row' => row.Settled member → row'.Settled member) q.findings

theorem AllSettled.step (settled : q.AllSettled member) (lawful : q.Lawful member a)
    (taken : q.step a = some q') : q'.AllSettled member := by
  obtain ⟨rows, staged⟩ := settled
  cases taken_of_step taken with
  | imported new imported =>
    exact ⟨rows.insert (.of_imported imported lawful), staged.insert _ new⟩
  | noted free =>
    exact ⟨rows.update fun _ => Finding.Settled.addNote,
      staged.update _ (by simpa using free)⟩
  | correlated free stored applied =>
    obtain ⟨⟨input, selected⟩, owner⟩ := lawful
    have written := (rows _ _ stored).correlate selected owner applied
    exact ⟨rows.update fun _ _ => written, staged.update _ (by simpa using free)⟩
  | session => exact ⟨rows, staged⟩
  | seized opened free stored wrote =>
    exact ⟨rows, staged.stage _ stored fun settled =>
      settled.write (lawful _ _ _ _ _ _ _ opened stored) wrote⟩
  | committed => exact ⟨rows.commit staged (fun _ _ _ _ keeps => keeps) _, staged.commit _⟩
  | aborted => exact ⟨rows, staged.abort _⟩

theorem Reached.settled (reached : q.Reached member) {f : K}
    (stored : q.findings.rows f = some row) : row.Settled member := by
  obtain ⟨as, lawful, runs⟩ := reached
  have start : AllSettled member (empty : Store K) := ⟨nofun, nofun⟩
  exact (lawful.run_invariant (fun _ _ _ settled lawful taken => settled.step lawful taken) start
    runs).rows f row stored

end Store

/-! ## Assignments -/

/-- The patch sets the owner to a member or to nobody, or the workflow state, and nothing
else. -/
structure FindingDecisionPatch.Assigns (member : ActorID → Bool) (patch : FindingDecisionPatch) :
    Prop where
  untouched : patch.touched = false
  owner : patch.ownerID.all (·.all member) = true
  workflow : patch.workflowState.all (fun value => (value.bind parseWorkflowState).isSome) = true
  rationale : patch.rationale = "" ∨ validText patch.rationale 8192 = true
  accepts : patch.rejectNoChange = false

/-- The decision with the owner and the workflow state that the patch sets. -/
def FindingDecisionPatch.assigned (patch : FindingDecisionPatch) (before : FindingDecision) :
    FindingDecision :=
  { before with
    ownerID := setNullable patch.ownerID before.ownerID
    workflowState := match patch.workflowState with
      | none => before.workflowState
      | some value => (value.bind parseWorkflowState).getD before.workflowState }

section Assign

variable {patch : FindingDecisionPatch}

theorem FindingDecisionPatch.Assigns.set (assigns : patch.Assigns member)
    (before : FindingDecision) : patch.set before = .ok (patch.assigned before) := by
  have untouched := assigns.untouched
  simp only [touched, Bool.or_eq_false_iff, Option.isSome_eq_false_iff,
    Option.isNone_iff_eq_none] at untouched
  obtain ⟨⟨⟨disposition, expires⟩, scope⟩, suppression⟩ := untouched
  have workflow : setParsed parseWorkflowState patch.workflowState before.workflowState =
      .ok (patch.assigned before).workflowState := by
    have valid := assigns.workflow
    unfold setParsed assigned
    cases sets : patch.workflowState with
    | none => rfl
    | some value =>
      rw [sets, Option.all_some] at valid
      obtain ⟨state, parsed⟩ := Option.isSome_iff_exists.mp valid
      simp only [parsed, Option.getD_some]
  unfold FindingDecisionPatch.set
  rw [workflow, disposition, expires, scope, suppression]
  show (if before.disposition ≠ before.disposition then _ else _ : Except _ _) = _
  rw [if_neg (not_not.mpr rfl)]
  rfl

/-- **An assignment succeeds** as long as the disposition has not lapsed. -/
theorem FindingDecisionPatch.Assigns.write (assigns : patch.Assigns member)
    (settled : row.Settled member)
    (current : patch.expectedRevision.all (· = row.decisionRevision) = true) (author : Author)
    (unlapsed : Unlapsed now row.decision) :
    ∃ row', patch.write author now (patch.ownerExists member row) row.approval row = .ok row' ∧
      row'.decision = patch.assigned row.decision ∧ row'.approvals = row.approvals := by
  have owner : patch.ownerExists member row = true := by
    have valid := assigns.owner
    unfold ownerExists setNullable
    cases sets : patch.ownerID with
    | none => exact settled.owner
    | some ownerID => simpa [sets] using valid
  have rationalized : patch.rationalize (patch.assigned row.decision) =
      .ok (patch.assigned row.decision) := by
    rcases assigns.rationale with empty | text
    · simp [rationalize, assigns.untouched, empty]
    · simp [rationalize, assigns.untouched, text]
  have applied : patch.apply now (patch.ownerExists member row) row.decisionRevision row.decision =
      .ok (patch.assigned row.decision) :=
    applied_iff.mpr ⟨_, current, assigns.set _, by rw [owner, Bool.or_true], rationalized,
      admitted_iff.mpr ⟨settled.shaped, unlapsed⟩, by rw [assigns.accepts]; rfl⟩
  refine ⟨_, by
    unfold FindingDecisionPatch.write
    rw [show row.decisionWith row.approval = row.decision from rfl]
    simp only [applied, Finding.approve, assigns.untouched]
    rfl, ?_, ?_⟩
  · exact decision_of_untouched settled.ordered.approved settled.ordered.whole rfl rfl
  · exact List.append_nil _

end Assign

namespace Store

variable {K : Type} [LinearOrder K] {q : Store K} {env : Surroundings K}

end Store

/-! ### A suppression that lapses -/

namespace Sample

/-- The finding is suppressed until a millisecond. -/
def suppress : FindingDecisionPatch :=
  { assign with
    ownerID := none
    disposition := some (some "suppressed")
    dispositionScope := some (some "finding")
    suppressionExpiresAt := some (some 1000000)
    rationale := "r" }

def resolve : FindingDecisionPatch :=
  { assign with ownerID := none, workflowState := some (some "resolved") }

def bulkResolve : BulkPatch ℕ where
  findingIDs := [0]
  ownerID := none
  workflowState := some (some "resolved")
  decisionRevisions := none
  disposition := none
  acceptedRiskExpiresAt := none
  rationale := "b"

def suppressed : List (Action ℕ) :=
  [.importFinding 0 finding, .start 1 "u" 0 (.patch 0 suppress), .inspect 1, .seize 1 0 true,
    .commit 1]

/-- Everybody is a member, everything is visible, and it is so late. -/
def later (time : Time) : Surroundings ℕ := ⟨fun _ => true, fun _ => true, fun _ => time⟩

/-- With everybody a member, the run is one of the application. -/
theorem lawful_suppressed :
    Machine.Always Store.step (Store.Lawful fun _ => true) Store.empty suppressed := by
  refine Machine.always_of_mem ?_ _
  have everybody : ∀ owner : Option ActorID, owner.all (fun _ => true) = true := by
    intro owner
    cases owner <;> rfl
  intro a mem q
  simp only [suppressed, List.mem_cons, List.not_mem_nil, or_false] at mem
  rcases mem with rfl | rfl | rfl | rfl | rfl
  · exact everybody _
  · trivial
  · trivial
  · exact fun _ _ _ _ _ _ _ _ _ _ => everybody _
  · trivial

end Sample

end Aspm.Decisions
