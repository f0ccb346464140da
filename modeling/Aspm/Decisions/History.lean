import Aspm.Lib.Machine
import Aspm.Lib.RowTable
import Aspm.Decisions.Patch

/-!
# The decision history of a finding

Patches of decisions, single and bulk, as they run beside each other and beside merges, splits
and notes.  A patch reads the decision by one `SELECT … FOR UPDATE OF f`, which takes the lock of
the finding's row.  If it had to wait for the lock, it returns the row as it has become, but the
approval that was joined to the row at the start of the statement.  So the statement is two
actions here: `inspect` takes the approval of the committed row, and `seize` takes the lock,
applies the patch to the row of that moment, and stages what `FindingDecisionPatch.write` gives.

Each committed patch adds one event of the next revision, whatever the interleaving.  That the
events form a chain, each one starting from where the one before ended, and that the latest one
says how the decision stands, holds as long as every patch has read the decision as it is when
the patch gets its lock, and sets times that the columns keep.  It does not hold otherwise: a
patch of the owner that waited for a patch of the disposition records a decision without the
rationale (`waiting_patch_breaks_chain`).
-/

namespace Aspm.Decisions

open RowTable (Table)
open RowTable.Table (Holds Act All Staged)
open Fallible
open Reconcile (Time)
open Correlation (ActorID WorkflowState Disposition FindingDecision RequestError validText)

variable {author : Author} {row row' : Finding} {now : Time} {ownerExists : Bool}
  {approval : Option Approval}

/-! ## Requests -/

def maxBulkFindings : ℕ := 100

def maxJSONSafeInt : ℕ := 9007199254740991

/-- The body of `bulkPatchFindings`. -/
structure BulkPatch (K : Type) where
  findingIDs : List K
  ownerID : Option (Option ActorID)
  workflowState : Option (Option String)
  decisionRevisions : Option (List (K × ℕ))
  disposition : Option (Option String)
  acceptedRiskExpiresAt : Option (Option Time)
  rationale : String
deriving DecidableEq

namespace BulkPatch

variable {K : Type} [LinearOrder K] (input : BulkPatch K)

def riskMode : Bool :=
  input.disposition.isSome || input.acceptedRiskExpiresAt.isSome ||
    input.decisionRevisions.isSome

/-- Which fields may come together. -/
def modeValid : Bool :=
  if input.riskMode then
    input.ownerID.isNone && input.workflowState.isNone &&
      input.disposition = some (some "accepted-risk") && input.acceptedRiskExpiresAt.isSome &&
      input.decisionRevisions.isSome
  else input.ownerID.isSome || input.workflowState.isSome

def ids : List K := input.findingIDs.insertionSort (· ≤ ·)

def revision (id : K) : Option ℕ :=
  input.decisionRevisions.bind fun revisions => revisions.lookup id

/-- In the mode that accepts risks: the expiry is ahead, and every finding has its revision. -/
def revisionsValid (now : Time) : Bool :=
  (input.decisionRevisions.all fun revisions => revisions.length = input.ids.length &&
    revisions.all fun r => r.1 ∈ input.ids) &&
  (input.acceptedRiskExpiresAt.all fun expiry => expiry.all fun time => now < time) &&
  input.ids.all fun id => (input.revision id).any fun r => 1 ≤ r && r ≤ maxJSONSafeInt

def valid (now : Time) : Bool :=
  input.findingIDs ≠ [] && input.findingIDs.length ≤ maxBulkFindings &&
    validText input.rationale 8192 && input.modeValid && decide input.ids.Nodup &&
    (!input.riskMode || input.revisionsValid now)

/-- The patch of one finding. -/
def patch (id : K) : FindingDecisionPatch where
  ownerID := input.ownerID
  workflowState := input.workflowState
  disposition := if input.riskMode then input.disposition else none
  acceptedRiskExpiresAt := if input.riskMode then input.acceptedRiskExpiresAt else none
  dispositionScope := if input.riskMode then some (some "finding") else none
  suppressionExpiresAt := none
  rationale := input.rationale
  expectedRevision := if input.riskMode then input.revision id else none
  rejectNoChange := input.riskMode

end BulkPatch

inductive Request (K : Type) where
  | patch (f : K) (input : FindingDecisionPatch)
  | bulkPatch (input : BulkPatch K)
deriving DecidableEq

namespace Request

variable {K : Type} [LinearOrder K]

def action : Request K → DecisionAction
  | .patch _ _ => .update
  | .bulkPatch _ => .bulkUpdate

/-- The patches that a request is carried out by, one finding after the other.  A single patch
cannot name a revision. -/
def patches (now : Time) : Request K → Except RequestError (List (K × FindingDecisionPatch))
  | .patch f input => .ok [(f, { input with expectedRevision := none, rejectNoChange := false })]
  | .bulkPatch input =>
    if input.valid now then .ok (input.ids.map fun id => (id, input.patch id))
    else .error .invalid

end Request

/-! ## The machine -/

/-- A transaction that patches. -/
structure Session (K : Type) where
  author : Author
  /-- The patches that have been applied. -/
  done : List (K × FindingDecisionPatch)
  pending : List (K × FindingDecisionPatch)
  /-- What the `SELECT` that is running has joined to its finding. -/
  inspected : Option (Option Approval)
deriving DecidableEq

structure Store (K : Type) where
  findings : Table K Finding ℕ
  /-- The open transactions by their numbers. -/
  sessions : ℕ → Option (Session K)

inductive Action (K : Type) where
  | importFinding (f : K) (row : Finding)
  | note (f : K)
  /-- A merge or a split decides about the finding. -/
  | correlate (f : K) (actor : ActorID) (now : Time) (ownerExists : Bool)
      (decision : FindingDecision) (rationale : String)
  | start (tx : ℕ) (actor : ActorID) (now : Time) (request : Request K)
  | inspect (tx : ℕ)
  | seize (tx : ℕ) (now : Time) (ownerExists : Bool)
  | commit (tx : ℕ)
  | abort (tx : ℕ)
deriving DecidableEq

/-- A finding as an import creates it, with the owner of its asset. -/
def Finding.imported (row : Finding) : Bool :=
  row.workflowState = .opened && row.disposition = .none && row.acceptedRiskExpiresAt = none &&
    row.decisionRevision = 1 && row.approvals = [] && row.events = [] && row.correlatedAt = 0

/-- `addNote` counts as a decision, but says nothing. -/
def Finding.addNote (row : Finding) : Finding :=
  { row with decisionRevision := row.decisionRevision + 1 }

/-- `applyFindingDecision`, by which merges and splits set a decision. -/
def Finding.applyFindingDecision (row : Finding) (actor : ActorID) (now : Time)
    (ownerExists : Bool) (decision : FindingDecision) (rationale : String) :
    Except RequestError Finding := do
  check .invalid (decision.ownerID.isNone || ownerExists)
  let approvals ← row.approve true now actor decision rationale
  return { row.setDecision decision approvals with correlatedAt := row.decisionRevision + 1 }

namespace Store

variable {K : Type} [LinearOrder K]

def empty : Store K where
  findings := ⟨0, fun _ => none, fun _ => 0, fun _ => none⟩
  sessions := fun _ => none

def setSession (q : Store K) (tx : ℕ) (session : Session K) : Store K :=
  { q with sessions := Function.update q.sessions tx (some session) }

def endSession (q : Store K) (tx : ℕ) (findings : Table K Finding ℕ) : Store K :=
  { q with findings := findings, sessions := Function.update q.sessions tx none }

/-- The lock of the finding is granted to a patch, which is applied. -/
def seize (q : Store K) (tx : ℕ) (now : Time) (ownerExists : Bool) : Option (Store K) :=
  match q.sessions tx with
  | some ⟨author, done, (f, patch) :: pending, some approval⟩ =>
    if q.findings.locks f = none then
      match q.findings.rows f with
      | none => none
      | some row =>
        match patch.write author now ownerExists approval row with
        | .ok row' => some <| setSession { q with findings := q.findings.stage tx f row' } tx
            ⟨author, done ++ [(f, patch)], pending, none⟩
        | .error _ => some (q.endSession tx (q.findings.abort tx))
    else none
  | _ => none

def step (q : Store K) : Action K → Option (Store K)
  | .importFinding f row =>
    if q.findings.rows f = none ∧ row.imported = true then
      some { q with findings := q.findings.insert f row }
    else none
  | .note f =>
    if q.findings.locks f = none then
      some { q with findings := q.findings.update [f] Finding.addNote }
    else none
  | .correlate f actor now ownerExists decision rationale =>
    if q.findings.locks f = none then
      match q.findings.rows f with
      | none => none
      | some row =>
        match row.applyFindingDecision actor now ownerExists decision rationale with
        | .ok row' => some { q with findings := q.findings.update [f] fun _ => row' }
        | .error _ => none
    else none
  | .start tx actor now request =>
    if q.sessions tx = none then
      match request.patches now with
      | .ok patches => some (q.setSession tx ⟨⟨actor, request.action⟩, [], patches, none⟩)
      | .error _ => none
    else none
  | .inspect tx =>
    match q.sessions tx with
    | some ⟨author, done, (f, patch) :: pending, none⟩ =>
      (q.findings.rows f).map fun row =>
        q.setSession tx ⟨author, done, (f, patch) :: pending, some row.approval⟩
    | _ => none
  | .seize tx now ownerExists => q.seize tx now ownerExists
  | .commit tx =>
    match q.sessions tx with
    | some ⟨_, _, [], _⟩ => some (q.endSession tx (q.findings.commit tx))
    | _ => none
  | .abort tx =>
    if q.sessions tx = none then none
    else some (q.endSession tx (q.findings.abort tx))

end Store

/-! ## Sound findings -/

/-- The event says which parts of the decision it has changed. -/
def DecisionEvent.Exact (e : DecisionEvent) : Prop :=
  e.changedFields.Nodup ∧
    ∀ name, name ∈ e.changedFields ↔ ∃ field : Field, field.name = name ∧
      ¬ field.Agree e.before e.after

/-- The later event starts from where the earlier one ended. -/
def DecisionEvent.Links (e e' : DecisionEvent) : Prop :=
  e'.decisionRevision = e.decisionRevision + 1 → e'.before = e.after

namespace Finding

/-- The events of a finding are in order, and its revision is past them. -/
structure Ordered (row : Finding) : Prop where
  approved : row.Approved
  whole : row.Whole
  past : ∀ e ∈ row.events, e.decisionRevision ≤ row.decisionRevision
  increasing : row.events.Pairwise fun e e' => e.decisionRevision < e'.decisionRevision
  exact : ∀ e ∈ row.events, e.Exact
  correlated : row.correlatedAt ≤ row.decisionRevision
  apart : ∀ e ∈ row.events, e.decisionRevision ≠ row.correlatedAt

/-- **The history is faithful**: the latest event says how the decision stands, and every
event takes up the one before.  A merge or a split that has decided since is not an event, and
neither it nor a note may stand between two events that take up each other. -/
structure Faithful (row : Finding) : Prop where
  readBack : ∀ e ∈ row.events.getLast?, row.correlatedAt < e.decisionRevision →
    row.decision = e.after
  chain : row.events.IsChain DecisionEvent.Links

variable {patch : FindingDecisionPatch}

theorem Ordered.of_imported (imported : row.imported = true) : row.Ordered := by
  simp only [Finding.imported, Bool.and_eq_true, decide_eq_true_eq] at imported
  obtain ⟨⟨⟨⟨⟨-, expires⟩, revision⟩, approvals⟩, events⟩, correlated⟩ := imported
  refine ⟨?_, ⟨?_, ?_⟩, ?_, ?_, ?_, ?_, ?_⟩
  · simp [Finding.Approved, approvals]
  · simp [expires]
  · simp [approvals]
  · simp [events]
  · simp [events]
  · simp [events]
  · simp [correlated]
  · simp [events]

theorem Faithful.of_imported (imported : row.imported = true) : row.Faithful := by
  simp only [Finding.imported, Bool.and_eq_true, decide_eq_true_eq] at imported
  obtain ⟨⟨-, events⟩, -⟩ := imported
  exact ⟨by simp [events], by simp [events]⟩

theorem Ordered.addNote (ordered : row.Ordered) : row.addNote.Ordered where
  approved a mem := ⟨(ordered.approved a mem).1, (ordered.approved a mem).2.trans (Nat.le_succ _)⟩
  whole := ordered.whole
  past e mem := (ordered.past e mem).trans (Nat.le_succ _)
  increasing := ordered.increasing
  exact := ordered.exact
  correlated := ordered.correlated.trans (Nat.le_succ _)
  apart := ordered.apart

/-- A note does not change what is read. -/
theorem decision_addNote (ordered : row.Ordered) : row.addNote.decision = row.decision := by
  have same : row.addNote.approval = row.approval := by
    unfold Finding.approval
    show (row.approvals.filter fun a => decide (a.disposition = row.disposition) &&
      decide (a.decisionRevision ≤ row.decisionRevision + 1)).argmax _ = _
    congr 1
    apply List.filter_congr
    intro a mem
    have le := (ordered.approved a mem).2
    simp [le, le.trans (Nat.le_succ _)]
  unfold Finding.decision
  rw [same]
  rfl

theorem Faithful.addNote (ordered : row.Ordered) (faithful : row.Faithful) :
    row.addNote.Faithful where
  readBack e last since := (decision_addNote ordered).trans (faithful.readBack e last since)
  chain := faithful.chain

/-- What a merge or a split leaves. -/
theorem applyFindingDecision_eq_ok {actor : ActorID} {decision : FindingDecision}
    {rationale : String}
    (applied : row.applyFindingDecision actor now ownerExists decision rationale = .ok row') :
    ∃ approvals : List Approval,
      (∀ a ∈ approvals,
        a.disposition ≠ .none ∧ a.decisionRevision = row.decisionRevision + 1) ∧
      (∀ a ∈ approvals, a.expiresAt.map stored = a.expiresAt) ∧
      row' = { row.setDecision decision approvals with
        correlatedAt := row.decisionRevision + 1 } := by
  unfold Finding.applyFindingDecision at applied
  obtain ⟨-, -, applied⟩ := bind_eq_ok.mp applied
  obtain ⟨approvals, inserted, applied⟩ := bind_eq_ok.mp applied
  exact ⟨approvals, approve_eq_ok inserted, whole_of_approve inserted,
    (pure_eq_ok.mp applied).symm⟩

section Correlate

variable {actor : ActorID} {decision : FindingDecision} {rationale : String}

theorem Ordered.correlate (ordered : row.Ordered)
    (applied : row.applyFindingDecision actor now ownerExists decision rationale = .ok row') :
    row'.Ordered := by
  obtain ⟨approvals, new, whole, rfl⟩ := applyFindingDecision_eq_ok applied
  exact {
    approved := ordered.approved.setDecision decision new
    whole := ordered.whole.setDecision decision whole
    past := fun e mem => (ordered.past e mem).trans (Nat.le_succ _)
    increasing := ordered.increasing
    exact := ordered.exact
    correlated := le_rfl
    apart := fun e mem => (Nat.lt_succ_of_le (ordered.past e mem)).ne }

/-- A merge or a split adds no event, and all events are before it. -/
theorem Faithful.correlate (ordered : row.Ordered) (faithful : row.Faithful)
    (applied : row.applyFindingDecision actor now ownerExists decision rationale = .ok row') :
    row'.Faithful := by
  obtain ⟨approvals, -, -, rfl⟩ := applyFindingDecision_eq_ok applied
  refine ⟨fun e last since => ?_, faithful.chain⟩
  have past := ordered.past e (List.mem_of_getLast? last)
  exact absurd since (Nat.lt_succ_of_le past).not_gt

end Correlate

theorem Ordered.write (ordered : row.Ordered)
    (written : patch.write author now ownerExists approval row = .ok row') : row'.Ordered := by
  obtain ⟨after, approvals, -, inserted, rfl⟩ := write_eq_ok written
  exact {
    approved := ordered.approved.setDecision after (approve_eq_ok inserted)
    whole := ordered.whole.setDecision after (whole_of_approve inserted)
    past := by
      intro e mem
      rcases List.mem_append.mp mem with old | new
      · exact (ordered.past e old).trans (Nat.le_succ _)
      · obtain rfl := List.mem_singleton.mp new
        exact le_rfl
    increasing := by
      refine List.pairwise_append.mpr ⟨ordered.increasing, List.pairwise_singleton _ _, ?_⟩
      intro e old e' new
      obtain rfl := List.mem_singleton.mp new
      exact Nat.lt_succ_of_le (ordered.past e old)
    exact := by
      intro e mem
      rcases List.mem_append.mp mem with old | new
      · exact ordered.exact e old
      · obtain rfl := List.mem_singleton.mp new
        exact ⟨nodup_decisionChanges _ _, fun name => mem_decisionChanges⟩
    correlated := ordered.correlated.trans (Nat.le_succ _)
    apart := by
      intro e mem
      rcases List.mem_append.mp mem with old | new
      · exact ordered.apart e old
      · obtain rfl := List.mem_singleton.mp new
        exact (Nat.lt_succ_of_le ordered.correlated).ne' }

/-- A patch that has read the decision as it is, and whose times can be stored, takes up the
latest event, and is the latest event from then on. -/
theorem Faithful.write (ordered : row.Ordered) (faithful : row.Faithful)
    (fresh : row.decisionWith approval = row.decision) (whole : patch.whole = true)
    (written : patch.write author now ownerExists approval row = .ok row') : row'.Faithful := by
  obtain ⟨after, approvals, applied, inserted, rfl⟩ := write_eq_ok written
  rw [fresh] at applied
  constructor
  · intro e last _
    simp only [List.getLast?_append, List.getLast?_singleton, Option.some_or,
      Option.mem_some_iff] at last
    obtain rfl := last
    exact (decision_write ordered.approved ordered.whole applied inserted).trans
      (storable_apply whole ordered.whole.storable applied)
  · refine List.isChain_append.mpr ⟨faithful.chain, List.isChain_singleton _, ?_⟩
    intro e last e' new consecutive
    obtain rfl : _ = e' := by simpa using new
    -- the two are consecutive, so no merge or split came after the earlier one
    have mem := List.mem_of_getLast? last
    have revision : row.decisionRevision = e.decisionRevision := Nat.succ.inj consecutive
    have since : row.correlatedAt < e.decisionRevision :=
      lt_of_le_of_ne (revision ▸ ordered.correlated) (ordered.apart e mem).symm
    exact fresh.trans (faithful.readBack e last since)

end Finding

/-! ## What the transactions hold -/

namespace Store

variable {K : Type} [LinearOrder K]

/-- The transaction holds the finding of a patch, and has written what the patch makes of it. -/
def Written (t : Table K Finding ℕ) (tx : ℕ) (author : Author) (p : K × FindingDecisionPatch) :
    Prop :=
  ∃ row row' since, Holds t tx p.1 (some row') row since ∧
    ∃ now ownerExists approval, p.2.write author now ownerExists approval row = .ok row'

/-- The locks are those of the patches that have been applied. -/
structure Tracked (t : Table K Finding ℕ) (sessions : ℕ → Option (Session K)) : Prop where
  written : ∀ tx s, sessions tx = some s → ∀ p ∈ s.done, Written t tx s.author p
  owned : ∀ f l, t.locks f = some l → ∃ s, sessions l.owner = some s ∧ ∃ patch, (f, patch) ∈ s.done

variable {t t' : Table K Finding ℕ} {sessions : ℕ → Option (Session K)} {tx : ℕ}

/-- What a transaction has written stays under everything that others do. -/
theorem Written.act {party : Option ℕ} (act : Act (fun _ _ => True) party t t')
    (other : party ≠ some tx) {p : K × FindingDecisionPatch} (written : Written t tx author p) :
    Written t' tx author p := by
  obtain ⟨row, row', since, holds, wrote⟩ := written
  exact ⟨row, row', since, act.holds other holds, wrote⟩

/-- A statement that commits by itself. -/
theorem Tracked.statement (tracked : Tracked t sessions)
    (act : Act (fun _ _ => True) none t t') (locks : t'.locks = t.locks) :
    Tracked t' sessions := by
  constructor
  · intro tx s opened p mem
    exact (tracked.written tx s opened p mem).act act (Option.some_ne_none tx).symm
  · intro f l locked
    exact tracked.owned f l (locks ▸ locked)

/-- A transaction acts, and becomes `new`. -/
theorem Tracked.transaction (tracked : Tracked t sessions)
    (act : Act (fun _ _ => True) (some tx) t t') {new : Option (Session K)}
    (own : ∀ s, new = some s → ∀ p ∈ s.done, Written t' tx s.author p)
    (locks : ∀ f l, t'.locks f = some l →
      (l.owner = tx ∧ ∃ s patch, new = some s ∧ (f, patch) ∈ s.done) ∨
      (l.owner ≠ tx ∧ t.locks f = some l)) :
    Tracked t' (Function.update sessions tx new) := by
  constructor
  · intro tx' s opened p mem
    by_cases same : tx' = tx
    · subst same
      rw [Function.update_self] at opened
      exact own s opened p mem
    · rw [Function.update_of_ne same] at opened
      have other : some tx ≠ some tx' := fun eq => same (Option.some.inj eq).symm
      exact (tracked.written tx' s opened p mem).act act other
  · intro f l locked
    rcases locks f l locked with ⟨rfl, s, patch, rfl, mem⟩ | ⟨other, before⟩
    · exact ⟨s, Function.update_self _ _ _, patch, mem⟩
    · obtain ⟨s, opened, mem⟩ := tracked.owned f l before
      exact ⟨s, by rw [Function.update_of_ne other, opened], mem⟩

/-- The transaction ends, and its locks with it. -/
theorem Tracked.finish (tracked : Tracked t sessions)
    (act : Act (fun _ _ => True) (some tx) t t')
    (locks : t'.locks = fun f => (t.locks f).filter fun l => l.owner ≠ tx) :
    Tracked t' (Function.update sessions tx none) := by
  refine tracked.transaction act nofun ?_
  intro f l locked
  rw [locks] at locked
  obtain ⟨before, other⟩ := Option.filter_eq_some_iff.mp locked
  exact .inr ⟨by simpa using other, before⟩

/-- The transaction goes on with the locks that it has. -/
theorem Tracked.proceed (tracked : Tracked t sessions) {new : Session K}
    (same : ((sessions tx).map fun s => (s.author, s.done)).getD (new.author, []) =
      (new.author, new.done)) :
    Tracked t (Function.update sessions tx (some new)) := by
  refine tracked.transaction .refl ?_ ?_
  · rintro _ ⟨⟩ p mem
    cases opened : sessions tx with
    | none =>
      rw [opened] at same
      rw [← (Prod.mk.inj same).2] at mem
      cases mem
    | some s =>
      rw [opened] at same
      obtain ⟨author, done⟩ := Prod.mk.inj same
      exact author ▸ tracked.written tx s opened p (done ▸ mem)
  · intro f l locked
    by_cases own : l.owner = tx
    · obtain ⟨s, opened, patch, mem⟩ := tracked.owned f l locked
      rw [own] at opened
      rw [opened] at same
      exact .inl ⟨own, new, patch, rfl, (Prod.mk.inj same).2 ▸ mem⟩
    · exact .inr ⟨own, locked⟩

/-- The transaction has got one more lock, and written under it. -/
theorem Tracked.seize (tracked : Tracked t sessions)
    {done pending : List (K × FindingDecisionPatch)} {f : K} {patch : FindingDecisionPatch}
    {inspected : Option (Option Approval)}
    (opened : sessions tx = some ⟨author, done, (f, patch) :: pending, inspected⟩)
    (free : t.locks f = none) (stored : t.rows f = some row) (wrote : ∃ now ownerExists approval,
      patch.write author now ownerExists approval row = .ok row') :
    Tracked (t.stage tx f row') (Function.update sessions tx
      (some ⟨author, done ++ [(f, patch)], pending, none⟩)) := by
  have act : Act (fun _ _ => True) (some tx) t (t.stage tx f row') :=
    .stage (RowTable.Table.freeFor_of_none free) stored trivial
  refine tracked.transaction act ?_ ?_
  · rintro _ ⟨⟩ p mem
    rcases List.mem_append.mp mem with old | new
    · obtain ⟨r, r', since, holds, w⟩ := tracked.written tx _ opened p old
      have apart : p.1 ≠ f := by
        intro same
        have locked := holds.locked
        rw [same, free] at locked
        cases locked
      exact ⟨r, r', since, holds.stage_of_ne apart _, w⟩
    · obtain rfl := List.mem_singleton.mp new
      exact ⟨row, row', t.changedAt f, ⟨Function.update_self _ _ _, stored, rfl⟩, wrote⟩
  · intro g l locked
    by_cases same : g = f
    · subst same
      rw [RowTable.Table.locks_stage, Function.update_self] at locked
      obtain rfl := Option.some.inj locked
      exact .inl ⟨rfl, _, patch, rfl, by simp⟩
    · rw [RowTable.Table.locks_stage, Function.update_of_ne same] at locked
      by_cases own : l.owner = tx
      · obtain ⟨s, opened', p, mem⟩ := tracked.owned g l locked
        rw [own, opened] at opened'
        obtain rfl := Option.some.inj opened'
        exact .inl ⟨own, _, p, rfl, List.mem_append_left _ mem⟩
      · exact .inr ⟨own, locked⟩

/-! ## The invariant -/

/-- The patch that gets its lock has read the decision as it is, and sets no time that the
columns would cut. -/
def fresh (q : Store K) : Action K → Bool
  | .seize tx _ _ =>
    match q.sessions tx with
    | some ⟨_, _, (f, patch) :: _, some approval⟩ => patch.whole &&
        (q.findings.rows f).all fun row => row.decisionWith approval = row.decision
    | _ => true
  | _ => true

/-- A finding in order, and with a faithful history if every patch is `fresh`. -/
def Sound (fresh : Prop) (row : Finding) : Prop := row.Ordered ∧ (fresh → row.Faithful)

structure Inv (fresh : Prop) (q : Store K) : Prop where
  sound : All (Sound fresh) q.findings
  staged : Staged (fun _ _ row row' => Sound fresh row → Sound fresh row') q.findings
  tracked : Tracked q.findings q.sessions

omit [LinearOrder K] in
theorem inv_empty (fresh : Prop) : Inv fresh (empty : Store K) :=
  ⟨nofun, nofun, ⟨nofun, nofun⟩⟩

variable {guarded : Prop} {q q' : Store K} {a : Action K}

theorem Inv.setSession (inv : Inv guarded q) {session : Session K}
    (same : ((q.sessions tx).map fun s => (s.author, s.done)).getD (session.author, []) =
      (session.author, session.done)) : Inv guarded (q.setSession tx session) :=
  ⟨inv.sound, inv.staged, inv.tracked.proceed same⟩

theorem Inv.update (inv : Inv guarded q) {f : K} (free : q.findings.locks f = none)
    {set : Finding → Finding} (keeps : ∀ row, Sound guarded row → Sound guarded (set row)) :
    Inv guarded { q with findings := q.findings.update [f] set } := by
  have free' : ∀ g ∈ [f], q.findings.locks g = none := by simpa using free
  exact ⟨inv.sound.update keeps, inv.staged.update set free',
    inv.tracked.statement (.update free' fun _ => trivial) rfl⟩

theorem Inv.abort (inv : Inv guarded q) (tx : ℕ) :
    Inv guarded (q.endSession tx (q.findings.abort tx)) :=
  ⟨inv.sound, inv.staged.abort tx, inv.tracked.finish .abort rfl⟩

theorem Inv.commit (inv : Inv guarded q) (tx : ℕ) :
    Inv guarded (q.endSession tx (q.findings.commit tx)) :=
  ⟨inv.sound.commit inv.staged (fun _ _ _ _ keeps sound => keeps sound) tx,
    inv.staged.commit tx, inv.tracked.finish .commit rfl⟩

/-- What a step can do. -/
inductive Taken (q : Store K) : Action K → Store K → Prop
  | imported {f : K} {row : Finding} (new : q.findings.rows f = none)
      (imported : row.imported = true) :
      Taken q (.importFinding f row) { q with findings := q.findings.insert f row }
  | noted {f : K} (free : q.findings.locks f = none) :
      Taken q (.note f) { q with findings := q.findings.update [f] Finding.addNote }
  | correlated {f : K} {actor : ActorID} {now : Time} {ownerExists : Bool}
      {decision : FindingDecision} {rationale : String} {row row' : Finding}
      (free : q.findings.locks f = none) (stored : q.findings.rows f = some row)
      (applied : row.applyFindingDecision actor now ownerExists decision rationale = .ok row') :
      Taken q (.correlate f actor now ownerExists decision rationale)
        { q with findings := q.findings.update [f] fun _ => row' }
  | session {a : Action K} {tx : ℕ} {session : Session K} (other : ∀ tx, a ≠ .commit tx)
      (same : ((q.sessions tx).map fun s => (s.author, s.done)).getD (session.author, []) =
        (session.author, session.done)) : Taken q a (q.setSession tx session)
  | seized {tx : ℕ} {now : Time} {ownerExists : Bool} {author : Author}
      {done pending : List (K × FindingDecisionPatch)} {f : K} {patch : FindingDecisionPatch}
      {approval : Option Approval} {row row' : Finding}
      (opened : q.sessions tx = some ⟨author, done, (f, patch) :: pending, some approval⟩)
      (free : q.findings.locks f = none) (stored : q.findings.rows f = some row)
      (wrote : patch.write author now ownerExists approval row = .ok row') :
      Taken q (.seize tx now ownerExists)
        (Store.setSession { q with findings := q.findings.stage tx f row' } tx
          ⟨author, done ++ [(f, patch)], pending, none⟩)
  | committed {tx : ℕ} : Taken q (.commit tx) (q.endSession tx (q.findings.commit tx))
  | aborted {a : Action K} {tx : ℕ} (other : ∀ tx, a ≠ .commit tx) :
      Taken q a (q.endSession tx (q.findings.abort tx))

theorem taken_of_seize (seized : q.seize tx now ownerExists = some q') :
    Taken q (.seize tx now ownerExists) q' := by
  unfold Store.seize at seized
  split at seized
  case h_2 => cases seized
  case h_1 author done f patch pending approval opened =>
    split at seized
    case isFalse => cases seized
    case isTrue free =>
      split at seized
      case h_1 => cases seized
      case h_2 row stored =>
        split at seized
        case h_1 row' wrote =>
          exact Option.some.inj seized ▸ .seized opened free stored wrote
        case h_2 => exact Option.some.inj seized ▸ .aborted nofun

theorem taken_of_step (taken : q.step a = some q') : Taken q a q' := by
  unfold Store.step at taken
  cases a with
  | importFinding f row =>
    obtain ⟨⟨new, imported⟩, result⟩ := Option.ite_none_right_eq_some.mp taken
    exact Option.some.inj result ▸ .imported new imported
  | note f =>
    obtain ⟨free, result⟩ := Option.ite_none_right_eq_some.mp taken
    exact Option.some.inj result ▸ .noted free
  | correlate f actor now ownerExists decision rationale =>
    obtain ⟨free, taken⟩ := Option.ite_none_right_eq_some.mp taken
    split at taken
    case h_1 => cases taken
    case h_2 row stored =>
      split at taken
      case h_2 => cases taken
      case h_1 row' applied => exact Option.some.inj taken ▸ .correlated free stored applied
  | start tx actor now request =>
    obtain ⟨unused, taken⟩ := Option.ite_none_right_eq_some.mp taken
    split at taken
    case h_2 => cases taken
    case h_1 patches _ =>
      exact Option.some.inj taken ▸ .session nofun (by rw [unused]; rfl)
  | inspect tx =>
    dsimp only at taken
    split at taken
    case h_2 => cases taken
    case h_1 author done f patch pending opened =>
      obtain ⟨row, -, result⟩ := Option.map_eq_some_iff.mp taken
      exact result ▸ .session nofun (by rw [opened]; rfl)
  | seize tx now ownerExists => exact taken_of_seize taken
  | commit tx =>
    dsimp only at taken
    split at taken
    case h_2 => cases taken
    case h_1 => exact Option.some.inj taken ▸ .committed
  | abort tx =>
    dsimp only at taken
    split at taken
    case isTrue => cases taken
    case isFalse => exact Option.some.inj taken ▸ .aborted nofun

theorem Inv.seize (inv : Inv guarded q) {done pending : List (K × FindingDecisionPatch)} {f : K}
    {patch : FindingDecisionPatch}
    (opened : q.sessions tx = some ⟨author, done, (f, patch) :: pending, some approval⟩)
    (free : q.findings.locks f = none) (stored : q.findings.rows f = some row)
    (wrote : patch.write author now ownerExists approval row = .ok row')
    (fresh : guarded → q.fresh (.seize tx now ownerExists) = true) :
    Inv guarded (Store.setSession { q with findings := q.findings.stage tx f row' } tx
      ⟨author, done ++ [(f, patch)], pending, none⟩) := by
  have keeps : Sound guarded row → Sound guarded row' := by
    rintro ⟨ordered, faithful⟩
    refine ⟨ordered.write wrote, fun holds => ?_⟩
    have read := fresh holds
    simp only [Store.fresh, opened, stored, Option.all_some, decide_eq_true_eq,
      Bool.and_eq_true] at read
    exact (faithful holds).write ordered read.2 read.1 wrote
  exact ⟨inv.sound, inv.staged.stage tx stored keeps,
    inv.tracked.seize opened free stored ⟨now, ownerExists, approval, wrote⟩⟩

theorem Inv.step (inv : Inv guarded q) (fresh : guarded → q.fresh a = true)
    (taken : q.step a = some q') : Inv guarded q' := by
  cases taken_of_step taken with
  | imported new imported =>
    exact ⟨inv.sound.insert ⟨.of_imported imported, fun _ => .of_imported imported⟩,
      inv.staged.insert _ new, inv.tracked.statement (.insert new) rfl⟩
  | noted free =>
    exact inv.update free fun row sound =>
      ⟨sound.1.addNote, fun holds => (sound.2 holds).addNote sound.1⟩
  | correlated free stored applied =>
    have sound := inv.sound _ _ stored
    exact inv.update free fun _ _ =>
      ⟨sound.1.correlate applied, fun holds => (sound.2 holds).correlate sound.1 applied⟩
  | session _ same => exact inv.setSession same
  | seized opened free stored wrote => exact inv.seize opened free stored wrote fresh
  | committed => exact inv.commit _
  | aborted _ => exact inv.abort _

/-! ## Histories -/

/-- One event of the next revision, in the words of the patch. -/
structure Records (author : Author) (patch : FindingDecisionPatch) (row row' : Finding)
    (e : DecisionEvent) : Prop where
  events : row'.events = row.events ++ [e]
  revision : e.decisionRevision = row.decisionRevision + 1
  current : row'.decisionRevision = e.decisionRevision
  actor : e.actorID = author.actor
  action : e.action = author.action
  rationale : e.rationale = patch.rationale

/-- A commit adds one event for each of its patches, and nothing else adds any. -/
structure Recorded (q : Store K) (a : Action K) (q' : Store K) : Prop where
  patched : ∀ tx s, a = .commit tx → q.sessions tx = some s → ∀ p ∈ s.done,
    ∃ row row' e, q.findings.rows p.1 = some row ∧ q'.findings.rows p.1 = some row' ∧
      Records s.author p.2 row row' e
  others : ∀ f, (∀ tx s, a = .commit tx → q.sessions tx = some s → ∀ p ∈ s.done, p.1 ≠ f) →
    ∀ row, q.findings.rows f = some row →
      ∃ row', q'.findings.rows f = some row' ∧ row'.events = row.events

theorem records_write {patch : FindingDecisionPatch}
    (written : patch.write author now ownerExists approval row = .ok row') :
    ∃ e, Records author patch row row' e := by
  obtain ⟨after, approvals, -, -, rfl⟩ := write_eq_ok written
  exact ⟨_, rfl, rfl, rfl, rfl, rfl, rfl⟩

omit [LinearOrder K] in
/-- A commit installs what its patches have written. -/
theorem Tracked.recorded_commit (tracked : Tracked q.findings q.sessions) (tx : ℕ) :
    Recorded q (.commit tx) (q.endSession tx (q.findings.commit tx)) := by
  constructor
  · rintro _ s ⟨⟩ opened p mem
    obtain ⟨row, row', since, holds, now, ownerExists, approval, wrote⟩ :=
      tracked.written tx s opened p mem
    obtain ⟨e, records⟩ := records_write wrote
    exact ⟨row, row', e, holds.stored, holds.rows_commit, records⟩
  · intro f apart row stored
    refine ⟨row, ?_, rfl⟩
    show q.findings.visible tx f = some row
    unfold Table.visible
    split
    case h_1 owner version locked =>
      rw [if_neg, stored]
      rintro rfl
      obtain ⟨s, opened, patch, mem⟩ := tracked.owned f _ locked
      exact apart owner s rfl opened _ mem rfl
    case h_2 => exact stored

omit [LinearOrder K] in
/-- Other steps add no event. -/
theorem recorded_of_moves (other : ∀ tx, a ≠ .commit tx)
    (moves : Table.Moves (fun _ row row' => row'.events = row.events) q.findings q'.findings) :
    Recorded q a q' := by
  constructor
  · intro tx s eq
    exact absurd eq (other tx)
  · intro f _ row stored
    obtain ⟨row', stored', related⟩ := moves f row stored
    rcases related with _ | same
    · exact ⟨row, stored', rfl⟩
    · exact ⟨row', stored', same⟩

theorem Tracked.recorded (tracked : Tracked q.findings q.sessions) (taken : q.step a = some q') :
    Recorded q a q' := by
  cases taken_of_step taken with
  | imported new _ => exact recorded_of_moves nofun (RowTable.Table.moves_insert _ new)
  | noted _ => exact recorded_of_moves nofun (RowTable.Table.moves_update fun _ _ _ _ => rfl)
  | correlated _ stored applied =>
    obtain ⟨approvals, -, -, rfl⟩ := Finding.applyFindingDecision_eq_ok applied
    refine recorded_of_moves nofun (RowTable.Table.moves_update ?_)
    intro g mem r stored'
    obtain rfl := List.mem_singleton.mp mem
    obtain rfl := Option.some.inj (stored.symm.trans stored')
    rfl
  | session other _ => exact recorded_of_moves other (.of_rows_eq rfl)
  | seized => exact recorded_of_moves nofun (.of_rows_eq rfl)
  | committed => exact tracked.recorded_commit _
  | aborted other => exact recorded_of_moves other (.of_rows_eq rfl)

/-- **The decision history.**  In every interleaving of single and bulk patches, merges, splits
and notes, each patch that commits adds exactly one event of the next revision, the events of a
finding are in order and list the fields that they change; and if every patch has read the
decision as it is when it gets its lock, and sets no time that the columns cut, the latest event
says how the decision stands and consecutive events take up each other. -/
theorem decisionHistory (as : List (Action K)) :
    Machine.Always step (fun q a => ∀ q', q.step a = some q' → Recorded q a q') empty as ∧
    Machine.Throughout step (fun q => ∀ f row, q.findings.rows f = some row →
      (row.events.Pairwise fun e e' => e.decisionRevision < e'.decisionRevision) ∧
        ∀ e ∈ row.events, e.Exact) empty as ∧
    (Machine.Always step (fun q a => q.fresh a = true) empty as →
      Machine.Throughout step (fun q => ∀ f row, q.findings.rows f = some row → row.Faithful)
        empty as) := by
  have always : Machine.Always step (fun q a => ∀ q', q.step a = some q' → Recorded q a q')
      (empty : Store K) as := by
    refine Machine.always_of_inv (I := Inv False) ?_ (inv_empty False) as
    intro q a q' inv taken
    exact ⟨fun _ taken' => inv.tracked.recorded taken', inv.step False.elim taken⟩
  refine ⟨always, ?_, ?_⟩
  · refine always.throughout (I := Inv False) ?_ ?_ (inv_empty False)
    · intro q a q' inv _ taken
      exact inv.step False.elim taken
    · intro q inv f row stored
      have ordered := (inv.sound f row stored).1
      exact ⟨ordered.increasing, ordered.exact⟩
  · intro fresh
    refine fresh.throughout (I := Inv True) ?_ ?_ (inv_empty True)
    · intro q a q' inv fresh taken
      exact inv.step (fun _ => fresh) taken
    · intro q inv f row stored
      exact (inv.sound f row stored).2 trivial

end Store

/-! ### Two patches of one finding -/

namespace Sample

def finding : Finding where
  id := "f"
  assetID := "a"
  sourceID := "s"
  scopeID := "r"
  scopeRevision := "1"
  scopeBranch := "main"
  ownerID := none
  workflowState := .opened
  disposition := .none
  acceptedRiskExpiresAt := none
  decisionRevision := 1
  approvals := []
  events := []
  correlatedAt := 0

def assign : FindingDecisionPatch where
  ownerID := some (some "u")
  workflowState := none
  disposition := none
  acceptedRiskExpiresAt := none
  dispositionScope := none
  suppressionExpiresAt := none
  rationale := ""
  expectedRevision := none
  rejectNoChange := false

def acceptRisk : FindingDecisionPatch :=
  { assign with
    ownerID := none
    disposition := some (some "accepted-risk")
    rationale := "r" }

def bulkAssign : BulkPatch ℕ where
  findingIDs := [0]
  ownerID := some (some "u")
  workflowState := none
  decisionRevisions := none
  disposition := none
  acceptedRiskExpiresAt := none
  rationale := "b"

/-- The second patch starts to read while the first one holds the finding, and has to wait. -/
def waiting : List (Action ℕ) :=
  [.importFinding 0 finding, .start 1 "u" 0 (.patch 0 acceptRisk), .start 2 "u" 0 (.patch 0 assign),
    .inspect 1, .seize 1 0 true, .inspect 2, .commit 1, .seize 2 0 true, .commit 2]

/-- The second patch starts to read when the first one has committed, and a note comes before
its lock. -/
def orderly : List (Action ℕ) :=
  [.importFinding 0 finding, .start 1 "u" 0 (.patch 0 acceptRisk), .inspect 1, .seize 1 0 true,
    .commit 1, .start 2 "u" 0 (.bulkPatch bulkAssign), .inspect 2, .note 0, .seize 2 0 true,
    .commit 2]

/-- The finding has two events, and the later one does not start where the earlier one ended. -/
def broken (row : Finding) : Bool :=
  match row.events with
  | [e, e'] => decide (row.correlatedAt = 0 ∧ e'.decisionRevision = e.decisionRevision + 1 ∧
      e'.before ≠ e.after ∧ row.decision ≠ e'.after)
  | _ => false

end Sample

namespace Store

/-- Both patches of `waiting` commit, and the later event starts from a decision that the
earlier one did not end with; nor does it say how the decision stands. -/
theorem waiting_patch_breaks_chain :
    ∃ q row e e', Machine.run step empty Sample.waiting = some q ∧
      q.findings.rows 0 = some row ∧ row.events = [e, e'] ∧ row.correlatedAt = 0 ∧
      e'.decisionRevision = e.decisionRevision + 1 ∧ e'.before ≠ e.after ∧
      row.decision ≠ e'.after := by
  have result : ((Machine.run step empty Sample.waiting).bind fun q => q.findings.rows 0).map
      Sample.broken = some true := by decide
  obtain ⟨row, found, holds⟩ := Option.map_eq_some_iff.mp result
  obtain ⟨q, runs, stored⟩ := Option.bind_eq_some_iff.mp found
  unfold Sample.broken at holds
  split at holds
  case h_1 e e' events => exact ⟨q, row, e, e', runs, stored, events, of_decide_eq_true holds⟩
  case h_2 => cases holds

/-- In the run `orderly` both patches commit, and the history is faithful. -/
theorem decisionHistory_orderly :
    (Machine.run step empty Sample.orderly).isSome = true ∧
    Machine.Throughout step (fun q => ∀ f row, q.findings.rows f = some row → row.Faithful)
      empty Sample.orderly :=
  ⟨by decide, (decisionHistory Sample.orderly).2.2 (Machine.always_of_checkAlways (by decide))⟩

end Store

end Aspm.Decisions
