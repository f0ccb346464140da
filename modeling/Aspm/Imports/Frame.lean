import Aspm.Reconcile.Agreement
import Aspm.Imports.ExactlyOnce

/-!
# What an import leaves alone

Reconciliation owns the projection of a finding, and nothing else of it.  `Framed` lists
what it may do to the store: rows of other scopes are untouched, the columns of the human
decision and the first observation stay, revisions and times only advance, and every row
that changes at all has a new evidence revision.

A transaction writes the store when it commits.  `imports_framed` puts both together for
the queue: a step either commits one import, within its frame, or leaves the store as it
is.
-/

namespace Aspm.Reconcile

open Nullable

variable {digestOf : Finding → String}

/-! ## Rows -/

/-- The candidate location is missing, or names a line of a resource. -/
def FindingRow.Located (row : FindingRow) : Prop :=
  (row.candidateURI = "" ∧ row.candidateLine = 0) ∨
    (row.candidateURI ≠ "" ∧ 0 < row.candidateLine)

/-- What reconciliation may do to a row. -/
structure FindingRow.Advances (row row' : FindingRow) : Prop where
  firstObservedAt : row'.firstObservedAt = row.firstObservedAt
  ownerID : row'.ownerID = row.ownerID
  workflowState : row'.workflowState = row.workflowState
  disposition : row'.disposition = row.disposition
  acceptedRiskExpiresAt : row'.acceptedRiskExpiresAt = row.acceptedRiskExpiresAt
  decisionRevision : row'.decisionRevision = row.decisionRevision
  evidenceRevision : row.evidenceRevision ≤ row'.evidenceRevision
  changeRevision : row.changeRevision ≤ row'.changeRevision
  sourceScanAt : Reaches row.sourceScanAt row'.sourceScanAt
  sourceFreshnessAt : Reaches row.sourceFreshnessAt row'.sourceFreshnessAt

theorem FindingRow.Advances.refl (row : FindingRow) : row.Advances row where
  firstObservedAt := rfl
  ownerID := rfl
  workflowState := rfl
  disposition := rfl
  acceptedRiskExpiresAt := rfl
  decisionRevision := rfl
  evidenceRevision := le_rfl
  changeRevision := le_rfl
  sourceScanAt := .refl _
  sourceFreshnessAt := .refl _

theorem FindingRow.Advances.trans {a b c : FindingRow} (ab : a.Advances b) (bc : b.Advances c) :
    a.Advances c where
  firstObservedAt := bc.firstObservedAt.trans ab.firstObservedAt
  ownerID := bc.ownerID.trans ab.ownerID
  workflowState := bc.workflowState.trans ab.workflowState
  disposition := bc.disposition.trans ab.disposition
  acceptedRiskExpiresAt := bc.acceptedRiskExpiresAt.trans ab.acceptedRiskExpiresAt
  decisionRevision := bc.decisionRevision.trans ab.decisionRevision
  evidenceRevision := ab.evidenceRevision.trans bc.evidenceRevision
  changeRevision := ab.changeRevision.trans bc.changeRevision
  sourceScanAt := ab.sourceScanAt.trans bc.sourceScanAt
  sourceFreshnessAt := ab.sourceFreshnessAt.trans bc.sourceFreshnessAt

section Steps

variable {r : ImportRecord} {asset : AssetContext} {coverage : Option Time} {row : FindingRow}
  {f : Finding}

/-- A superseded row has no time that the observation does not reach. -/
theorem FindingRow.Superseded.reaches {time : Option Time} (superseded : row.Superseded time) :
    Reaches row.sourceScanAt time := by
  cases time with
  | none => rw [superseded.1]; exact .refl _
  | some scanned => exact reaches_some fun stored mem => (superseded.1 stored mem).le

/-- One observation advances a row, and its evidence revision strictly. -/
theorem advances_observeRow :
    row.Advances (observeRow digestOf r asset coverage (some row) f) ∧
      row.evidenceRevision < (observeRow digestOf r asset coverage (some row) f).evidenceRevision := by
  by_cases newer : r.succeeded = true ∧ row.Superseded r.sourceScanAt
  · rw [observeRow_of_superseded _ _ _ _ _ _ newer.1 newer.2]
    exact ⟨⟨rfl, rfl, rfl, rfl, rfl, rfl, Nat.le_succ _, Nat.le_succ _, newer.2.reaches,
      reaches_greatest _ _⟩, Nat.lt_succ_self _⟩
  · obtain ⟨uri, line, same⟩ :=
      observeRow_of_not_superseded digestOf r asset coverage row f newer
    rw [same]
    exact ⟨⟨rfl, rfl, rfl, rfl, rfl, rfl, Nat.le_succ _, le_rfl, .refl _,
      reaches_greatest _ _⟩, Nat.lt_succ_self _⟩

/-- The absence update advances a row, and its evidence revision strictly. -/
theorem advances_inferResolved {scanned : Time} (outlived : row.outlived scanned = true) :
    row.Advances (row.inferResolved r scanned) ∧
      row.evidenceRevision < (row.inferResolved r scanned).evidenceRevision := by
  obtain ⟨-, -, fresh⟩ := (outlived_iff scanned row).mp outlived
  exact ⟨⟨rfl, rfl, rfl, rfl, rfl, rfl, Nat.le_succ _, Nat.le_succ _, .refl _,
    reaches_some fun time mem => (fresh time mem).le⟩, Nat.lt_succ_self _⟩

theorem located_proposedRow : (proposedRow digestOf r asset coverage f).Located := by
  unfold FindingRow.Located proposedRow correlationCandidateLocation
  cases r.succeeded with
  | false => exact .inl ⟨rfl, rfl⟩
  | true =>
    simp only [if_true]
    split_ifs with missing
    · exact .inl ⟨rfl, rfl⟩
    · simp only [Bool.or_eq_true, decide_eq_true_eq, not_or, not_le] at missing
      exact .inr missing

/-- The two candidate columns come from one row, the stored or the proposed one. -/
theorem located_conflictUpdate {excluded : FindingRow} (succeeded authoritative : Bool)
    (stored : row.Located) (proposed : excluded.Located) :
    (row.conflictUpdate succeeded authoritative excluded).Located := by
  simp only [FindingRow.Located, FindingRow.conflictUpdate]
  generalize (row.newer succeeded excluded || _) = candidateNewer
  cases candidateNewer with
  | false => exact stored
  | true => exact proposed

theorem located_observeRow {stored : Option FindingRow}
    (located : ∀ row, stored = some row → row.Located) :
    (observeRow digestOf r asset coverage stored f).Located := by
  cases stored with
  | none => exact located_proposedRow
  | some row => exact located_conflictUpdate _ _ (located row rfl) located_proposedRow

/-! ## Reports -/

variable {fs : List Finding}

theorem advances_observeAll :
    ∀ row', observeAll digestOf r asset coverage (some row) fs = some row' →
      row.Advances row' ∧ (fs ≠ [] → row.evidenceRevision < row'.evidenceRevision) := by
  intro row' folded
  cases fs with
  | nil =>
    cases folded
    exact ⟨.refl row, fun hne => absurd rfl hne⟩
  | cons f rest =>
    rw [observeAll_cons] at folded
    -- the first observation moves the evidence revision, the others do not move it back
    obtain ⟨first, moved⟩ : row.Advances (observeRow digestOf r asset coverage (some row) f) ∧ _ :=
      advances_observeRow
    have others := observeAll_induction digestOf r asset coverage
      (P := (observeRow digestOf r asset coverage (some row) f).Advances) rest
      (by rintro _ ⟨rfl⟩; exact .refl _) (by rintro _ _ ⟨⟩)
      (fun g _ row' advanced => advanced.trans advances_observeRow.1) row' folded
    exact ⟨first.trans others, fun _ => moved.trans_le others.evidenceRevision⟩

end Steps

/-! ## Transactions -/

/-- The check that the table `findings` makes of the candidate location. -/
def Store.Located (s : Store) : Prop :=
  ∀ key row, s.findings key = some row → row.Located

/-- **The frame of an import.** -/
structure Framed (imp : Import) (s s' : Store) : Prop where
  /-- Rows of other scopes are untouched, and none appears. -/
  scope : ∀ key, key.scope ≠ imp.record.scope → s'.findings key = s.findings key
  /-- A row stays under its key and advances, and its evidence revision strictly if the
  report contains the key or if the row changes at all. -/
  rows : ∀ key row, s.findings key = some row → ∃ row', s'.findings key = some row' ∧
    row.Advances row' ∧
    ((∃ f ∈ imp.findings, key = ⟨imp.record.scope, f.identity⟩) ∨ row' ≠ row →
      row.evidenceRevision < row'.evidenceRevision)
  coverage : ∀ scope, Reaches (s.coverage scope) (s'.coverage scope)
  located : s'.Located

section Transaction

variable {s : Store} {imp : Import}

/-- A key the report does not contain keeps its row or has it resolved. -/
theorem reconcile_silent {key : FindingKey} (silent : imp.occurrences key = []) :
    (reconcile digestOf s imp).findings key = s.findings key ∨
      ∃ row scanned, s.findings key = some row ∧ row.outlived scanned = true ∧
        (reconcile digestOf s imp).findings key = some (row.inferResolved imp.record scanned) := by
  have unwritten : (writeReport digestOf imp.record imp.asset (s.coverage imp.record.scope)
      s 0 imp.findings).findings key = s.findings key := by
    rw [writeReport_row, ← Import.occurrences, silent, observeAll_nil]
  rw [reconcile_eq]
  cases newCoverage imp.record (s.coverage imp.record.scope) with
  | none => exact .inl unwritten
  | some scanned =>
    simp only [inferAbsent, unwritten]
    cases s.findings key with
    | none => exact .inl rfl
    | some row =>
      simp only [Option.map_some, Option.some.injEq]
      split_ifs with absent
      · exact .inr ⟨row, scanned, rfl, ((absentFrom_eq _ _ _ _ _).mp absent).2.1, rfl⟩
      · exact .inl rfl

theorem reconcile_located (located : s.Located) : (reconcile digestOf s imp).Located := by
  intro key row' stored'
  by_cases silent : imp.occurrences key = []
  · rcases reconcile_silent silent with same | ⟨row, scanned, stored, -, resolved⟩
    · exact located key row' (same ▸ stored')
    · rw [resolved, Option.some.injEq] at stored'
      exact stored' ▸ located key row stored
  · rw [reconcile_observed digestOf silent] at stored'
    exact observeAll_induction digestOf imp.record imp.asset _ (P := FindingRow.Located) _
      (located key) (fun f _ _ => located_proposedRow)
      (fun f _ row kept => located_observeRow fun _ same => Option.some.inj same ▸ kept) row' stored'

theorem reconcile_advances {key : FindingKey} {row : FindingRow}
    (stored : s.findings key = some row) :
    ∃ row', (reconcile digestOf s imp).findings key = some row' ∧ row.Advances row' ∧
      ((∃ f ∈ imp.findings, key = ⟨imp.record.scope, f.identity⟩) ∨ row' ≠ row →
        row.evidenceRevision < row'.evidenceRevision) := by
  by_cases silent : imp.occurrences key = []
  · rcases reconcile_silent silent with same | ⟨row, scanned, stored', outlived, resolved⟩
    · refine ⟨row, same.trans stored, .refl row, ?_⟩
      rintro (⟨f, mem, rfl⟩ | changed)
      · exact absurd silent (Import.occurrences_ne_nil mem)
      · exact absurd rfl changed
    · obtain rfl := Option.some.inj (stored.symm.trans stored')
      exact ⟨_, resolved, (advances_inferResolved outlived).1,
        fun _ => (advances_inferResolved outlived).2⟩
  · obtain ⟨row', folded⟩ : ∃ row', observeAll digestOf imp.record imp.asset
        (s.coverage imp.record.scope) (some row) (imp.occurrences key) = some row' :=
      observeAll_isSome _ _ _ _ silent
    obtain ⟨advanced, moved⟩ := advances_observeAll row' folded
    refine ⟨row', ?_, advanced, fun _ => moved silent⟩
    rw [reconcile_observed digestOf silent, stored, folded]

/-- **An import keeps to its frame**, whatever its status, kind, completeness and time. -/
theorem reconcile_framed (located : s.Located) : Framed imp s (reconcile digestOf s imp) where
  scope _ other := reconcile_other_scope digestOf other
  rows _ _ stored := reconcile_advances stored
  coverage scope := by
    rw [reconcile_coverage]
    split_ifs with same
    · rw [same, newCoverage_or]
      exact reaches_greatest _ _
    · exact .refl _
  located := reconcile_located located

end Transaction

end Aspm.Reconcile

namespace Aspm.Imports

open Reconcile (Finding Import Framed)

variable {ID : Type} [LinearOrder ID]

/-- A step commits one import, or leaves the store and the committed transactions. -/
theorem Effect.store {q q' : Queue ID} (effect : Effect digestOf q q') :
    (q'.store = q.store ∧ q'.committed = q.committed) ∨
      ∃ c : Commit ID, q'.committed = q.committed ++ [c] ∧
        q'.store = Reconcile.reconcile digestOf q.store c.imp := by
  cases effect with
  | tick d => exact .inl ⟨rfl, rfl⟩
  | insert id row fresh queued attempts run => exact .inl ⟨rfl, rfl⟩
  | update selected set sound => exact .inl ⟨rfl, rfl⟩
  | lock id owner free unfinished => exact .inl ⟨rfl, rfl⟩
  | finalize id claim row findings asset lock held stored active => exact .inl ⟨rfl, rfl⟩
  | commit id claim imp time lock held => exact .inr ⟨⟨claim, imp, time⟩, rfl, rfl⟩
  | abort owner => exact .inl ⟨rfl, rfl⟩

/-- **Imports never touch human decisions or move watermarks back.**  Reconciliation keeps
to its frame in every state of the tables.  A step of the queue that commits no
transaction leaves the store as it is, and one that rolls back a transaction leaves
the import as well; one that commits applies exactly one import. -/
theorem imports_framed :
    (∀ (s : Reconcile.Store) (imp : Import), s.Located →
      Framed imp s (Reconcile.reconcile digestOf s imp)) ∧
    ∀ (q q' : Queue ID) (a : Action ID), q.step digestOf a = some q' →
      ((q'.committed = q.committed ∧ q'.store = q.store) ∨
        ∃ c : Commit ID, q'.committed = q.committed ++ [c] ∧
          q'.store = Reconcile.reconcile digestOf q.store c.imp) ∧
      ∀ id, a = .rollback id →
        q'.store = q.store ∧ q'.committed = q.committed ∧ q'.table.rows = q.table.rows := by
  refine ⟨fun s imp located => Reconcile.reconcile_framed located, ?_⟩
  intro q q' a step
  constructor
  · rcases (step_effect digestOf step).store with ⟨same, log⟩ | committed
    · exact .inl ⟨log, same⟩
    · exact .inr committed
  · rintro id rfl
    simp only [Queue.step] at step
    split at step
    · cases step
      exact ⟨rfl, rfl, rfl⟩
    · cases step

/-- A failed scan of an observed finding keeps to its frame. -/
theorem imports_framed_failed :
    let s := Reconcile.reconcile Finding.title .empty
      (Reconcile.Sample.scan "one" .succeeded .full 5 ["A"])
    let failed := Reconcile.Sample.scan "two" .failed .full 9 ["B"]
    s.Located ∧ Framed failed s (Reconcile.reconcile Finding.title s failed) := by
  intro s failed
  have located : s.Located := Reconcile.reconcile_located fun _ _ stored => by cases stored
  exact ⟨located, (@imports_framed ℕ _ Finding.title).1 s failed located⟩

end Aspm.Imports
