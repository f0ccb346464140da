import Aspm.Reconcile.Rows

/-!
# Imports that did not succeed

An import whose scanner run failed still inserts rows for identities that have
none.  On a row that exists it changes the evidence revision and nothing else
(`observeRow_failed`), and it never moves the coverage.  So a failed import can
matter to an identity in one way only: by being the *first* to report it.

`reconcileAll_erase_iff` makes that exact.  Removing the failed imports of a
sequence leaves an identity's row and the classification of its first successful
observation as they are if and only if the first import that reports the identity
succeeded.
-/

namespace Aspm.Reconcile

open Nullable

variable {a b : FindingRow} {stored : Option FindingRow} {coverage : Option Time}

/-- The sequence without the imports whose scanner run failed. -/
def eraseFailed (imports : List Import) : List Import :=
  imports.filter (·.record.succeeded)

/-- The run belongs to a successful import of the sequence. -/
def succeededRun (imports : List Import) (runID : RunID) : Bool :=
  imports.any fun imp => imp.record.runID = runID && imp.record.succeeded

/-- The first observation of `key` that comes from a successful import. -/
def firstSucceeded (imports : List Import) (key : FindingKey) (observations : List Observation) :
    Option Observation :=
  observations.find? fun o => o.finding = key && succeededRun imports o.runID

/-- The columns that a failed import has no authority over. -/
structure SourceColumns where
  sourceState : SourceState
  sourceScanAt : Option Time
  title : String
  severity : Severity
  contentDigest : String
  changeKind : ChangeKind
deriving DecidableEq

def FindingRow.sourceColumns (row : FindingRow) : SourceColumns where
  sourceState := row.sourceState
  sourceScanAt := row.sourceScanAt
  title := row.title
  severity := row.severity
  contentDigest := row.contentDigest
  changeKind := row.changeKind

/-- The failed imports of the sequence leave no trace on `key`: its row ends with the
same columns without them, and with or without them its first successful
observation is classified as new. -/
structure ErasesFailed (digestOf : Finding → String) (s : Store) (imports : List Import)
    (key : FindingKey) : Prop where
  columns : ((reconcileAll digestOf s imports).findings key).map (·.sourceColumns) =
    ((reconcileAll digestOf s (eraseFailed imports)).findings key).map (·.sourceColumns)
  classified : (firstSucceeded imports key
      (reconcileAll digestOf s imports).observations).map (·.changeKind) = some (.current .new)
  classified_erased : (firstSucceeded imports key
      (reconcileAll digestOf s (eraseFailed imports)).observations).map (·.changeKind) =
    some (.current .new)

/-! ## One failed import -/

section Steps

variable {digestOf : Finding → String} {r : ImportRecord} {asset : AssetContext} {row : FindingRow}
  {f : Finding}

theorem comparable_of_failed (failed : r.succeeded = false) : r.comparable = false := by
  simp only [ImportRecord.succeeded, decide_eq_false_iff_not] at failed
  simp [ImportRecord.comparable, failed]

theorem newer_of_failed (row excluded : FindingRow) : row.newer false excluded = false := by
  simp [FindingRow.newer]

/-- On a row that exists, a failed import only counts as evidence. -/
theorem observeRow_failed (failed : r.succeeded = false) :
    observeRow digestOf r asset coverage (some row) f =
      { row with evidenceRevision := row.evidenceRevision + 1 } := by
  simp [observeRow, FindingRow.conflictUpdate, newer_of_failed, failed,
    comparable_of_failed failed, ImportRecord.covered, raisedFreshness_eq]

theorem unreported_failed (failed : r.succeeded = false) : row.unreported r coverage = row := by
  simp [FindingRow.unreported, newCoverage, comparable_of_failed failed]

/-! ## Rows that differ in their evidence revision -/

/-- Equal but for the evidence revision. -/
def SameButEvidence (a b : FindingRow) : Prop := ∃ n, b = { a with evidenceRevision := n }

theorem SameButEvidence.refl (a : FindingRow) : SameButEvidence a a := ⟨a.evidenceRevision, rfl⟩

theorem SameButEvidence.trans {c : FindingRow} (ab : SameButEvidence a b)
    (bc : SameButEvidence b c) : SameButEvidence a c := by
  obtain ⟨n, rfl⟩ := ab
  obtain ⟨m, rfl⟩ := bc
  exact ⟨m, rfl⟩

theorem SameButEvidence.sourceColumns (same : SameButEvidence a b) :
    b.sourceColumns = a.sourceColumns := by
  obtain ⟨n, rfl⟩ := same
  rfl

/-- Nothing but the evidence revision is computed from the evidence revision. -/
theorem SameButEvidence.observe (same : SameButEvidence a b) :
    SameButEvidence (observeRow digestOf r asset coverage (some a) f)
      (observeRow digestOf r asset coverage (some b) f) := by
  obtain ⟨n, rfl⟩ := same
  refine ⟨n + 1, ?_⟩
  have newer : ({ a with evidenceRevision := n } : FindingRow).newer r.succeeded
      (proposedRow digestOf r asset coverage f) =
        a.newer r.succeeded (proposedRow digestOf r asset coverage f) := rfl
  simp only [observeRow, FindingRow.conflictUpdate, newer]
  cases a.newer r.succeeded (proposedRow digestOf r asset coverage f) <;> rfl

theorem SameButEvidence.observeAll (same : SameButEvidence a b) (fs : List Finding) :
    ∃ a' b', Reconcile.observeAll digestOf r asset coverage (some a) fs = some a' ∧
      Reconcile.observeAll digestOf r asset coverage (some b) fs = some b' ∧
      SameButEvidence a' b' := by
  induction fs generalizing a b with
  | nil => exact ⟨a, b, rfl, rfl, same⟩
  | cons f fs ih => exact ih same.observe

theorem SameButEvidence.unreported (same : SameButEvidence a b) :
    SameButEvidence (a.unreported r coverage) (b.unreported r coverage) := by
  obtain ⟨n, rfl⟩ := same
  unfold FindingRow.unreported
  cases newCoverage r coverage with
  | none => exact ⟨n, rfl⟩
  | some scanned =>
    have outlived : ({ a with evidenceRevision := n } : FindingRow).outlived scanned =
        a.outlived scanned := rfl
    simp only [outlived]
    cases a.outlived scanned with
    | true => exact ⟨n + 1, rfl⟩
    | false => exact ⟨n, rfl⟩

/-- A failed import's observations of a row that exists. -/
theorem sameButEvidence_failed (failed : r.succeeded = false) (fs : List Finding) :
    ∃ row', observeAll digestOf r asset coverage (some row) fs = some row' ∧
      SameButEvidence row row' := by
  induction fs generalizing row with
  | nil => exact ⟨row, rfl, .refl row⟩
  | cons f fs ih =>
    rw [observeAll_cons, observeRow_failed failed]
    obtain ⟨row', hrow', same⟩ := @ih { row with evidenceRevision := row.evidenceRevision + 1 }
    exact ⟨row', hrow', SameButEvidence.trans ⟨_, rfl⟩ same⟩

/-! ## The classification of a key's first successful observation -/

/-- A successful import that made the current projection gives the observation the
kind of its row. -/
theorem observationChange_own {digest : String} {result : ReconciledFinding}
    (succeeded : r.succeeded = true) (own : result.changeRunID = some r.runID) :
    (observationChange r digest result).1 = .current result.changeKind := by
  have status : r.sourceStatus = .succeeded := by simpa [ImportRecord.succeeded] using succeeded
  have inOrder : ChangeReason.outOfOrder ∉ changeReasons r digest result := by
    simp only [changeReasons, status, own]
    cases r.completeness <;> cases r.scanKind <;> cases r.sourceScanAt <;> simp
  simp [observationChange, status, inOrder, own]

/-- A row that exists and is not itself new never makes an observation new. -/
theorem observationChange_ne_new {key : FindingKey} (stored : row.changeKind ≠ .new) :
    (observationChange r (digestOf f)
      ((observeRow digestOf r asset coverage (some row) f).returning key)).1 ≠ .current .new := by
  have kind : (observeRow digestOf r asset coverage (some row) f).changeKind ≠ .new := by
    by_cases superseded : r.succeeded = true ∧ row.Superseded r.sourceScanAt
    · rw [observeRow_of_superseded _ _ _ _ _ _ superseded.1 superseded.2]
      simp only [FindingRow.project, FindingRow.changeAgainst]
      split_ifs <;> simp
    · obtain ⟨uri, line, same⟩ :=
        observeRow_of_not_superseded digestOf r asset coverage row f superseded
      rw [same]
      exact stored
  simp only [observationChange]
  split_ifs
  · simp
  · simp
  · simpa [FindingRow.returning] using kind
  · simp

end Steps

/-! ## Whole sequences -/

section Runs

variable (digestOf : Finding → String) {s : Store} {scope : ScopeKey} {key : FindingKey}
  {imports : List Import} {imp : Import}

theorem eraseFailed_concat (imports : List Import) (imp : Import) :
    eraseFailed (imports ++ [imp]) =
      if imp.record.succeeded then eraseFailed imports ++ [imp] else eraseFailed imports := by
  cases status : imp.record.succeeded <;> simp [eraseFailed, List.filter_append, status]

/-- Failed imports do not contribute to coverage. -/
theorem latestComparable_eraseFailed (imports : List Import) :
    latestComparable (eraseFailed imports) = latestComparable imports := by
  induction imports using List.reverseRecOn with
  | nil => rfl
  | append_singleton imports imp ih =>
    rw [eraseFailed_concat, latestComparable_concat]
    cases status : imp.record.succeeded with
    | true => rw [if_pos rfl, latestComparable_concat, ih]
    | false =>
      rw [if_neg Bool.false_ne_true, ih, comparable_of_failed status,
        if_neg Bool.false_ne_true, greatest_none_right]

/-- A row that only failed imports have reported: an admitted finding of unknown
state that is not new. -/
def OnlyFailed (key : FindingKey) (imports : List Import) : Option FindingRow → Prop
  | none => ∀ imp ∈ imports, imp.reports key = false
  | some row => row.changeKind = .unchanged ∧ row.sourceState = .unknown

theorem OnlyFailed.step (only : OnlyFailed key imports stored)
    (failed : imp.reports key = true → imp.record.succeeded = false) :
    OnlyFailed key (imports ++ [imp])
      (stepRow digestOf imp (latestComparable imports) key stored) := by
  rw [stepRow]
  cases reported : imp.reports key with
  | true =>
    obtain ⟨row, hrow⟩ : ∃ row, observeAll digestOf imp.record imp.asset
        (latestComparable imports) stored (imp.occurrences key) = some row :=
      observeAll_isSome digestOf _ _ _ (Import.reports_iff.mp reported)
    rw [if_pos rfl, hrow]
    have failed := failed reported
    refine observeAll_induction digestOf _ _ _ (P := fun row => row.changeKind = .unchanged ∧
      row.sourceState = .unknown) _ ?_ ?_ ?_ row hrow
    · rintro row rfl
      exact only
    · intro f _ _
      simp [observeRow, proposedRow, ImportRecord.proposedState, ImportRecord.covered, failed]
    · intro f _ row same
      rw [observeRow_failed failed]
      exact same
  | false =>
    rw [if_neg Bool.false_ne_true]
    cases stored with
    | none => exact silent_concat only reported
    | some row =>
      -- the absence update passes over rows of unknown state
      have kept : row.unreported imp.record (latestComparable imports) = row := by
        unfold FindingRow.unreported
        split
        · rw [if_neg (by simp [outlived_iff, only.2])]
        · rfl
      rw [Option.map_some, kept]
      exact only

theorem ScopeRun.onlyFailed (run : ScopeRun s scope imports) (identity : String)
    (failed : ∀ imp ∈ imports, imp.reports ⟨scope, identity⟩ = true →
      imp.record.succeeded = false) :
    OnlyFailed ⟨scope, identity⟩ imports
      ((reconcileAll digestOf s imports).findings ⟨scope, identity⟩) :=
  run.row_induction digestOf identity (by simp [OnlyFailed]) fun _ imp _ before only =>
    only.step digestOf (failed imp (before.subset (by simp)))

/-- The row of `key` with and without the failed imports. -/
def Agrees (key : FindingKey) (imports : List Import) (erased : Option FindingRow) :
    Option FindingRow → Prop
  | none => erased = none ∧ ∀ imp ∈ imports, imp.reports key = false
  | some row => ∃ row', erased = some row' ∧ SameButEvidence row' row

/-- **A successful import keeps the two rows in agreement.** -/
theorem Agrees.step_succeeded {erased : Option FindingRow}
    (agrees : Agrees key imports erased stored) :
    Agrees key (imports ++ [imp]) (stepRow digestOf imp coverage key erased)
      (stepRow digestOf imp coverage key stored) := by
  simp only [stepRow]
  cases reported : imp.reports key with
  | true =>
    simp only [if_true]
    cases stored with
    | none =>
      obtain ⟨rfl, -⟩ := agrees
      obtain ⟨row, hrow⟩ : ∃ row, observeAll digestOf imp.record imp.asset coverage none
          (imp.occurrences key) = some row :=
        observeAll_isSome digestOf _ _ _ (Import.reports_iff.mp reported)
      rw [hrow]
      exact ⟨row, rfl, .refl row⟩
    | some row =>
      obtain ⟨row', rfl, same⟩ := agrees
      obtain ⟨a, b, ha, hb, after⟩ : ∃ a b,
          observeAll digestOf imp.record imp.asset coverage (some row') _ = some a ∧
          observeAll digestOf imp.record imp.asset coverage (some row) _ = some b ∧
          SameButEvidence a b :=
        same.observeAll (imp.occurrences key)
      rw [ha, hb]
      exact ⟨a, rfl, after⟩
  | false =>
    simp only [if_false, Bool.false_eq_true]
    cases stored with
    | none =>
      obtain ⟨rfl, silent⟩ := agrees
      exact ⟨rfl, silent_concat silent reported⟩
    | some row =>
      obtain ⟨row', rfl, same⟩ := agrees
      exact ⟨_, rfl, same.unreported⟩

/-- **A failed import keeps the two rows in agreement**, unless it reports the key
first. -/
theorem Agrees.step_failed {erased : Option FindingRow} (agrees : Agrees key imports erased stored)
    (failed : imp.record.succeeded = false) (notFirst : stored = none → imp.reports key = false) :
    Agrees key (imports ++ [imp]) erased (stepRow digestOf imp coverage key stored) := by
  rw [stepRow]
  cases stored with
  | none =>
    rw [notFirst rfl, if_neg Bool.false_ne_true]
    obtain ⟨rfl, silent⟩ := agrees
    exact ⟨rfl, silent_concat silent (notFirst rfl)⟩
  | some row =>
    obtain ⟨row', rfl, same⟩ := agrees
    cases imp.reports key with
    | true =>
      obtain ⟨after, hafter, evidence⟩ : ∃ after,
          observeAll digestOf imp.record imp.asset coverage (some row) _ = some after ∧
          SameButEvidence row after :=
        sameButEvidence_failed failed (imp.occurrences key)
      rw [if_pos rfl, hafter]
      exact ⟨row', rfl, same.trans evidence⟩
    | false =>
      rw [if_neg Bool.false_ne_true, Option.map_some, unreported_failed failed]
      exact ⟨row', rfl, same⟩

/-- If the first import to report an identity succeeded, the failed imports change
nothing in its row but the evidence revision. -/
theorem ScopeRun.agrees (run : ScopeRun s scope imports) (identity : String)
    (first : ∀ imp, imports.find? (·.reports ⟨scope, identity⟩) = some imp →
      imp.record.succeeded = true) :
    Agrees ⟨scope, identity⟩ imports
      ((reconcileAll digestOf s (eraseFailed imports)).findings ⟨scope, identity⟩)
      ((reconcileAll digestOf s imports).findings ⟨scope, identity⟩) := by
  refine run.row_induction digestOf identity (P := fun earlier stored =>
    Agrees ⟨scope, identity⟩ earlier
      ((reconcileAll digestOf s (eraseFailed earlier)).findings ⟨scope, identity⟩) stored) ?_ ?_
  · exact ⟨run.empty.findings identity, by simp⟩
  · intro earlier imp stored before agrees
    have erasedRun : ScopeRun s scope (eraseFailed (earlier ++ [imp])) :=
      run.sublist (List.filter_sublist.trans before.sublist)
    rw [eraseFailed_concat] at erasedRun ⊢
    cases status : imp.record.succeeded with
    | true =>
      rw [status, if_pos rfl] at erasedRun
      rw [if_pos rfl, erasedRun.row_concat, latestComparable_eraseFailed]
      exact agrees.step_succeeded digestOf
    | false =>
      rw [if_neg Bool.false_ne_true]
      refine agrees.step_failed digestOf status ?_
      rintro rfl
      by_contra reported
      obtain ⟨later, split⟩ := before
      have found : imports.find? (·.reports ⟨scope, identity⟩) = some imp := by
        rw [← split, List.append_assoc, List.find?_append, List.find?_eq_none.mpr,
          Option.none_or, List.singleton_append, List.find?_cons_of_pos]
        · simpa using reported
        · intro i hi
          simp [agrees.2 i hi]
      rw [first imp found] at status
      cases status

theorem succeededRun_of_mem (runs : (imports.map (·.record.runID)).Nodup) (mem : imp ∈ imports) :
    succeededRun imports imp.record.runID = imp.record.succeeded := by
  rw [Bool.eq_iff_iff, succeededRun, List.any_eq_true]
  constructor
  · rintro ⟨i, hi, same⟩
    rw [Bool.and_eq_true, decide_eq_true_eq] at same
    rw [← List.inj_on_of_nodup_map runs hi mem same.1]
    exact same.2
  · exact fun succeeded => ⟨imp, mem, by simp [succeeded]⟩

/-- The first successful observation of a key comes from the first successful import
that reports it, and is classified from the row that was there before. -/
theorem ScopeRun.firstSucceeded {order earlier later : List Import}
    (run : ScopeRun s scope imports) (sub : order.Sublist imports)
    (split : order = earlier ++ imp :: later) (identity : String)
    (succeeded : imp.record.succeeded = true) (reported : imp.reports ⟨scope, identity⟩ = true)
    (onlyFailed : ∀ i ∈ earlier, i.reports ⟨scope, identity⟩ = true →
      i.record.succeeded = false) :
    ∃ f, (firstSucceeded imports ⟨scope, identity⟩
        (reconcileAll digestOf s order).observations).map (·.changeKind) =
      some (observationChange imp.record (digestOf f) ((observeRow digestOf imp.record imp.asset
        (latestComparable earlier) ((reconcileAll digestOf s earlier).findings ⟨scope, identity⟩)
          f).returning ⟨scope, identity⟩)).1 := by
  subst split
  have mem : imp ∈ imports := sub.subset (by simp)
  have coverage := (run.sublist ((List.sublist_append_left ..).trans sub)).coverage digestOf
  rw [← run.inScope imp mem] at coverage
  -- the observations of the sequence, cut around those of `imp`
  obtain ⟨rest, cut⟩ : ∃ rest, (reconcileAll digestOf s (earlier ++ imp :: later)).observations =
      (reconcileAll digestOf s earlier).observations ++
        reportObservations digestOf (reconcileAll digestOf s earlier) imp ++ rest := by
    rw [← reconcile_observations, ← reconcileAll_concat]
    obtain ⟨rest, appended⟩ := reconcileAll_observations_prefix digestOf
      (reconcileAll digestOf s (earlier ++ [imp])) later
    refine ⟨rest, appended ▸ ?_⟩
    rw [reconcileAll, reconcileAll, reconcileAll, ← List.foldl_append, List.append_assoc]
    rfl
  have before : (reconcileAll digestOf s earlier).observations.find? (fun o =>
      o.finding = ⟨scope, identity⟩ && succeededRun imports o.runID) = none := by
    rw [List.find?_eq_none]
    intro o observed first
    simp only [Bool.and_eq_true, decide_eq_true_eq] at first
    rcases mem_reconcileAll_observations digestOf observed with initial | ⟨i, hi, reports, source⟩
    · exact run.empty.observations o initial (by rw [first.1])
    · rw [source, succeededRun_of_mem run.runs (sub.subset (List.mem_append_left _ hi)),
        onlyFailed i hi (first.1 ▸ reports)] at first
      cases first.2
  have own : ∀ o ∈ reportObservations digestOf (reconcileAll digestOf s earlier) imp,
      (decide (o.finding = ⟨scope, identity⟩) && succeededRun imports o.runID) =
        decide (o.finding = ⟨scope, identity⟩) := by
    intro o observed
    rw [(mem_reportObservations digestOf observed).2, succeededRun_of_mem run.runs mem, succeeded,
      Bool.and_true]
  obtain ⟨f, ordinal, -, found⟩ :
      ∃ f ordinal, _ ∧ (reportObservations digestOf (reconcileAll digestOf s earlier) imp).find?
        (fun o => o.finding = ⟨scope, identity⟩) = _ :=
    find_reportObservations digestOf (Import.reports_iff.mp reported)
  refine ⟨f, ?_⟩
  rw [Reconcile.firstSucceeded, cut, List.append_assoc, List.find?_append, before, Option.none_or,
    List.find?_append, List.find?_congr own, found, Option.some_or, Option.map_some, coverage]
  rfl

/-- If the first import to report an identity succeeded, its first successful
observation is new. -/
theorem ScopeRun.classified_new {order earlier later : List Import}
    (run : ScopeRun s scope imports) (sub : order.Sublist imports)
    (split : order = earlier ++ imp :: later) (identity : String)
    (succeeded : imp.record.succeeded = true) (reported : imp.reports ⟨scope, identity⟩ = true)
    (silent : ∀ i ∈ earlier, i.reports ⟨scope, identity⟩ = false) :
    (Reconcile.firstSucceeded imports ⟨scope, identity⟩
        (reconcileAll digestOf s order).observations).map (·.changeKind) =
      some (.current .new) := by
  obtain ⟨f, classified⟩ := run.firstSucceeded digestOf sub split identity succeeded reported
    (fun i hi reports => by rw [silent i hi] at reports; cases reports)
  have earlierRun : ScopeRun s scope earlier :=
    run.sublist ((split ▸ List.sublist_append_left ..).trans sub)
  rw [classified, earlierRun.findings_of_silent digestOf identity silent, observationChange_own]
  · simp [FindingRow.returning, observeRow, proposedRow, succeeded]
  · exact succeeded
  · simp [FindingRow.returning, observeRow, proposedRow, succeeded]

/-- **Which failed imports matter.**  The failed imports of a sequence leave no trace on
an identity if and only if the first import that reports it succeeded. -/
theorem reconcileAll_erase_iff (run : ScopeRun s scope imports) (identity : String)
    (observed : ∃ imp ∈ imports, imp.record.succeeded = true ∧
      ∃ f ∈ imp.findings, f.identity = identity) :
    ErasesFailed digestOf s imports ⟨scope, identity⟩ ↔
      ∃ first, imports.find? (·.reports ⟨scope, identity⟩) = some first ∧
        first.record.succeeded = true := by
  constructor
  · intro erases
    have exists_succeeded : (imports.find? fun imp =>
        imp.reports ⟨scope, identity⟩ && imp.record.succeeded).isSome := by
      obtain ⟨imp, mem, succeeded, reported⟩ := observed
      rw [List.find?_isSome]
      exact ⟨imp, mem, by
        simp [(Import.reports_iff_exists (run.inScope imp mem) identity).mpr reported, succeeded]⟩
    obtain ⟨imp, found⟩ := Option.isSome_iff_exists.mp exists_succeeded
    obtain ⟨chosen, earlier, later, split, none_before⟩ := List.find?_eq_some_iff_append.mp found
    rw [Bool.and_eq_true] at chosen
    have onlyFailed : ∀ i ∈ earlier, i.reports ⟨scope, identity⟩ = true →
        i.record.succeeded = false := by
      intro i hi reports
      simpa [reports] using none_before i hi
    have earlierRun : ScopeRun s scope earlier :=
      run.sublist (split ▸ List.sublist_append_left ..)
    have rows := earlierRun.onlyFailed digestOf identity onlyFailed
    obtain ⟨f, classified⟩ := run.firstSucceeded digestOf (.refl imports) split identity chosen.2
      chosen.1 onlyFailed
    cases stored : (reconcileAll digestOf s earlier).findings ⟨scope, identity⟩ with
    | none =>
      rw [stored] at rows
      refine ⟨imp, ?_, chosen.2⟩
      refine List.find?_eq_some_iff_append.mpr ⟨chosen.1, earlier, later, split, ?_⟩
      exact fun i hi => by simp [rows i hi]
    | some row =>
      rw [stored] at rows classified
      rw [erases.classified] at classified
      refine absurd (Option.some.inj classified).symm (observationChange_ne_new ?_)
      rw [rows.1]
      decide
  · rintro ⟨first, found, succeeded⟩
    obtain ⟨reported, earlier, later, split, none_before⟩ :=
      List.find?_eq_some_iff_append.mp found
    have silent : ∀ i ∈ earlier, i.reports ⟨scope, identity⟩ = false :=
      fun i hi => by simpa using none_before i hi
    have splitErased : eraseFailed imports = eraseFailed earlier ++ first :: eraseFailed later := by
      simp [split, eraseFailed, List.filter_append, succeeded]
    refine ⟨?_, ?_, ?_⟩
    · have agrees := run.agrees digestOf identity fun imp also => by
        rw [found] at also
        exact Option.some.inj also ▸ succeeded
      cases stored : (reconcileAll digestOf s imports).findings ⟨scope, identity⟩ with
      | none =>
        rw [stored] at agrees
        rw [agrees.1]
      | some row =>
        rw [stored] at agrees
        obtain ⟨row', erased, same⟩ := agrees
        rw [erased, Option.map_some, Option.map_some, same.sourceColumns]
    · exact run.classified_new digestOf (.refl imports) split identity succeeded reported silent
    · exact run.classified_new digestOf List.filter_sublist splitErased identity succeeded
        reported fun i hi => silent i (List.mem_of_mem_filter hi)

/-- A failed import that comes after the identity's first observation. -/
theorem reconcileAll_erase_iff_later :
    ErasesFailed Finding.title .empty [Sample.scan "one" .succeeded .delta 1 ["A"],
      Sample.scan "two" .failed .full 2 ["B"]] Sample.key := by
  have run : ScopeRun .empty Sample.scope [Sample.scan "one" .succeeded .delta 1 ["A"],
      Sample.scan "two" .failed .full 2 ["B"]] :=
    ⟨Store.empty_emptyScope _, by decide, by decide⟩
  exact (reconcileAll_erase_iff Finding.title run "finding" (by decide)).mpr ⟨_, rfl, rfl⟩

/-- A failed import that reports the identity first: with it the row keeps the failed
scan's content and an unknown state, and the successful observation is not new. -/
theorem failed_first_leaves_trace :
    let failed := Sample.scan "nine" .failed .full 9 ["B"]
    let succeeded := Sample.scan "five" .succeeded .full 5 ["A"]
    ScopeRun .empty Sample.scope [failed, succeeded] ∧
      ((reconcileAll Finding.title .empty [failed, succeeded]).findings Sample.key).map
          (·.sourceColumns) = some ⟨.unknown, some 9, "B", .high, "B", .unchanged⟩ ∧
      ((reconcileAll Finding.title .empty (eraseFailed [failed, succeeded])).findings
          Sample.key).map (·.sourceColumns) = some ⟨.observed, some 5, "A", .high, "A", .new⟩ ∧
      (firstSucceeded [failed, succeeded] Sample.key
          (reconcileAll Finding.title .empty [failed, succeeded]).observations).map
        (·.changeKind) = some .historical ∧
      (firstSucceeded [failed, succeeded] Sample.key
          (reconcileAll Finding.title .empty (eraseFailed [failed, succeeded])).observations).map
        (·.changeKind) = some (.current .new) :=
  ⟨⟨Store.empty_emptyScope _, by decide, by decide⟩, by decide, by decide, by decide, by decide⟩

end Runs

end Aspm.Reconcile
