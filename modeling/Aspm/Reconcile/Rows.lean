import Aspm.Reconcile.Model

/-!
# What one import does to one row

The transaction walks the report in slices of a hundred and, within a slice, in
two batches.  None of that shows in the tables: `reconcileSlices_eq` collapses
the loop to one batch of upserts followed by one batch of observations.

From there the module reads the transaction row by row.  `occurrences` are the
findings of the report under one key, `observeAll` folds their upserts, and the
two spec lemmas are

* `reconcile_observed` — a key the report contains ends with the fold of its
  occurrences, whatever the absence update does;
* `reconcile_absent` — a key the report does not contain is touched by the
  absence update alone, under the condition `outlived`.

`reconcile_coverage` completes them: coverage is a running maximum.
-/

namespace Aspm.Reconcile

open Nullable

variable {f : Finding} {fs : List Finding} {table : FindingTable} {imp : Import}
  {imports : List Import}

/-! ## The conditions as propositions -/

/-- A successful observation at `scanned` replaces the projection of the row: it
beats the stored scan time and reaches the watermark, or nothing in the row has a
time and neither has the observation. -/
def FindingRow.Superseded (f : FindingRow) : Option Time → Prop
  | some scanned => (∀ stored ∈ f.sourceScanAt, stored < scanned) ∧
      ∀ fresh ∈ f.sourceFreshnessAt, fresh ≤ scanned
  | none => f.sourceScanAt = none ∧ f.sourceFreshnessAt = none

theorem newer_iff (succeeded : Bool) (f excluded : FindingRow) :
    f.newer succeeded excluded = true ↔
      succeeded = true ∧ f.Superseded excluded.sourceScanAt := by
  cases hx : excluded.sourceScanAt with
  | none => simp [FindingRow.newer, FindingRow.Superseded, hx]
  | some scanned =>
    cases hs : f.sourceScanAt <;> cases hf : f.sourceFreshnessAt <;>
      simp [FindingRow.newer, FindingRow.Superseded, hx, hs, hf]

/-- The row of a finding that a complete scan at `scanned` supersedes: the
condition of the absence update, apart from the one on the run's observations. -/
def FindingRow.outlived (scanned : Time) (f : FindingRow) : Bool :=
  ((isNotNull f.sourceScanAt).and (lt f.sourceScanAt (some scanned))).holds &&
    f.sourceState ≠ .unknown &&
    ((isNull f.sourceFreshnessAt).or (lt f.sourceFreshnessAt (some scanned))).holds

theorem outlived_iff (scanned : Time) (f : FindingRow) :
    f.outlived scanned = true ↔
      (∃ stored, f.sourceScanAt = some stored ∧ stored < scanned) ∧
        f.sourceState ≠ .unknown ∧ ∀ fresh ∈ f.sourceFreshnessAt, fresh < scanned := by
  cases hs : f.sourceScanAt <;> cases hf : f.sourceFreshnessAt <;>
    simp [FindingRow.outlived, hs, hf, and_assoc]

/-- The row of a key that an import of its scope does not report. -/
def FindingRow.unreported (r : ImportRecord) (coverage : Option Time) (row : FindingRow) :
    FindingRow :=
  match newCoverage r coverage with
  | some scanned => if row.outlived scanned then row.inferResolved r scanned else row
  | none => row

theorem raisedFreshness_eq (authoritative : Bool) (f excluded : FindingRow) :
    f.raisedFreshness authoritative excluded =
      greatest f.sourceFreshnessAt
        (if authoritative then excluded.sourceFreshnessAt else none) := by
  cases authoritative <;> cases hf : f.sourceFreshnessAt <;>
    cases hx : excluded.sourceFreshnessAt <;>
    simp [FindingRow.raisedFreshness, hf, hx]
  split <;> simp only [max_def] <;> grind

theorem ImportRecord.covered_eq_true_iff {r : ImportRecord} {coverage : Option Time} :
    r.covered coverage = true ↔ r.succeeded = true ∧
      ∃ scanned complete, r.sourceScanAt = some scanned ∧ coverage = some complete ∧
        scanned < complete := by
  cases time : r.sourceScanAt <;> cases coverage <;> simp [ImportRecord.covered, time]

/-- An import that is neither comparable nor covered proposes no watermark, so the
flag `authoritative` decides nothing on its own. -/
theorem proposedFreshness_of_not_authoritative {r : ImportRecord} {coverage : Option Time}
    (h : (r.comparable || r.covered coverage) = false) : r.proposedFreshness coverage = none := by
  rw [Bool.or_eq_false_iff] at h
  simp [ImportRecord.proposedFreshness, h.1, h.2]

/-- The coverage after an import is the greatest of what it was and, for a
comparable import, its own time. -/
theorem newCoverage_or (r : ImportRecord) (coverage : Option Time) :
    (newCoverage r coverage).or coverage =
      greatest coverage (if r.comparable then r.sourceScanAt else none) := by
  unfold newCoverage
  cases r.comparable <;> cases coverage <;> cases r.sourceScanAt <;>
    simp only [Option.filter, if_true, if_false, Bool.false_eq_true, Option.or_none,
      Option.none_or, greatest_none_left, greatest_none_right, greatest_some, decide_eq_true_eq]
  split
  case isTrue later => rw [Option.some_or, max_eq_right later.le]
  case isFalse earlier => rw [Option.none_or, max_eq_left (not_lt.mp earlier)]

section Observe

variable (digestOf : Finding → String) (r : ImportRecord) (asset : AssetContext)
  (coverage : Option Time) (row : FindingRow) (f : Finding)

/-- A superseded row takes the projection of the observation. -/
theorem observeRow_of_superseded (succeeded : r.succeeded = true)
    (newer : row.Superseded r.sourceScanAt) :
    observeRow digestOf r asset coverage (some row) f =
      { row.project (proposedRow digestOf r asset coverage f) with
        candidateURI := (correlationCandidateLocation f.location).1
        candidateLine := (correlationCandidateLocation f.location).2
        sourceFreshnessAt := greatest row.sourceFreshnessAt (r.proposedFreshness coverage)
        evidenceRevision := row.evidenceRevision + 1 } := by
  have isNewer : row.newer r.succeeded (proposedRow digestOf r asset coverage f) = true :=
    (newer_iff ..).mpr ⟨succeeded, newer⟩
  simp only [observeRow, FindingRow.conflictUpdate, isNewer, raisedFreshness_eq]
  cases auth : r.comparable || r.covered coverage <;>
    simp [proposedRow, succeeded, proposedFreshness_of_not_authoritative, auth]

/-- Any other row keeps its projection; only its watermark, its evidence revision
and a missing candidate location move. -/
theorem observeRow_of_not_superseded
    (kept : ¬ (r.succeeded = true ∧ row.Superseded r.sourceScanAt)) :
    ∃ uri line, observeRow digestOf r asset coverage (some row) f =
      { row with
        candidateURI := uri
        candidateLine := line
        sourceFreshnessAt := greatest row.sourceFreshnessAt (r.proposedFreshness coverage)
        evidenceRevision := row.evidenceRevision + 1 } := by
  have notNewer : row.newer r.succeeded (proposedRow digestOf r asset coverage f) = false :=
    Bool.eq_false_iff.mpr (mt (newer_iff ..).mp kept)
  simp only [observeRow, FindingRow.conflictUpdate, notNewer, raisedFreshness_eq]
  cases auth : r.comparable || r.covered coverage
  · rw [proposedFreshness_of_not_authoritative auth]
    exact ⟨_, _, rfl⟩
  · exact ⟨_, _, rfl⟩

end Observe

section Batches

variable (digestOf : Finding → String) (r : ImportRecord) (asset : AssetContext)
  (coverage : Option Time)

/-- The findings of a report that are stored under `key`. -/
def occurrences (key : FindingKey) (fs : List Finding) : List Finding :=
  fs.filter fun f => r.scope = key.scope && f.identity = key.identity

theorem occurrences_cons_self (f : Finding) (fs : List Finding) :
    occurrences r ⟨r.scope, f.identity⟩ (f :: fs) =
      f :: occurrences r ⟨r.scope, f.identity⟩ fs := by
  simp [occurrences]

theorem occurrences_cons_of_ne {key : FindingKey}
    (other : (⟨r.scope, f.identity⟩ : FindingKey) ≠ key) (fs : List Finding) :
    occurrences r key (f :: fs) = occurrences r key fs := by
  rw [occurrences, List.filter_cons_of_neg, ← occurrences]
  intro same
  simp only [Bool.and_eq_true, decide_eq_true_eq] at same
  exact other (by rw [same.1, same.2])

theorem occurrences_append (key : FindingKey) (fs gs : List Finding) :
    occurrences r key (fs ++ gs) = occurrences r key fs ++ occurrences r key gs :=
  List.filter_append ..

/-- The row left by a list of observations of the same key. -/
def observeAll (stored : Option FindingRow) (fs : List Finding) : Option FindingRow :=
  fs.foldl (fun row f => some (observeRow digestOf r asset coverage row f)) stored

@[simp] theorem observeAll_nil (stored : Option FindingRow) :
    observeAll digestOf r asset coverage stored [] = stored := rfl

theorem observeAll_cons (stored : Option FindingRow) (f : Finding) (fs : List Finding) :
    observeAll digestOf r asset coverage stored (f :: fs) =
      observeAll digestOf r asset coverage
        (some (observeRow digestOf r asset coverage stored f)) fs := rfl

theorem observeAll_append (stored : Option FindingRow) (fs gs : List Finding) :
    observeAll digestOf r asset coverage stored (fs ++ gs) =
      observeAll digestOf r asset coverage (observeAll digestOf r asset coverage stored fs) gs :=
  List.foldl_append

/-- **Invariants of the fold.**  A property of the stored row that every further
observation keeps, and that a first observation establishes, holds of the row a
non-empty list of observations leaves. -/
theorem observeAll_induction {P : FindingRow → Prop} {stored : Option FindingRow}
    (fs : List Finding) (base : ∀ row, stored = some row → P row)
    (first : ∀ f ∈ fs, stored = none → P (observeRow digestOf r asset coverage none f))
    (next : ∀ f ∈ fs, ∀ row, P row → P (observeRow digestOf r asset coverage (some row) f)) :
    ∀ row, observeAll digestOf r asset coverage stored fs = some row → P row := by
  induction fs generalizing stored with
  | nil => exact base
  | cons f fs ih =>
    rw [observeAll_cons]
    apply ih
    · rintro row ⟨rfl⟩
      cases stored with
      | none => exact first f List.mem_cons_self rfl
      | some row => exact next f List.mem_cons_self row (base row rfl)
    · rintro g - ⟨⟩
    · exact fun g hg => next g (List.mem_cons_of_mem f hg)

theorem observeAll_isSome {stored : Option FindingRow} (hne : fs ≠ []) :
    ∃ row, observeAll digestOf r asset coverage stored fs = some row := by
  induction fs generalizing stored with
  | nil => exact absurd rfl hne
  | cons f fs ih =>
    rw [observeAll_cons]
    cases fs with
    | nil => exact ⟨_, rfl⟩
    | cons g gs => exact ih (List.cons_ne_nil g gs)

theorem upsertBatch_cons (table : FindingTable) (f : Finding) (fs : List Finding) :
    upsertBatch digestOf r asset coverage table (f :: fs) =
      ((upsertBatch digestOf r asset coverage
          (upsertFinding digestOf r asset coverage table f).1 fs).1,
        (upsertFinding digestOf r asset coverage table f).2 ::
          (upsertBatch digestOf r asset coverage
            (upsertFinding digestOf r asset coverage table f).1 fs).2) := rfl

theorem upsertBatch_append (table : FindingTable) (fs gs : List Finding) :
    upsertBatch digestOf r asset coverage table (fs ++ gs) =
      ((upsertBatch digestOf r asset coverage
          (upsertBatch digestOf r asset coverage table fs).1 gs).1,
        (upsertBatch digestOf r asset coverage table fs).2 ++
          (upsertBatch digestOf r asset coverage
            (upsertBatch digestOf r asset coverage table fs).1 gs).2) := by
  induction fs generalizing table with
  | nil => rfl
  | cons f fs ih => rw [List.cons_append, upsertBatch_cons, ih, upsertBatch_cons]; rfl

@[simp] theorem upsertBatch_length (table : FindingTable) (fs : List Finding) :
    (upsertBatch digestOf r asset coverage table fs).2.length = fs.length := by
  induction fs generalizing table with
  | nil => rfl
  | cons f fs ih => rw [upsertBatch_cons, List.length_cons, ih, List.length_cons]

/-- Upserts of other keys leave a row alone; upserts of its own key fold. -/
theorem upsertBatch_table (table : FindingTable) (fs : List Finding) (key : FindingKey) :
    (upsertBatch digestOf r asset coverage table fs).1 key =
      observeAll digestOf r asset coverage (table key) (occurrences r key fs) := by
  induction fs generalizing table with
  | nil => rfl
  | cons f fs ih =>
    rw [upsertBatch_cons, ih]
    by_cases same : (⟨r.scope, f.identity⟩ : FindingKey) = key
    · subst same
      rw [occurrences_cons_self, observeAll_cons]
      simp only [upsertFinding, Function.update_self]
    · rw [occurrences_cons_of_ne r same]
      simp only [upsertFinding]
      rw [Function.update_of_ne (Ne.symm same)]

/-- The row a batch returns for one of its findings is the fold of the occurrences
of its key up to and including that finding. -/
theorem upsertBatch_result {result : ReconciledFinding}
    (mem : (f, result) ∈ fs.zip (upsertBatch digestOf r asset coverage table fs).2) :
    ∃ earlier later row, fs = earlier ++ f :: later ∧
      observeAll digestOf r asset coverage (table ⟨r.scope, f.identity⟩)
        (occurrences r ⟨r.scope, f.identity⟩ (earlier ++ [f])) = some row ∧
      result = row.returning ⟨r.scope, f.identity⟩ := by
  induction fs generalizing table with
  | nil => cases mem
  | cons g gs ih =>
    rw [upsertBatch_cons, List.zip_cons_cons, List.mem_cons] at mem
    rcases mem with head | tail
    · cases head
      refine ⟨[], gs, observeRow digestOf r asset coverage (table ⟨r.scope, f.identity⟩) f,
        rfl, ?_, rfl⟩
      rw [List.nil_append, occurrences_cons_self]
      rfl
    · obtain ⟨earlier, later, row, split, fold, returned⟩ := ih tail
      refine ⟨g :: earlier, later, row, by rw [split]; rfl, ?_, returned⟩
      rw [← upsertBatch_table, List.cons_append, upsertBatch_cons, upsertBatch_table]
      exact fold

/-- The first finding of its key in a batch gets back the row of its own upsert. -/
theorem upsertBatch_first {earlier later : List Finding}
    (unseen : occurrences r ⟨r.scope, f.identity⟩ earlier = []) :
    (upsertBatch digestOf r asset coverage table (earlier ++ f :: later)).2 =
      (upsertBatch digestOf r asset coverage table earlier).2 ++
        (observeRow digestOf r asset coverage (table ⟨r.scope, f.identity⟩) f).returning
            ⟨r.scope, f.identity⟩ ::
          (upsertBatch digestOf r asset coverage
            (upsertFinding digestOf r asset coverage
              (upsertBatch digestOf r asset coverage table earlier).1 f).1 later).2 := by
  rw [upsertBatch_append, upsertBatch_cons]
  have same := upsertBatch_table digestOf r asset coverage table earlier
    ⟨r.scope, f.identity⟩
  rw [unseen, observeAll_nil] at same
  simp only [upsertFinding, same]

/-! ## The slices are invisible -/

theorem recordBatch_append (s : Store) (n : ℕ) (a b : List (Finding × ReconciledFinding)) :
    recordBatch digestOf r asset s n (a ++ b) =
      recordBatch digestOf r asset (recordBatch digestOf r asset s n a) (n + a.length) b := by
  induction a generalizing s n with
  | nil => rfl
  | cons p a ih =>
    rw [List.cons_append, recordBatch, ih, recordBatch, List.length_cons]
    congr 1
    omega

@[simp] theorem recordBatch_findings (s : Store) (n : ℕ)
    (l : List (Finding × ReconciledFinding)) :
    (recordBatch digestOf r asset s n l).findings = s.findings := by
  induction l generalizing s n with
  | nil => rfl
  | cons p l ih => rw [recordBatch, ih]; rfl

@[simp] theorem recordBatch_coverage (s : Store) (n : ℕ)
    (l : List (Finding × ReconciledFinding)) :
    (recordBatch digestOf r asset s n l).coverage = s.coverage := by
  induction l generalizing s n with
  | nil => rfl
  | cons p l ih => rw [recordBatch, ih]; rfl

/-- Recording observations does not look at `findings`. -/
theorem recordBatch_withFindings (s : Store) (table : FindingTable) (n : ℕ)
    (l : List (Finding × ReconciledFinding)) :
    { recordBatch digestOf r asset s n l with findings := table } =
      recordBatch digestOf r asset { s with findings := table } n l := by
  induction l generalizing s n with
  | nil => rfl
  | cons p l ih => rw [recordBatch, ih, recordBatch]; rfl

/-- The report written without slices: all upserts, then all observations. -/
def writeReport (s : Store) (start : ℕ) (fs : List Finding) : Store :=
  recordBatch digestOf r asset
    { s with findings := (upsertBatch digestOf r asset coverage s.findings fs).1 } start
    (fs.zip (upsertBatch digestOf r asset coverage s.findings fs).2)

theorem writeReport_append (s : Store) (start : ℕ) (fs gs : List Finding) :
    writeReport digestOf r asset coverage s start (fs ++ gs) =
      writeReport digestOf r asset coverage
        (writeReport digestOf r asset coverage s start fs) (start + fs.length) gs := by
  unfold writeReport
  rw [upsertBatch_append]
  simp only
  rw [List.zip_append (upsertBatch_length digestOf r asset coverage _ fs).symm,
    recordBatch_append, recordBatch_findings, recordBatch_withFindings]
  simp

/-- **Slicing is invisible**: the loop over slices of a hundred writes exactly what
one pair of batches over the whole report writes. -/
theorem reconcileSlices_eq (rounds : ℕ) (s : Store) (start : ℕ) (fs : List Finding)
    (enough : fs.length ≤ rounds) :
    reconcileSlices digestOf r asset coverage rounds s start fs =
      writeReport digestOf r asset coverage s start fs := by
  induction rounds generalizing s start fs with
  | zero =>
    obtain rfl : fs = [] := List.length_eq_zero_iff.mp (by omega)
    rfl
  | succ rounds ih =>
    cases fs with
    | nil => rfl
    | cons f rest =>
      rw [reconcileSlices, ih]
      · change writeReport digestOf r asset coverage
          (writeReport digestOf r asset coverage s start ((f :: rest).take 100))
          (start + 100) ((f :: rest).drop 100) = _
        conv_rhs => rw [← List.take_append_drop 100 (f :: rest), writeReport_append]
        -- a slice shorter than a hundred is the last one
        by_cases short : (f :: rest).length ≤ 100
        · rw [List.drop_eq_nil_of_le short]
          rfl
        · rw [List.length_take_of_le (by omega)]
      · rw [List.length_drop]
        simp only [List.length_cons] at enough ⊢
        omega

/-! ## What the second batch appends -/

theorem recordBatch_observations (s : Store) (n : ℕ) (l : List (Finding × ReconciledFinding)) :
    (recordBatch digestOf r asset s n l).observations =
      s.observations ++ (l.zipIdx n).map fun p => observationOf digestOf r p.2 p.1.1 p.1.2 := by
  induction l generalizing s n with
  | nil => simp [recordBatch]
  | cons p l ih =>
    rw [recordBatch, ih, List.zipIdx_cons, List.map_cons]
    simp only [recordObservation, List.append_assoc, List.singleton_append]

/-- An event that the batch adds is the event of one of its pairs. -/
theorem mem_changeEvents_recordBatch {s : Store} {n : ℕ}
    {l : List (Finding × ReconciledFinding)} {event : ChangeEvent}
    (mem : event ∈ (recordBatch digestOf r asset s n l).changeEvents) :
    event ∈ s.changeEvents ∨ ∃ p ∈ l, changeEventOf r asset p.1 p.2 = some event := by
  induction l generalizing s n with
  | nil => exact .inl mem
  | cons p l ih =>
    rcases ih mem with before | ⟨q, hq, raised⟩
    · cases raises : changeEventOf r asset p.1 p.2 with
      | none =>
        simp only [recordObservation, raises] at before
        exact .inl before
      | some first =>
        simp only [recordObservation, raises, insertChangeEvent] at before
        split at before
        · exact .inl before
        · rcases List.mem_append.mp before with old | new
          · exact .inl old
          · rw [List.mem_singleton.mp new]
            exact .inr ⟨p, List.mem_cons_self, raises⟩
    · exact .inr ⟨q, List.mem_cons_of_mem p hq, raised⟩

/-- Every row a batch returns carries the key of its finding. -/
theorem upsertBatch_result_finding {result : ReconciledFinding}
    (mem : (f, result) ∈ fs.zip (upsertBatch digestOf r asset coverage table fs).2) :
    result.finding = ⟨r.scope, f.identity⟩ := by
  obtain ⟨-, -, row, -, -, rfl⟩ := upsertBatch_result digestOf r asset coverage mem
  rfl

theorem mem_occurrences {key : FindingKey} :
    f ∈ occurrences r key fs ↔ f ∈ fs ∧ (⟨r.scope, f.identity⟩ : FindingKey) = key := by
  obtain ⟨scope, identity⟩ := key
  simp [occurrences]

/-- A run has observed a key after the report is written iff it had before, or the
report contains the key. -/
theorem observed_writeReport (s : Store) (start : ℕ) (fs : List Finding) (key : FindingKey) :
    (∃ o ∈ (writeReport digestOf r asset coverage s start fs).observations,
        o.finding = key ∧ o.runID = r.runID) ↔
      (∃ o ∈ s.observations, o.finding = key ∧ o.runID = r.runID) ∨
        occurrences r key fs ≠ [] := by
  set results := (upsertBatch digestOf r asset coverage s.findings fs).2 with hresults
  have appended : (∃ o ∈ ((fs.zip results).zipIdx start).map
        (fun p => observationOf digestOf r p.2 p.1.1 p.1.2), o.finding = key ∧ o.runID = r.runID) ↔
      occurrences r key fs ≠ [] := by
    constructor
    · rintro ⟨o, mem, found, -⟩
      obtain ⟨⟨⟨f, result⟩, i⟩, hp, rfl⟩ := List.mem_map.mp mem
      have pair : (f, result) ∈ fs.zip results := List.fst_mem_of_mem_zipIdx hp
      refine List.ne_nil_of_mem ((mem_occurrences r).mpr ⟨(List.of_mem_zip pair).1, ?_⟩)
      rw [← upsertBatch_result_finding digestOf r asset coverage pair]
      exact found
    · intro hne
      obtain ⟨f, hf⟩ := List.exists_mem_of_ne_nil _ hne
      obtain ⟨mem, same⟩ := (mem_occurrences r).mp hf
      obtain ⟨i, hi, rfl⟩ := List.getElem_of_mem mem
      have hi' : i < results.length := by rw [hresults, upsertBatch_length]; exact hi
      have pair : (fs.zip results)[i]? = some (fs[i], results[i]) := by
        rw [List.getElem?_eq_getElem (by rw [List.length_zip]; exact lt_min hi hi'),
          List.getElem_zip]
      refine ⟨_, List.mem_map.mpr ⟨_, List.mk_add_mem_zipIdx_iff_getElem?.mpr pair, rfl⟩, ?_, rfl⟩
      exact (upsertBatch_result_finding digestOf r asset coverage
        (List.mem_of_getElem? pair)).trans same
  rw [writeReport, recordBatch_observations, ← hresults, ← appended]
  simp only [List.mem_append, or_and_right, exists_or]

end Batches

/-! ## The whole transaction, row by row -/

section Transaction

variable (digestOf : Finding → String)

/-- The findings of the report that are stored under `key`. -/
def Import.occurrences (imp : Import) (key : FindingKey) : List Finding :=
  Reconcile.occurrences imp.record key imp.findings

/-- The run has no observation in the scope yet. -/
def Store.Unseen (s : Store) (scope : ScopeKey) (runID : RunID) : Prop :=
  ∀ o ∈ s.observations, o.finding.scope = scope → o.runID ≠ runID

variable (s : Store) (imp : Import)

theorem reconcile_eq :
    reconcile digestOf s imp =
      match newCoverage imp.record (s.coverage imp.record.scope) with
      | some scanned =>
        inferAbsent (writeReport digestOf imp.record imp.asset
          (s.coverage imp.record.scope) s 0 imp.findings) imp.record scanned
      | none =>
        writeReport digestOf imp.record imp.asset
          (s.coverage imp.record.scope) s 0 imp.findings :=
  congrArg (fun written => match newCoverage imp.record (s.coverage imp.record.scope) with
    | some scanned => inferAbsent written imp.record scanned
    | none => written) (reconcileSlices_eq _ _ _ _ _ _ _ _ le_rfl)

theorem writeReport_row (r : ImportRecord) (asset : AssetContext) (coverage : Option Time)
    (start : ℕ) (fs : List Finding) (key : FindingKey) :
    (writeReport digestOf r asset coverage s start fs).findings key =
      observeAll digestOf r asset coverage (s.findings key) (occurrences r key fs) := by
  rw [writeReport, recordBatch_findings]
  exact upsertBatch_table ..

/-- The absence update skips exactly the keys its own run observed. -/
theorem absentFrom_eq (r : ImportRecord) (scanned : Time) (key : FindingKey) (f : FindingRow) :
    absentFrom s r scanned key f = true ↔
      key.scope = r.scope ∧ f.outlived scanned = true ∧
        ¬ ∃ o ∈ s.observations, o.finding = key ∧ o.runID = r.runID := by
  simp only [absentFrom, FindingRow.outlived, Bool.and_eq_true, Bool.not_eq_true',
    List.any_eq_false, decide_eq_true_eq, not_exists, not_and]
  tauto

variable {s imp} {key : FindingKey}

/-- **A key the report contains** ends with the fold of its occurrences. -/
theorem reconcile_observed (reported : imp.occurrences key ≠ []) :
    (reconcile digestOf s imp).findings key =
      observeAll digestOf imp.record imp.asset (s.coverage imp.record.scope)
        (s.findings key) (imp.occurrences key) := by
  rw [reconcile_eq]
  cases newCoverage imp.record (s.coverage imp.record.scope) with
  | none => exact writeReport_row ..
  | some scanned =>
    simp only [inferAbsent, writeReport_row]
    have kept : ∀ row, ¬ absentFrom (writeReport digestOf imp.record imp.asset
        (s.coverage imp.record.scope) s 0 imp.findings) imp.record scanned key row = true := by
      intro row absent
      refine ((absentFrom_eq _ _ _ _ _).mp absent).2.2 ?_
      exact (observed_writeReport ..).mpr (.inr reported)
    simp only [kept, if_false, Bool.false_eq_true]
    exact Option.map_id'

/-- **A key the report does not contain** is touched by the absence update alone. -/
theorem reconcile_absent (inScope : key.scope = imp.record.scope)
    (silent : imp.occurrences key = []) (unseen : s.Unseen key.scope imp.record.runID) :
    (reconcile digestOf s imp).findings key =
      (s.findings key).map (·.unreported imp.record (s.coverage imp.record.scope)) := by
  have unwritten : (writeReport digestOf imp.record imp.asset (s.coverage imp.record.scope)
      s 0 imp.findings).findings key = s.findings key := by
    rw [writeReport_row, ← Import.occurrences, silent, observeAll_nil]
  rw [reconcile_eq]
  simp only [FindingRow.unreported]
  cases newCoverage imp.record (s.coverage imp.record.scope) with
  | none => simp only [unwritten, Option.map_id']
  | some scanned =>
    simp only [inferAbsent, unwritten]
    congr 1
    funext row
    refine if_congr ?_ rfl rfl
    rw [absentFrom_eq, observed_writeReport]
    constructor
    · exact fun absent => absent.2.1
    · intro outlived
      refine ⟨inScope, outlived, ?_⟩
      rintro (⟨o, mem, rfl, same⟩ | reported)
      · exact unseen o mem rfl same
      · exact reported silent

/-- Rows of other scopes are untouched. -/
theorem reconcile_other_scope (other : key.scope ≠ imp.record.scope) :
    (reconcile digestOf s imp).findings key = s.findings key := by
  have silent : Reconcile.occurrences imp.record key imp.findings = [] := by
    rw [List.eq_nil_iff_forall_not_mem]
    intro f mem
    exact other (by rw [← ((mem_occurrences _).mp mem).2])
  rw [reconcile_eq]
  cases newCoverage imp.record (s.coverage imp.record.scope) with
  | none => simp only [writeReport_row, silent, observeAll_nil]
  | some scanned =>
    simp only [inferAbsent, writeReport_row, silent, observeAll_nil]
    have kept : ∀ row, ¬ absentFrom (writeReport digestOf imp.record imp.asset
        (s.coverage imp.record.scope) s 0 imp.findings) imp.record scanned key row = true :=
      fun row absent => other ((absentFrom_eq _ _ _ _ _).mp absent).1
    simp only [kept, if_false, Bool.false_eq_true]
    exact Option.map_id'

/-- **Coverage** is replaced by the import's own scan time, when that counts. -/
theorem reconcile_coverage (scope : ScopeKey) :
    (reconcile digestOf s imp).coverage scope =
      if scope = imp.record.scope then
        (newCoverage imp.record (s.coverage imp.record.scope)).or (s.coverage scope)
      else s.coverage scope := by
  rw [reconcile_eq]
  cases newCoverage imp.record (s.coverage imp.record.scope) with
  | none => simp [writeReport]
  | some scanned =>
    simp only [inferAbsent, writeReport, recordBatch_coverage, Function.update_apply,
      Option.some_or]

variable (s imp) in
/-- The observations a transaction adds, one per finding of the report. -/
def reportObservations : List Observation :=
  ((imp.findings.zip (upsertBatch digestOf imp.record imp.asset
    (s.coverage imp.record.scope) s.findings imp.findings).2).zipIdx 0).map
      fun p => observationOf digestOf imp.record p.2 p.1.1 p.1.2

theorem reconcile_observations :
    (reconcile digestOf s imp).observations =
      s.observations ++ reportObservations digestOf s imp := by
  rw [reconcile_eq]
  cases newCoverage imp.record (s.coverage imp.record.scope) <;>
    simp only [inferAbsent, writeReport, recordBatch_observations, reportObservations]

theorem mem_reportObservations {o : Observation} (mem : o ∈ reportObservations digestOf s imp) :
    (∃ f ∈ imp.findings, o.finding = ⟨imp.record.scope, f.identity⟩) ∧
      o.runID = imp.record.runID := by
  obtain ⟨⟨⟨f, result⟩, i⟩, hp, rfl⟩ := List.mem_map.mp mem
  have pair := List.fst_mem_of_mem_zipIdx hp
  exact ⟨⟨f, (List.of_mem_zip pair).1, upsertBatch_result_finding digestOf _ _ _ pair⟩, rfl⟩

/-- **The first observation of a key** in a transaction is classified from the row
that its own upsert left. -/
theorem find_reportObservations (reported : imp.occurrences key ≠ []) :
    ∃ f ordinal, f ∈ imp.findings ∧
      (reportObservations digestOf s imp).find? (fun o => o.finding = key) =
        some (observationOf digestOf imp.record ordinal f
          ((observeRow digestOf imp.record imp.asset (s.coverage imp.record.scope)
            (s.findings key) f).returning key)) := by
  obtain ⟨f, rest, first⟩ := List.exists_cons_of_ne_nil reported
  obtain ⟨earlier, later, split, unseen, here, -⟩ := List.filter_eq_cons_iff.mp first
  obtain ⟨scope, identity⟩ := key
  obtain ⟨rfl, rfl⟩ : imp.record.scope = scope ∧ f.identity = identity := by simpa using here
  refine ⟨f, earlier.length, by simp [split], ?_⟩
  have none_before : Reconcile.occurrences imp.record ⟨imp.record.scope, f.identity⟩ earlier = [] :=
    List.filter_eq_nil_iff.mpr unseen
  rw [reportObservations, split, upsertBatch_first digestOf _ _ _ none_before,
    List.zip_append (by simp), List.zip_cons_cons, List.zipIdx_append, List.map_append,
    List.find?_append, List.find?_eq_none.mpr, Option.none_or, List.zipIdx_cons, List.map_cons,
    List.find?_cons_of_pos]
  · simp
  · simp [observationOf, FindingRow.returning]
  · intro o mem
    obtain ⟨⟨⟨g, result⟩, i⟩, hp, rfl⟩ := List.mem_map.mp mem
    have pair := List.fst_mem_of_mem_zipIdx hp
    have found : result.finding = _ := upsertBatch_result_finding digestOf _ _ _ pair
    have other := unseen g (List.of_mem_zip pair).1
    simpa [observationOf, found] using other

end Transaction

/-! ## Sequences of imports -/

section Sequences

variable (digestOf : Finding → String) {s : Store} {scope : ScopeKey}

theorem reconcileAll_concat (s : Store) (imports : List Import) (imp : Import) :
    reconcileAll digestOf s (imports ++ [imp]) =
      reconcile digestOf (reconcileAll digestOf s imports) imp := by
  simp only [reconcileAll, List.foldl_append, List.foldl_cons, List.foldl_nil]

/-- The import reports the key. -/
def Import.reports (imp : Import) (key : FindingKey) : Bool := !(imp.occurrences key).isEmpty

theorem Import.reports_iff {key : FindingKey} :
    imp.reports key = true ↔ imp.occurrences key ≠ [] := by
  simp [Import.reports]

theorem Import.reports_eq_false {key : FindingKey} :
    imp.reports key = false ↔ imp.occurrences key = [] := by
  simp [Import.reports]

/-- The latest source time at which one of the imports observed the key. -/
def latestObserved (key : FindingKey) (imports : List Import) : Option Time :=
  greatestOf ((imports.filter fun imp => imp.reports key).map (·.record.sourceScanAt))

/-- The latest source time of a comparable scan among the imports. -/
def latestComparable (imports : List Import) : Option Time :=
  greatestOf ((imports.filter (·.record.comparable)).map (·.record.sourceScanAt))

/-- In its own scope, an import reports the identities of its findings. -/
theorem Import.reports_iff_exists (inScope : imp.record.scope = scope) (identity : String) :
    imp.reports ⟨scope, identity⟩ = true ↔ ∃ f ∈ imp.findings, f.identity = identity := by
  subst inScope
  simp [Import.reports_iff, Import.occurrences, Reconcile.occurrences]

theorem latestObserved_eq_some_iff (inScope : ∀ imp ∈ imports, imp.record.scope = scope)
    (identity : String) {latest : Time} :
    latestObserved ⟨scope, identity⟩ imports = some latest ↔
      IsGreatest {t | ∃ imp ∈ imports, (∃ f ∈ imp.findings, f.identity = identity) ∧
        imp.record.sourceScanAt = some t} latest := by
  rw [latestObserved, greatestOf_eq_some_iff]
  suffices same : {t | some t ∈ (imports.filter fun imp => imp.reports ⟨scope, identity⟩).map
      (·.record.sourceScanAt)} = {t | ∃ imp ∈ imports,
        (∃ f ∈ imp.findings, f.identity = identity) ∧ imp.record.sourceScanAt = some t} by
    rw [same]
  ext t
  simp only [Set.mem_ofPred_eq, List.mem_map, List.mem_filter]
  constructor
  · rintro ⟨imp, ⟨mem, reported⟩, time⟩
    exact ⟨imp, mem, (Import.reports_iff_exists (inScope imp mem) identity).mp reported, time⟩
  · rintro ⟨imp, mem, reported, time⟩
    exact ⟨imp, ⟨mem, (Import.reports_iff_exists (inScope imp mem) identity).mpr reported⟩, time⟩

theorem latestComparable_eq_some_iff {latest : Time} :
    latestComparable imports = some latest ↔
      IsGreatest {t | ∃ imp ∈ imports, imp.record.comparable = true ∧
        imp.record.sourceScanAt = some t} latest := by
  simp only [latestComparable, greatestOf_eq_some_iff, List.mem_map, List.mem_filter, and_assoc]

theorem latestObserved_of_silent {key : FindingKey}
    (silent : ∀ imp ∈ imports, imp.reports key = false) : latestObserved key imports = none := by
  have unreported : imports.filter (fun imp => imp.reports key) = [] :=
    List.filter_eq_nil_iff.mpr fun imp mem => by simp [silent imp mem]
  rw [latestObserved, unreported]
  rfl

theorem silent_concat {key : FindingKey} (silent : ∀ i ∈ imports, i.reports key = false)
    (last : imp.reports key = false) : ∀ i ∈ imports ++ [imp], i.reports key = false := by
  intro i mem
  rcases List.mem_append.mp mem with old | new
  · exact silent i old
  · rw [List.mem_singleton.mp new]
    exact last

theorem latestObserved_concat (key : FindingKey) (imports : List Import) (imp : Import) :
    latestObserved key (imports ++ [imp]) =
      if imp.reports key then greatest (latestObserved key imports) imp.record.sourceScanAt
      else latestObserved key imports := by
  cases reported : imp.reports key <;>
    simp [latestObserved, List.filter_append, reported, greatestOf_concat]

theorem latestComparable_concat (imports : List Import) (imp : Import) :
    latestComparable (imports ++ [imp]) =
      greatest (latestComparable imports)
        (if imp.record.comparable then imp.record.sourceScanAt else none) := by
  cases comparable : imp.record.comparable <;>
    simp [latestComparable, List.filter_append, comparable, greatestOf_concat]

/-- An observation of the scope comes from an import of the sequence that reports its
finding. -/
theorem mem_reconcileAll_observations {o : Observation}
    (mem : o ∈ (reconcileAll digestOf s imports).observations) :
    o ∈ s.observations ∨
      ∃ imp ∈ imports, imp.reports o.finding = true ∧ o.runID = imp.record.runID := by
  induction imports using List.reverseRecOn with
  | nil => exact .inl mem
  | append_singleton imports imp ih =>
    rw [reconcileAll_concat, reconcile_observations] at mem
    rcases List.mem_append.mp mem with old | new
    · rcases ih old with initial | ⟨i, hi, source⟩
      · exact .inl initial
      · exact .inr ⟨i, List.mem_append_left _ hi, source⟩
    · obtain ⟨⟨f, hf, found⟩, run⟩ := mem_reportObservations digestOf new
      refine .inr ⟨imp, by simp, ?_, run⟩
      rw [found]
      exact (Import.reports_iff_exists rfl f.identity).mpr ⟨f, hf, rfl⟩

/-- Observations are only ever appended. -/
theorem reconcileAll_observations_prefix (s : Store) (imports : List Import) :
    ∃ later, (reconcileAll digestOf s imports).observations = s.observations ++ later := by
  induction imports using List.reverseRecOn with
  | nil => exact ⟨[], (List.append_nil _).symm⟩
  | append_singleton imports imp ih =>
    obtain ⟨later, ih⟩ := ih
    rw [reconcileAll_concat, reconcile_observations, ih, List.append_assoc]
    exact ⟨_, rfl⟩

/-- Imports with distinct runs, reconciled into a scope that was empty before. -/
structure ScopeRun (s : Store) (scope : ScopeKey) (imports : List Import) : Prop where
  empty : s.EmptyScope scope
  inScope : ∀ imp ∈ imports, imp.record.scope = scope
  runs : (imports.map (·.record.runID)).Nodup

theorem ScopeRun.sublist {fewer : List Import} (run : ScopeRun s scope imports)
    (sub : fewer.Sublist imports) : ScopeRun s scope fewer where
  empty := run.empty
  inScope imp mem := run.inScope imp (sub.mem mem)
  runs := (sub.map _).nodup run.runs

/-- **Coverage is the latest comparable scan**, in whatever order they came. -/
theorem ScopeRun.coverage (run : ScopeRun s scope imports) :
    (reconcileAll digestOf s imports).coverage scope = latestComparable imports := by
  induction imports using List.reverseRecOn with
  | nil => exact run.empty.coverage
  | append_singleton imports imp ih =>
    have here : imp.record.scope = scope := run.inScope imp (by simp)
    rw [reconcileAll_concat, reconcile_coverage, if_pos here.symm, here, newCoverage_or,
      ih (run.sublist (List.sublist_append_left ..)), latestComparable_concat]

/-- The run of the last import has no observation in the scope before it. -/
theorem ScopeRun.unseen (run : ScopeRun s scope (imports ++ [imp])) :
    (reconcileAll digestOf s imports).Unseen scope imp.record.runID := by
  intro o mem inScope same
  rcases mem_reconcileAll_observations digestOf mem with initial | ⟨i, hi, -, source⟩
  · exact run.empty.observations o initial inScope
  · have runs := run.runs
    rw [List.map_append, List.nodup_append] at runs
    exact runs.2.2 _ (List.mem_map_of_mem hi) _ (by simp) (source.symm.trans same)

/-- What one import does to one row of its scope, under the coverage it finds. -/
def stepRow (imp : Import) (coverage : Option Time) (key : FindingKey)
    (stored : Option FindingRow) : Option FindingRow :=
  if imp.reports key then
    observeAll digestOf imp.record imp.asset coverage stored (imp.occurrences key)
  else stored.map (·.unreported imp.record coverage)

/-- **One step of a run**, as it shows in one row. -/
theorem ScopeRun.row_concat (run : ScopeRun s scope (imports ++ [imp])) (identity : String) :
    (reconcileAll digestOf s (imports ++ [imp])).findings ⟨scope, identity⟩ =
      stepRow digestOf imp (latestComparable imports) ⟨scope, identity⟩
        ((reconcileAll digestOf s imports).findings ⟨scope, identity⟩) := by
  have here : imp.record.scope = scope := run.inScope imp (by simp)
  have coverage := (run.sublist (List.sublist_append_left ..)).coverage digestOf
  rw [← here] at coverage
  rw [reconcileAll_concat, stepRow]
  cases reported : imp.reports ⟨scope, identity⟩ with
  | true => rw [reconcile_observed digestOf (Import.reports_iff.mp reported), coverage, if_pos rfl]
  | false =>
    rw [reconcile_absent digestOf here.symm (Import.reports_eq_false.mp reported)
      (run.unseen digestOf), coverage, if_neg Bool.false_ne_true]

/-- **The rule for runs.**  A relation between the imports so far and the row of one
identity holds at the end if it holds at the start and every import keeps it. -/
theorem ScopeRun.row_induction (run : ScopeRun s scope imports) (identity : String)
    {P : List Import → Option FindingRow → Prop} (start : P [] none)
    (step : ∀ earlier imp stored, earlier ++ [imp] <+: imports → P earlier stored →
      P (earlier ++ [imp])
        (stepRow digestOf imp (latestComparable earlier) ⟨scope, identity⟩ stored)) :
    P imports ((reconcileAll digestOf s imports).findings ⟨scope, identity⟩) := by
  induction imports using List.reverseRecOn with
  | nil =>
    rw [reconcileAll, List.foldl_nil, run.empty.findings identity]
    exact start
  | append_singleton imports imp ih =>
    rw [run.row_concat]
    refine step imports imp _ List.prefix_rfl (ih (run.sublist (List.sublist_append_left ..)) ?_)
    exact fun earlier imp stored before =>
      step earlier imp stored (before.trans (List.prefix_append _ _))

/-- An identity that no import reports has no row. -/
theorem ScopeRun.findings_of_silent (run : ScopeRun s scope imports) (identity : String)
    (silent : ∀ imp ∈ imports, imp.reports ⟨scope, identity⟩ = false) :
    (reconcileAll digestOf s imports).findings ⟨scope, identity⟩ = none := by
  refine run.row_induction digestOf identity (P := fun _ stored => stored = none) rfl ?_
  rintro earlier imp _ before rfl
  rw [stepRow, silent imp (before.subset (by simp)), if_neg Bool.false_ne_true, Option.map_none]

end Sequences

/-! ## Imports of worked examples

One scope, one identity whose content is its title, and the scans that the
examples of the next modules combine. -/

namespace Sample

def scope : ScopeKey := ⟨"workspace", "asset", "source", "scope", "revision", "branch"⟩

def key : FindingKey := ⟨scope, "finding"⟩

def finding (title : String) : Finding where
  identity := "finding"
  sourceFindingID := "rule"
  title := title
  description := ""
  sourceSeverity := "high"
  severity := .high
  impact := ""
  remediation := ""
  evidenceText := ""
  sourceLabel := ""
  location := ⟨"", 0⟩
  unmapped := []

/-- An import at `time`, received at `time + 100`. -/
def scan (runID : RunID) (status : SourceStatus) (kind : ScanKind) (time : Time)
    (titles : List String) : Import where
  record :=
    { runID := runID
      scanID := runID
      scope := scope
      sourceScanAt := some time
      collectedAt := time + 100
      importedAt := time + 100
      sourceStatus := status
      scanKind := kind
      completeness := .complete
      reportDigest := runID }
  findings := titles.map finding
  asset := ⟨none, "asset", 1⟩

end Sample

end Aspm.Reconcile
