import Aspm.Reconcile.Rows

/-!
# The source state of a finding, in closed form

`source_state` is maintained by an upsert with a watermark and by the absence
update.  For successful imports it nevertheless depends on two maxima only: the
latest source time at which the identity was observed and the latest source time
of a comparable scan of the scope.

`Tracks row latest complete` relates a stored row to these two.  It has three
shapes: nothing about the finding has a time; the row shows the latest
observation, which no comparable scan passes; or a later comparable scan has
passed it, and the watermark stands at that scan.  The upsert, its repetition
inside one report and the absence update each keep the relation, and
`ScopeRun.tracks` runs them over whole sequences.
-/

namespace Aspm.Reconcile

open Nullable

/-! ## What a successful import proposes -/

/-- The three ways a successful import can stand to the coverage of its scope:
without a time, behind the last comparable scan, or at least as recent. -/
inductive Proposal (r : ImportRecord) (coverage : Option Time) : Prop
  | untimed (time : r.sourceScanAt = none) (state : r.proposedState coverage = .observed)
      (fresh : r.proposedFreshness coverage = none)
      (raised : (newCoverage r coverage).or coverage = coverage)
  | behind (scanned complete : Time) (time : r.sourceScanAt = some scanned)
      (covered : coverage = some complete) (lt : scanned < complete)
      (state : r.proposedState coverage = .inferredResolved)
      (fresh : r.proposedFreshness coverage = some complete)
      (raised : (newCoverage r coverage).or coverage = some complete)
  | recent (scanned : Time) (time : r.sourceScanAt = some scanned)
      (le : ∀ complete ∈ coverage, complete ≤ scanned)
      (state : r.proposedState coverage = .observed)
      (fresh : ∀ fresh ∈ r.proposedFreshness coverage, fresh = scanned)
      (raised : ∀ complete ∈ (newCoverage r coverage).or coverage, complete ≤ scanned)

theorem proposal_of_succeeded {r : ImportRecord} (succeeded : r.succeeded = true)
    (coverage : Option Time) : Proposal r coverage := by
  by_cases covered : r.covered coverage = true
  · obtain ⟨-, scanned, complete, time, rfl, lt⟩ := ImportRecord.covered_eq_true_iff.mp covered
    refine .behind scanned complete time rfl lt ?_ ?_ ?_
    · rw [ImportRecord.proposedState, if_pos covered]
    · rw [ImportRecord.proposedFreshness, if_pos covered]
    · rw [newCoverage_or, time]
      cases r.comparable
      · rfl
      · simp [max_eq_left lt.le]
  · have state : r.proposedState coverage = .observed := by
      rw [ImportRecord.proposedState, if_neg covered, if_pos succeeded]
    have fresh : r.proposedFreshness coverage = if r.comparable then r.sourceScanAt else none := by
      rw [ImportRecord.proposedFreshness, if_neg covered]
    have raised := newCoverage_or r coverage
    cases time : r.sourceScanAt with
    | none =>
      simp only [time, ite_self] at fresh raised
      exact .untimed time state fresh (by rw [raised, greatest_none_right])
    | some scanned =>
      have le : ∀ complete ∈ coverage, complete ≤ scanned := by
        rintro complete rfl
        by_contra lt
        exact covered (ImportRecord.covered_eq_true_iff.mpr
          ⟨succeeded, scanned, complete, time, rfl, not_le.mp lt⟩)
      refine .recent scanned time le state ?_ ?_
      · rw [fresh, time]
        cases r.comparable <;> simp
      · rw [raised, time]
        cases r.comparable <;> cases coverage <;> simp_all

/-! ## The relation -/

/-- The row of an identity, after successful imports that observed it last at
`latest` and covered its scope last at `complete`. -/
inductive Tracks (row : FindingRow) : Option Time → Option Time → Prop
  | untimed {complete : Option Time} (state : row.sourceState = .observed)
      (scan : row.sourceScanAt = none) (fresh : row.sourceFreshnessAt = none) :
      Tracks row none complete
  | current {latest : Time} {complete : Option Time} (state : row.sourceState = .observed)
      (scan : row.sourceScanAt = some latest) (le : ∀ c ∈ complete, c ≤ latest)
      (fresh : ∀ w ∈ row.sourceFreshnessAt, w ≤ latest) : Tracks row (some latest) complete
  | passed {stored latest complete : Time} (state : row.sourceState = .inferredResolved)
      (scan : row.sourceScanAt = some stored) (le : stored ≤ latest) (lt : latest < complete)
      (fresh : row.sourceFreshnessAt = some complete) :
      Tracks row (some latest) (some complete)

/-- **The closed form** of `source_state`. -/
theorem Tracks.sourceState {row : FindingRow} {latest complete : Option Time}
    (tracks : Tracks row latest complete) :
    (∃ l c, latest = some l ∧ complete = some c ∧ l < c) ∧
        row.sourceState = .inferredResolved ∨
      (¬ ∃ l c, latest = some l ∧ complete = some c ∧ l < c) ∧
        row.sourceState = .observed := by
  cases tracks with
  | untimed state => exact .inr ⟨by rintro ⟨l, c, ⟨⟩, -⟩, state⟩
  | current state scan le =>
    refine .inr ⟨?_, state⟩
    rintro ⟨l, c, ⟨⟩, rfl, lt⟩
    exact absurd (le c rfl) (not_le.mpr lt)
  | passed state _ _ lt => exact .inl ⟨⟨_, _, rfl, rfl, lt⟩, state⟩

section Steps

variable {digestOf : Finding → String} {r : ImportRecord} {asset : AssetContext}
  {latest complete : Option Time} {row : FindingRow} {f : Finding}

theorem tracks_insert (succeeded : r.succeeded = true) :
    Tracks (observeRow digestOf r asset complete none f) r.sourceScanAt
      ((newCoverage r complete).or complete) := by
  rcases proposal_of_succeeded succeeded complete with
    ⟨time, state, fresh, -⟩ | ⟨scanned, c, time, -, lt, state, fresh, raised⟩ |
      ⟨scanned, time, -, state, fresh, raised⟩
  · rw [time]
    exact .untimed state time fresh
  · rw [time, raised]
    exact .passed state time le_rfl lt fresh
  · rw [time]
    exact .current state time raised fun w hw => (fresh w hw).le

/-- An observation that is later than the row and not behind the coverage takes
the row over. -/
theorem tracks_replaced {scanned : Time} (succeeded : r.succeeded = true)
    (time : r.sourceScanAt = some scanned) (older : ∀ s ∈ row.sourceScanAt, s < scanned)
    (reached : ∀ w ∈ row.sourceFreshnessAt, w ≤ scanned)
    (uncovered : ∀ c ∈ complete, c ≤ scanned) :
    Tracks (observeRow digestOf r asset complete (some row) f) (some scanned)
      ((newCoverage r complete).or complete) := by
  have superseded : row.Superseded r.sourceScanAt := by
    rw [time]
    exact ⟨older, reached⟩
  rw [observeRow_of_superseded _ _ _ _ _ _ succeeded superseded]
  rcases proposal_of_succeeded succeeded complete with
    ⟨untimed, -⟩ | ⟨t, c, time', rfl, lt, -⟩ | ⟨t, time', -, state, fresh, raised⟩
  · rw [time] at untimed
    cases untimed
  · obtain rfl : scanned = t := Option.some.inj (time.symm.trans time')
    exact absurd (uncovered c rfl) (not_le.mpr lt)
  · obtain rfl : scanned = t := Option.some.inj (time.symm.trans time')
    exact .current state time raised
      (greatest_le reached fun w hw => (fresh w hw).le)

/-- **One observation** of a stored identity.  The row may already have been touched
by the same report, and then tracks the coverage the report is about to leave. -/
theorem Tracks.observe {tracked : Option Time} (tracks : Tracks row latest tracked)
    (before : tracked = complete ∨ tracked = (newCoverage r complete).or complete)
    (succeeded : r.succeeded = true) :
    Tracks (observeRow digestOf r asset complete (some row) f)
      (greatest latest r.sourceScanAt) ((newCoverage r complete).or complete) := by
  rcases proposal_of_succeeded succeeded complete with
    ⟨time, state, fresh, raised⟩ | ⟨scanned, c, time, rfl, lt, state, fresh, raised⟩ |
      ⟨scanned, time, recent, state, fresh, raised⟩
  · -- an import without a time only touches a row without one
    obtain rfl : tracked = complete := by rwa [raised, or_self] at before
    rw [time, greatest_none_right, raised]
    cases tracks with
    | untimed _ scan stored =>
      have superseded : row.Superseded r.sourceScanAt := by
        rw [time]
        exact ⟨scan, stored⟩
      rw [observeRow_of_superseded _ _ _ _ _ _ succeeded superseded]
      refine .untimed state time ?_
      rw [stored, fresh, greatest_none_left]
    | current stands scan le stored =>
      obtain ⟨uri, line, kept⟩ := observeRow_of_not_superseded digestOf r asset _ row f
        (by simp [time, FindingRow.Superseded, scan])
      rw [kept]
      refine .current stands scan le ?_
      rw [fresh, greatest_none_right]
      exact stored
    | passed stands scan le lt stored =>
      obtain ⟨uri, line, kept⟩ := observeRow_of_not_superseded digestOf r asset _ row f
        (by simp [time, FindingRow.Superseded, scan])
      rw [kept]
      refine .passed stands scan le lt ?_
      rw [fresh, greatest_none_right]
      exact stored
  · -- an import behind the coverage never replaces a row that has a time
    obtain rfl : tracked = some c := by rwa [raised, or_self] at before
    rw [time, raised]
    cases tracks with
    | untimed _ scan stored =>
      have superseded : row.Superseded r.sourceScanAt := by
        simp [time, FindingRow.Superseded, scan, stored]
      rw [observeRow_of_superseded _ _ _ _ _ _ succeeded superseded]
      refine .passed state time le_rfl lt ?_
      rw [stored, fresh, greatest_none_left]
    | current stands scan le stored =>
      have older : scanned < _ := lt.trans_le (le c rfl)
      obtain ⟨uri, line, kept⟩ := observeRow_of_not_superseded digestOf r asset _ row f
        (by simp [time, FindingRow.Superseded, scan, older.le])
      rw [kept, greatest_some, max_eq_left older.le]
      refine .current stands scan le (greatest_le stored ?_)
      rw [fresh]
      exact le
    | passed stands scan le lt' stored =>
      obtain ⟨uri, line, kept⟩ := observeRow_of_not_superseded digestOf r asset _ row f
        (by simp [time, FindingRow.Superseded, stored, lt])
      rw [kept, greatest_some]
      refine .passed stands scan (le_max_of_le_left le) (max_lt lt' lt) ?_
      rw [stored, fresh, greatest_some, max_self]
  · -- an import at least as recent as the coverage wins unless a later one has
    have tracked_le : ∀ c ∈ tracked, c ≤ scanned := by
      rcases before with rfl | rfl
      · exact recent
      · exact raised
    rw [time]
    cases tracks with
    | untimed _ scan stored =>
      exact tracks_replaced succeeded time (by simp [scan]) (by simp [stored]) recent
    | @current l _ stands scan le stored =>
      rcases lt_or_ge l scanned with later | earlier
      · rw [greatest_some, max_eq_right later.le]
        refine tracks_replaced succeeded time (by simpa [scan] using later) ?_ recent
        exact fun w hw => (stored w hw).trans later.le
      · obtain ⟨uri, line, kept⟩ := observeRow_of_not_superseded digestOf r asset _ row f
          (by simp [time, FindingRow.Superseded, scan, earlier])
        rw [kept, greatest_some, max_eq_left earlier]
        refine .current stands scan (fun c hc => (raised c hc).trans earlier) ?_
        exact greatest_le stored fun w hw => (fresh w hw).le.trans earlier
    | @passed s l c _ scan le lt stored =>
      have reached : c ≤ scanned := tracked_le c rfl
      rw [greatest_some, max_eq_right (lt.le.trans reached)]
      refine tracks_replaced succeeded time ?_ ?_ recent
      · simpa [scan] using le.trans_lt (lt.trans_le reached)
      · simpa [stored] using reached

/-- **A report that contains the identity**, once or several times. -/
theorem tracks_observeAll {stored : Option FindingRow} {fs : List Finding} (hne : fs ≠ [])
    (succeeded : r.succeeded = true) (absent : stored = none → latest = none)
    (before : ∀ row, stored = some row → Tracks row latest complete) :
    ∃ row, observeAll digestOf r asset complete stored fs = some row ∧
      Tracks row (greatest latest r.sourceScanAt) ((newCoverage r complete).or complete) := by
  cases fs with
  | nil => exact absurd rfl hne
  | cons f fs =>
    obtain ⟨row, hrow⟩ : ∃ row,
        observeAll digestOf r asset complete stored (f :: fs) = some row :=
      observeAll_isSome digestOf r asset complete hne
    refine ⟨row, hrow, ?_⟩
    rw [observeAll_cons] at hrow
    refine observeAll_induction digestOf r asset complete
      (P := fun row => Tracks row (greatest latest r.sourceScanAt)
        ((newCoverage r complete).or complete)) fs ?_ ?_ ?_ row hrow
    · rintro _ ⟨rfl⟩
      cases stored with
      | none =>
        rw [absent rfl, greatest_none_left]
        exact tracks_insert succeeded
      | some row => exact (before row rfl).observe (.inl rfl) succeeded
    · rintro _ _ ⟨⟩
    · intro g _ row tracks
      rw [← greatest_greatest_self latest r.sourceScanAt]
      exact tracks.observe (.inr rfl) succeeded

/-- **A comparable scan that does not report the identity.** -/
theorem Tracks.absent (tracks : Tracks row latest complete) :
    Tracks (row.unreported r complete) latest ((newCoverage r complete).or complete) := by
  unfold FindingRow.unreported
  cases raises : newCoverage r complete with
  | none => rwa [Option.none_or]
  | some scanned =>
    have later : ∀ c ∈ complete, c < scanned := by
      rintro c rfl
      simp only [newCoverage] at raises
      split at raises
      · simpa using (Option.filter_eq_some_iff.mp raises).2
      · cases raises
    simp only [Option.some_or]
    cases tracks with
    | untimed state scan fresh =>
      rw [if_neg (by simp [outlived_iff, scan])]
      exact .untimed state scan fresh
    | @current l _ state scan le fresh =>
      by_cases passes : l < scanned
      · have outlived : row.outlived scanned = true := by
          refine (outlived_iff ..).mpr ⟨⟨l, scan, passes⟩, by simp [state], ?_⟩
          exact fun w hw => (fresh w hw).trans_lt passes
        rw [if_pos outlived]
        exact .passed rfl scan le_rfl passes rfl
      · rw [if_neg (by simp [outlived_iff, scan, passes])]
        exact .current state scan (by simpa using passes) fresh
    | @passed stored l c state scan le lt fresh =>
      have passes : c < scanned := later c rfl
      have outlived : row.outlived scanned = true := by
        refine (outlived_iff ..).mpr
          ⟨⟨stored, scan, le.trans_lt (lt.trans passes)⟩, by simp [state], ?_⟩
        simpa [fresh] using passes
      rw [if_pos outlived]
      exact .passed rfl scan le (lt.trans passes) rfl

end Steps

/-! ## Whole sequences -/

section Runs

variable (digestOf : Finding → String) {s : Store} {scope : ScopeKey}

/-- The row of `key` after the imports: absent while none reports it, and from then
on tracking the latest observation and the latest comparable scan. -/
def RowTracks (key : FindingKey) (imports : List Import) : Option FindingRow → Prop
  | none => ∀ imp ∈ imports, imp.reports key = false
  | some row => Tracks row (latestObserved key imports) (latestComparable imports)

/-- **One successful import.** -/
theorem RowTracks.step {key : FindingKey} {imports : List Import} {imp : Import}
    {stored : Option FindingRow} (tracks : RowTracks key imports stored)
    (succeeded : imp.record.succeeded = true) :
    RowTracks key (imports ++ [imp])
      (stepRow digestOf imp (latestComparable imports) key stored) := by
  have raised : latestComparable (imports ++ [imp]) =
      (newCoverage imp.record (latestComparable imports)).or (latestComparable imports) := by
    rw [latestComparable_concat, newCoverage_or]
  rw [stepRow]
  cases reported : imp.reports key with
  | true =>
    rw [if_pos rfl]
    obtain ⟨row, hrow, after⟩ : ∃ row, observeAll digestOf imp.record imp.asset
        (latestComparable imports) stored (imp.occurrences key) = some row ∧
        Tracks row (greatest (latestObserved key imports) imp.record.sourceScanAt) _ := by
      refine tracks_observeAll (Import.reports_iff.mp reported) succeeded ?_ ?_
      · rintro rfl
        exact latestObserved_of_silent tracks
      · rintro row rfl
        exact tracks
    rw [hrow, RowTracks, latestObserved_concat, if_pos reported, raised]
    exact after
  | false =>
    rw [if_neg Bool.false_ne_true]
    cases stored with
    | none => exact silent_concat tracks reported
    | some row =>
      rw [Option.map_some, RowTracks, latestObserved_concat, reported,
        if_neg Bool.false_ne_true, raised]
      exact tracks.absent

/-- After any sequence of successful imports, every stored row tracks the latest
observation and the latest comparable scan. -/
theorem ScopeRun.tracks {imports : List Import} (run : ScopeRun s scope imports)
    (succeeded : ∀ imp ∈ imports, imp.record.succeeded = true) (identity : String) :
    RowTracks ⟨scope, identity⟩ imports
      ((reconcileAll digestOf s imports).findings ⟨scope, identity⟩) :=
  run.row_induction digestOf identity (by simp [RowTracks]) fun _ imp _ before tracks =>
    tracks.step digestOf (succeeded imp (before.subset (by simp)))

/-- **Source state is order-independent.**  Whatever the order of the imports and
whatever mix of scans they are, an observed identity is inferred resolved exactly
when its latest timed observation `L` is strictly older than the latest comparable
scan `C`, and observed otherwise. -/
theorem reconcileAll_sourceState {imports : List Import} (run : ScopeRun s scope imports)
    (succeeded : ∀ imp ∈ imports, imp.record.succeeded = true) (identity : String)
    (observed : ∃ imp ∈ imports, ∃ f ∈ imp.findings, f.identity = identity) :
    ∃ row, (reconcileAll digestOf s imports).findings ⟨scope, identity⟩ = some row ∧
      (row.sourceState = .inferredResolved ↔
        ∃ L C, IsGreatest {t | ∃ imp ∈ imports, (∃ f ∈ imp.findings, f.identity = identity) ∧
              imp.record.sourceScanAt = some t} L ∧
            IsGreatest {t | ∃ imp ∈ imports, imp.record.comparable = true ∧
              imp.record.sourceScanAt = some t} C ∧
            L < C) ∧
      (row.sourceState ≠ .inferredResolved → row.sourceState = .observed) := by
  have tracks := run.tracks digestOf succeeded identity
  cases stored : (reconcileAll digestOf s imports).findings ⟨scope, identity⟩ with
  | none =>
    rw [stored] at tracks
    obtain ⟨imp, mem, reported⟩ := observed
    have reports := (Import.reports_iff_exists (run.inScope imp mem) identity).mpr reported
    rw [tracks imp mem] at reports
    cases reports
  | some row =>
    rw [stored] at tracks
    refine ⟨row, rfl, ?_⟩
    simp only [← latestObserved_eq_some_iff run.inScope identity,
      ← latestComparable_eq_some_iff]
    rcases Tracks.sourceState tracks with ⟨older, state⟩ | ⟨current, state⟩
    · exact ⟨iff_of_true state older, fun h => absurd state h⟩
    · exact ⟨iff_of_false (by simp [state]) current, fun _ => state⟩

/-- A delta scan at time 3 that arrives after the complete scan at time 5. -/
theorem reconcileAll_sourceState_late :
    ∃ row, (reconcileAll Finding.title .empty [Sample.scan "five" .succeeded .full 5 [],
        Sample.scan "three" .succeeded .delta 3 ["A"]]).findings Sample.key = some row ∧
      row.sourceState = .inferredResolved := by
  have run : ScopeRun .empty Sample.scope [Sample.scan "five" .succeeded .full 5 [],
      Sample.scan "three" .succeeded .delta 3 ["A"]] :=
    ⟨Store.empty_emptyScope _, by decide, by decide⟩
  obtain ⟨row, stored, resolved, -⟩ :=
    reconcileAll_sourceState Finding.title run (by decide) "finding" (by decide)
  refine ⟨row, stored, resolved.mpr ⟨3, 5, ?_, ?_, by decide⟩⟩
  · simp [Sample.scan, Sample.finding, IsGreatest, upperBounds]
  · simp [Sample.scan, IsGreatest, upperBounds, ImportRecord.comparable]

end Runs

end Aspm.Reconcile
