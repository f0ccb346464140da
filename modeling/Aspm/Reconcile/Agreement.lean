import Aspm.Reconcile.Rows

/-!
# Change classification against source state

`change_kind` and `source_state` are written by the upsert and by the absence
update, and the absence update writes both.  The upsert does not: an observation
behind the coverage of its scope proposes the state `inferred-resolved`, while its
kind says how it differs from the row before.  The two columns part exactly when
such a late observation *takes* a row: inserts it, or replaces its projection.

`reconcileAll_matches_iff` says so for whole runs.  Kind and state agree in every
state of a run, and every change event belongs to an observed finding, if and only
if no late import of the run takes a row.
-/

namespace Aspm.Reconcile

open Nullable

variable {r : ImportRecord}

/-- The two columns say the same about inferred resolution. -/
def FindingRow.Matches (row : FindingRow) : Prop :=
  row.changeKind = .inferredResolved ↔ row.sourceState = .inferredResolved

/-- Change kind and source state agree in every row. -/
def Store.Matches (s : Store) : Prop :=
  ∀ key row, s.findings key = some row → row.Matches

/-- Every change event that the transaction from `before` to `after` inserted belongs
to a finding that is observed when it commits. -/
def EventsObserved (before after : Store) : Prop :=
  ∀ event ∈ after.changeEvents, event ∉ before.changeEvents →
    ∃ row, after.findings event.finding = some row ∧ row.sourceState = .observed

/-- An observation of the import takes the row: it inserts it, or replaces its
projection. -/
def ImportRecord.Takes (r : ImportRecord) : Option FindingRow → Prop
  | none => True
  | some row => r.succeeded = true ∧ row.Superseded r.sourceScanAt

theorem ImportRecord.takes_none (r : ImportRecord) : r.Takes none := trivial

/-- If the import is behind the coverage of its scope, it takes none of the rows that
it reports. -/
def LateHarmless (s : Store) (imp : Import) : Prop :=
  imp.record.covered (s.coverage imp.record.scope) = true →
    ∀ f ∈ imp.findings, ¬ imp.record.Takes (s.findings ⟨imp.record.scope, f.identity⟩)

/-! ## One observation -/

section Steps

variable (digestOf : Finding → String) (asset : AssetContext) (coverage : Option Time)
  {stored : Option FindingRow} {row : FindingRow} (f : Finding)

/-- A row that is taken gets the proposed state and a kind that is not resolution. -/
theorem observeRow_of_takes (takes : r.Takes stored) :
    (observeRow digestOf r asset coverage stored f).sourceState = r.proposedState coverage ∧
      (observeRow digestOf r asset coverage stored f).changeKind ≠ .inferredResolved ∧
      (observeRow digestOf r asset coverage stored f).sourceScanAt = r.sourceScanAt ∧
      (r.succeeded = true →
        (observeRow digestOf r asset coverage stored f).changeRunID = some r.runID) := by
  cases stored with
  | none =>
    refine ⟨rfl, ?_, rfl, fun succeeded => by simp [observeRow, proposedRow, succeeded]⟩
    simp only [observeRow, proposedRow]
    split_ifs <;> simp
  | some row =>
    rw [observeRow_of_superseded _ _ _ _ _ _ takes.1 takes.2]
    refine ⟨rfl, ?_, rfl, fun succeeded => by
      simp [FindingRow.project, proposedRow, succeeded]⟩
    simp only [FindingRow.project, FindingRow.changeAgainst]
    split_ifs <;> simp

/-- A row that is not taken keeps its columns, and the same import still does not
take it. -/
theorem observeRow_of_not_takes (kept : ¬ r.Takes (some row)) :
    (observeRow digestOf r asset coverage (some row) f).sourceState = row.sourceState ∧
      (observeRow digestOf r asset coverage (some row) f).changeKind = row.changeKind ∧
      (observeRow digestOf r asset coverage (some row) f).changeRunID = row.changeRunID ∧
      ¬ r.Takes (some (observeRow digestOf r asset coverage (some row) f)) := by
  obtain ⟨uri, line, same⟩ := observeRow_of_not_superseded digestOf r asset coverage row f kept
  rw [same]
  refine ⟨rfl, rfl, rfl, fun takes => kept ⟨takes.1, ?_⟩⟩
  have superseded := takes.2
  cases time : r.sourceScanAt with
  | none =>
    rw [time] at superseded
    exact ⟨superseded.1, (greatest_eq_none_iff.mp superseded.2).1⟩
  | some scanned =>
    rw [time] at superseded
    exact ⟨superseded.1, le_of_greatest_le superseded.2⟩

/-! ## One report -/

variable {asset} {digestOf} {coverage} {fs : List Finding}

/-- A report that takes no row keeps the columns of a row. -/
theorem observeAll_of_not_takes (kept : ¬ r.Takes stored) (before : stored = some row) :
    ∀ row', observeAll digestOf r asset coverage stored fs = some row' →
      row'.sourceState = row.sourceState ∧ row'.changeKind = row.changeKind ∧
        row'.changeRunID = row.changeRunID := by
  subst before
  intro row' hrow'
  refine (observeAll_induction digestOf r asset coverage (P := fun row' =>
    (row'.sourceState = row.sourceState ∧ row'.changeKind = row.changeKind ∧
      row'.changeRunID = row.changeRunID) ∧ ¬ r.Takes (some row')) fs ?_ ?_ ?_ row' hrow').1
  · rintro _ ⟨rfl⟩
    exact ⟨⟨rfl, rfl, rfl⟩, kept⟩
  · rintro _ _ ⟨⟩
  · rintro g - row' ⟨⟨state, kind, run⟩, kept⟩
    obtain ⟨state', kind', run', kept'⟩ :=
      observeRow_of_not_takes digestOf asset coverage g kept
    exact ⟨⟨state'.trans state, kind'.trans kind, run'.trans run⟩, kept'⟩

/-- Unless the import is late, its observations keep kind and state in agreement. -/
theorem matches_observeAll (recent : r.covered coverage = false)
    (before : ∀ row, stored = some row → row.Matches) :
    ∀ row, observeAll digestOf r asset coverage stored fs = some row → row.Matches := by
  have unresolved : r.proposedState coverage ≠ .inferredResolved := by
    rw [ImportRecord.proposedState, recent, if_neg Bool.false_ne_true]
    split_ifs <;> simp
  refine observeAll_induction digestOf r asset coverage fs before ?_ ?_
  · intro g _ _
    obtain ⟨state, kind, -⟩ := observeRow_of_takes digestOf asset coverage g r.takes_none
    exact iff_of_false kind (state ▸ unresolved)
  · intro g _ row same
    by_cases takes : r.Takes (some row)
    · obtain ⟨state, kind, -⟩ := observeRow_of_takes digestOf asset coverage g takes
      exact iff_of_false kind (state ▸ unresolved)
    · obtain ⟨state, kind, -, -⟩ := observeRow_of_not_takes digestOf asset coverage g takes
      rw [FindingRow.Matches, state, kind]
      exact same

/-- Unless the import is late, a row that it made current is observed, and stays so
until the end of the report. -/
theorem observed_observeAll (succeeded : r.succeeded = true) (recent : r.covered coverage = false)
    (before : ∀ row, stored = some row → row.changeRunID = some r.runID →
      row.sourceState = .observed) :
    ∀ row, observeAll digestOf r asset coverage stored fs = some row →
      row.changeRunID = some r.runID → row.sourceState = .observed := by
  have observed : r.proposedState coverage = .observed := by
    rw [ImportRecord.proposedState, recent, if_neg Bool.false_ne_true, if_pos succeeded]
  refine observeAll_induction digestOf r asset coverage fs before ?_ ?_
  · intro g _ _ _
    exact (observeRow_of_takes digestOf asset coverage g r.takes_none).1.trans observed
  · intro g _ row same own
    by_cases takes : r.Takes (some row)
    · exact (observeRow_of_takes digestOf asset coverage g takes).1.trans observed
    · obtain ⟨state, -, run, -⟩ := observeRow_of_not_takes digestOf asset coverage g takes
      rw [state]
      exact same (run ▸ own)

/-- A row that the run made current stays its own until the end of the report. -/
theorem own_observeAll (succeeded : r.succeeded = true)
    (own : row.changeRunID = some r.runID) (fs : List Finding) :
    ∃ row', observeAll digestOf r asset coverage (some row) fs = some row' ∧
      row'.changeRunID = some r.runID := by
  induction fs generalizing row with
  | nil => exact ⟨row, rfl, own⟩
  | cons g gs ih =>
    rw [observeAll_cons]
    apply ih
    by_cases takes : r.Takes (some row)
    · exact (observeRow_of_takes digestOf asset coverage g takes).2.2.2 succeeded
    · obtain ⟨-, -, run, -⟩ := observeRow_of_not_takes digestOf asset coverage g takes
      exact run.trans own

/-- A late import that takes a row leaves it resolved, under a kind that is not. -/
theorem not_matches_observeAll (late : r.covered coverage = true) (hne : fs ≠ [])
    (takes : r.Takes stored) :
    ∃ row, observeAll digestOf r asset coverage stored fs = some row ∧ ¬ row.Matches := by
  obtain ⟨row, hrow⟩ : ∃ row, observeAll digestOf r asset coverage stored fs = some row :=
    observeAll_isSome digestOf r asset coverage hne
  refine ⟨row, hrow, ?_⟩
  obtain ⟨-, scanned, -, time, -⟩ := ImportRecord.covered_eq_true_iff.mp late
  cases fs with
  | nil => exact absurd rfl hne
  | cons g gs =>
    obtain ⟨state, kind, scan, -⟩ := observeRow_of_takes digestOf asset coverage g takes
    rw [ImportRecord.proposedState, if_pos late] at state
    rw [observeAll_cons] at hrow
    -- the first observation sets the scan time, so no later one of the report takes the row
    have kept : ¬ r.Takes (some (observeRow digestOf r asset coverage stored g)) := by
      rintro ⟨-, superseded⟩
      rw [time] at superseded scan
      exact absurd (superseded.1 scanned scan) (lt_irrefl _)
    obtain ⟨state', kind', -⟩ := observeAll_of_not_takes kept rfl row hrow
    rw [FindingRow.Matches, state', kind', state]
    exact fun iff => kind (iff.mpr rfl)

end Steps

/-! ## One transaction -/

section Transactions

variable {digestOf : Finding → String} {s : Store} {imp : Import}

/-- No row and no observation of the store belongs to the run. -/
structure Store.FreshRun (s : Store) (runID : RunID) : Prop where
  rows : ∀ key row, s.findings key = some row → row.changeRunID ≠ some runID
  observations : ∀ o ∈ s.observations, o.runID ≠ runID

theorem Import.occurrences_ne_nil {f : Finding} (mem : f ∈ imp.findings) :
    imp.occurrences ⟨imp.record.scope, f.identity⟩ ≠ [] :=
  List.ne_nil_of_mem ((mem_occurrences imp.record).mpr ⟨mem, rfl⟩)

/-- The row of a key after a transaction: untouched, folded, or under the absence
update. -/
theorem reconcile_row_cases (digestOf : Finding → String) (fresh : s.FreshRun imp.record.runID)
    (key : FindingKey) :
    (reconcile digestOf s imp).findings key = s.findings key ∨
      ((∃ f ∈ imp.findings, key = ⟨imp.record.scope, f.identity⟩) ∧ imp.occurrences key ≠ [] ∧
        (reconcile digestOf s imp).findings key =
          observeAll digestOf imp.record imp.asset (s.coverage imp.record.scope)
            (s.findings key) (imp.occurrences key)) ∨
      (reconcile digestOf s imp).findings key =
        (s.findings key).map (·.unreported imp.record (s.coverage imp.record.scope)) := by
  by_cases inScope : key.scope = imp.record.scope
  · by_cases reported : imp.occurrences key = []
    · exact .inr (.inr (reconcile_absent digestOf inScope reported
        fun o mem _ => fresh.observations o mem))
    · obtain ⟨f, mem⟩ := List.exists_mem_of_ne_nil _ reported
      obtain ⟨mem, same⟩ := (mem_occurrences imp.record).mp mem
      exact .inr (.inl ⟨⟨f, mem, same.symm⟩, reported, reconcile_observed digestOf reported⟩)
  · exact .inl (reconcile_other_scope digestOf inScope)

theorem FindingRow.Matches.unreported {row : FindingRow} {coverage : Option Time}
    (same : row.Matches) : (row.unreported r coverage).Matches := by
  unfold FindingRow.unreported
  split
  · split
    · exact iff_of_true rfl rfl
    · exact same
  · exact same

/-- **A harmless import keeps kind and state in agreement.** -/
theorem Store.Matches.reconcile (same : s.Matches) (fresh : s.FreshRun imp.record.runID)
    (harmless : LateHarmless s imp) : (reconcile digestOf s imp).Matches := by
  intro key row hrow
  rcases reconcile_row_cases digestOf fresh key with
    kept | ⟨⟨f, mem, rfl⟩, -, folded⟩ | absent
  · exact same key row (kept ▸ hrow)
  · rw [folded] at hrow
    cases late : imp.record.covered (s.coverage imp.record.scope) with
    | false => exact matches_observeAll late (same _) row hrow
    | true =>
      have kept := harmless late f mem
      cases stored : s.findings ⟨imp.record.scope, f.identity⟩ with
      | none =>
        rw [stored] at kept
        exact absurd imp.record.takes_none kept
      | some before =>
        obtain ⟨state, kind, -⟩ := observeAll_of_not_takes kept stored row hrow
        rw [FindingRow.Matches, state, kind]
        exact same _ before stored
  · rw [absent] at hrow
    obtain ⟨before, stored, rfl⟩ := Option.map_eq_some_iff.mp hrow
    exact (same key before stored).unreported

/-- **A late import that takes a row breaks the agreement.** -/
theorem Store.Matches.harmless (same : (Reconcile.reconcile digestOf s imp).Matches) :
    LateHarmless s imp := by
  intro late f mem takes
  obtain ⟨row, folded, parted⟩ : ∃ row, observeAll digestOf imp.record imp.asset _ _ _ = some row ∧
      ¬ row.Matches := not_matches_observeAll late (Import.occurrences_ne_nil mem) takes
  exact parted (same _ row ((reconcile_observed digestOf
    (Import.occurrences_ne_nil mem)).trans folded))

/-- An event that a transaction inserts was raised by one of the report's upserts. -/
theorem mem_changeEvents_reconcile {event : ChangeEvent}
    (mem : event ∈ (reconcile digestOf s imp).changeEvents) (new : event ∉ s.changeEvents) :
    ∃ p ∈ imp.findings.zip (upsertBatch digestOf imp.record imp.asset
        (s.coverage imp.record.scope) s.findings imp.findings).2,
      changeEventOf imp.record imp.asset p.1 p.2 = some event := by
  have written : event ∈ (writeReport digestOf imp.record imp.asset
      (s.coverage imp.record.scope) s 0 imp.findings).changeEvents := by
    rw [reconcile_eq] at mem
    cases raises : newCoverage imp.record (s.coverage imp.record.scope) with
    | none =>
      rw [raises] at mem
      exact mem
    | some scanned =>
      rw [raises] at mem
      exact mem
  exact (mem_changeEvents_recordBatch digestOf _ _ written).resolve_left new

/-- An event is raised by a comparable import, for a finding that it made current. -/
theorem changeEventOf_eq_some {asset : AssetContext} {f : Finding} {result : ReconciledFinding}
    {event : ChangeEvent} (raised : changeEventOf r asset f result = some event) :
    r.comparable = true ∧ result.changeRunID = some r.runID ∧ event.finding = result.finding := by
  unfold changeEventOf at raised
  split at raised
  case isTrue cond =>
    simp only [Bool.and_eq_true, decide_eq_true_eq] at cond
    obtain ⟨_, -, rfl⟩ := Option.map_eq_some_iff.mp raised
    exact ⟨cond.1.1.2, cond.1.2, rfl⟩
  case isFalse => cases raised

theorem succeeded_of_comparable (comparable : r.comparable = true) : r.succeeded = true := by
  simp only [ImportRecord.comparable, Bool.and_eq_true] at comparable
  exact comparable.1.1.1

/-- **Events of a harmless import belong to observed findings.** -/
theorem eventsObserved_reconcile (fresh : s.FreshRun imp.record.runID)
    (harmless : LateHarmless s imp) : EventsObserved s (reconcile digestOf s imp) := by
  intro event mem new
  obtain ⟨⟨f, result⟩, pair, raised⟩ := mem_changeEvents_reconcile mem new
  obtain ⟨comparable, own, finding⟩ := changeEventOf_eq_some raised
  have succeeded := succeeded_of_comparable comparable
  obtain ⟨earlier, later, row, split, folded, rfl⟩ := upsertBatch_result digestOf _ _ _ pair
  have hf : f ∈ imp.findings := by simp [split]
  have finding : event.finding = ⟨imp.record.scope, f.identity⟩ := finding
  have foreign := fresh.rows ⟨imp.record.scope, f.identity⟩
  rw [finding, reconcile_observed digestOf (Import.occurrences_ne_nil hf)]
  cases late : imp.record.covered (s.coverage imp.record.scope) with
  | false =>
    obtain ⟨row', folded', own'⟩ := own_observeAll succeeded own
      (Reconcile.occurrences imp.record ⟨imp.record.scope, f.identity⟩ later)
    have final : observeAll digestOf imp.record imp.asset (s.coverage imp.record.scope)
        (s.findings ⟨imp.record.scope, f.identity⟩)
        (imp.occurrences ⟨imp.record.scope, f.identity⟩) = some row' := by
      rw [Import.occurrences, split, ← List.singleton_append, ← List.append_assoc,
        occurrences_append, observeAll_append, folded]
      exact folded'
    refine ⟨row', final, observed_observeAll succeeded late ?_ row' final own'⟩
    exact fun row stored own => absurd own (foreign row stored)
  | true =>
    -- a harmless late import makes no row current, so it raises no event
    have kept := harmless late f hf
    cases stored : s.findings ⟨imp.record.scope, f.identity⟩ with
    | none =>
      rw [stored] at kept
      exact absurd imp.record.takes_none kept
    | some before =>
      obtain ⟨-, -, run⟩ := observeAll_of_not_takes kept stored row folded
      exact absurd (run.symm.trans own) (foreign before stored)

/-- A transaction leaves every other run fresh. -/
theorem Store.FreshRun.reconcile {other : RunID} (fresh : s.FreshRun other)
    (own : s.FreshRun imp.record.runID) (ne : imp.record.runID ≠ other) :
    (reconcile digestOf s imp).FreshRun other := by
  refine ⟨fun key row hrow => ?_, fun o mem => ?_⟩
  · rcases reconcile_row_cases digestOf own key with kept | ⟨-, -, folded⟩ | absent
    · exact fresh.rows key row (kept ▸ hrow)
    · rw [folded] at hrow
      refine observeAll_induction digestOf _ _ _ (P := fun row => row.changeRunID ≠ some other)
        _ (fresh.rows key) ?_ ?_ row hrow
      · intro g _ _
        simp only [observeRow, proposedRow]
        split_ifs <;> simp [ne]
      · intro g _ row foreign
        by_cases takes : imp.record.Takes (some row)
        · rw [(observeRow_of_takes digestOf _ _ g takes).2.2.2 takes.1]
          exact fun same => ne (Option.some.inj same)
        · obtain ⟨-, -, run, -⟩ := observeRow_of_not_takes digestOf imp.asset _ g takes
          rw [run]
          exact foreign
    · rw [absent] at hrow
      obtain ⟨before, stored, rfl⟩ := Option.map_eq_some_iff.mp hrow
      unfold FindingRow.unreported
      split
      · split
        · exact fun same => ne (Option.some.inj same)
        · exact fresh.rows key before stored
      · exact fresh.rows key before stored
  · rw [reconcile_observations] at mem
    rcases List.mem_append.mp mem with old | new
    · exact fresh.observations o old
    · rw [(mem_reportObservations digestOf new).2]
      exact ne

end Transactions

/-! ## Whole runs -/

section Runs

variable (digestOf : Finding → String) {imports : List Import}

theorem reconcileAll_freshRun (distinct : (imports.map (·.record.runID)).Nodup) {other : RunID}
    (ne : other ∉ imports.map (·.record.runID)) :
    (reconcileAll digestOf .empty imports).FreshRun other := by
  induction imports using List.reverseRecOn generalizing other with
  | nil => exact ⟨fun _ _ stored => (by cases stored), fun _ mem => absurd mem List.not_mem_nil⟩
  | append_singleton imports imp ih =>
    rw [List.map_append, List.nodup_append] at distinct
    rw [List.map_append, List.mem_append, not_or] at ne
    rw [reconcileAll_concat]
    refine (ih distinct.1 ne.1).reconcile (ih distinct.1 ?_) ?_
    · exact fun mem => distinct.2.2 _ mem _ (by simp) rfl
    · exact fun same => ne.2 (by simp [same])

/-- The run of an import is fresh when it is reconciled. -/
theorem freshRun_of_split (distinct : (imports.map (·.record.runID)).Nodup)
    {earlier later : List Import} {imp : Import} (split : imports = earlier ++ imp :: later) :
    (reconcileAll digestOf .empty earlier).FreshRun imp.record.runID := by
  rw [split, List.map_append, List.nodup_append] at distinct
  exact reconcileAll_freshRun digestOf distinct.1
    fun mem => distinct.2.2 _ mem _ (by simp) rfl

/-- A run of harmless imports ends with kind and state in agreement. -/
theorem reconcileAll_matches (distinct : (imports.map (·.record.runID)).Nodup)
    (harmless : ∀ earlier imp later, imports = earlier ++ imp :: later →
      LateHarmless (reconcileAll digestOf .empty earlier) imp) :
    (reconcileAll digestOf .empty imports).Matches := by
  induction imports using List.reverseRecOn with
  | nil => exact fun _ _ stored => by cases stored
  | append_singleton imports imp ih =>
    have earlierDistinct : (imports.map (·.record.runID)).Nodup := by
      rw [List.map_append, List.nodup_append] at distinct
      exact distinct.1
    rw [reconcileAll_concat]
    refine (ih earlierDistinct ?_).reconcile (freshRun_of_split digestOf distinct rfl)
      (harmless imports imp [] rfl)
    intro earlier i later split
    exact harmless earlier i (later ++ [imp]) (by rw [split]; simp)

/-- **When kind and state part.**  Along a run, change kind and source state agree in
every state that is reached, and every change event belongs to a finding that is
observed when its transaction commits, if and only if no import that is behind the
coverage of its scope inserts a row or replaces a projection. -/
theorem reconcileAll_matches_iff (distinct : (imports.map (·.record.runID)).Nodup) :
    (∀ earlier imp later, imports = earlier ++ imp :: later →
      (reconcileAll digestOf .empty (earlier ++ [imp])).Matches ∧
        EventsObserved (reconcileAll digestOf .empty earlier)
          (reconcileAll digestOf .empty (earlier ++ [imp]))) ↔
    ∀ earlier imp later, imports = earlier ++ imp :: later →
      LateHarmless (reconcileAll digestOf .empty earlier) imp := by
  constructor
  · intro agrees earlier imp later split
    have same := (agrees earlier imp later split).1
    rw [reconcileAll_concat] at same
    exact same.harmless
  · intro harmless earlier imp later split
    have fresh := freshRun_of_split digestOf distinct split
    have earlierDistinct : (earlier.map (·.record.runID)).Nodup := by
      rw [split, List.map_append, List.nodup_append] at distinct
      exact distinct.1
    have same : (reconcileAll digestOf .empty earlier).Matches := by
      refine reconcileAll_matches digestOf earlierDistinct ?_
      intro before i after cut
      exact harmless before i (after ++ imp :: later) (by rw [split, cut]; simp)
    rw [reconcileAll_concat]
    have here := harmless earlier imp later split
    exact ⟨same.reconcile fresh here, eventsObserved_reconcile fresh here⟩

/-- A late observation of a finding that a newer scan has already shown. -/
theorem reconcileAll_matches_iff_late :
    let five := Sample.scan "five" .succeeded .full 5 ["A"]
    let three := Sample.scan "three" .succeeded .full 3 ["A"]
    (reconcileAll Finding.title .empty [five, three]).Matches ∧
      EventsObserved (reconcileAll Finding.title .empty [five])
        (reconcileAll Finding.title .empty [five, three]) := by
  intro five three
  have harmless : ∀ earlier imp later, [five, three] = earlier ++ imp :: later →
      LateHarmless (reconcileAll Finding.title .empty earlier) imp := by
    intro earlier imp later split
    rcases earlier with _ | ⟨first, _ | ⟨second, rest⟩⟩
    · obtain ⟨rfl, -⟩ := List.cons.inj split
      intro late
      cases late
    · obtain ⟨rfl, tail⟩ := List.cons.inj split
      obtain ⟨rfl, -⟩ := List.cons.inj tail
      intro _ f mem takes
      obtain rfl : f = Sample.finding "A" := by simpa [three, Sample.scan] using mem
      exact absurd (takes.2.1 5 rfl) (by decide)
    · obtain ⟨-, tail⟩ := List.cons.inj split
      obtain ⟨-, tail⟩ := List.cons.inj tail
      simp at tail
  exact (reconcileAll_matches_iff Finding.title (by decide)).mpr harmless [five] three [] rfl

/-- A full scan at time 3 that arrives after the one at time 5 and reports a finding
that is new to the scope: the finding is resolved and new at once, and the new
finding raises an event. -/
theorem late_insert_parts :
    let s := reconcileAll Finding.title .empty [Sample.scan "five" .succeeded .full 5 [],
      Sample.scan "three" .succeeded .full 3 ["A"]]
    (s.findings Sample.key).map (fun row => (row.changeKind, row.sourceState)) =
        some (.new, .inferredResolved) ∧
      s.changeEvents.map (fun event => (event.finding, event.changeKind)) =
        [(Sample.key, .new)] := by
  decide

end Runs

end Aspm.Reconcile
