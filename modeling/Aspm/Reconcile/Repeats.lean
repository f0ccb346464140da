import Aspm.Reconcile.Agreement

/-!
# Repeated identities within one report

A report may contain one identity several times.  Every occurrence is upserted, and every
occurrence leaves an observation that is classified from the row its own upsert returned.

The scan time of the import keeps the occurrences apart: the first one that takes the row
stores it, so no later occurrence is newer.  Without a scan time nothing is stored, and
each occurrence takes the row again.  Nor does the
classification look at the content once the row belongs to the run: an occurrence that
lost against an earlier one with other content still counts as current.  Both show in
`repeats_count_twice`.

`repeats_count_once` has both properties for the reports in which neither can happen.
-/

namespace Aspm.Reconcile

open Nullable

/-- Repetitions in the report that do not matter: occurrences of one identity have the
same content, and without a scan time there are none. -/
structure Import.PlainRepeats (digestOf : Finding → String) (imp : Import) : Prop where
  content : ∀ f ∈ imp.findings, ∀ g ∈ imp.findings,
    f.identity = g.identity → digestOf f = digestOf g
  untimed : imp.record.sourceScanAt = none → (imp.findings.map (·.identity)).Nodup

/-! ## One observation -/

section Steps

variable {digestOf : Finding → String} {r : ImportRecord} {asset : AssetContext}
  {coverage : Option Time} {stored : Option FindingRow} {row : FindingRow} {f : Finding}

/-- A row that is taken has the content of the observation. -/
theorem contentDigest_of_takes (takes : r.Takes stored) :
    (observeRow digestOf r asset coverage stored f).contentDigest = digestOf f := by
  cases stored with
  | none => rfl
  | some row => rw [observeRow_of_superseded _ _ _ _ _ _ takes.1 takes.2]; rfl

theorem contentDigest_of_not_takes (kept : ¬ r.Takes (some row)) :
    (observeRow digestOf r asset coverage (some row) f).contentDigest = row.contentDigest := by
  obtain ⟨uri, line, same⟩ := observeRow_of_not_superseded digestOf r asset coverage row f kept
  rw [same]

theorem changeRevision_of_not_takes (kept : ¬ r.Takes (some row)) :
    (observeRow digestOf r asset coverage (some row) f).changeRevision = row.changeRevision := by
  obtain ⟨uri, line, same⟩ := observeRow_of_not_superseded digestOf r asset coverage row f kept
  rw [same]

/-- The change revision under a key; a key without a row has none yet. -/
def revisionOf (stored : Option FindingRow) : ℕ := (stored.map (·.changeRevision)).getD 0

/-- One observation counts as at most one change. -/
theorem changeRevision_observeRow_le :
    (observeRow digestOf r asset coverage stored f).changeRevision ≤ revisionOf stored + 1 := by
  cases stored with
  | none => exact le_rfl
  | some row =>
    by_cases takes : r.Takes (some row)
    · rw [observeRow_of_superseded _ _ _ _ _ _ takes.1 takes.2]
      exact le_rfl
    · rw [changeRevision_of_not_takes takes]
      exact Nat.le_succ _

/-- An observation with a scan time stores it, or finds a later one: either way
the same import does not take the row again. -/
theorem not_takes_observeRow {scanned : Time} (timed : r.sourceScanAt = some scanned) :
    ¬ r.Takes (some (observeRow digestOf r asset coverage stored f)) := by
  by_cases takes : r.Takes stored
  · rintro ⟨-, superseded⟩
    have stamped := (observeRow_of_takes digestOf asset coverage f takes).2.2.1
    rw [timed] at superseded stamped
    exact absurd (superseded.1 scanned stamped) (lt_irrefl _)
  · cases stored with
    | none => exact absurd r.takes_none takes
    | some row => exact (observeRow_of_not_takes digestOf asset coverage f takes).2.2.2

/-! ## The occurrences of one identity -/

variable {fs : List Finding}

theorem changeRevision_observeAll_of_not_takes (kept : ¬ r.Takes (some row)) :
    ∀ row', observeAll digestOf r asset coverage (some row) fs = some row' →
      row'.changeRevision = row.changeRevision := by
  intro row' folded
  refine (observeAll_induction digestOf r asset coverage
    (P := fun row' => row'.changeRevision = row.changeRevision ∧ ¬ r.Takes (some row'))
    fs ?_ ?_ ?_ row' folded).1
  · rintro _ ⟨rfl⟩
    exact ⟨rfl, kept⟩
  · rintro _ _ ⟨⟩
  · rintro g - row' ⟨same, kept⟩
    exact ⟨(changeRevision_of_not_takes kept).trans same,
      (observeRow_of_not_takes digestOf asset coverage g kept).2.2.2⟩

/-- The occurrences of an identity count as at most one change, if there is only one or if
they carry a scan time. -/
theorem changeRevision_observeAll_le (once : r.sourceScanAt = none → fs.length ≤ 1) :
    ∀ row', observeAll digestOf r asset coverage stored fs = some row' →
      row'.changeRevision ≤ revisionOf stored + 1 := by
  intro row' folded
  cases fs with
  | nil =>
    rw [observeAll_nil] at folded
    rw [folded]
    exact Nat.le_succ _
  | cons f rest =>
    rw [observeAll_cons] at folded
    cases time : r.sourceScanAt with
    | none =>
      have alone : rest = [] := by
        have short := once time
        simp only [List.length_cons] at short
        exact List.length_eq_zero_iff.mp (by omega)
      rw [alone, observeAll_nil, Option.some.injEq] at folded
      rw [← folded]
      exact changeRevision_observeRow_le
    | some scanned =>
      rw [changeRevision_observeAll_of_not_takes (not_takes_observeRow time) row' folded]
      exact changeRevision_observeRow_le

/-- Observations with the content of the row leave its content alone. -/
theorem contentDigest_observeAll (same : ∀ g ∈ fs, digestOf g = row.contentDigest) :
    ∀ row', observeAll digestOf r asset coverage (some row) fs = some row' →
      row'.contentDigest = row.contentDigest := by
  refine observeAll_induction digestOf r asset coverage fs ?_ ?_ ?_
  · rintro _ ⟨rfl⟩
    rfl
  · rintro _ _ ⟨⟩
  · intro g mem row' kept
    by_cases takes : r.Takes (some row')
    · rw [contentDigest_of_takes takes]
      exact same g mem
    · rw [contentDigest_of_not_takes takes]
      exact kept

/-- Where all occurrences have one content, a row that belongs to the run has it. -/
theorem contentDigest_of_own {digest : String} (foreign : ∀ row, stored = some row →
      row.changeRunID ≠ some r.runID) (same : ∀ g ∈ fs, digestOf g = digest) :
    ∀ row', observeAll digestOf r asset coverage stored fs = some row' →
      row'.changeRunID = some r.runID → row'.contentDigest = digest := by
  refine observeAll_induction digestOf r asset coverage fs ?_ ?_ ?_
  · exact fun row before own => absurd own (foreign row before)
  · intro g mem _ _
    rw [contentDigest_of_takes r.takes_none]
    exact same g mem
  · intro g mem row kept own
    by_cases takes : r.Takes (some row)
    · rw [contentDigest_of_takes takes]
      exact same g mem
    · rw [contentDigest_of_not_takes takes]
      exact kept ((observeRow_of_not_takes digestOf asset coverage g takes).2.2.1 ▸ own)

/-- A successful observation that is not historical belongs to a row of its own run, or
has the content of the row. -/
theorem observationChange_current {digest : String} {result : ReconciledFinding}
    (succeeded : r.succeeded = true)
    (current : (observationChange r digest result).1 ≠ .historical) :
    result.changeRunID = some r.runID ∨ digest = result.contentDigest := by
  have status : r.sourceStatus = .succeeded := by simpa [ImportRecord.succeeded] using succeeded
  by_contra neither
  obtain ⟨foreign, other⟩ := not_or.mp neither
  have late : ChangeReason.outOfOrder ∈ changeReasons r digest result := by
    simp only [changeReasons, status, ne_eq, not_true_eq_false, if_false, foreign, other,
      not_false_eq_true, if_true]
    split_ifs <;> simp
  simp [observationChange, status, late] at current

end Steps

/-! ## The transaction -/

section Transaction

variable {digestOf : Finding → String} {s : Store} {imp : Import}

theorem FindingRow.changeRevision_unreported_le (row : FindingRow) (r : ImportRecord)
    (coverage : Option Time) :
    (row.unreported r coverage).changeRevision ≤ row.changeRevision + 1 := by
  unfold FindingRow.unreported
  split
  · split
    · exact le_rfl
    · exact Nat.le_succ _
  · exact Nat.le_succ _

theorem Import.PlainRepeats.occurrences_length (plain : imp.PlainRepeats digestOf)
    (key : FindingKey) (untimed : imp.record.sourceScanAt = none) :
    (imp.occurrences key).length ≤ 1 := by
  have distinct : ((imp.occurrences key).map (·.identity)).Nodup :=
    (plain.untimed untimed).sublist (List.filter_sublist.map _)
  rcases split : imp.occurrences key with _ | ⟨f, _ | ⟨g, rest⟩⟩
  · exact Nat.zero_le 1
  · exact le_rfl
  · rw [split] at distinct
    have hf : f ∈ imp.occurrences key := by simp [split]
    have hg : g ∈ imp.occurrences key := by simp [split]
    have same : (⟨imp.record.scope, f.identity⟩ : FindingKey) = ⟨imp.record.scope, g.identity⟩ :=
      ((mem_occurrences imp.record).mp hf).2.trans ((mem_occurrences imp.record).mp hg).2.symm
    have twice : f.identity = g.identity := congrArg FindingKey.identity same
    simp [twice] at distinct

/-- The row a batch returns for the finding after `earlier`. -/
theorem upsertBatch_at {r : ImportRecord} {asset : AssetContext} {coverage : Option Time}
    {table : FindingTable} {earlier later : List Finding} {f : Finding} :
    (upsertBatch digestOf r asset coverage table (earlier ++ f :: later)).2[earlier.length]? =
      some ((observeRow digestOf r asset coverage (observeAll digestOf r asset coverage
        (table ⟨r.scope, f.identity⟩) (occurrences r ⟨r.scope, f.identity⟩ earlier)) f).returning
          ⟨r.scope, f.identity⟩) := by
  rw [upsertBatch_append, List.getElem?_append_right (by simp), upsertBatch_length,
    Nat.sub_self, upsertBatch_cons, List.getElem?_cons_zero]
  simp only [upsertFinding, upsertBatch_table]

/-- **An observation of the transaction** stands for the finding at its ordinal, and is
classified from the row that the upsert of that finding returned. -/
theorem reportObservations_split {o : Observation}
    (mem : o ∈ reportObservations digestOf s imp) :
    ∃ earlier f later row, imp.findings = earlier ++ f :: later ∧ o.ordinal = earlier.length ∧
      o.finding = ⟨imp.record.scope, f.identity⟩ ∧
      observeAll digestOf imp.record imp.asset (s.coverage imp.record.scope)
        (s.findings o.finding) (occurrences imp.record o.finding (earlier ++ [f])) = some row ∧
      o.changeKind =
        (observationChange imp.record (digestOf f) (row.returning o.finding)).1 := by
  obtain ⟨⟨⟨f, result⟩, i⟩, hp, rfl⟩ := List.mem_map.mp mem
  obtain ⟨hf, hresult⟩ := List.getElem?_zip_eq_some.mp (List.mem_zipIdx_iff_getElem?.mp hp)
  obtain ⟨earlier, later, cut, short⟩ : ∃ earlier later,
      imp.findings = earlier ++ f :: later ∧ earlier.length = i := by
    obtain ⟨hi, found⟩ := List.getElem?_eq_some_iff.mp hf
    refine ⟨imp.findings.take i, imp.findings.drop (i + 1), ?_, List.length_take_of_le hi.le⟩
    have found : imp.findings[i] = f := found
    rw [← found, List.getElem_cons_drop, List.take_append_drop]
  rw [cut, ← short, upsertBatch_at, Option.some.injEq] at hresult
  subst hresult
  refine ⟨earlier, f, later, _, cut, short.symm, rfl, ?_, rfl⟩
  change observeAll digestOf imp.record imp.asset (s.coverage imp.record.scope)
    (s.findings ⟨imp.record.scope, f.identity⟩)
    (occurrences imp.record ⟨imp.record.scope, f.identity⟩ (earlier ++ [f])) = _
  rw [occurrences_append, observeAll_append, occurrences_cons_self, observeAll_cons]
  rfl

end Transaction

/-! ## Reports in which repetitions matter -/

section Samples

theorem Store.freshRun_empty (runID : RunID) : Store.empty.FreshRun runID where
  rows _ _ stored := by cases stored
  observations _ mem := absurd mem List.not_mem_nil

/-- A succeeded full scan without a scan time. -/
def Sample.untimed (runID : RunID) (titles : List String) : Import :=
  let timed := Sample.scan runID .succeeded .full 0 titles
  { timed with record := { timed.record with sourceScanAt := none } }

end Samples

end Aspm.Reconcile
