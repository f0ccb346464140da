import Aspm.Reconcile.SourceState

/-!
# The projected content of a finding

The projected columns of a row are always those of one observation of the
identity.  Which one depends on the order of the imports: an observation is
*accepted* when it is the identity's first, or when no comparable scan with a
later source time was reconciled before it, and the row shows the latest accepted
observation (`DistinctScans.shows`).

So the projection can depend on the order only for an identity whose latest
observation is older than the latest comparable scan.  Otherwise that observation
is accepted wherever it comes.
-/

namespace Aspm.Reconcile

open Nullable

variable {scanned : Time} {asset : AssetContext} {f : Finding}

/-- The columns of `findings` that follow the newest accepted observation. -/
structure Projection where
  title : String
  description : String
  remediation : String
  severity : Severity
  contentDigest : String
  sourceScanAt : Option Time
deriving DecidableEq

def FindingRow.projection (row : FindingRow) : Projection where
  title := row.title
  description := row.description
  remediation := row.remediation
  severity := row.severity
  contentDigest := row.contentDigest
  sourceScanAt := row.sourceScanAt

/-- The projection of one finding of one import. -/
def ImportRecord.projection (digestOf : Finding → String) (r : ImportRecord) (f : Finding) :
    Projection where
  title := f.title
  description := f.description
  remediation := f.remediation
  severity := f.severity
  contentDigest := digestOf f
  sourceScanAt := r.sourceScanAt

/-- Successful imports of one scope with distinct source times, none of which
repeats an identity. -/
structure DistinctScans (s : Store) (scope : ScopeKey) (imports : List Import) : Prop
    extends ScopeRun s scope imports where
  succeeded : ∀ imp ∈ imports, imp.record.succeeded = true
  timed : ∀ imp ∈ imports, imp.record.sourceScanAt.isSome
  times : (imports.map (·.record.sourceScanAt)).Nodup
  unrepeated : ∀ imp ∈ imports, (imp.findings.map (·.identity)).Nodup

/-- The assumptions do not depend on the order of the imports. -/
theorem DistinctScans.perm {s : Store} {scope : ScopeKey} {imports order : List Import}
    (scans : DistinctScans s scope imports) (perm : order.Perm imports) :
    DistinctScans s scope order where
  empty := scans.empty
  inScope imp mem := scans.inScope imp (perm.mem_iff.mp mem)
  runs := (perm.map _).nodup_iff.mpr scans.runs
  succeeded imp mem := scans.succeeded imp (perm.mem_iff.mp mem)
  timed imp mem := scans.timed imp (perm.mem_iff.mp mem)
  times := (perm.map _).nodup_iff.mpr scans.times
  unrepeated imp mem := scans.unrepeated imp (perm.mem_iff.mp mem)

/-- The import, reconciled after `earlier`, may replace the projection of `key`. -/
def Accepted (key : FindingKey) (earlier : List Import) (imp : Import) : Prop :=
  imp.reports key = true ∧
    ((∀ i ∈ earlier, i.reports key = false) ∨
      ∀ c t, latestComparable earlier = some c → imp.record.sourceScanAt = some t → c ≤ t)

/-- The source times of the accepted observations of `key`. -/
def acceptedTimes (key : FindingKey) (imports : List Import) : Set Time :=
  {t | ∃ earlier imp later, imports = earlier ++ imp :: later ∧
    Accepted key earlier imp ∧ imp.record.sourceScanAt = some t}

theorem acceptedTimes_concat (key : FindingKey) (imports : List Import) (imp : Import) :
    acceptedTimes key (imports ++ [imp]) =
      acceptedTimes key imports ∪
        {t | Accepted key imports imp ∧ imp.record.sourceScanAt = some t} := by
  ext t
  constructor
  · rintro ⟨earlier, i, later, split, accepted, time⟩
    rcases List.eq_nil_or_concat later with rfl | ⟨later, last, rfl⟩
    · obtain ⟨rfl, same⟩ := List.append_inj' split rfl
      cases same
      exact .inr ⟨accepted, time⟩
    · rw [List.concat_eq_append, ← List.cons_append, ← List.append_assoc] at split
      exact .inl ⟨earlier, i, later, (List.append_inj' split rfl).1, accepted, time⟩
  · rintro (⟨earlier, i, later, rfl, accepted, time⟩ | ⟨accepted, time⟩)
    · exact ⟨earlier, i, later ++ [imp], by simp, accepted, time⟩
    · exact ⟨imports, imp, [], rfl, accepted, time⟩

section Steps

variable {digestOf : Finding → String} {r : ImportRecord} {complete : Option Time}
  {row : FindingRow}

/-- For a row that has a time, the watermark adds exactly the coverage to the
condition on the scan time. -/
theorem Tracks.superseded_iff {latest : Option Time} {stored : Time}
    (tracks : Tracks row latest complete) (timed : row.sourceScanAt = some stored) :
    row.Superseded (some scanned) ↔ stored < scanned ∧ ∀ c ∈ complete, c ≤ scanned := by
  cases tracks with
  | untimed _ scan =>
    rw [scan] at timed
    cases timed
  | current _ scan le fresh =>
    obtain rfl := Option.some.inj (timed.symm.trans scan)
    simp only [FindingRow.Superseded, timed, Option.mem_some_iff, forall_eq']
    refine and_congr_right fun later => iff_of_true ?_ ?_
    · exact fun w hw => (fresh w hw).trans later.le
    · exact fun c hc => (le c hc).trans later.le
  | passed _ scan _ _ fresh =>
    simp only [FindingRow.Superseded, timed, fresh, Option.mem_some_iff, forall_eq']

theorem observeRow_projection_of_superseded (succeeded : r.succeeded = true)
    (superseded : row.Superseded r.sourceScanAt) :
    (observeRow digestOf r asset complete (some row) f).projection = r.projection digestOf f := by
  rw [observeRow_of_superseded _ _ _ _ _ _ succeeded superseded]
  rfl

theorem observeRow_projection_of_not_superseded
    (kept : ¬ (r.succeeded = true ∧ row.Superseded r.sourceScanAt)) :
    (observeRow digestOf r asset complete (some row) f).projection = row.projection := by
  obtain ⟨uri, line, same⟩ := observeRow_of_not_superseded digestOf r asset complete row f kept
  rw [same]
  rfl

/-- In a report without repetitions, a finding is the only one of its key. -/
theorem occurrences_of_unrepeated {fs : List Finding} (unrepeated : (fs.map (·.identity)).Nodup)
    (mem : f ∈ fs) : occurrences r ⟨r.scope, f.identity⟩ fs = [f] := by
  induction fs with
  | nil => cases mem
  | cons g gs ih =>
    rw [List.map_cons, List.nodup_cons] at unrepeated
    rcases List.mem_cons.mp mem with rfl | tail
    · rw [occurrences_cons_self]
      congr 1
      rw [List.eq_nil_iff_forall_not_mem]
      intro g hg
      obtain ⟨hg, same⟩ := (mem_occurrences r).mp hg
      refine unrepeated.1 (List.mem_map.mpr ⟨g, hg, ?_⟩)
      exact congrArg FindingKey.identity same
    · rw [occurrences_cons_of_ne, ih unrepeated.2 tail]
      intro same
      refine unrepeated.1 (List.mem_map.mpr ⟨f, tail, ?_⟩)
      exact (congrArg FindingKey.identity same).symm

/-- The absence update leaves the projection alone. -/
theorem unreported_projection : (row.unreported r complete).projection = row.projection := by
  unfold FindingRow.unreported
  split
  · split <;> rfl
  · rfl

end Steps

/-! ## Whole sequences -/

section Runs

variable (digestOf : Finding → String) {s : Store} {scope : ScopeKey}

/-- The row shows the latest accepted observation of its key. -/
def Shows (key : FindingKey) (imports : List Import) (row : FindingRow) : Prop :=
  ∃ imp ∈ imports, ∃ f ∈ imp.findings, f.identity = key.identity ∧
    row.projection = imp.record.projection digestOf f ∧
    ∃ t, imp.record.sourceScanAt = some t ∧ IsGreatest (acceptedTimes key imports) t

variable {digestOf} {key : FindingKey} {imports : List Import} {imp : Import} {row : FindingRow}

/-- An import whose observation is not accepted changes nothing. -/
theorem Shows.concat_of_not_accepted (shows : Shows digestOf key imports row)
    (rejected : ¬ Accepted key imports imp) : Shows digestOf key (imports ++ [imp]) row := by
  obtain ⟨i, mem, f, hf, same, projection, t, time, greatest⟩ := shows
  refine ⟨i, List.mem_append_left _ mem, f, hf, same, projection, t, time, ?_⟩
  rw [acceptedTimes_concat]
  simpa [rejected] using greatest

/-- **One observation of a key that has a row.** -/
theorem Shows.observe {latest : Option Time} (inScope : ∀ i ∈ imports, i.record.scope = key.scope)
    (shows : Shows digestOf key imports row) (tracks : Tracks row latest (latestComparable imports))
    (succeeded : imp.record.succeeded = true) (time : imp.record.sourceScanAt = some scanned)
    (mem : f ∈ imp.findings) (same : f.identity = key.identity)
    (reported : imp.reports key = true) :
    Shows digestOf key (imports ++ [imp])
      (observeRow digestOf imp.record asset (latestComparable imports) (some row) f) := by
  obtain ⟨i, hi, g, hg, sameg, projection, t, itime, greatest⟩ := id shows
  have stored : row.sourceScanAt = some t :=
    (congrArg Projection.sourceScanAt projection).trans itime
  have notFirst : ¬ ∀ i ∈ imports, i.reports key = false := by
    intro silent
    have reports := (Import.reports_iff_exists (inScope i hi) key.identity).mpr ⟨g, hg, sameg⟩
    rw [silent i hi] at reports
    cases reports
  have decide_superseded : row.Superseded (some scanned) ↔ _ := tracks.superseded_iff stored
  by_cases superseded : row.Superseded (some scanned)
  · obtain ⟨later, recent⟩ := decide_superseded.mp superseded
    refine ⟨imp, by simp, f, mem, same,
      observeRow_projection_of_superseded succeeded (time ▸ superseded), scanned, time, ?_, ?_⟩
    · rw [acceptedTimes_concat]
      refine .inr ⟨⟨reported, .inr fun c t' hc ht => ?_⟩, time⟩
      obtain rfl := Option.some.inj (time.symm.trans ht)
      exact recent c hc
    · rw [acceptedTimes_concat]
      rintro t' (old | ⟨-, new⟩)
      · exact (greatest.2 old).trans later.le
      · exact (Option.some.inj (new.symm.trans time)).le
  · have projection' : (observeRow digestOf imp.record asset (latestComparable imports)
        (some row) f).projection = row.projection :=
      observeRow_projection_of_not_superseded (by rw [time]; exact fun h => superseded h.2)
    by_cases accepted : Accepted key imports imp
    · -- accepted but not superseding: the stored observation is at least as recent
      have recent : ∀ c ∈ latestComparable imports, c ≤ scanned := fun c hc =>
        (accepted.2.resolve_left notFirst) c scanned hc time
      have earlier : scanned ≤ t := by
        by_contra later
        exact superseded (decide_superseded.mpr ⟨not_le.mp later, recent⟩)
      refine ⟨i, List.mem_append_left _ hi, g, hg, sameg, projection'.trans projection, t, itime,
        ?_⟩
      rw [acceptedTimes_concat]
      refine ⟨.inl greatest.1, ?_⟩
      rintro t' (old | ⟨-, new⟩)
      · exact greatest.2 old
      · exact (Option.some.inj (new.symm.trans time)).le.trans earlier
    · obtain ⟨i, hi, g, hg, sameg, projection, rest⟩ := shows.concat_of_not_accepted accepted
      exact ⟨i, hi, g, hg, sameg, projection'.trans projection, rest⟩

/-- The row of a key's first observation. -/
theorem shows_insert {complete : Option Time} (silent : ∀ i ∈ imports, i.reports key = false)
    (time : imp.record.sourceScanAt = some scanned) (mem : f ∈ imp.findings)
    (same : f.identity = key.identity) (reported : imp.reports key = true) :
    Shows digestOf key (imports ++ [imp])
      (observeRow digestOf imp.record asset complete none f) := by
  have none_before : acceptedTimes key imports = ∅ := by
    rw [Set.eq_empty_iff_forall_notMem]
    rintro t ⟨earlier, i, later, rfl, accepted, -⟩
    have reports := accepted.1
    rw [silent i (by simp)] at reports
    cases reports
  refine ⟨imp, by simp, f, mem, same, rfl, scanned, time, ?_⟩
  rw [acceptedTimes_concat, none_before, Set.empty_union]
  refine ⟨⟨⟨reported, .inl silent⟩, time⟩, ?_⟩
  rintro t ⟨-, new⟩
  exact (Option.some.inj (new.symm.trans time)).le

variable (digestOf)

/-- **One import**, for a key whose row shows its latest accepted observation. -/
theorem Shows.step {stored : Option FindingRow}
    (inScope : ∀ i ∈ imports ++ [imp], i.record.scope = key.scope)
    (succeeded : imp.record.succeeded = true) (time : imp.record.sourceScanAt = some scanned)
    (unrepeated : (imp.findings.map (·.identity)).Nodup) (tracks : RowTracks key imports stored)
    (shows : ∀ row ∈ stored, Shows digestOf key imports row) :
    ∀ row ∈ stepRow digestOf imp (latestComparable imports) key stored,
      Shows digestOf key (imports ++ [imp]) row := by
  have here : imp.record.scope = key.scope := inScope imp (by simp)
  rw [stepRow]
  cases reported : imp.reports key with
  | true =>
    obtain ⟨f, mem, same⟩ := (Import.reports_iff_exists here key.identity).mp reported
    have only : imp.occurrences key = [f] := by
      rw [Import.occurrences, ← occurrences_of_unrepeated unrepeated mem, here, same]
    rw [if_pos rfl, only]
    rintro _ ⟨rfl⟩
    cases stored with
    | none => exact shows_insert tracks time mem same reported
    | some row =>
      exact (shows row rfl).observe (fun i hi => inScope i (List.mem_append_left _ hi))
        tracks succeeded time mem same reported
  | false =>
    rw [if_neg Bool.false_ne_true]
    intro row' mem
    obtain ⟨row, hrow, rfl⟩ := Option.map_eq_some_iff.mp mem
    have rejected : ¬ Accepted key imports imp := by
      rintro ⟨reports, -⟩
      rw [reported] at reports
      cases reports
    obtain ⟨i, hi, g, hg, sameg, projection, rest⟩ :=
      (shows row hrow).concat_of_not_accepted rejected
    exact ⟨i, hi, g, hg, sameg, unreported_projection.trans projection, rest⟩

/-- **Every row shows the latest accepted observation** of its identity. -/
theorem DistinctScans.shows (scans : DistinctScans s scope imports) (identity : String) :
    ∀ row ∈ (reconcileAll digestOf s imports).findings ⟨scope, identity⟩,
      Shows digestOf ⟨scope, identity⟩ imports row := by
  refine (scans.row_induction digestOf identity
    (P := fun earlier stored => RowTracks ⟨scope, identity⟩ earlier stored ∧
      ∀ row ∈ stored, Shows digestOf ⟨scope, identity⟩ earlier row) ?_ ?_).2
  · exact ⟨by simp [RowTracks], by simp⟩
  · rintro earlier imp stored before ⟨tracks, shows⟩
    have mem : imp ∈ imports := before.subset (by simp)
    obtain ⟨scanned, time⟩ := Option.isSome_iff_exists.mp (scans.timed imp mem)
    refine ⟨tracks.step digestOf (scans.succeeded imp mem), ?_⟩
    exact Shows.step digestOf (fun i hi => scans.inScope i (before.subset hi))
      (scans.succeeded imp mem) time (scans.unrepeated imp mem) tracks shows

/-- An import that no comparable scan passes is accepted wherever it comes. -/
theorem mem_acceptedTimes_of_recent {t : Time} (mem : imp ∈ imports)
    (reported : imp.reports key = true) (time : imp.record.sourceScanAt = some t)
    (recent : ∀ i ∈ imports, i.record.comparable = true →
      ∀ c, i.record.sourceScanAt = some c → c ≤ t) : t ∈ acceptedTimes key imports := by
  obtain ⟨earlier, later, rfl⟩ := List.append_of_mem mem
  refine ⟨earlier, imp, later, rfl, ⟨reported, .inr fun c t' complete time' => ?_⟩, time⟩
  obtain rfl := Option.some.inj (time.symm.trans time')
  obtain ⟨i, hi, comparable, itime⟩ := (latestComparable_eq_some_iff.mp complete).1
  exact recent i (List.mem_append_left _ hi) comparable c itime

/-- Distinct times and distinct identities leave one observation of an identity at
each time. -/
theorem DistinctScans.observation_unique (scans : DistinctScans s scope imports) {imp' : Import}
    {f' : Finding} (mem : imp ∈ imports) (mem' : imp' ∈ imports) (hf : f ∈ imp.findings)
    (hf' : f' ∈ imp'.findings) (time : imp.record.sourceScanAt = imp'.record.sourceScanAt)
    (identity : f.identity = f'.identity) : imp = imp' ∧ f = f' := by
  obtain rfl := List.inj_on_of_nodup_map scans.times mem mem' time
  exact ⟨rfl, List.inj_on_of_nodup_map (scans.unrepeated imp mem) hf hf' identity⟩

/-- **The projection, in every order.**  In each order of the imports the row of an
identity shows the latest of its accepted observations.  If no comparable scan is
later than the identity's latest observation, that is the latest observation, in
every order. -/
theorem reconcileAll_projection (scans : DistinctScans s scope imports)
    (identity : String) (observed : ∃ imp ∈ imports, ∃ f ∈ imp.findings, f.identity = identity) :
    (∀ order, order.Perm imports →
      ∃ row, (reconcileAll digestOf s order).findings ⟨scope, identity⟩ = some row ∧
        Shows digestOf ⟨scope, identity⟩ order row) ∧
    (∀ imp ∈ imports, ∀ f ∈ imp.findings, f.identity = identity →
      ∀ latest, imp.record.sourceScanAt = some latest →
      IsGreatest {t | ∃ imp ∈ imports, (∃ f ∈ imp.findings, f.identity = identity) ∧
        imp.record.sourceScanAt = some t} latest →
      (∀ i ∈ imports, i.record.comparable = true →
        ∀ c, i.record.sourceScanAt = some c → c ≤ latest) →
      ∀ order, order.Perm imports →
        ((reconcileAll digestOf s order).findings ⟨scope, identity⟩).map (·.projection) =
          some (imp.record.projection digestOf f)) := by
  have shown : ∀ order, order.Perm imports →
      ∃ row, (reconcileAll digestOf s order).findings ⟨scope, identity⟩ = some row ∧
        Shows digestOf ⟨scope, identity⟩ order row := by
    intro order perm
    have ordered := scans.perm perm
    cases stored : (reconcileAll digestOf s order).findings ⟨scope, identity⟩ with
    | none =>
      have silent := ordered.tracks digestOf ordered.succeeded identity
      rw [stored] at silent
      obtain ⟨imp, mem, reported⟩ := observed
      have reports := (Import.reports_iff_exists (scans.inScope imp mem) identity).mpr reported
      rw [silent imp (perm.mem_iff.mpr mem)] at reports
      cases reports
    | some row => exact ⟨row, rfl, ordered.shows digestOf identity row stored⟩
  refine ⟨shown, ?_⟩
  intro imp mem f hf same latest time greatest recent order perm
  obtain ⟨row, stored, imp', mem', f', hf', same', projection, t, time', accepted⟩ :=
    shown order perm
  have reported := (Import.reports_iff_exists (scans.inScope imp mem) identity).mpr ⟨f, hf, same⟩
  have upper : latest ≤ t := accepted.2 <| mem_acceptedTimes_of_recent (perm.mem_iff.mpr mem)
    reported time fun i hi => recent i (perm.mem_iff.mp hi)
  have lower : t ≤ latest :=
    greatest.2 ⟨imp', perm.mem_iff.mp mem', ⟨f', hf', same'⟩, time'⟩
  obtain ⟨rfl, rfl⟩ := scans.observation_unique mem (perm.mem_iff.mp mem') hf hf'
    (by rw [time, time', le_antisymm upper lower]) (same.trans same'.symm)
  rw [stored, Option.map_some, projection]

/-- The last observation, at time 3, is not passed by the complete scan at time 2, and
shows whether it comes last or first. -/
theorem reconcileAll_projection_recent :
    let one := Sample.scan "one" .succeeded .delta 1 ["A"]
    let two := Sample.scan "two" .succeeded .full 2 []
    let three := Sample.scan "three" .succeeded .delta 3 ["B"]
    ((reconcileAll Finding.title .empty [one, two, three]).findings Sample.key).map
        (·.projection) = some ⟨"B", "", "", .high, "B", some 3⟩ ∧
      ((reconcileAll Finding.title .empty [three, two, one]).findings Sample.key).map
        (·.projection) = some ⟨"B", "", "", .high, "B", some 3⟩ := by
  intro one two three
  have scans : DistinctScans .empty Sample.scope [one, two, three] :=
    ⟨⟨Store.empty_emptyScope _, by decide, by decide⟩, by decide, by decide, by decide, by decide⟩
  have early : ∀ t : Time, 1 = t ∨ 3 = t → t ≤ 3 := by
    rintro _ (rfl | rfl) <;> decide
  have every := (reconcileAll_projection Finding.title scans "finding" (by decide)).2 three
    (by decide) (Sample.finding "B") (by decide) rfl 3 rfl
    ⟨by simp [one, two, three, Sample.scan, Sample.finding],
      by simpa [one, two, three, Sample.scan, Sample.finding, upperBounds] using early⟩
    (by simp [one, two, three, Sample.scan, ImportRecord.comparable])
  exact ⟨every _ (.refl _), every _ (by decide)⟩

/-- Otherwise the order shows: once the complete scan at time 5 is in, the
observation at time 3 no longer replaces the one at time 1. -/
theorem reconcileAll_projection_late :
    let one := Sample.scan "one" .succeeded .delta 1 ["A"]
    let three := Sample.scan "three" .succeeded .delta 3 ["B"]
    let five := Sample.scan "five" .succeeded .full 5 []
    DistinctScans .empty Sample.scope [one, three, five] ∧
      [one, five, three].Perm [one, three, five] ∧
      ((reconcileAll Finding.title .empty [one, three, five]).findings Sample.key).map
          (·.projection) = some ⟨"B", "", "", .high, "B", some 3⟩ ∧
      ((reconcileAll Finding.title .empty [one, five, three]).findings Sample.key).map
          (·.projection) = some ⟨"A", "", "", .high, "A", some 1⟩ :=
  ⟨⟨⟨Store.empty_emptyScope _, by decide, by decide⟩, by decide, by decide, by decide,
    by decide⟩, by decide, by decide, by decide⟩

end Runs

end Aspm.Reconcile
