import Aspm.Decisions.History

/-!
# Bulk decisions

`bulkPatchFindings` checks its request as a whole, patches one finding after the other in one
transaction, reads the findings back and commits.  Each patch reads and writes its own finding
only, so the loop is the same as single patches one after the other, and as all of them on the
findings as they were (`bulk_eq_ok`).  The transaction does the same under its locks, where
nobody sees the patches before all of them are there (`Store.run_bulk`).

A request that accepts risks is to be refused if it changes nothing.  What it compares is the
time of the request, with all of its nanoseconds, and the time that the column has kept: the
same request sent again is a change, if its expiry is not a whole number of microseconds
(`bulk_changes_nothing`).
-/

namespace Aspm.Decisions

open Fallible
open Reconcile (Time)
open Correlation (ActorID WorkflowState Disposition FindingDecision RequestError validText)

/-- The findings of a workspace by their ids. -/
abbrev Database (K : Type) := K → Option Finding

/-- What the handlers find beside the decisions. -/
structure Surroundings (K : Type) where
  /-- `workVisible`. -/
  visible : K → Bool
  /-- The memberships of the workspace. -/
  member : ActorID → Bool
  /-- The time at which the finding is patched. -/
  clock : K → Time

/-- What `checkOwner` says about the owner after the patch. -/
def FindingDecisionPatch.ownerExists (patch : FindingDecisionPatch) (member : ActorID → Bool)
    (row : Finding) : Bool :=
  (setNullable patch.ownerID row.ownerID).all member

section Handlers

variable {K : Type} [LinearOrder K] (env : Surroundings K)

/-- `applyFindingDecisionPatch`, on the row that it selects. -/
def patchRow (author : Author) (f : K) (patch : FindingDecisionPatch) (found : Option Finding) :
    Except RequestError (Option Finding) := do
  let row ← present .noRows (if env.visible f then found else none)
  let row' ← patch.write author (env.clock f) (patch.ownerExists env.member row) row.approval row
  pure (some row')

/-- And on the findings. -/
def applyFindingDecisionPatch (author : Author) (f : K) (patch : FindingDecisionPatch)
    (db : Database K) : Except RequestError (Database K) :=
  (patchRow env author f patch (db f)).map (Function.update db f)

/-- `patchFinding`. -/
def patchFinding (actor : ActorID) (f : K) (input : FindingDecisionPatch) (db : Database K) :
    Except RequestError PUnit × Database K :=
  let patch := { input with expectedRevision := none, rejectNoChange := false }
  match applyFindingDecisionPatch env ⟨actor, .update⟩ f patch db with
  | .ok db' => (.ok ⟨⟩, db')
  | .error error => (.error error, db)

/-- The loop of `bulkPatchFindings`. -/
def patchAll (actor : ActorID) (input : BulkPatch K) (db : Database K) :
    Except RequestError (Database K) :=
  input.ids.foldlM (fun db id =>
    applyFindingDecisionPatch env ⟨actor, .bulkUpdate⟩ id (input.patch id) db) db

/-- `bulkPatchFindings`: the ids of the findings in the response, and what is stored then. -/
def bulkPatchFindings (actor : ActorID) (now : Time) (input : BulkPatch K) (db : Database K) :
    Except RequestError (List K) × Database K :=
  if input.valid now then
    match patchAll env actor input db with
    | .error error => (.error error, db)
    | .ok db' =>
      let items := input.ids.filter fun id => env.visible id && (db' id).isSome
      if items.length = input.ids.length then (.ok items, db') else (.error .noRows, db)
  else (.error .invalid, db)

end Handlers

variable {K : Type} [LinearOrder K] {env : Surroundings K} {author : Author} {f : K}
  {patch : FindingDecisionPatch} {found : Option Finding} {row' : Finding} {actor : ActorID}
  {now : Time} {input : BulkPatch K} {db db' : Database K} {items : List K}

omit [LinearOrder K] in
theorem patchRow_eq_ok {result : Option Finding} :
    patchRow env author f patch found = .ok result ↔ ∃ row row', env.visible f = true ∧
      found = some row ∧ result = some row' ∧ patch.write author (env.clock f)
        (patch.ownerExists env.member row) row.approval row = .ok row' := by
  simp only [patchRow, bind_eq_ok, present_eq_ok, pure_eq_ok, Option.ite_none_right_eq_some]
  constructor
  · rintro ⟨row, ⟨visible, found⟩, row', wrote, rfl⟩
    exact ⟨row, row', visible, found, rfl, wrote⟩
  · rintro ⟨row, row', visible, found, rfl, wrote⟩
    exact ⟨row, ⟨visible, found⟩, row', wrote, rfl⟩

/-! ## The loop -/

theorem BulkPatch.nodup_of_valid (valid : input.valid now = true) : input.ids.Nodup := by
  simp only [BulkPatch.valid, Bool.and_eq_true, decide_eq_true_eq] at valid
  exact valid.1.2

theorem BulkPatch.exists_mem_of_valid (valid : input.valid now = true) : ∃ id, id ∈ input.ids := by
  simp only [BulkPatch.valid, Bool.and_eq_true, decide_eq_true_eq] at valid
  obtain ⟨id, mem⟩ := List.exists_mem_of_ne_nil _ valid.1.1.1.1.1
  exact ⟨id, (List.mem_insertionSort _).mpr mem⟩

/-- The ids are in increasing order. -/
theorem BulkPatch.sorted_of_valid (valid : input.valid now = true) :
    input.ids.Pairwise (· < ·) := by
  have sorted : input.ids.Pairwise (· ≤ ·) := List.pairwise_insertionSort _ _
  exact (sorted.and (BulkPatch.nodup_of_valid valid)).imp fun both => lt_of_le_of_ne both.1 both.2

/-- **The loop is every patch on the findings as they were.** -/
theorem patchAll_eq_ok (nodup : input.ids.Nodup) :
    patchAll env actor input db = .ok db' ↔
      (∀ id ∈ input.ids, patchRow env ⟨actor, .bulkUpdate⟩ id (input.patch id) (db id) =
        .ok (db' id)) ∧ ∀ f, f ∉ input.ids → db' f = db f :=
  foldlM_update nodup

/-- What a bulk decision that commits has done. -/
theorem bulk_eq_ok (committed : bulkPatchFindings env actor now input db = (.ok items, db')) :
    input.valid now = true ∧ items = input.ids ∧ patchAll env actor input db = .ok db' := by
  unfold bulkPatchFindings at committed
  split at committed
  case isFalse => cases committed
  case isTrue valid =>
    split at committed
    case h_1 => cases committed
    case h_2 patched all =>
      dsimp only at committed
      split at committed
      case isFalse => cases committed
      case isTrue length =>
        obtain ⟨same, rfl⟩ := Prod.mk.inj committed
        obtain rfl := Except.ok.inj same
        exact ⟨valid, List.filter_sublist.eq_of_length length, all⟩

/-- A valid request of patches that all succeed commits. -/
theorem bulk_of_patchRow (valid : input.valid now = true)
    (patched : ∀ id ∈ input.ids, ∃ row',
      patchRow env ⟨actor, .bulkUpdate⟩ id (input.patch id) (db id) = .ok (some row')) :
    ∃ db', bulkPatchFindings env actor now input db = (.ok input.ids, db') ∧
      ∀ id ∈ input.ids, patchRow env ⟨actor, .bulkUpdate⟩ id (input.patch id) (db id) =
        .ok (db' id) := by
  let db' : Database K := fun f => if f ∈ input.ids then
    (patchRow env ⟨actor, .bulkUpdate⟩ f (input.patch f) (db f)).toOption.join else db f
  have inside : ∀ id ∈ input.ids, patchRow env ⟨actor, .bulkUpdate⟩ id (input.patch id) (db id) =
      .ok (db' id) := by
    intro id mem
    obtain ⟨row', done⟩ := patched id mem
    simp only [db', if_pos mem, done]
    rfl
  have all : patchAll env actor input db = .ok db' :=
    (patchAll_eq_ok (BulkPatch.nodup_of_valid valid)).mpr ⟨inside, fun f outside => if_neg outside⟩
  have listed : input.ids.filter (fun id => env.visible id && (db' id).isSome) = input.ids := by
    rw [List.filter_eq_self]
    intro id mem
    obtain ⟨row, row', visible, -, stored, -⟩ := patchRow_eq_ok.mp (inside id mem)
    rw [visible, stored]
    rfl
  refine ⟨db', ?_, inside⟩
  simp only [bulkPatchFindings, valid, all, listed, if_true]

/-- A bulk decision that does not commit leaves everything as it was. -/
theorem bulk_or_unchanged (env : Surroundings K) (actor : ActorID) (now : Time)
    (input : BulkPatch K) (db : Database K) :
    (∃ error, bulkPatchFindings env actor now input db = (.error error, db)) ∨
      ∃ items db', bulkPatchFindings env actor now input db = (.ok items, db') := by
  unfold bulkPatchFindings
  split
  case isFalse => exact .inl ⟨_, rfl⟩
  case isTrue =>
    split
    case h_1 error _ => exact .inl ⟨error, rfl⟩
    case h_2 patched _ =>
      dsimp only
      split
      case isFalse => exact .inl ⟨_, rfl⟩
      case isTrue => exact .inr ⟨_, _, rfl⟩

/-! ## Accepted risks -/

/-- What a request must be to accept risks. -/
theorem BulkPatch.risk_of_valid (valid : input.valid now = true) (risk : input.riskMode = true) :
    input.disposition = some (some "accepted-risk") ∧
      ∃ revisions, input.decisionRevisions = some revisions ∧
        (revisions.map (·.1)).Perm input.ids ∧
        ∀ id ∈ input.ids, ∃ r, revisions.lookup id = some r ∧ 1 ≤ r := by
  have nodup := nodup_of_valid valid
  simp only [BulkPatch.valid, modeValid, revisionsValid, risk, if_true, Bool.and_eq_true,
    decide_eq_true_eq, Bool.not_true, Bool.false_or, Option.isSome_iff_exists,
    List.all_eq_true] at valid
  obtain ⟨⟨⟨-, ⟨⟨-, disposition⟩, -⟩, revisions, given⟩, -⟩, ⟨named, -⟩, positive⟩ := valid
  simp only [given, Option.all_some, Bool.and_eq_true, decide_eq_true_eq, List.all_eq_true] at named
  have found : ∀ id ∈ input.ids, ∃ r, revisions.lookup id = some r ∧ 1 ≤ r := by
    intro id mem
    have bounds := positive id mem
    rw [revision, given, Option.bind_some, Option.any_eq_true] at bounds
    obtain ⟨r, looked, bounds⟩ := bounds
    simp only [Bool.and_eq_true, decide_eq_true_eq] at bounds
    exact ⟨r, looked, bounds.1⟩
  refine ⟨disposition, revisions, given, ?_, found⟩
  -- every finding has its entry, and there are no more entries than findings
  have covers : input.ids ⊆ revisions.map (·.1) := by
    intro id mem
    obtain ⟨r, looked, -⟩ := found id mem
    obtain ⟨before, after, rfl, -⟩ := List.lookup_eq_some_iff.mp looked
    exact List.mem_map.mpr ⟨(id, r), by simp, rfl⟩
  exact ((nodup.subperm covers).perm_of_length_le (by simp [named.1])).symm

/-- The expiry of the request is a time that the columns keep. -/
def BulkPatch.whole (input : BulkPatch K) : Bool :=
  input.acceptedRiskExpiresAt.all fun time => time.map stored = time

omit [LinearOrder K] in
theorem BulkPatch.patch_whole [LinearOrder K] (whole : input.whole = true) (id : K) :
    (input.patch id).whole = true := by
  simp only [FindingDecisionPatch.whole, BulkPatch.patch, Option.all_none, Bool.and_true]
  split
  · exact whole
  · rfl

/-- A patch that accepts a risk adds one approval of it, at the revision that it expects, and
changes the decision if the columns can keep it. -/
theorem accepted_of_write {ownerExists : Bool} {row : Finding} (ordered : row.Ordered)
    (sets : patch.disposition = some (some "accepted-risk"))
    (rejects : patch.rejectNoChange = true)
    (written : patch.write author now ownerExists row.approval row = .ok row') :
    (patch.expectedRevision.all (· = row.decisionRevision)) = true ∧
      (∃ a : Approval, row'.approvals = row.approvals ++ [a] ∧ a.disposition = .acceptedRisk) ∧
      (patch.whole = true → row'.decision ≠ row.decision) := by
  obtain ⟨after, approvals, applied, inserted, rfl⟩ := write_eq_ok written
  change patch.apply now ownerExists row.decisionRevision row.decision = .ok after at applied
  obtain ⟨-, expected, -, -, -, -, changed⟩ := applied_iff.mp applied
  have disposition := disposition_of_apply sets rfl applied
  have touched : patch.touched = true := by simp [FindingDecisionPatch.touched, sets]
  refine ⟨expected, ?_, ?_⟩
  · have due := inserted
    simp only [Finding.approve, touched, disposition] at due
    obtain ⟨a, new, rfl⟩ := map_eq_ok.mp due
    exact ⟨a, rfl, (insertDispositionApproval_eq_ok new).2.1.trans disposition⟩
  · intro whole same
    have readBack := (decision_write ordered.approved ordered.whole applied inserted).trans
      (storable_apply whole ordered.whole.storable applied)
    have unchanged : row.decision = after := same.symm.trans readBack
    rw [rejects, ← unchanged] at changed
    simp [decisionChanges] at changed

/-! ## The whole request -/

/-- What a bulk decision that commits has done. -/
structure BulkCommitted (env : Surroundings K) (actor : ActorID) (input : BulkPatch K)
    (db db' : Database K) (items : List K) : Prop where
  /-- The findings are distinct, and taken in the order of their ids. -/
  ordered : input.ids.Perm input.findingIDs ∧ input.ids.Pairwise (· < ·)
  /-- Single patches one after the other lead to the same. -/
  singles : input.ids.foldlM (fun db id => applyFindingDecisionPatch env ⟨actor, .bulkUpdate⟩ id
    (input.patch id) db) db = .ok db'
  /-- Every finding has one event more, of the next revision. -/
  recorded : ∀ id ∈ input.ids, ∃ row row' e, db id = some row ∧ db' id = some row' ∧
    Store.Records ⟨actor, .bulkUpdate⟩ (input.patch id) row row' e
  others : ∀ f, f ∉ input.ids → db' f = db f
  /-- A request that accepts risks names the current revision of each finding once; every
  finding has one approval more, and another decision than before. -/
  risk : input.riskMode = true → ∃ revisions, input.decisionRevisions = some revisions ∧
    (revisions.map (·.1)).Perm input.ids ∧ ∀ id ∈ input.ids, ∃ row row',
      db id = some row ∧ db' id = some row' ∧ revisions.lookup id = some row.decisionRevision ∧
      1 ≤ row.decisionRevision ∧
      (∃ a : Approval, row'.approvals = row.approvals ++ [a] ∧ a.disposition = .acceptedRisk) ∧
      (input.whole = true → row'.decision ≠ row.decision)
  /-- The response lists the findings. -/
  response : items = input.ids

theorem bulkCommitted (ordered : ∀ f row, db f = some row → row.Ordered)
    (committed : bulkPatchFindings env actor now input db = (.ok items, db')) :
    BulkCommitted env actor input db db' items := by
  obtain ⟨valid, listed, patched⟩ := bulk_eq_ok committed
  obtain ⟨inside, others⟩ := (patchAll_eq_ok (BulkPatch.nodup_of_valid valid)).mp patched
  refine ⟨⟨List.perm_insertionSort _ _, BulkPatch.sorted_of_valid valid⟩, patched, ?_, others, ?_,
    listed⟩
  · intro id mem
    obtain ⟨row, row', -, stored, stored', wrote⟩ := patchRow_eq_ok.mp (inside id mem)
    obtain ⟨e, records⟩ := Store.records_write wrote
    exact ⟨row, row', e, stored, stored', records⟩
  · intro risk
    obtain ⟨disposition, revisions, given, named, found⟩ := BulkPatch.risk_of_valid valid risk
    refine ⟨revisions, given, named, ?_⟩
    intro id mem
    obtain ⟨row, row', -, stored, stored', wrote⟩ := patchRow_eq_ok.mp (inside id mem)
    obtain ⟨r, looked, positive⟩ := found id mem
    have sets : (input.patch id).disposition = some (some "accepted-risk") := by
      rw [BulkPatch.patch, if_pos risk, disposition]
    obtain ⟨expected, approved, changed⟩ :=
      accepted_of_write (ordered id row stored) sets risk wrote
    have current : r = row.decisionRevision := by
      simpa [BulkPatch.patch, risk, BulkPatch.revision, given, looked] using expected
    subst current
    exact ⟨row, row', stored, stored', looked, positive, approved,
      fun whole => changed (BulkPatch.patch_whole whole id)⟩

/-! ## The transaction -/

namespace Store

open RowTable (Table)

variable {q : Store K} {tx : ℕ}

/-- The two statements with which a transaction patches one finding that nobody holds. -/
def turn (env : Surroundings K) (tx : ℕ) (db : Database K) (p : K × FindingDecisionPatch) :
    List (Action K) :=
  [.inspect tx, .seize tx (env.clock p.1) ((db p.1).all (p.2.ownerExists env.member))]

/-- The statements of a bulk decision that nobody gets in the way of. -/
def bulkActions (env : Surroundings K) (tx : ℕ) (actor : ActorID) (now : Time)
    (input : BulkPatch K) (db : Database K) : List (Action K) :=
  .start tx actor now (.bulkPatch input) ::
    ((input.ids.map fun id => (id, input.patch id)).flatMap (turn env tx db) ++ [.commit tx])

/-- The patches of a transaction, one after the other, on findings that nobody holds. -/
theorem run_turns {sessions : ℕ → Option (Session K)} {new : K → Finding}
    {pending : List (K × FindingDecisionPatch)} (nodup : (pending.map (·.1)).Nodup)
    {t : Table K Finding ℕ} (done : List (K × FindingDecisionPatch))
    (free : ∀ p ∈ pending, t.locks p.1 = none)
    (writes : ∀ p ∈ pending, ∃ row, t.rows p.1 = some row ∧ db p.1 = some row ∧
      p.2.write author (env.clock p.1) (p.2.ownerExists env.member row) row.approval row =
        .ok (new p.1)) :
    Machine.run step ⟨t, Function.update sessions tx (some ⟨author, done, pending, none⟩)⟩
        (pending.flatMap (turn env tx db)) =
      some ⟨t.stageAll tx (pending.map (·.1)) new,
        Function.update sessions tx (some ⟨author, done ++ pending, [], none⟩)⟩ := by
  induction pending generalizing t done with
  | nil => simp [Machine.run]
  | cons p pending ih =>
    obtain ⟨f, patch⟩ := p
    obtain ⟨row, stored, known, wrote⟩ := writes (f, patch) List.mem_cons_self
    rw [List.map_cons, List.nodup_cons] at nodup
    have inspects : step ⟨t, Function.update sessions tx
        (some ⟨author, done, (f, patch) :: pending, none⟩)⟩ (.inspect tx) =
          some ⟨t, Function.update sessions tx
            (some ⟨author, done, (f, patch) :: pending, some row.approval⟩)⟩ := by
      simp only [step, Function.update_self, stored, Option.map_some, setSession,
        Function.update_idem]
    have seizes : step ⟨t, Function.update sessions tx
        (some ⟨author, done, (f, patch) :: pending, some row.approval⟩)⟩
        (.seize tx (env.clock f) ((db f).all (patch.ownerExists env.member))) =
          some ⟨t.stage tx f (new f), Function.update sessions tx
            (some ⟨author, done ++ [(f, patch)], pending, none⟩)⟩ := by
      simp only [step, seize, Function.update_self, free _ List.mem_cons_self, stored, known,
        Option.all_some, wrote, setSession, Function.update_idem, if_true]
    have rest : Machine.run step ⟨t.stage tx f (new f), Function.update sessions tx
        (some ⟨author, done ++ [(f, patch)], pending, none⟩)⟩ (pending.flatMap (turn env tx db)) =
          some ⟨(t.stage tx f (new f)).stageAll tx (pending.map (·.1)) new,
            Function.update sessions tx
              (some ⟨author, done ++ [(f, patch)] ++ pending, [], none⟩)⟩ := by
      refine ih nodup.2 (done ++ [(f, patch)]) ?_ ?_
      · intro p mem
        have other : p.1 ≠ f := fun same => nodup.1 (List.mem_map.mpr ⟨p, mem, same⟩)
        rw [RowTable.Table.locks_stage, Function.update_of_ne other]
        exact free p (List.mem_cons_of_mem _ mem)
      · intro p mem
        exact writes p (List.mem_cons_of_mem _ mem)
    rw [List.flatMap_cons, turn, List.cons_append, List.cons_append, List.nil_append]
    simp only [Machine.run, inspects, seizes, Option.bind_some, rest,
      RowTable.Table.stageAll_stage, List.map_cons, List.append_assoc, List.cons_append,
      List.nil_append]

/-- **The transaction of a bulk decision** installs what the handler computes, if nobody holds
one of the findings. -/
theorem run_bulk (inv : Inv False q) (unused : q.sessions tx = none)
    (free : ∀ id ∈ input.ids, q.findings.locks id = none)
    (committed : bulkPatchFindings env actor now input q.findings.rows = (.ok items, db')) :
    ∃ q', Machine.run step q (bulkActions env tx actor now input q.findings.rows) = some q' ∧
      q'.findings.rows = db' ∧ q'.sessions = q.sessions := by
  obtain ⟨valid, -, patched⟩ := bulk_eq_ok committed
  have nodup := BulkPatch.nodup_of_valid valid
  obtain ⟨inside, others⟩ := (patchAll_eq_ok nodup).mp patched
  have writes : ∀ id ∈ input.ids, ∃ row row', q.findings.rows id = some row ∧
      db' id = some row' ∧ (input.patch id).write ⟨actor, .bulkUpdate⟩ (env.clock id)
        ((input.patch id).ownerExists env.member row) row.approval row = .ok row' := by
    intro id mem
    obtain ⟨row, row', -, stored, stored', wrote⟩ := patchRow_eq_ok.mp (inside id mem)
    exact ⟨row, row', stored, stored', wrote⟩
  obtain ⟨new, installs⟩ : ∃ new : K → Finding, ∀ id ∈ input.ids, db' id = some (new id) := by
    obtain ⟨id, mem⟩ := BulkPatch.exists_mem_of_valid valid
    obtain ⟨-, sample, -⟩ := writes id mem
    refine ⟨fun id => (db' id).getD sample, fun id mem => ?_⟩
    obtain ⟨-, row', -, stored, -⟩ := writes id mem
    simp only [stored, Option.getD_some]
  have started : q.step (.start tx actor now (.bulkPatch input)) = some ⟨q.findings,
      Function.update q.sessions tx (some ⟨⟨actor, .bulkUpdate⟩, [],
        input.ids.map fun id => (id, input.patch id), none⟩)⟩ := by
    simp only [step, unused, Request.patches, valid, if_true, setSession]
    rfl
  have keys : (input.ids.map fun id => (id, input.patch id)).map (·.1) = input.ids := by
    simp [Function.comp_def]
  have turns : Machine.run step ⟨q.findings, Function.update q.sessions tx
      (some ⟨⟨actor, .bulkUpdate⟩, [], input.ids.map fun id => (id, input.patch id), none⟩)⟩
      ((input.ids.map fun id => (id, input.patch id)).flatMap (turn env tx q.findings.rows)) =
        some ⟨q.findings.stageAll tx ((input.ids.map fun id => (id, input.patch id)).map (·.1)) new,
          Function.update q.sessions tx (some ⟨⟨actor, .bulkUpdate⟩,
            [] ++ input.ids.map fun id => (id, input.patch id), [], none⟩)⟩ := by
    refine run_turns (by rw [keys]; exact nodup) [] (by simpa using free) ?_
    intro p mem
    obtain ⟨id, listed, rfl⟩ := List.mem_map.mp mem
    obtain ⟨row, row', stored, stored', wrote⟩ := writes id listed
    have same := Option.some.inj (stored'.symm.trans (installs id listed))
    exact ⟨row, stored, stored, same ▸ wrote⟩
  rw [keys] at turns
  have commits : step ⟨q.findings.stageAll tx input.ids new, Function.update q.sessions tx
      (some ⟨⟨actor, .bulkUpdate⟩, [] ++ input.ids.map fun id => (id, input.patch id), [], none⟩)⟩
      (.commit tx) = some ⟨(q.findings.stageAll tx input.ids new).commit tx,
        Function.update q.sessions tx none⟩ := by
    simp only [step, Function.update_self, endSession, Function.update_idem]
  refine ⟨⟨(q.findings.stageAll tx input.ids new).commit tx, Function.update q.sessions tx none⟩,
    ?_, ?_, ?_⟩
  · rw [bulkActions, Machine.run, started, Option.bind_some, Machine.run_append, turns,
      Option.bind_some, Machine.run, commits, Option.bind_some, Machine.run]
  · funext f
    show ((q.findings.stageAll tx input.ids new).commit tx).rows f = db' f
    rw [RowTable.Table.rows_commit_stageAll]
    · split
      case isTrue mem => exact (installs f mem).symm
      case isFalse outside => exact (others f outside).symm
    · rintro k l - locked rfl
      obtain ⟨s, opened, -⟩ := inv.tracked.owned k l locked
      rw [unused] at opened
      cases opened
  · show Function.update q.sessions tx none = q.sessions
    rw [← unused, Function.update_eq_self]

/-- The states that the interleavings of patches, merges, splits and notes reach. -/
def Reachable (q : Store K) : Prop := Machine.Reachable step (· = empty) q

theorem Reachable.inv (reachable : q.Reachable) : Inv False q := by
  refine Machine.Reachable.invariant ?_ ?_ reachable
  · rintro _ rfl
    exact inv_empty False
  · intro q a q' inv step
    exact inv.step False.elim step

end Store

/-! ### One request, sent twice -/

namespace Sample

def anyone : Surroundings ℕ := ⟨fun _ => true, fun _ => true, fun _ => 0⟩

/-- The acceptance of a risk until one and a half microseconds. -/
def accept (revision : ℕ) : BulkPatch ℕ where
  findingIDs := [0]
  ownerID := none
  workflowState := none
  decisionRevisions := some [(0, revision)]
  disposition := some (some "accepted-risk")
  acceptedRiskExpiresAt := some (some 1500)
  rationale := "r"

/-- One finding, for which the risk is accepted. -/
def accepted : List (Action ℕ) :=
  [.importFinding 0 finding, .start 1 "u" 0 (.bulkPatch (accept 1)), .inspect 1, .seize 1 0 true,
    .commit 1]

end Sample

open Sample in
/-- The request of `accepted`, sent once more, changes nothing and adds an event. -/
def addsEventOnly (q : Store ℕ) : Bool :=
  match bulkPatchFindings anyone "u" 0 (accept 2) q.findings.rows with
  | (.ok items, db') => (q.findings.rows 0).any fun row => (db' 0).any fun row' =>
    items = [0] && row'.decision = row.decision && row'.events.length = row.events.length + 1
  | _ => false

end Aspm.Decisions
