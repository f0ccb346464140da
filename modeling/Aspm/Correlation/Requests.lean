import Aspm.Correlation.Safety

/-!
# Repeated and outdated requests

A merge or a split names the request it serves by an idempotency key, and the state it was made
for by five revisions.  Here is what both are good for.

A key that an event has is taken for good: the request is answered from the event and does
nothing (`Replays`).  Without an event it commits only if the five revisions are current at that
moment, and what it then does is one event and one decision (`Commits`).

Between the state that a request was made for and its commit, nothing may have been committed on
either finding.  Most changes advance a revision of the finding and that is the end of it, but a
merge leaves no trace in the row of the finding that it adds to a group.  There it is the group
that stops the request, as long as the finding stays in it, and the split that releases the
finding advances its revision.  So `Outdated` is stable, and no outdated request commits.
-/

namespace Aspm.Correlation

open RowTable

variable {expected : Revisions} {number : ℕ}

/-- The transaction that takes the action. -/
def Action.party {FindingID GroupID : Type} : Action FindingID GroupID → Option (Tx FindingID)
  | .start tx => some tx
  | .execute tx _ => some tx
  | .commit tx => some tx
  | .abort tx => some tx
  | .importFinding _ _ _ => none
  | .importEvidence _ => none

/-- The action commits a change of the finding: an observation by an import, an edit, a merge or a
split. -/
def Action.changes {FindingID GroupID : Type} [LinearOrder FindingID] (f : FindingID) :
    Action FindingID GroupID → Prop
  | .importEvidence g => g = f
  | .commit ⟨_, .edit edit⟩ => f ∈ edit.findings
  | .commit ⟨_, .correlate request⟩ => f = request.primary ∨ f = request.other
  | _ => False

/-! ## Expected revisions -/

/-- The finding has come at least to the expected revisions. -/
def Revisions.Reached (expected : Revisions) (row : Finding) : Prop :=
  expected.decision ≤ row.decisionRevision ∧ expected.evidence ≤ row.evidenceRevision

/-- The finding has gone past one of the expected revisions. -/
def Revisions.Passed (expected : Revisions) (row : Finding) : Prop :=
  expected.decision < row.decisionRevision ∨ expected.evidence < row.evidenceRevision

variable {row : Finding}

theorem Revisions.Reached.follows {row' : Finding} (reached : expected.Reached row)
    (follows : row.Follows row') : expected.Reached row' :=
  ⟨reached.1.trans follows.decision, reached.2.trans follows.evidence⟩

theorem Revisions.Passed.follows {row' : Finding} (passed : expected.Passed row)
    (follows : row.Follows row') : expected.Passed row' := by
  rcases passed with decision | evidence
  · exact .inl (decision.trans_le follows.decision)
  · exact .inr (evidence.trans_le follows.evidence)

theorem Revisions.Reached.advanceDecision (reached : expected.Reached row) :
    expected.Passed row.advanceDecision :=
  .inl (Nat.lt_succ_of_le reached.1)

theorem Revisions.Reached.advanceEvidence (reached : expected.Reached row) :
    expected.Passed row.advanceEvidence :=
  .inr (Nat.lt_succ_of_le reached.2)

namespace Store

variable {FindingID GroupID : Type} [LinearOrder FindingID] [DecidableEq GroupID]
  {q q' : Store FindingID GroupID} {request : Request FindingID}

/-! ## What a step is -/

variable {a : Action FindingID GroupID}

/-- Every step leaves the groups, or is the commit of a merge or a split. -/
theorem Inv.quiet_or_publish (inv : Inv False q) (step : q.step a = some q') :
    (∃ party, Quiet party q q') ∨
      ∃ number request id group, a = .commit ⟨number, .correlate request⟩ ∧
        q.progress ⟨number, .correlate request⟩ = some (.written id group) ∧
        q' = q.publish ⟨number, .correlate request⟩ id group := by
  unfold Store.step at step
  cases a with
  | importFinding f assetID sourceID =>
    dsimp only at step
    split at step
    case isTrue => cases step
    case isFalse absent =>
      obtain rfl := Option.some.inj step
      exact .inl ⟨none, .insert (by simpa using absent), rfl, rfl, fun _ _ same => same,
        fun _ _ => rfl, fun _ _ _ held => held⟩
  | importEvidence f =>
    dsimp only at step
    split at step
    case isTrue => cases step
    case isFalse locked =>
      obtain rfl := Option.some.inj step
      exact .inl ⟨none, .update (by simpa using locked) Finding.follows_advanceEvidence, rfl, rfl,
        fun _ _ same => same, fun _ _ => rfl, fun _ _ _ held => held⟩
  | start tx => exact .inl ⟨some tx, (inv.start_cases step).1⟩
  | execute tx statement =>
    obtain ⟨progress, running, ran⟩ := Option.bind_eq_some_iff.mp step
    have standing := inv.standing tx progress running
    obtain ⟨number, request | edit⟩ := tx
    · exact .inl ⟨_, (inv.executes_correlate standing ran).quiet⟩
    · exact .inl ⟨_, (inv.executes_edit standing running False.elim ran).quiet⟩
  | commit tx =>
    obtain ⟨progress, running, ran⟩ := Option.bind_eq_some_iff.mp step
    obtain ⟨number, request | edit⟩ := tx
    · obtain ⟨id, group, rfl, rfl⟩ := commit_correlate ran
      exact .inr ⟨number, request, id, group, rfl, running, rfl⟩
    · obtain ⟨-, rfl⟩ := commit_edit ran
      exact .inl ⟨_, .finish .commit⟩
  | abort tx =>
    dsimp only at step
    split at step
    case isFalse => cases step
    case isTrue =>
      obtain rfl := Option.some.inj step
      exact .inl ⟨_, .finish .abort⟩

theorem Inv.persist_step (inv : Inv False q) (step : q.step a = some q') :
    Persist q.findings.rows q'.findings.rows := by
  rcases inv.quiet_or_publish step with ⟨party, quiet⟩ | ⟨number, request, id, group, -, -, rfl⟩
  · exact quiet.persist inv
  · exact inv.persist_publish

omit [DecidableEq GroupID] in
/-- What a transaction has advanced is advanced by its commit. -/
theorem Advances.rows_commit {tx : Tx FindingID} {f : FindingID} (advances : q.Advances tx f)
    {row : Finding} (stored : q.findings.rows f = some row) :
    (q.findings.commit tx).rows f = some row.advanceDecision := by
  obtain ⟨row', since, holds⟩ := advances
  obtain rfl := Option.some.inj (stored.symm.trans holds.stored)
  exact holds.rows_commit

/-! ## Replays -/

/-- How a request is answered whose key has an event: with the group of the event if it is of
this very request, and with a conflict if not.  It takes no step. -/
structure Replays (q : Store FindingID GroupID) (request : Request FindingID) (id : GroupID)
    (event : Event FindingID) : Prop where
  answer : q.correlationReplay request =
    if event.request = request then .ok (some id) else .error .conflict
  idle : ∀ number a, a.party = some ⟨number, .correlate request⟩ → q.step a = none

variable {group : Group FindingID}

omit [DecidableEq GroupID] in
theorem Inv.correlationReplay_eq (inv : Inv False q) {id : GroupID} {event : Event FindingID}
    (stored : q.groups id = some group) (mem : event ∈ group.events)
    (key : event.request.idempotencyKey = request.idempotencyKey) :
    q.correlationReplay request =
      if event.request = request then .ok (some id) else .error .conflict := by
  unfold correlationReplay
  dsimp only
  split
  case h_1 absent =>
    refine absurd (decide_eq_true key) (List.find?_eq_none.mp absent (id, event) ?_)
    refine List.mem_flatMap.mpr ⟨id, inv.known id group stored, ?_⟩
    rw [stored]
    exact List.mem_map_of_mem mem
  case h_2 id' event' found =>
    obtain ⟨id'', -, listed⟩ := List.mem_flatMap.mp (List.mem_of_find?_eq_some found)
    obtain ⟨event'', mem', same⟩ := List.mem_map.mp listed
    obtain ⟨rfl, rfl⟩ := Prod.mk.inj same
    cases stored' : q.groups id'' with
    | none => simp [stored'] at mem'
    | some group' =>
      simp only [stored', Option.map_some, Option.getD_some] at mem'
      have key' : event''.request.idempotencyKey = request.idempotencyKey := by
        simpa using List.find?_some found
      obtain ⟨rfl, rfl⟩ := inv.keysUnique id'' id group' group stored' stored event'' mem' event
        mem (key'.trans key.symm)
      rfl

theorem Inv.replays (inv : Inv False q) {id : GroupID} {event : Event FindingID}
    (stored : q.groups id = some group) (mem : event ∈ group.events)
    (key : event.request.idempotencyKey = request.idempotencyKey) : q.Replays request id event := by
  refine ⟨inv.correlationReplay_eq stored mem key, ?_⟩
  intro number a party
  -- a transaction of the request is not open, since the key of an open one has no event
  have closed : q.progress ⟨number, .correlate request⟩ = none := by
    by_contra running
    obtain ⟨progress, running⟩ := Option.ne_none_iff_exists'.mp running
    exact (inv.keyed number request progress running).2 id group stored event mem key
  cases a with
  | importFinding f assetID sourceID => cases party
  | importEvidence f => cases party
  | start tx =>
    obtain rfl := Option.some.inj party
    cases started : q.step (.start ⟨number, .correlate request⟩) with
    | none => rfl
    | some q' =>
      obtain ⟨-, -, -, begun⟩ := inv.start_cases started
      rcases begun with ⟨number', request', work, -, -, -, unused⟩ | ⟨number', edit, work, -⟩
      · obtain rfl := Work.correlate.inj (Tx.mk.inj work).2
        exact absurd key (unused id group stored event mem)
      · cases work
  | execute tx statement =>
    obtain rfl := Option.some.inj party
    simp only [Store.step, closed, Option.bind_none]
  | commit tx =>
    obtain rfl := Option.some.inj party
    simp only [Store.step, closed, Option.bind_none]
  | abort tx =>
    obtain rfl := Option.some.inj party
    simp only [Store.step, closed, Option.isSome_none, Bool.false_eq_true, if_false]

/-! ## Commits -/

/-- The revision of the group that the finding leads, zero without one. -/
def correlationRevision (q : Store FindingID GroupID) (primary : FindingID) : ℕ :=
  ((q.ledBy primary).map (·.2)).getD 0

/-- What the commit of a request needs, and what it does. -/
structure Commits (q q' : Store FindingID GroupID) (request : Request FindingID) : Prop where
  current : q.Current request
  revision : q.correlationRevision request.primary = request.correlationRevision
  event : ∃ id group, q'.groups id = some group ∧
    group.events = ((q.groups id).map (·.events)).getD [] ++
      [⟨request.correlationRevision + 1, request⟩] ∧
    ∀ id', id' ≠ id → q'.groups id' = q.groups id'
  decision : ∀ row, q.findings.rows request.primary = some row →
    q'.findings.rows request.primary = some row.advanceDecision

omit [DecidableEq GroupID] in
theorem Inv.correlationRevision_eq (inv : Inv False q) {tx : Tx FindingID} {id : GroupID}
    (written : q.Written tx request id group) :
    q.correlationRevision request.primary = request.correlationRevision := by
  unfold correlationRevision
  rcases written.origin with ⟨-, -, zero, free⟩ | ⟨old, stored, leads, revision, active⟩
  · cases found : q.ledBy request.primary with
    | none => exact zero.symm
    | some led =>
      obtain ⟨group, stored, leads, active, -⟩ := ledBy_eq_some found
      have joined := (inv.wellFormed _ group stored).joined active
      exact absurd (leads ▸ joined.primary) (free _ group stored)
  · cases found : q.ledBy request.primary with
    | none =>
      have skipped := List.findSome?_eq_none_iff.mp found id (inv.known id old stored)
      simp [stored, leads, active] at skipped
    | some led =>
      obtain ⟨group, stored', leads', active', revision'⟩ := ledBy_eq_some found
      have primary := leads ▸ ((inv.wellFormed _ old stored).joined active).primary
      have primary' := leads' ▸ ((inv.wellFormed _ group stored').joined active').primary
      obtain rfl := inv.exclusive id led.1 old group _ stored stored' primary primary'
      obtain rfl := Option.some.inj (stored.symm.trans stored')
      exact revision'.symm.trans revision

theorem Inv.commits (inv : Inv False q)
    (step : q.step (.commit ⟨number, .correlate request⟩) = some q') : Commits q q' request := by
  obtain ⟨progress, running, ran⟩ := Option.bind_eq_some_iff.mp step
  obtain ⟨id, group, rfl, rfl⟩ := commit_correlate ran
  have standing := inv.standing _ _ running
  cases standing with
  | written primary other released current written =>
  exact ⟨current, inv.correlationRevision_eq written,
    ⟨id, group, Function.update_self _ _ _, written.events, fun _ => groups_publish_of_ne⟩,
    fun _ stored => primary.rows_commit stored⟩

/-! ## Outdated requests -/

/-- The revisions that a request expects of a finding lie in the past. -/
def Known (q : Store FindingID GroupID) (f : FindingID) (expected : Revisions) : Prop :=
  ∃ row, q.findings.rows f = some row ∧ expected.Reached row

/-- Why a request cannot commit any more.  A finding has gone past a revision, or the primary has
become a secondary, or the other finding is in a group where the request does not expect it. -/
inductive Outdated (q : Store FindingID GroupID) (request : Request FindingID) : Prop
  | primary {row : Finding} (stored : q.findings.rows request.primary = some row)
      (passed : request.primaryRevisions.Passed row)
  | other {row : Finding} (stored : q.findings.rows request.other = some row)
      (passed : request.otherRevisions.Passed row)
  | joined (secondary : Secondary q.groups request.primary)
  | taken {id : GroupID} {group : Group FindingID} (stored : q.groups id = some group)
      (member : request.other ∈ group.activeMemberIDs)
      (elsewhere : request.isMerge = true ∨ group.primary ≠ request.primary)

section Outdated

variable {f : FindingID}

omit [LinearOrder FindingID] [DecidableEq GroupID] in
theorem Known.persist (known : q.Known f expected)
    (persist : Persist q.findings.rows q'.findings.rows) : q'.Known f expected := by
  obtain ⟨row, stored, reached⟩ := known
  obtain ⟨row', stored', follows⟩ := persist f row stored
  exact ⟨row', stored', reached.follows follows⟩

omit [DecidableEq GroupID] in
/-- A commit that advances a finding takes it past the revisions that it had reached. -/
theorem Known.passed_commit {tx : Tx FindingID} (known : q.Known f expected)
    (advances : q.Advances tx f) :
    ∃ row, (q.findings.commit tx).rows f = some row ∧ expected.Passed row := by
  obtain ⟨row, stored, reached⟩ := known
  exact ⟨_, advances.rows_commit stored, reached.advanceDecision⟩

/-- A finding that a commit releases from its group has advanced. -/
theorem Inv.released_or_kept (inv : Inv False q) {request' : Request FindingID} {id id' : GroupID}
    {group old : Group FindingID}
    (running : q.progress ⟨number, .correlate request'⟩ = some (.written id group))
    (stored : q.groups id' = some old) (member : f ∈ old.activeMemberIDs)
    (known : q.Known f expected) :
    (∃ row, (q.findings.commit ⟨number, .correlate request'⟩).rows f = some row ∧
        expected.Passed row) ∨
      ∃ new, (q.publish ⟨number, .correlate request'⟩ id group).groups id' = some new ∧
        new.primary = old.primary ∧ f ∈ new.activeMemberIDs := by
  have standing := inv.standing _ _ running
  cases standing with
  | written primary other released current written =>
  by_cases same : id' = id
  · subst same
    rcases written.leaves old stored f member with kept | ⟨splits, rfl | rfl⟩
    · refine .inr ⟨group, Function.update_self _ _ _, ?_, kept⟩
      rcases written.origin with ⟨fresh, -⟩ | ⟨old', stored', leads, -⟩
      · exact nomatch fresh.symm.trans stored
      · obtain rfl := Option.some.inj (stored.symm.trans stored')
        rw [written.leads, leads]
    · exact .inl (known.passed_commit primary)
    · exact .inl (known.passed_commit (released splits))
  · exact .inr ⟨old, (groups_publish_of_ne same).trans stored, rfl, member⟩

variable {a : Action FindingID GroupID}

/-- **Once outdated, always outdated.** -/
theorem Outdated.step (outdated : q.Outdated request) (inv : Inv False q)
    (primary : q.Known request.primary request.primaryRevisions)
    (other : q.Known request.other request.otherRevisions) (step : q.step a = some q') :
    q'.Outdated request := by
  have persist := inv.persist_step step
  have inv' : Inv False q' := inv.step False.elim step
  cases outdated with
  | primary stored passed =>
    obtain ⟨row, stored, follows⟩ := persist _ _ stored
    exact .primary stored (passed.follows follows)
  | other stored passed =>
    obtain ⟨row, stored, follows⟩ := persist _ _ stored
    exact .other stored (passed.follows follows)
  | joined secondary =>
    rcases inv.quiet_or_publish step with ⟨party, quiet⟩ |
      ⟨number, request', id, group, -, running, rfl⟩
    · exact .joined (quiet.groups ▸ secondary)
    · obtain ⟨id', old, stored, -, member, apart⟩ := secondary
      rcases inv.released_or_kept running stored member primary with ⟨row, stored, passed⟩ |
        ⟨new, stored, leads, member⟩
      · exact .primary stored passed
      · exact .joined ⟨id', new, stored, (inv'.wellFormed id' new stored).state_of_mem member,
          member, leads ▸ apart⟩
  | taken stored member elsewhere =>
    rcases inv.quiet_or_publish step with ⟨party, quiet⟩ |
      ⟨number, request', id, group, -, running, rfl⟩
    · exact .taken (quiet.groups ▸ stored) member elsewhere
    · rcases inv.released_or_kept running stored member other with ⟨row, stored, passed⟩ |
        ⟨new, stored, leads, member⟩
      · exact .other stored passed
      · exact .taken stored member (leads ▸ elsewhere)

/-- An outdated request does not commit. -/
theorem Outdated.rejected (outdated : q.Outdated request) (inv : Inv False q) (number : ℕ) :
    q.step (.commit ⟨number, .correlate request⟩) = none := by
  cases committed : q.step (.commit ⟨number, .correlate request⟩) with
  | none => rfl
  | some q' =>
  exfalso
  obtain ⟨progress, running, ran⟩ := Option.bind_eq_some_iff.mp committed
  obtain ⟨id, group, rfl, -⟩ := commit_correlate ran
  have standing := inv.standing _ _ running
  cases standing with
  | written _ _ _ current written =>
  obtain ⟨primary, other, storedPrimary, storedOther, current⟩ := current
  simp only [Request.current, Bool.and_eq_true, decide_eq_true_eq] at current
  cases outdated with
  | primary stored passed =>
    obtain rfl := Option.some.inj (stored.symm.trans storedPrimary)
    rw [← current.1] at passed
    exact passed.elim (lt_irrefl _) (lt_irrefl _)
  | other stored passed =>
    obtain rfl := Option.some.inj (stored.symm.trans storedOther)
    rw [← current.2] at passed
    exact passed.elim (lt_irrefl _) (lt_irrefl _)
  | joined secondary =>
    cases kind : request.isMerge with
    | true => exact (written.merges kind).2.1 secondary
    | false =>
      obtain ⟨old, stored, -⟩ := written.splits kind
      rcases written.origin with ⟨fresh, -⟩ | ⟨old', stored', leads, -, active⟩
      · exact nomatch fresh.symm.trans stored
      · have member := ((inv.wellFormed id old' stored').joined active).primary
        exact (inv.secondary_iff stored' active member).mp (leads ▸ secondary) rfl
  | taken stored member elsewhere =>
    cases kind : request.isMerge with
    | true => exact (written.merges kind).1 _ _ stored member
    | false =>
      obtain ⟨old, stored', member'⟩ := written.splits kind
      obtain rfl := inv.exclusive _ _ _ _ _ stored stored' member member'
      obtain rfl := Option.some.inj (stored.symm.trans stored')
      rcases written.origin with ⟨fresh, -⟩ | ⟨old', stored'', leads, -⟩
      · exact nomatch fresh.symm.trans stored
      · obtain rfl := Option.some.inj (stored.symm.trans stored'')
        rcases elsewhere with merges | apart
        · exact nomatch kind.symm.trans merges
        · exact apart leads

/-- What a committed change does to a finding: it takes it past its revisions, or it is a merge
that makes the finding a member of the group of another. -/
theorem Inv.changed (inv : Inv False q) (changes : a.changes f) (step : q.step a = some q')
    (known : q.Known f expected) :
    (∃ row, q'.findings.rows f = some row ∧ expected.Passed row) ∨
      ∃ number request' id group, a = .commit ⟨number, .correlate request'⟩ ∧
        q'.groups id = some group ∧ f ∈ group.activeMemberIDs ∧
        group.primary = request'.primary ∧ request'.primary ≠ f := by
  cases a with
  | importFinding g assetID sourceID => cases changes
  | importEvidence g =>
    obtain rfl : g = f := changes
    unfold Store.step at step
    dsimp only at step
    split at step
    case isTrue => cases step
    case isFalse =>
      obtain rfl := Option.some.inj step
      obtain ⟨row, stored, reached⟩ := known
      refine .inl ⟨row.advanceEvidence, ?_, reached.advanceEvidence⟩
      show (q.findings.update [g] _).rows g = _
      rw [Table.rows_update, if_pos (List.mem_singleton_self g), stored, Option.map_some]
  | start tx => cases changes
  | execute tx statement => cases changes
  | abort tx => cases changes
  | commit tx =>
    obtain ⟨progress, running, ran⟩ := Option.bind_eq_some_iff.mp step
    obtain ⟨number, request' | edit⟩ := tx
    · obtain ⟨id, group, rfl, rfl⟩ := commit_correlate ran
      have standing := inv.standing _ _ running
      cases standing with
      | written primary other released current written =>
      rcases changes with rfl | rfl
      · exact .inl (known.passed_commit primary)
      · cases kind : request'.isMerge with
        | false => exact .inl (known.passed_commit (released kind))
        | true =>
          obtain ⟨-, -, member, apart⟩ := written.merges kind
          exact .inr ⟨number, request', id, group, rfl, Function.update_self _ _ _, member,
            written.leads, apart.symm⟩
    · obtain ⟨ready, rfl⟩ := commit_edit ran
      exact .inl (known.passed_commit ((inv.ready_edit running ready).1 f changes))

/-- **A committed change on either finding outdates a request.** -/
theorem Inv.outdates (inv : Inv False q)
    (changes : a.changes request.primary ∨ a.changes request.other) (step : q.step a = some q')
    (primary : q.Known request.primary request.primaryRevisions)
    (other : q.Known request.other request.otherRevisions) : q'.Outdated request := by
  have inv' : Inv False q' := inv.step False.elim step
  rcases changes with changes | changes
  · rcases inv.changed changes step primary with ⟨row, stored, passed⟩ |
      ⟨number, request', id, group, -, stored, member, leads, apart⟩
    · exact .primary stored passed
    · exact .joined ⟨id, group, stored, (inv'.wellFormed id group stored).state_of_mem member,
        member, leads ▸ apart⟩
  · rcases inv.changed changes step other with ⟨row, stored, passed⟩ |
      ⟨number, request', id, group, rfl, stored, member, leads, apart⟩
    · exact .other stored passed
    · by_cases same : request'.primary = request.primary
      · -- the group is the one that the primary leads, so the merge has advanced the primary
        have change : (Action.commit ⟨number, .correlate request'⟩ :
            Action FindingID GroupID).changes request.primary := .inl same.symm
        rcases inv.changed change step primary with ⟨row, stored, passed⟩ |
          ⟨number', request'', id', group', same', -, -, -, apart'⟩
        · exact .primary stored passed
        · obtain ⟨-, work⟩ := Tx.mk.inj (Action.commit.inj same')
          obtain rfl := Work.correlate.inj work
          exact absurd same apart'
      · exact .taken stored member (.inr (leads ▸ same))

end Outdated

/-! ## The guards of a request -/

/-- Idempotency keys and revisions guard the requests of a workspace in this state. -/
structure RequestsGuarded (q : Store FindingID GroupID) : Prop where
  /-- A request whose key has an event is answered from it, and does nothing. -/
  replays : ∀ request id group event, q.groups id = some group → event ∈ group.events →
    event.request.idempotencyKey = request.idempotencyKey → q.Replays request id event
  /-- A request that commits was made for the current revisions, and adds one event. -/
  commits : ∀ request number q', q.step (.commit ⟨number, .correlate request⟩) = some q' →
    Commits q q' request
  /-- A request made for this state never commits once a change of either finding has. -/
  outdated : ∀ request, q.Current request → ∀ before a after q₁ q₂ q₃,
    Machine.run step q before = some q₁ → q₁.step a = some q₂ →
    a.changes request.primary ∨ a.changes request.other →
    Machine.run step q₂ after = some q₃ →
    ∀ number, q₃.step (.commit ⟨number, .correlate request⟩) = none
  /-- And a request that does not commit changes nothing. -/
  rejected : ∀ request number a q', a.party = some ⟨number, .correlate request⟩ →
    a ≠ .commit ⟨number, .correlate request⟩ → q.step a = some q' →
    q'.findings.rows = q.findings.rows ∧ q'.groups = q.groups

theorem Inv.rejected (inv : Inv False q) (party : a.party = some ⟨number, .correlate request⟩)
    (uncommitted : a ≠ .commit ⟨number, .correlate request⟩) (step : q.step a = some q') :
    q'.findings.rows = q.findings.rows ∧ q'.groups = q.groups := by
  cases a with
  | importFinding f assetID sourceID => cases party
  | importEvidence f => cases party
  | start tx =>
    obtain ⟨quiet, same, -⟩ := inv.start_cases step
    exact ⟨by rw [same], quiet.groups⟩
  | execute tx statement =>
    obtain rfl := Option.some.inj party
    obtain ⟨progress, running, ran⟩ := Option.bind_eq_some_iff.mp step
    have executes := inv.executes_correlate (inv.standing _ _ running) ran
    exact ⟨executes.rows, executes.quiet.groups⟩
  | commit tx =>
    obtain rfl := Option.some.inj party
    exact absurd rfl uncommitted
  | abort tx =>
    unfold Store.step at step
    dsimp only at step
    split at step
    case isFalse => cases step
    case isTrue =>
      obtain rfl := Option.some.inj step
      exact ⟨rfl, rfl⟩

omit [LinearOrder FindingID] [DecidableEq GroupID] in
theorem Current.known [LinearOrder FindingID] (current : q.Current request) :
    q.Known request.primary request.primaryRevisions ∧
      q.Known request.other request.otherRevisions := by
  obtain ⟨primary, other, storedPrimary, storedOther, current⟩ := current
  simp only [Request.current, Bool.and_eq_true, decide_eq_true_eq] at current
  refine ⟨⟨primary, storedPrimary, ?_⟩, other, storedOther, ?_⟩
  · rw [← current.1]
    exact ⟨le_rfl, le_rfl⟩
  · rw [← current.2]
    exact ⟨le_rfl, le_rfl⟩

/-- What a run keeps of a request that was made in its past. -/
structure Pending (q : Store FindingID GroupID) (request : Request FindingID) : Prop where
  inv : Inv False q
  primary : q.Known request.primary request.primaryRevisions
  other : q.Known request.other request.otherRevisions

theorem Pending.step (pending : q.Pending request) (step : q.step a = some q') :
    q'.Pending request where
  inv := pending.inv.step False.elim step
  primary := pending.primary.persist (pending.inv.persist_step step)
  other := pending.other.persist (pending.inv.persist_step step)

/-- **Merges and splits are idempotent and guarded by revisions**, in every reachable state. -/
theorem reachable_requestsGuarded (reachable : q.Reachable) : q.RequestsGuarded := by
  have inv := reachable.inv
  constructor
  · intro request id group event stored mem key
    exact inv.replays stored mem key
  · intro request number q' step
    exact inv.commits step
  · intro request current before a after q₁ q₂ q₃ runs taken changes runs' number
    have pending : q.Pending request := ⟨inv, current.known.1, current.known.2⟩
    have pending₁ : q₁.Pending request :=
      Machine.run_invariant (P := fun q => q.Pending request)
        (fun _ _ _ pending step => pending.step step) pending runs
    have outdated := pending₁.inv.outdates changes taken pending₁.primary pending₁.other
    -- from here on both facts are kept together
    obtain ⟨pending₃, outdated₃⟩ := Machine.run_invariant
      (P := fun q => q.Pending request ∧ q.Outdated request)
      (fun _ _ _ kept step => ⟨kept.1.step step,
        kept.2.step kept.1.inv kept.1.primary kept.1.other step⟩)
      ⟨pending₁.step taken, outdated⟩ runs'
    exact outdated₃.rejected pending₃.inv number
  · intro request number a q' party uncommitted step
    exact inv.rejected party uncommitted step

end Store

open Sample in
theorem reachable_requestsGuarded_regrouped :
    ∃ q : Store ℕ ℕ, q.Reachable ∧
      (q.correlationReplay (mergeRequest 1 2 0 1 "first")).toOption = some (some 7) ∧
      (q.correlationReplay (mergeRequest 1 3 0 1 "first")).toOption = none ∧
      q.RequestsGuarded := by
  have runs : (Machine.run Store.step Store.empty regrouped).map (fun q =>
      ((q.correlationReplay (mergeRequest 1 2 0 1 "first")).toOption,
        (q.correlationReplay (mergeRequest 1 3 0 1 "first")).toOption)) =
      some (some (some 7), none) := by decide
  obtain ⟨q, reached, answers⟩ := Option.map_eq_some_iff.mp runs
  obtain ⟨same, conflict⟩ := Prod.mk.inj answers
  have reachable : q.Reachable := ⟨_, regrouped, rfl, reached⟩
  exact ⟨q, reachable, same, conflict, Store.reachable_requestsGuarded reachable⟩

end Aspm.Correlation
