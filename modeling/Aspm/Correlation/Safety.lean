import Aspm.Correlation.Invariant

/-!
# Well-formed groups, and edits of their members

The first result is about the groups alone: whatever the merges, splits, edits and imports of
a workspace do to each other, the groups stay well formed, and of an active group exactly the
primary is visible.

The second is about edits.  A bulk patch reads its findings again before it commits, with
their locks in hand, so it never changes a finding that has become a secondary.  A patch or a
note does not: it may wait for the lock of a merge, and go on when the merge has committed,
since the merge does not change the row of the secondary and the visibility was tested before
the wait (`patch_commits_on_secondary`).  What saves an edit is that its finding is visible
still when the lock is granted.
-/

namespace Aspm.Correlation

namespace Store

variable {FindingID GroupID : Type} [LinearOrder FindingID] [DecidableEq GroupID]
  {q : Store FindingID GroupID}

theorem Reachable.inv (reachable : q.Reachable) : Inv False q := by
  refine Machine.Reachable.invariant ?_ ?_ reachable
  · rintro _ rfl
    exact inv_empty
  · intro q a q' inv step
    exact inv.step False.elim step

/-! ## Groups -/

/-- The correlation groups of a workspace, as the schema and the handlers mean them. -/
structure GroupsWellFormed (q : Store FindingID GroupID) : Prop where
  /-- A finding is an active member of at most one group. -/
  exclusive : ∀ f id id' group group', q.groups id = some group → q.groups id' = some group' →
    f ∈ group.activeMemberIDs → f ∈ group'.activeMemberIDs → id = id'
  /-- An active group has two distinct active members or more, and its primary is one. -/
  members : ∀ id group, q.groups id = some group → group.state = .active →
    2 ≤ group.activeMemberIDs.length ∧ group.activeMemberIDs.Nodup ∧
      group.primary ∈ group.activeMemberIDs
  /-- The active members of an active group are findings of one asset. -/
  asset : ∀ id group, q.groups id = some group → group.state = .active →
    ∃ assetID, ∀ f ∈ group.activeMemberIDs, ∃ row, q.findings.rows f = some row ∧
      row.assetID = assetID
  /-- And they come from pairwise distinct sources. -/
  sources : ∀ id group, q.groups id = some group → group.state = .active →
    ∀ f ∈ group.activeMemberIDs, ∀ f' ∈ group.activeMemberIDs, f ≠ f' →
      ∀ row row', q.findings.rows f = some row → q.findings.rows f' = some row' →
        row.sourceID ≠ row'.sourceID
  split : ∀ id group, q.groups id = some group → group.state = .split →
    group.activeMemberIDs = []
  /-- A group has at most 64 members ever, with the ordinals `0`, …, `n - 1`. -/
  ordinals : ∀ id group, q.groups id = some group →
    group.members.length ≤ 64 ∧ group.members.map (·.ordinal) = List.range group.members.length
  /-- The revision counts the events, which have the sequences `1`, …, `revision`. -/
  events : ∀ id group, q.groups id = some group →
    group.events.length = group.revision ∧
      group.events.map (·.sequence) = List.range' 1 group.revision
  /-- Of the active members of an active group, exactly the primary is visible. -/
  visible : ∀ id group, q.groups id = some group → group.state = .active →
    ∀ f ∈ group.activeMemberIDs, q.workVisible f = true ↔ f = group.primary
  /-- And so is every finding outside of active groups. -/
  outside : ∀ f, (∀ id group, q.groups id = some group → group.state = .active →
    f ∉ group.activeMemberIDs) → q.workVisible f = true

omit [DecidableEq GroupID] in
/-- In its group the primary is the only active member that is not a secondary. -/
theorem Inv.secondary_iff {guarded : Prop} (inv : Inv guarded q) {id : GroupID}
    {group : Group FindingID} {f : FindingID} (stored : q.groups id = some group)
    (active : group.state = .active) (member : f ∈ group.activeMemberIDs) :
    Secondary q.groups f ↔ f ≠ group.primary := by
  constructor
  · rintro ⟨id', group', stored', -, member', apart⟩ rfl
    obtain rfl := inv.exclusive id id' group group' _ stored stored' member member'
    obtain rfl := Option.some.inj (stored.symm.trans stored')
    exact apart rfl
  · intro apart
    exact ⟨id, group, stored, active, member, apart.symm⟩

/-- **Correlation groups stay well formed.**  In every state that any interleaving of merges,
splits, patches, notes, bulk patches and imports reaches. -/
theorem reachable_groupsWellFormed (reachable : q.Reachable) : q.GroupsWellFormed := by
  have inv := reachable.inv
  constructor
  · intro f id id' group group' stored stored' member member'
    exact inv.exclusive id id' group group' f stored stored' member member'
  · intro id group stored active
    have wellFormed := inv.wellFormed id group stored
    have joined := wellFormed.joined active
    exact ⟨joined.two, wellFormed.active_nodup, joined.primary⟩
  · intro id group stored active
    have joined := (inv.wellFormed id group stored).joined active
    obtain ⟨primary, storedPrimary⟩ :=
      Option.isSome_iff_exists.mp (joined.stored _ joined.primary)
    refine ⟨primary.assetID, fun f member => ?_⟩
    obtain ⟨row, storedRow⟩ := Option.isSome_iff_exists.mp (joined.stored f member)
    have same := joined.asset f member
    simp only [assetOf, storedRow, storedPrimary, Option.map_some, Option.some.injEq] at same
    exact ⟨row, storedRow, same⟩
  · intro id group stored active f member f' member' apart row row' storedRow storedRow' same
    have joined := (inv.wellFormed id group stored).joined active
    refine apart (joined.sources f member f' member' ?_)
    simp only [sourceOf, storedRow, storedRow', Option.map_some, same]
  · intro id group stored
    exact (inv.wellFormed id group stored).dissolved
  · intro id group stored
    have wellFormed := inv.wellFormed id group stored
    exact ⟨wellFormed.bounded, wellFormed.ordinals⟩
  · intro id group stored
    have wellFormed := inv.wellFormed id group stored
    exact ⟨wellFormed.length_events, wellFormed.sequences⟩
  · intro id group stored active f member
    rw [inv.workVisible_iff, inv.secondary_iff stored active member, not_not]
  · intro f outside
    rw [inv.workVisible_iff]
    rintro ⟨id, group, stored, active, member, -⟩
    exact outside id group stored active member

end Store

/-! ### A workspace with three findings -/

namespace Sample

def decision : FindingDecision where
  ownerID := none
  workflowState := .opened
  disposition := .none
  acceptedRiskExpiresAt := none
  dispositionScope := ""
  suppressionExpiresAt := none
  dispositionRationale := ""

def mergeRequest (primary other correlationRevision primaryRevision : ℕ) (key : String) :
    Request ℕ where
  actor := "analyst"
  primary := primary
  other := other
  correlationRevision := correlationRevision
  primaryRevisions := ⟨primaryRevision, 1⟩
  otherRevisions := ⟨1, 1⟩
  change := .merge decision
  rationale := "one defect"
  idempotencyKey := key

def splitRequest (primary member correlationRevision primaryRevision : ℕ) (key : String) :
    Request ℕ :=
  { mergeRequest primary member correlationRevision primaryRevision key with
    change := .split decision decision }

def mergeTx (request : Request ℕ) : Tx ℕ := ⟨0, .correlate request⟩

/-- Three findings of one asset. -/
def imported : List (Action ℕ ℕ) :=
  [.importFinding 1 "asset" "one", .importFinding 2 "asset" "two",
    .importFinding 3 "asset" "three"]

/-- A merge up to its locks. -/
def lock (tx : Tx ℕ) : List (Action ℕ ℕ) :=
  [.start tx, .execute tx .lockFirst, .execute tx .lockSecond]

/-- And from there on. -/
def merge (tx : Tx ℕ) (newID : ℕ) : List (Action ℕ ℕ) :=
  [.execute tx .readPrimary, .execute tx .readOther, .execute tx (.write newID), .commit tx]

def split (tx : Tx ℕ) : List (Action ℕ ℕ) :=
  [.execute tx .readLed, .execute tx (.write 0), .commit tx]

def first : Tx ℕ := mergeTx (mergeRequest 1 2 0 1 "first")

def second : Tx ℕ := mergeTx (mergeRequest 1 3 1 2 "second")

def third : Tx ℕ := mergeTx (splitRequest 1 2 2 3 "third")

/-- Two merges into one group, and a split of one member. -/
def regrouped : List (Action ℕ ℕ) :=
  imported ++ lock first ++ merge first 7 ++ lock second ++ merge second 8 ++ lock third ++
    split third

end Sample

open Sample in
theorem reachable_groupsWellFormed_regrouped :
    ∃ q : Store ℕ ℕ, q.Reachable ∧ (q.groups 7).map (·.activeMemberIDs) = some [1, 3] ∧
      q.GroupsWellFormed := by
  have runs : ((Machine.run Store.step Store.empty regrouped).bind (·.groups 7)).map
      (·.activeMemberIDs) = some [1, 3] := by decide
  obtain ⟨group, stored, active⟩ := Option.map_eq_some_iff.mp runs
  obtain ⟨q, reached, stored⟩ := Option.bind_eq_some_iff.mp stored
  have reachable : q.Reachable := ⟨_, regrouped, rfl, reached⟩
  exact ⟨q, reachable, by rw [stored, Option.map_some, active],
    Store.reachable_groupsWellFormed reachable⟩

/-! ## Edits -/

namespace Store

variable {FindingID GroupID : Type} [LinearOrder FindingID] [DecidableEq GroupID]

/-- The action commits no edit on a finding that is an active member, but not the primary, of
an active group at that moment. -/
def SparesSecondaries (q : Store FindingID GroupID) (a : Action FindingID GroupID) : Prop :=
  ∀ number edit, a = .commit ⟨number, .edit edit⟩ → ∀ f ∈ edit.findings, ¬ Secondary q.groups f

/-- The same for bulk patches alone. -/
def BulkSparesSecondaries (q : Store FindingID GroupID) (a : Action FindingID GroupID) : Prop :=
  ∀ number ids, a = .commit ⟨number, .edit (.bulkPatch ids)⟩ → ∀ f ∈ ids, ¬ Secondary q.groups f

theorem Inv.commit_visible {guarded : Prop} {q q' : Store FindingID GroupID}
    (inv : Inv guarded q) {number : ℕ} {edit : Edit FindingID}
    (step : q.step (.commit ⟨number, .edit edit⟩) = some q')
    (guard : guarded ∨ edit.rechecks = true) : ∀ f ∈ edit.findings, ¬ Secondary q.groups f := by
  obtain ⟨progress, running, ran⟩ := Option.bind_eq_some_iff.mp step
  exact (inv.ready_edit running (commit_edit ran).1).2 guard

/-- **Which edits spare secondaries.**  In every run in which a patch or a note only takes the
lock on a finding that is visible when it gets it, no edit commits on a secondary; and in
every run at all, no bulk patch does. -/
theorem edits_spare_secondaries (as : List (Action FindingID GroupID)) :
    (Machine.Always step (fun q a => q.grantsVisible a = true) empty as →
      Machine.Always step SparesSecondaries empty as) ∧
    Machine.Always step BulkSparesSecondaries empty as := by
  constructor
  · refine Machine.Always.trade (I := Inv True) ?_ inv_empty
    intro q a q' inv granted step
    refine ⟨?_, inv.step (fun _ => granted) step⟩
    rintro number edit rfl
    exact inv.commit_visible step (.inl trivial)
  · refine Machine.always_of_inv (I := Inv False) ?_ inv_empty as
    intro q a q' inv step
    refine ⟨?_, inv.step False.elim step⟩
    rintro number ids rfl f mem
    refine inv.commit_visible step (.inr rfl) f ?_
    exact (List.mem_insertionSort _).mpr mem

end Store

namespace Sample

def patch : Tx ℕ := ⟨0, .edit (.patch 2)⟩

/-- A patch of the other finding inspects it while a merge holds it. -/
def inspected : List (Action ℕ ℕ) :=
  imported ++ lock first ++ [.start patch, .execute patch .inspect]

/-- The merge rolls back, and the patch gets its lock. -/
def patched : List (Action ℕ ℕ) :=
  inspected ++ [.abort first, .execute patch .seize, .commit patch]

end Sample

open Sample in
/-- A patch that waited for a merge which did not commit. -/
theorem edits_spare_secondaries_patched :
    (Machine.run Store.step Store.empty patched).map (·.edits) =
        some [⟨.patch 2, 2, true⟩] ∧
      Machine.Always Store.step Store.SparesSecondaries Store.empty patched := by
  refine ⟨by decide, (Store.edits_spare_secondaries patched).1 ?_⟩
  exact Machine.always_of_checkAlways (by decide)

open Sample in
/-- **A patch commits on a secondary.**  It inspects the finding, waits for the merge that
makes it a secondary, and commits after it. -/
theorem patch_commits_on_secondary :
    ¬ ∀ as : List (Action ℕ ℕ),
      Machine.Always Store.step Store.SparesSecondaries Store.empty as := by
  intro spares
  have runs : (Machine.run Store.step Store.empty
      (inspected ++ merge first 7 ++ [.execute patch .seize])).map
        (fun q => (q.workVisible 2, (q.step (.commit patch)).isSome)) = some (false, true) := by
    decide
  obtain ⟨q, reached, observed⟩ := Option.map_eq_some_iff.mp runs
  obtain ⟨hidden, commits⟩ := Prod.mk.inj observed
  obtain ⟨q', step⟩ := Option.isSome_iff_exists.mp commits
  have reachable : q.Reachable := ⟨_, _, rfl, reached⟩
  have visible := Machine.Always.at [] (spares _) reached step 0 (.patch 2) rfl 2
    (List.mem_singleton_self 2)
  rw [← reachable.inv.workVisible_iff, hidden] at visible
  cases visible

end Aspm.Correlation
