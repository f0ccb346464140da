import Aspm.Correlation.Store

/-!
# The invariant of the correlation groups

A group is only written by a transaction that holds the primary of the group, and a finding
only joins a group while the transaction holds that finding.  So a transaction that holds a
finding knows whether the finding is in a group, and which group it leads, from the moment it
read so until it ends: `Frame` says what the steps of others leave to a transaction, and
`Standing.frame` that this is all its progress rests on.

What a merge or a split has written, and not committed, is described by `Written` without
reference to the request: a well-formed group, of the primary that is held, whose active
members were active in it before or are held and free.  The commit then needs nothing else.

The invariant is proved for two readings at once.  With `guarded` it also says that the
findings of a patch or a note under way are visible, which only holds as long as no such edit
takes the lock on a finding that is not; without, it is the invariant of every run.
-/

namespace Aspm.Correlation

open RowTable

variable {FindingID GroupID : Type} [LinearOrder FindingID] [DecidableEq GroupID]

variable {f : FindingID} {progress : Progress FindingID GroupID} {id' : GroupID}

/-! ## Groups in a store -/

section Groups

omit [LinearOrder FindingID] [DecidableEq GroupID]

variable (groups : GroupID → Option (Group FindingID))

/-- The finding is an active member of no group. -/
def Free (f : FindingID) : Prop :=
  ∀ id group, groups id = some group → f ∉ group.activeMemberIDs

/-- The finding is an active member, but not the primary, of an active group. -/
def Secondary (f : FindingID) : Prop :=
  ∃ id group, groups id = some group ∧ group.state = .active ∧ f ∈ group.activeMemberIDs ∧
    group.primary ≠ f

/-- No finding is an active member of two groups. -/
def Exclusive : Prop :=
  ∀ id id' group group' f, groups id = some group → groups id' = some group' →
    f ∈ group.activeMemberIDs → f ∈ group'.activeMemberIDs → id = id'

/-- No committed event has the idempotency key. -/
def Unused (key : String) : Prop :=
  ∀ id group, groups id = some group → ∀ event ∈ group.events,
    event.request.idempotencyKey ≠ key

/-- An idempotency key belongs to one event. -/
def KeysUnique : Prop :=
  ∀ id id' group group', groups id = some group → groups id' = some group' →
    ∀ event ∈ group.events, ∀ event' ∈ group'.events,
      event.request.idempotencyKey = event'.request.idempotencyKey → id = id' ∧ event = event'

end Groups

/-- What a later version of a finding is: of the same asset and source, and at revisions that
have not gone back. -/
structure Finding.Follows (row row' : Finding) : Prop where
  asset : row'.assetID = row.assetID
  source : row'.sourceID = row.sourceID
  decision : row.decisionRevision ≤ row'.decisionRevision
  evidence : row.evidenceRevision ≤ row'.evidenceRevision

section Follows

omit [LinearOrder FindingID]

variable {rows rows' : FindingID → Option Finding}

theorem Finding.Follows.refl (row : Finding) : row.Follows row := ⟨rfl, rfl, le_rfl, le_rfl⟩

theorem Finding.Follows.trans (u v w : Finding) (first : u.Follows v) (second : v.Follows w) :
    u.Follows w :=
  ⟨second.asset.trans first.asset, second.source.trans first.source,
    first.decision.trans second.decision, first.evidence.trans second.evidence⟩

theorem Finding.follows_advanceDecision (row : Finding) : row.Follows row.advanceDecision :=
  ⟨rfl, rfl, Nat.le_succ _, le_rfl⟩

theorem Finding.follows_advanceEvidence (row : Finding) : row.Follows row.advanceEvidence :=
  ⟨rfl, rfl, le_rfl, Nat.le_succ _⟩

/-- Findings stay, with their assets and sources, and their revisions only grow. -/
def Persist (rows rows' : FindingID → Option Finding) : Prop :=
  ∀ f row, rows f = some row → ∃ row', rows' f = some row' ∧ row.Follows row'

theorem Persist.isSome (persist : Persist rows rows') (stored : (rows f).isSome) :
    (rows' f).isSome := by
  obtain ⟨row, stored⟩ := Option.isSome_iff_exists.mp stored
  obtain ⟨row', stored', -⟩ := persist f row stored
  exact Option.isSome_iff_exists.mpr ⟨row', stored'⟩

theorem Persist.assetOf (persist : Persist rows rows') (stored : (rows f).isSome) :
    assetOf rows' f = assetOf rows f := by
  obtain ⟨row, stored⟩ := Option.isSome_iff_exists.mp stored
  obtain ⟨row', stored', follows⟩ := persist f row stored
  rw [Correlation.assetOf, Correlation.assetOf, stored, stored', Option.map_some, Option.map_some,
    follows.asset]

theorem Persist.sourceOf (persist : Persist rows rows') (stored : (rows f).isSome) :
    sourceOf rows' f = sourceOf rows f := by
  obtain ⟨row, stored⟩ := Option.isSome_iff_exists.mp stored
  obtain ⟨row', stored', follows⟩ := persist f row stored
  rw [Correlation.sourceOf, Correlation.sourceOf, stored, stored', Option.map_some,
    Option.map_some, follows.source]

theorem Group.WellFormed.persist {group : Group FindingID} (wellFormed : group.WellFormed rows)
    (persist : Persist rows rows') : group.WellFormed rows' where
  distinct := wellFormed.distinct
  ordinals := wellFormed.ordinals
  bounded := wellFormed.bounded
  sequences := wellFormed.sequences
  joined active := by
    have joined := wellFormed.joined active
    refine ⟨joined.two, joined.primary, ?_, ?_, ?_⟩
    · intro f member
      exact persist.isSome (joined.stored f member)
    · intro f member
      rw [persist.assetOf (joined.stored f member),
        persist.assetOf (joined.stored _ joined.primary)]
      exact joined.asset f member
    · intro f member f' member' same
      rw [persist.sourceOf (joined.stored f member),
        persist.sourceOf (joined.stored f' member')] at same
      exact joined.sources f member f' member' same
  dissolved := wellFormed.dissolved

theorem Group.Mergeable.persist {request : Request FindingID}
    (mergeable : Group.Mergeable rows request) (persist : Persist rows rows') :
    Group.Mergeable rows' request where
  apart := mergeable.apart
  primary := persist.isSome mergeable.primary
  other := persist.isSome mergeable.other
  asset := by
    rw [persist.assetOf mergeable.primary, persist.assetOf mergeable.other, mergeable.asset]
  source := by
    rw [persist.sourceOf mergeable.primary, persist.sourceOf mergeable.other]
    exact mergeable.source

end Follows

namespace Store

variable {q q' : Store FindingID GroupID} {tx : Tx FindingID} {request : Request FindingID}
  {id : GroupID} {group : Group FindingID}

/-! ## What the progress of a transaction rests on -/

/-- The transaction holds the row of the finding. -/
def LockedBy (q : Store FindingID GroupID) (tx : Tx FindingID) (f : FindingID) : Prop :=
  ∃ version row since, q.findings.Holds tx f version row since

/-- The transaction has advanced the decision revision of the finding. -/
def Advances (q : Store FindingID GroupID) (tx : Tx FindingID) (f : FindingID) : Prop :=
  ∃ row since, q.findings.Holds tx f (some row.advanceDecision) row since

omit [LinearOrder FindingID] [DecidableEq GroupID] in
theorem Advances.lockedBy (advances : q.Advances tx f) : q.LockedBy tx f := by
  obtain ⟨row, since, holds⟩ := advances
  exact ⟨_, row, since, holds⟩

omit [LinearOrder FindingID] [DecidableEq GroupID] in
theorem LockedBy.owner {other : Tx FindingID} (locked : q.LockedBy tx f)
    (locked' : q.LockedBy other f) : tx = other := by
  obtain ⟨version, row, since, holds⟩ := locked
  obtain ⟨version', row', since', holds'⟩ := locked'
  have same := holds.locked.symm.trans holds'.locked
  simp only [Option.some.injEq, Lock.mk.injEq] at same
  exact same.1

/-- What a read of the group of a finding, held since then, still says. -/
def Located (q : Store FindingID GroupID) (f : FindingID) :
    Option (CorrelationMeta FindingID GroupID) → Prop
  | none => Free q.groups f
  | some found => found.primary = f → ∃ group, q.groups found.id = some group ∧
      group.state = .active ∧ group.primary = f

/-- The findings of the request are at the revisions that it was made for. -/
def Current (q : Store FindingID GroupID) (request : Request FindingID) : Prop :=
  ∃ primary other, q.findings.rows request.primary = some primary ∧
    q.findings.rows request.other = some other ∧ request.current primary other = true

/-- **What is written and not committed.**  The group `id` is to become `group`: a new one, of
an id that the transaction generated, or a new version of one that the primary leads. -/
structure Written (q : Store FindingID GroupID) (tx : Tx FindingID) (request : Request FindingID)
    (id : GroupID) (group : Group FindingID) : Prop where
  wellFormed : group.WellFormed q.findings.rows
  leads : group.primary = request.primary
  origin : (q.groups id = none ∧ q.generatedBy id = some tx ∧ request.correlationRevision = 0 ∧
      Free q.groups request.primary) ∨
    ∃ old, q.groups id = some old ∧ old.primary = request.primary ∧
      old.revision = request.correlationRevision ∧ old.state = .active
  joins : ∀ f ∈ group.activeMemberIDs,
    (∃ old, q.groups id = some old ∧ f ∈ old.activeMemberIDs) ∨
      (Free q.groups f ∧ (f = request.primary ∨ f = request.other))
  leaves : ∀ old, q.groups id = some old → ∀ f ∈ old.activeMemberIDs,
    f ∈ group.activeMemberIDs ∨
      (request.isMerge = false ∧ (f = request.primary ∨ f = request.other))
  merges : request.isMerge = true →
    Free q.groups request.other ∧ ¬ Secondary q.groups request.primary ∧
      request.other ∈ group.activeMemberIDs ∧ request.other ≠ request.primary
  splits : request.isMerge = false →
    ∃ old, q.groups id = some old ∧ request.other ∈ old.activeMemberIDs
  events : group.events =
    ((q.groups id).map (·.events)).getD [] ++ [⟨request.correlationRevision + 1, request⟩]

/-- What holds of a transaction that has come so far. -/
inductive Standing (guarded : Prop) (q : Store FindingID GroupID) :
    Tx FindingID → Progress FindingID GroupID → Prop
  | begun {number : ℕ} {request : Request FindingID} (valid : request.valid = true) :
      Standing guarded q ⟨number, .correlate request⟩ .begun
  | lockedFirst {number : ℕ} {request : Request FindingID} (valid : request.valid = true)
      (first : q.LockedBy ⟨number, .correlate request⟩ request.first) :
      Standing guarded q ⟨number, .correlate request⟩ .lockedFirst
  | lockedBoth {number : ℕ} {request : Request FindingID} (valid : request.valid = true)
      (primary : q.LockedBy ⟨number, .correlate request⟩ request.primary)
      (other : q.LockedBy ⟨number, .correlate request⟩ request.other) :
      Standing guarded q ⟨number, .correlate request⟩ .lockedBoth
  | readPrimary {number : ℕ} {request : Request FindingID}
      {primaryGroup : Option (CorrelationMeta FindingID GroupID)}
      (merges : request.isMerge = true)
      (primary : q.LockedBy ⟨number, .correlate request⟩ request.primary)
      (other : q.LockedBy ⟨number, .correlate request⟩ request.other)
      (current : q.Current request) (mergeable : Group.Mergeable q.findings.rows request)
      (located : q.Located request.primary primaryGroup) :
      Standing guarded q ⟨number, .correlate request⟩ (.readPrimary primaryGroup)
  | readOther {number : ℕ} {request : Request FindingID}
      {primaryGroup otherGroup : Option (CorrelationMeta FindingID GroupID)}
      (merges : request.isMerge = true)
      (primary : q.LockedBy ⟨number, .correlate request⟩ request.primary)
      (other : q.LockedBy ⟨number, .correlate request⟩ request.other)
      (current : q.Current request) (mergeable : Group.Mergeable q.findings.rows request)
      (located : q.Located request.primary primaryGroup)
      (located' : q.Located request.other otherGroup) :
      Standing guarded q ⟨number, .correlate request⟩ (.readOther primaryGroup otherGroup)
  | readLed {number : ℕ} {request : Request FindingID} {id : GroupID} {revision : ℕ}
      {group : Group FindingID} (splits : request.isMerge = false) (valid : request.valid = true)
      (primary : q.LockedBy ⟨number, .correlate request⟩ request.primary)
      (other : q.LockedBy ⟨number, .correlate request⟩ request.other)
      (stored : q.groups id = some group) (leads : group.primary = request.primary) :
      Standing guarded q ⟨number, .correlate request⟩ (.readLed id revision)
  | written {number : ℕ} {request : Request FindingID} {id : GroupID} {group : Group FindingID}
      (primary : q.Advances ⟨number, .correlate request⟩ request.primary)
      (other : q.LockedBy ⟨number, .correlate request⟩ request.other)
      (released : request.isMerge = false → q.Advances ⟨number, .correlate request⟩ request.other)
      (current : q.Current request)
      (written : q.Written ⟨number, .correlate request⟩ request id group) :
      Standing guarded q ⟨number, .correlate request⟩ (.written id group)
  | editing {number : ℕ} {edit : Edit FindingID} {done : List FindingID}
      {inspected : Option FindingID}
      (advances : ∀ f ∈ done, q.Advances ⟨number, .edit edit⟩ f)
      (visible : guarded → edit.rechecks = false → ∀ f ∈ done, ¬ Secondary q.groups f) :
      Standing guarded q ⟨number, .edit edit⟩ (.editing done inspected)
  | rechecked {number : ℕ} {edit : Edit FindingID}
      (advances : ∀ f ∈ edit.findings, q.Advances ⟨number, .edit edit⟩ f)
      (visible : ∀ f ∈ edit.findings, ¬ Secondary q.groups f) :
      Standing guarded q ⟨number, .edit edit⟩ .rechecked

/-- What the step of another party leaves to the transaction. -/
structure Frame (tx : Tx FindingID) (q q' : Store FindingID GroupID) : Prop where
  persist : Persist q.findings.rows q'.findings.rows
  holds : ∀ f version row since, q.findings.Holds tx f version row since →
    q'.findings.Holds tx f version row since
  free : ∀ f, q.LockedBy tx f → Free q.groups f → Free q'.groups f
  led : ∀ id group, q.groups id = some group → q.LockedBy tx group.primary →
    q'.groups id = some group
  visible : ∀ f, q.LockedBy tx f → ¬ Secondary q.groups f → ¬ Secondary q'.groups f
  reserved : ∀ id, q.generatedBy id = some tx → q.groups id = none →
    q'.groups id = none ∧ q'.generatedBy id = some tx

section Frame

omit [LinearOrder FindingID] [DecidableEq GroupID]

theorem Frame.locked (frame : Frame tx q q') (locked : q.LockedBy tx f) : q'.LockedBy tx f := by
  obtain ⟨version, row, since, holds⟩ := locked
  exact ⟨version, row, since, frame.holds f version row since holds⟩

theorem Frame.advances (frame : Frame tx q q') (advances : q.Advances tx f) :
    q'.Advances tx f := by
  obtain ⟨row, since, holds⟩ := advances
  exact ⟨row, since, frame.holds f _ row since holds⟩

theorem Frame.rows (frame : Frame tx q q') (locked : q.LockedBy tx f) :
    q'.findings.rows f = q.findings.rows f := by
  obtain ⟨version, row, since, holds⟩ := locked
  rw [holds.stored, (frame.holds f version row since holds).stored]

theorem Frame.located (frame : Frame tx q q') (locked : q.LockedBy tx f)
    {found : Option (CorrelationMeta FindingID GroupID)} (located : q.Located f found) :
    q'.Located f found := by
  cases found with
  | none => exact frame.free f locked located
  | some found =>
    intro leads
    obtain ⟨group, stored, active, primary⟩ := located leads
    exact ⟨group, frame.led found.id group stored (primary ▸ locked), active, primary⟩

theorem Frame.current (frame : Frame tx q q') (primary : q.LockedBy tx request.primary)
    (other : q.LockedBy tx request.other) (current : q.Current request) :
    q'.Current request := by
  unfold Current at current ⊢
  rw [frame.rows primary, frame.rows other]
  exact current

/-- The group that the write of a transaction replaces stays as it is. -/
theorem Written.origin_eq (written : q.Written tx request id group) (frame : Frame tx q q')
    (primary : q.LockedBy tx request.primary) : q'.groups id = q.groups id := by
  rcases written.origin with ⟨fresh, generated, -⟩ | ⟨old, stored, leads, -⟩
  · rw [fresh, (frame.reserved id generated fresh).1]
  · rw [stored, frame.led id old stored (leads ▸ primary)]

theorem Written.frame (written : q.Written tx request id group) (frame : Frame tx q q')
    (primary : q.LockedBy tx request.primary) (other : q.LockedBy tx request.other) :
    q'.Written tx request id group := by
  have same := written.origin_eq frame primary
  refine ⟨written.wellFormed.persist frame.persist, written.leads, ?_, ?_, ?_, ?_, ?_, ?_⟩
  · rw [same]
    rcases written.origin with ⟨fresh, generated, zero, free⟩ | old
    · exact .inl ⟨fresh, (frame.reserved id generated fresh).2, zero, frame.free _ primary free⟩
    · exact .inr old
  · intro f member
    rw [same]
    rcases written.joins f member with old | ⟨free, own⟩
    · exact .inl old
    · refine .inr ⟨frame.free f ?_ free, own⟩
      rcases own with rfl | rfl
      · exact primary
      · exact other
  · rw [same]
    exact written.leaves
  · intro merges
    obtain ⟨free, visible, joined⟩ := written.merges merges
    exact ⟨frame.free _ other free, frame.visible _ primary visible, joined⟩
  · rw [same]
    exact written.splits
  · rw [same]
    exact written.events

theorem Standing.frame {guarded : Prop} [LinearOrder FindingID] (frame : Frame tx q q')
    (standing : Standing guarded q tx progress) : Standing guarded q' tx progress := by
  cases standing with
  | begun valid => exact .begun valid
  | lockedFirst valid first => exact .lockedFirst valid (frame.locked first)
  | lockedBoth valid primary other =>
    exact .lockedBoth valid (frame.locked primary) (frame.locked other)
  | readPrimary merges primary other current mergeable located =>
    exact .readPrimary merges (frame.locked primary) (frame.locked other)
      (frame.current primary other current) (mergeable.persist frame.persist)
      (frame.located primary located)
  | readOther merges primary other current mergeable located located' =>
    exact .readOther merges (frame.locked primary) (frame.locked other)
      (frame.current primary other current) (mergeable.persist frame.persist)
      (frame.located primary located) (frame.located other located')
  | readLed splits valid primary other stored leads =>
    exact .readLed splits valid (frame.locked primary) (frame.locked other)
      (frame.led _ _ stored (leads ▸ primary)) leads
  | written primary other released current written =>
    exact .written (frame.advances primary) (frame.locked other)
      (fun splits => frame.advances (released splits))
      (frame.current primary.lockedBy other current)
      (written.frame frame primary.lockedBy other)
  | editing advances visible =>
    refine .editing (fun f done => frame.advances (advances f done)) ?_
    intro holds rechecks f done
    exact frame.visible f (advances f done).lockedBy (visible holds rechecks f done)
  | rechecked advances visible =>
    refine .rechecked (fun f done => frame.advances (advances f done)) ?_
    intro f done
    exact frame.visible f (advances f done).lockedBy (visible f done)

end Frame

/-! ## The invariant -/

structure Inv (guarded : Prop) (q : Store FindingID GroupID) : Prop where
  known : ∀ id group, q.groups id = some group → id ∈ q.groupIDs
  generated : ∀ id group, q.groups id = some group → (q.generatedBy id).isSome
  staged : q.findings.Staged fun _ _ => Finding.Follows
  wellFormed : ∀ id group, q.groups id = some group → group.WellFormed q.findings.rows
  exclusive : Exclusive q.groups
  keysUnique : KeysUnique q.groups
  standing : ∀ tx progress, q.progress tx = some progress → Standing guarded q tx progress
  keyed : ∀ number request progress, q.progress ⟨number, .correlate request⟩ = some progress →
    q.keys request.idempotencyKey = some ⟨number, .correlate request⟩ ∧
      Unused q.groups request.idempotencyKey
  edits : ∀ record ∈ q.edits, guarded ∨ record.edit.rechecks = true → record.visible = true

variable {guarded : Prop}

omit [DecidableEq GroupID] in
theorem inv_empty : Inv guarded (empty : Store FindingID GroupID) where
  known _ _ stored := nomatch stored
  generated _ _ stored := nomatch stored
  staged _ _ _ locked := nomatch locked
  wellFormed _ _ stored := nomatch stored
  exclusive _ _ _ _ _ stored := nomatch stored
  keysUnique _ _ _ _ stored := nomatch stored
  standing _ _ running := nomatch running
  keyed _ _ _ running := nomatch running
  edits _ recorded := nomatch recorded

/-! ### What the reads say -/

section

omit [DecidableEq GroupID]

/-- The sub-query tests for secondaries. -/
theorem Inv.workVisible_iff (inv : Inv guarded q) (f : FindingID) :
    q.workVisible f = true ↔ ¬ Secondary q.groups f := by
  unfold workVisible
  rw [Bool.not_eq_true', ← Bool.not_eq_true, not_iff_not, List.any_eq_true]
  constructor
  · rintro ⟨id, -, found⟩
    obtain ⟨group, stored, test⟩ := (Option.any_eq_true _ _).mp found
    simp only [Bool.and_eq_true, decide_eq_true_eq] at test
    exact ⟨id, group, stored, test.1.1, test.1.2, test.2⟩
  · rintro ⟨id, group, stored, active, member, apart⟩
    refine ⟨id, inv.known id group stored, ?_⟩
    rw [stored, Option.any_some]
    simp [active, member, apart]

theorem Inv.located (inv : Inv guarded q) (f : FindingID) :
    q.Located f (q.activeCorrelationMeta f) := by
  cases found : q.activeCorrelationMeta f with
  | none =>
    intro id group stored member
    have skipped := List.findSome?_eq_none_iff.mp found id (inv.known id group stored)
    simp [stored, (inv.wellFormed id group stored).state_of_mem member, member] at skipped
  | some found' =>
    intro leads
    obtain ⟨id, -, hit⟩ := List.exists_of_findSome?_eq_some found
    obtain ⟨group, stored, chosen⟩ := Option.bind_eq_some_iff.mp hit
    split at chosen
    case isTrue test =>
      obtain rfl := Option.some.inj chosen
      simp only [Bool.and_eq_true, decide_eq_true_eq] at test
      exact ⟨group, stored, test.1, leads⟩
    case isFalse => cases chosen

theorem ledBy_eq_some {primary : FindingID} {revision : ℕ}
    (found : q.ledBy primary = some (id, revision)) :
    ∃ group, q.groups id = some group ∧ group.primary = primary ∧ group.state = .active ∧
      group.revision = revision := by
  obtain ⟨id', -, hit⟩ := List.exists_of_findSome?_eq_some found
  obtain ⟨group, stored, chosen⟩ := Option.bind_eq_some_iff.mp hit
  split at chosen
  case isTrue test =>
    obtain ⟨rfl, rfl⟩ := Prod.mk.inj (Option.some.inj chosen)
    simp only [Bool.and_eq_true, decide_eq_true_eq] at test
    exact ⟨group, stored, test.1, test.2, rfl⟩
  case isFalse => cases chosen

end

/-! ### Steps that leave the groups -/

/-- A step of `party` that changes no group. -/
structure Quiet (party : Option (Tx FindingID)) (q q' : Store FindingID GroupID) : Prop where
  act : Table.Act Finding.Follows party q.findings q'.findings
  groups : q'.groups = q.groups
  groupIDs : q'.groupIDs = q.groupIDs
  generated : ∀ id tx, q.generatedBy id = some tx → q'.generatedBy id = some tx
  others : ∀ tx, party ≠ some tx → q'.progress tx = q.progress tx
  keys : ∀ key tx, q'.progress tx ≠ none → q.keys key = some tx → q'.keys key = some tx

variable {party : Option (Tx FindingID)}

section

omit [DecidableEq GroupID]

theorem Quiet.persist (quiet : Quiet party q q') (inv : Inv guarded q) :
    Persist q.findings.rows q'.findings.rows :=
  fun _ _ stored => quiet.act.rows .refl .trans inv.staged stored

theorem Quiet.frame (quiet : Quiet party q q') (inv : Inv guarded q) (other : party ≠ some tx) :
    Frame tx q q' where
  persist := quiet.persist inv
  holds _ _ _ _ holds := quiet.act.holds other holds
  free _ _ free := quiet.groups ▸ free
  led _ _ stored _ := quiet.groups ▸ stored
  visible _ _ visible := quiet.groups ▸ visible
  reserved id generated fresh := ⟨quiet.groups ▸ fresh, quiet.generated id tx generated⟩

/-- **A step that leaves the groups keeps the invariant** if its own transaction stands where it
has come to. -/
theorem Inv.quiet (inv : Inv guarded q) (quiet : Quiet party q q')
    (own : ∀ tx progress, party = some tx → q'.progress tx = some progress →
      Standing guarded q' tx progress)
    (keyed : ∀ number request progress, party = some ⟨number, .correlate request⟩ →
      q'.progress ⟨number, .correlate request⟩ = some progress →
      q'.keys request.idempotencyKey = some ⟨number, .correlate request⟩ ∧
        Unused q.groups request.idempotencyKey)
    (edits : ∀ record ∈ q'.edits, guarded ∨ record.edit.rechecks = true → record.visible = true) :
    Inv guarded q' where
  known id group stored := by
    rw [quiet.groups] at stored
    exact quiet.groupIDs ▸ inv.known id group stored
  generated id group stored := by
    rw [quiet.groups] at stored
    obtain ⟨tx, generated⟩ := Option.isSome_iff_exists.mp (inv.generated id group stored)
    exact Option.isSome_iff_exists.mpr ⟨tx, quiet.generated id tx generated⟩
  staged := quiet.act.staged inv.staged
  wellFormed id group stored := by
    rw [quiet.groups] at stored
    exact (inv.wellFormed id group stored).persist (quiet.persist inv)
  exclusive := quiet.groups ▸ inv.exclusive
  keysUnique := quiet.groups ▸ inv.keysUnique
  standing tx progress running := by
    by_cases actor : party = some tx
    · exact own tx progress actor running
    · rw [quiet.others tx actor] at running
      exact (inv.standing tx progress running).frame (quiet.frame inv actor)
  keyed number request progress running := by
    by_cases actor : party = some ⟨number, .correlate request⟩
    · exact quiet.groups ▸ keyed number request progress actor running
    · have before := running
      rw [quiet.others _ actor] at before
      obtain ⟨held, unused⟩ := inv.keyed number request progress before
      exact ⟨quiet.keys _ _ (by rw [running]; exact Option.some_ne_none _) held,
        quiet.groups ▸ unused⟩
  edits := edits

end

variable {findings : Table FindingID Finding (Tx FindingID)}

omit [DecidableEq GroupID] in
theorem Quiet.proceed {generatedBy : GroupID → Option (Tx FindingID)}
    (progress : Progress FindingID GroupID)
    (act : Table.Act Finding.Follows (some tx) q.findings findings)
    (generated : ∀ id tx, q.generatedBy id = some tx → generatedBy id = some tx) :
    Quiet (some tx) q (({ q with findings, generatedBy } : Store FindingID GroupID).proceed tx
      progress) where
  act := act
  groups := rfl
  groupIDs := rfl
  generated := generated
  others _ other := Function.update_of_ne (fun same => other (congrArg some same.symm)) _ _
  keys _ _ _ held := held

omit [DecidableEq GroupID] in
@[simp] theorem progress_proceed (progress : Progress FindingID GroupID) :
    (q.proceed tx progress).progress tx = some progress :=
  Function.update_self _ _ _

/-- What a statement of a transaction under way does. -/
structure Executes (guarded : Prop) (tx : Tx FindingID) (q q' : Store FindingID GroupID) :
    Prop where
  quiet : Quiet (some tx) q q'
  rows : q'.findings.rows = q.findings.rows
  standing : ∀ progress, q'.progress tx = some progress → Standing guarded q' tx progress
  keys : q'.keys = q.keys
  edits : q'.edits = q.edits

omit [DecidableEq GroupID] in
theorem Inv.executes (inv : Inv guarded q) (executes : Executes guarded tx q q')
    (running : q.progress tx ≠ none) : Inv guarded q' := by
  refine inv.quiet executes.quiet ?_ ?_ ?_
  · intro tx' progress same
    obtain rfl := Option.some.inj same
    exact executes.standing progress
  · intro number request progress same _
    obtain rfl := Option.some.inj same
    obtain ⟨before, stood⟩ := Option.ne_none_iff_exists'.mp running
    rw [executes.keys]
    exact inv.keyed number request before stood
  · rw [executes.edits]
    exact inv.edits

omit [DecidableEq GroupID] in
/-- A transaction that takes a step to `progress`, having done `findings` and generated an id
perhaps. -/
theorem executes_proceed {generatedBy : GroupID → Option (Tx FindingID)}
    (act : Table.Act Finding.Follows (some tx) q.findings findings)
    (rows : findings.rows = q.findings.rows)
    (generated : ∀ id tx, q.generatedBy id = some tx → generatedBy id = some tx)
    (standing : Standing guarded
      (({ q with findings, generatedBy } : Store FindingID GroupID).proceed tx progress) tx
        progress) :
    Executes guarded tx q
      (({ q with findings, generatedBy } : Store FindingID GroupID).proceed tx progress) where
  quiet := .proceed progress act generated
  rows := rows
  standing progress' same := by
    rw [progress_proceed] at same
    obtain rfl := Option.some.inj same
    exact standing
  keys := rfl
  edits := rfl

/-! ### What merges and splits write -/

section Writes

omit [DecidableEq GroupID]

variable {primaryGroup otherGroup : Option (CorrelationMeta FindingID GroupID)} {newID : GroupID}

theorem merge_eq_ok (planned : q.merge request primaryGroup otherGroup newID = .ok (id, group)) :
    otherGroup = none ∧
      ((primaryGroup = none ∧ request.correlationRevision = 0 ∧ newID = id ∧
          Group.create request = group) ∨
        ∃ found old, primaryGroup = some found ∧ found.primary = request.primary ∧
          q.groups found.id = some old ∧ old.state = .active ∧
          old.revision = request.correlationRevision ∧
          (∀ m ∈ old.members,
            Group.refuses (sourceOf q.findings.rows) request.other m = false) ∧
          old.members.length ≤ 63 ∧ found.id = id ∧ old.extend request = group) := by
  unfold merge at planned
  split at planned
  case isTrue => cases planned
  case isFalse admitted =>
    simp only [Bool.or_eq_true, not_or, Bool.not_eq_true, Option.isSome_eq_false_iff,
      Option.isNone_iff_eq_none] at admitted
    refine ⟨admitted.1, ?_⟩
    split at planned
    case h_1 =>
      split at planned
      case isTrue => cases planned
      case isFalse zero =>
        obtain ⟨rfl, rfl⟩ := Prod.mk.inj (Except.ok.inj planned)
        exact .inl ⟨rfl, not_not.mp zero, rfl, rfl⟩
    case h_2 found =>
      split at planned
      case h_1 => cases planned
      case h_2 old stored =>
        split at planned
        case isTrue => cases planned
        case isFalse active =>
        split at planned
        case isTrue => cases planned
        case isFalse revision =>
        split at planned
        case isTrue => cases planned
        case isFalse accepted =>
        split at planned
        case isTrue => cases planned
        case isFalse room =>
          obtain ⟨rfl, rfl⟩ := Prod.mk.inj (Except.ok.inj planned)
          refine .inr ⟨found, old, rfl, ?_, stored, not_not.mp active,
            (not_not.mp revision).symm, ?_, not_lt.mp room, rfl, rfl⟩
          · simpa using admitted.2
          · simpa using accepted

theorem split_eq_ok {revision : ℕ} {primary member : Finding}
    (planned : q.split request id revision primary member = .ok group) :
    ∃ old, q.groups id = some old ∧ old.state = .active ∧
      old.revision = request.correlationRevision ∧ request.other ∈ old.activeMemberIDs ∧
      request.current primary member = true ∧ old.release request = group := by
  unfold split at planned
  split at planned
  case isTrue => cases planned
  case isFalse expected =>
  split at planned
  case h_1 => cases planned
  case h_2 old stored =>
  split at planned
  case isTrue => cases planned
  case isFalse =>
  split at planned
  case isTrue => cases planned
  case isFalse member =>
  split at planned
  case isTrue => cases planned
  case isFalse current =>
  split at planned
  case isTrue => cases planned
  case isFalse =>
  split at planned
  case isTrue => cases planned
  case isFalse fits =>
    simp only [Bool.or_eq_true, decide_eq_true_eq, not_or, not_not] at fits
    exact ⟨old, stored, fits.2, fits.1.trans (not_not.mp expected), not_not.mp member,
      by simpa using current, Except.ok.inj planned⟩

omit [LinearOrder FindingID] in
/-- A merge of two findings that are in no group. -/
theorem written_create (merges : request.isMerge = true) (groups : q'.groups = q.groups)
    (rows : q'.findings.rows = q.findings.rows) (fresh : q.groups id = none)
    (generated : q'.generatedBy id = some tx) (zero : request.correlationRevision = 0)
    (mergeable : Group.Mergeable q.findings.rows request)
    (primary : Free q.groups request.primary) (other : Free q.groups request.other) :
    q'.Written tx request id (.create request) := by
  refine ⟨rows ▸ Group.wellFormed_create mergeable, rfl,
    .inl ⟨groups ▸ fresh, generated, zero, groups ▸ primary⟩, ?_, ?_, ?_,
    (fun splits => nomatch merges.symm.trans splits), ?_⟩
  · intro f member
    rw [groups]
    rcases List.mem_pair.mp member with rfl | rfl
    · exact .inr ⟨primary, .inl rfl⟩
    · exact .inr ⟨other, .inr rfl⟩
  · intro old stored
    rw [groups, fresh] at stored
    cases stored
  · intro _
    rw [groups]
    refine ⟨other, ?_, List.mem_pair.mpr (.inr rfl), mergeable.apart⟩
    rintro ⟨id, group, stored, -, member, -⟩
    exact primary id group stored member
  · rw [groups, fresh, zero]
    rfl

/-- A merge into the group that the primary leads. -/
theorem Inv.written_extend (inv : Inv guarded q) (merges : request.isMerge = true)
    (groups : q'.groups = q.groups) (rows : q'.findings.rows = q.findings.rows)
    {old : Group FindingID} (stored : q.groups id = some old) (active : old.state = .active)
    (leads : old.primary = request.primary) (revision : old.revision = request.correlationRevision)
    (mergeable : Group.Mergeable q.findings.rows request) (other : Free q.groups request.other)
    (admitted : ∀ m ∈ old.members,
      Group.refuses (sourceOf q.findings.rows) request.other m = false)
    (room : old.members.length ≤ 63) :
    q'.Written tx request id (old.extend request) := by
  have wellFormed := inv.wellFormed id old stored
  refine ⟨rows ▸ Group.wellFormed_extend wellFormed active leads mergeable admitted room, leads,
    .inr ⟨old, groups ▸ stored, leads, revision, active⟩, ?_, ?_, ?_,
    (fun splits => nomatch merges.symm.trans splits), ?_⟩
  · intro f member
    rw [groups]
    rw [Group.activeMemberIDs_extend] at member
    rcases List.mem_append.mp member with before | added
    · exact .inl ⟨old, stored, before⟩
    · obtain rfl := List.mem_singleton.mp added
      exact .inr ⟨other, .inr rfl⟩
  · intro old' stored' f member
    rw [groups, stored] at stored'
    obtain rfl := Option.some.inj stored'
    rw [Group.activeMemberIDs_extend]
    exact .inl (List.mem_append_left _ member)
  · intro _
    rw [groups, Group.activeMemberIDs_extend]
    refine ⟨other, ?_, List.mem_append_right _ (List.mem_singleton_self _), mergeable.apart⟩
    rintro ⟨id', group, stored', -, member, apart⟩
    -- the primary is an active member of the group that it leads, and so of no other
    have primary := leads ▸ (wellFormed.joined active).primary
    obtain rfl := inv.exclusive id id' old group _ stored stored' primary member
    rw [stored] at stored'
    obtain rfl := Option.some.inj stored'
    exact apart leads
  · rw [groups, stored]
    simp [Group.extend, revision]

theorem Inv.written_release (inv : Inv guarded q) (groups : q'.groups = q.groups)
    (rows : q'.findings.rows = q.findings.rows) {old : Group FindingID}
    (stored : q.groups id = some old) (active : old.state = .active)
    (leads : old.primary = request.primary) (revision : old.revision = request.correlationRevision)
    (apart : request.other ≠ request.primary) (splits : request.isMerge = false)
    (member : request.other ∈ old.activeMemberIDs) :
    q'.Written tx request id (old.release request) := by
  have wellFormed := inv.wellFormed id old stored
  refine ⟨rows ▸ Group.wellFormed_release wellFormed active member (leads ▸ apart), leads,
    .inr ⟨old, groups ▸ stored, leads, revision, active⟩, ?_, ?_, ?_,
    fun _ => ⟨old, groups ▸ stored, member⟩, ?_⟩
  · intro f left
    rw [groups]
    refine .inl ⟨old, stored, ?_⟩
    cases terminal : old.terminal with
    | true =>
      rw [Group.activeMemberIDs_release_terminal terminal] at left
      exact absurd left List.not_mem_nil
    | false => exact ((Group.mem_release_one terminal).mp left).1
  · intro old' stored' f before
    rw [groups, stored] at stored'
    obtain rfl := Option.some.inj stored'
    cases terminal : old.terminal with
    | true =>
      exact .inr ⟨splits, leads ▸ Group.terminal_members wellFormed active terminal member
        (leads ▸ apart) before⟩
    | false =>
      by_cases gone : f = request.other
      · exact .inr ⟨splits, .inr gone⟩
      · exact .inl ((Group.mem_release_one terminal).mpr ⟨before, gone⟩)
  · intro merges
    rw [splits] at merges
    cases merges
  · rw [groups, stored]
    simp [Group.release, revision]

end Writes

/-! ### The statements of merges and splits -/

section Statements

variable {number : ℕ} {edit : Edit FindingID}

section

omit [DecidableEq GroupID]

theorem lockRow_eq_some (ran : q.lockRow tx f progress = some q') :
    q.findings.locks f = none ∧ (∃ row, q.findings.rows f = some row) ∧
      q' = ({ q with findings := q.findings.lock tx f } : Store FindingID GroupID).proceed tx
        progress := by
  unfold lockRow at ran
  split at ran
  case h_1 row free stored => exact ⟨free, ⟨row, stored⟩, (Option.some.inj ran).symm⟩
  case h_2 => cases ran

/-- A row that is locked now is held, and so are those that were held before. -/
theorem lockedBy_lock (tx : Tx FindingID) (free : q.findings.locks f = none)
    (stored : ∃ row, q.findings.rows f = some row) :
    LockedBy { q with findings := q.findings.lock tx f } tx f ∧
      ∀ g, q.LockedBy tx g → LockedBy { q with findings := q.findings.lock tx f } tx g := by
  obtain ⟨row, stored⟩ := stored
  refine ⟨⟨none, row, q.findings.changedAt f, ?_, stored, rfl⟩, ?_⟩
  · exact Function.update_self _ _ _
  · rintro g ⟨version, row, since, holds⟩
    exact ⟨version, row, since, holds.lock free⟩

theorem lockedBy_both (first : q.LockedBy tx request.first)
    (second : q.LockedBy tx request.second) :
    q.LockedBy tx request.primary ∧ q.LockedBy tx request.other := by
  unfold Request.first at first
  unfold Request.second at second
  rcases le_total request.primary request.other with le | le
  · rw [min_eq_left le] at first
    rw [max_eq_right le] at second
    exact ⟨first, second⟩
  · rw [min_eq_right le] at first
    rw [max_eq_left le] at second
    exact ⟨second, first⟩

/-- What a transaction writes to a row that it holds. -/
theorem LockedBy.advance (locked : q.LockedBy tx f) {row : Finding}
    (stored : q.findings.rows f = some row) :
    Table.Act Finding.Follows (some tx) q.findings
        (q.findings.stage tx f row.advanceDecision) ∧
      Advances { q with findings := q.findings.stage tx f row.advanceDecision } tx f := by
  obtain ⟨version, row', since, holds⟩ := locked
  obtain rfl := Option.some.inj (stored.symm.trans holds.stored)
  refine ⟨.stage ?_ stored row.follows_advanceDecision, row, since, holds.stage_own _⟩
  rw [Table.freeFor, holds.locked]
  simp

theorem LockedBy.stage_of_ne {g : FindingID} (locked : q.LockedBy tx f) (apart : f ≠ g)
    (version : Finding) :
    LockedBy { q with findings := q.findings.stage tx g version } tx f := by
  obtain ⟨written, row, since, holds⟩ := locked
  exact ⟨written, row, since, holds.stage_of_ne apart version⟩

theorem Request.apart_of_valid (valid : request.valid = true) :
    request.other ≠ request.primary := by
  simp only [Request.valid, Bool.and_eq_true, decide_eq_true_eq] at valid
  exact valid.1.1.1.1.1.1.1

end

omit [LinearOrder FindingID] [DecidableEq GroupID] in
theorem mergeable_of_comparable {primary other : Finding}
    (apart : request.other ≠ request.primary)
    (stored : q.findings.rows request.primary = some primary)
    (stored' : q.findings.rows request.other = some other)
    (comparable : request.comparable primary other = true) :
    Group.Mergeable q.findings.rows request ∧ q.Current request := by
  simp only [Request.comparable, Bool.and_eq_true, decide_eq_true_eq] at comparable
  refine ⟨⟨apart, ?_, ?_, ?_, ?_⟩, primary, other, stored, stored', comparable.2⟩
  · rw [stored]
    rfl
  · rw [stored']
    rfl
  · simp only [assetOf, stored, stored', Option.map_some, comparable.1.1]
  · simpa only [sourceOf, stored, stored', Option.map_some, ne_eq, Option.some.injEq]
      using comparable.1.2

theorem Inv.executes_correlate (inv : Inv guarded q) {statement : Statement GroupID}
    (standing : Standing guarded q ⟨number, .correlate request⟩ progress)
    (ran : q.correlate ⟨number, .correlate request⟩ request statement progress = some q') :
    Executes guarded ⟨number, .correlate request⟩ q q' := by
  unfold correlate at ran
  split at ran
  case h_1 =>
    cases standing with
    | begun valid =>
    obtain ⟨free, stored, rfl⟩ := lockRow_eq_some ran
    exact executes_proceed (.lock free) rfl (fun _ _ same => same)
      (.lockedFirst valid (lockedBy_lock _ free stored).1)
  case h_2 =>
    cases standing with
    | lockedFirst valid first =>
    obtain ⟨free, stored, rfl⟩ := lockRow_eq_some ran
    obtain ⟨second, kept⟩ := lockedBy_lock ⟨number, .correlate request⟩ free stored
    obtain ⟨primary, other⟩ := lockedBy_both (kept _ first) second
    exact executes_proceed (.lock free) rfl (fun _ _ same => same)
      (.lockedBoth valid primary other)
  case h_3 =>
    cases standing with
    | lockedBoth valid primary other =>
    split at ran
    case h_2 => cases ran
    case h_1 row row' stored stored' =>
      split at ran
      case isFalse => cases ran
      case isTrue test =>
        simp only [Bool.and_eq_true] at test
        obtain ⟨mergeable, current⟩ := mergeable_of_comparable (Request.apart_of_valid valid)
          stored stored' test.2
        obtain rfl := Option.some.inj ran
        exact executes_proceed .refl rfl (fun _ _ same => same)
          (.readPrimary test.1 primary other current mergeable (inv.located _))
  case h_4 =>
    cases standing with
    | readPrimary merges primary other current mergeable located =>
    obtain rfl := Option.some.inj ran
    exact executes_proceed .refl rfl (fun _ _ same => same)
      (.readOther merges primary other current mergeable located (inv.located _))
  case h_5 =>
    cases standing with
    | lockedBoth valid primary other =>
    split at ran
    case isTrue => cases ran
    case isFalse splits =>
      obtain ⟨⟨id, revision⟩, found, rfl⟩ := Option.map_eq_some_iff.mp ran
      obtain ⟨group, stored, leads, -⟩ := ledBy_eq_some found
      exact executes_proceed .refl rfl (fun _ _ same => same)
        (.readLed (Bool.not_eq_true _ ▸ splits) valid primary other stored leads)
  case h_6 newID primaryGroup otherGroup =>
    cases standing with
    | readOther merges primary other current mergeable located located' =>
    split at ran
    case h_2 => cases ran
    case h_1 row id group stored planned =>
      split at ran
      case isTrue => cases ran
      case isFalse unused =>
        obtain rfl := Option.some.inj ran
        obtain ⟨act, advances⟩ := primary.advance stored
        obtain ⟨rfl, created | extended⟩ := merge_eq_ok planned
        · obtain ⟨rfl, zero, rfl, rfl⟩ := created
          have fresh : q.generatedBy newID = none := by simpa using unused
          have absent : q.groups newID = none := by
            by_contra present
            obtain ⟨group, stored⟩ := Option.ne_none_iff_exists'.mp present
            exact absurd (inv.generated newID group stored) (by simp [fresh])
          refine executes_proceed act rfl ?_ (.written advances
            (other.stage_of_ne mergeable.apart _)
            (fun splits => nomatch merges.symm.trans splits) current
            (written_create (q := q) merges rfl rfl absent (Function.update_self _ _ _) zero
              mergeable located located'))
          intro id tx generated
          have apart : id ≠ newID := by
            rintro rfl
            exact nomatch fresh.symm.trans generated
          exact (Function.update_of_ne apart _ _).trans generated
        · obtain ⟨found, old, rfl, leads, stored', active, revision, admitted, room, rfl, rfl⟩ :=
            extended
          obtain ⟨group, stored'', -, primary'⟩ := located leads
          obtain rfl := Option.some.inj (stored'.symm.trans stored'')
          exact executes_proceed act rfl (fun _ _ same => same)
            (.written advances (other.stage_of_ne mergeable.apart _)
              (fun splits => nomatch merges.symm.trans splits) current
              (inv.written_extend merges (by rfl) (by rfl) stored' active primary' revision
                mergeable located' admitted room))
  case h_7 =>
    cases standing with
    | readLed splits valid primary other stored leads =>
    split at ran
    case h_2 => cases ran
    case h_1 row row' storedPrimary storedOther =>
      split at ran
      case h_2 => cases ran
      case h_1 group planned =>
        obtain ⟨old, stored', active, revision, member, current, rfl⟩ := split_eq_ok planned
        obtain rfl := Option.some.inj (stored.symm.trans stored')
        obtain rfl := Option.some.inj ran
        have apart := Request.apart_of_valid valid
        obtain ⟨act, advances⟩ := primary.advance storedPrimary
        obtain ⟨act', advances'⟩ := (other.stage_of_ne apart _).advance storedOther
        refine executes_proceed (act.trans act') rfl (fun _ _ same => same)
          (.written ?_ advances'.lockedBy (fun _ => advances')
            ⟨row, row', storedPrimary, storedOther, current⟩
            (inv.written_release (by rfl) (by rfl) stored active leads revision apart splits
              member))
        obtain ⟨written, since, holds⟩ := advances
        exact ⟨written, since, holds.stage_of_ne apart.symm _⟩
  case h_8 => cases ran

/-! ### The statements of edits -/

/-- A patch or a note takes the lock on a finding that is visible at that moment. -/
def grantsVisible (q : Store FindingID GroupID) : Action FindingID GroupID → Bool
  | .execute tx .seize =>
    match tx.work, q.progress tx with
    | .edit edit, some (.editing _ (some f)) => edit.rechecks || q.workVisible f
    | _, _ => true
  | _ => true

omit [DecidableEq GroupID] in
theorem Inv.executes_edit (inv : Inv guarded q) {statement : Statement GroupID}
    (standing : Standing guarded q ⟨number, .edit edit⟩ progress)
    (running : q.progress ⟨number, .edit edit⟩ = some progress)
    (granted : guarded → q.grantsVisible (.execute ⟨number, .edit edit⟩ statement) = true)
    (ran : q.edit ⟨number, .edit edit⟩ edit statement progress = some q') :
    Executes guarded ⟨number, .edit edit⟩ q q' := by
  unfold Store.edit at ran
  split at ran
  case h_1 done =>
    cases standing with
    | editing advances visible =>
    split at ran
    case h_2 => cases ran
    case h_1 f next =>
      split at ran
      case isFalse => cases ran
      case isTrue =>
        obtain rfl := Option.some.inj ran
        exact executes_proceed .refl rfl (fun _ _ same => same) (.editing advances visible)
  case h_2 done f =>
    cases standing with
    | editing advances visible =>
    split at ran
    case h_2 => cases ran
    case h_1 row free stored =>
      obtain rfl := Option.some.inj ran
      refine executes_proceed
        (.stage (Table.freeFor_of_none free) stored row.follows_advanceDecision) rfl
        (fun _ _ same => same) (.editing ?_ ?_)
      · intro g mem
        rcases List.mem_append.mp mem with before | added
        · obtain ⟨row', since, holds⟩ := advances g before
          have apart : g ≠ f := by
            rintro rfl
            exact nomatch free.symm.trans holds.locked
          exact ⟨row', since, holds.stage_of_ne apart _⟩
        · obtain rfl := List.mem_singleton.mp added
          exact ⟨row, q.findings.changedAt g, Function.update_self _ _ _, stored, rfl⟩
      · intro holds rechecks g mem
        rcases List.mem_append.mp mem with before | added
        · exact visible holds rechecks g before
        · obtain rfl := List.mem_singleton.mp added
          have grant := granted holds
          simp only [grantsVisible, running, rechecks, Bool.false_or] at grant
          exact (inv.workVisible_iff g).mp grant
  case h_3 done =>
    cases standing with
    | editing advances visible =>
    split at ran
    case isFalse => cases ran
    case isTrue test =>
      simp only [Bool.and_eq_true, decide_eq_true_eq, List.all_eq_true] at test
      obtain rfl := Option.some.inj ran
      obtain ⟨⟨-, rfl⟩, seen⟩ := test
      exact executes_proceed .refl rfl (fun _ _ same => same)
        (.rechecked advances fun f mem => (inv.workVisible_iff f).mp (seen f mem))
  case h_4 => cases ran

end Statements

/-! ### Starts and ends -/

section

omit [DecidableEq GroupID]

theorem Quiet.finish {edits : List (EditRecord FindingID)}
    (act : Table.Act Finding.Follows (some tx) q.findings findings) :
    Quiet (some tx) q (({ q with findings, edits } : Store FindingID GroupID).finish tx) where
  act := act
  groups := rfl
  groupIDs := rfl
  generated _ _ same := same
  others _ other := Function.update_of_ne (fun same => other (congrArg some same.symm)) _ _
  keys key tx' running held := by
    have apart : tx' ≠ tx := by
      rintro rfl
      exact running (Function.update_self _ _ _)
    show (q.keys key).filter _ = _
    rw [held, Option.filter_some, if_pos (decide_eq_true apart)]

theorem Inv.finish (inv : Inv guarded q) {edits : List (EditRecord FindingID)}
    (act : Table.Act Finding.Follows (some tx) q.findings findings)
    (visible : ∀ record ∈ edits, guarded ∨ record.edit.rechecks = true → record.visible = true) :
    Inv guarded (({ q with findings, edits } : Store FindingID GroupID).finish tx) := by
  have ended : (({ q with findings, edits } : Store FindingID GroupID).finish tx).progress tx =
      none := Function.update_self _ _ _
  refine inv.quiet (Quiet.finish act) ?_ ?_ visible
  · intro tx' progress same running
    obtain rfl := Option.some.inj same
    exact nomatch ended.symm.trans running
  · intro number request progress same running
    obtain rfl := Option.some.inj same
    exact nomatch ended.symm.trans running

/-- A key without an event, as the replay check finds it. -/
theorem Inv.unused_of_replay (inv : Inv guarded q)
    (fresh : q.correlationReplay request = .ok none) :
    Unused q.groups request.idempotencyKey := by
  intro id group stored event mem same
  unfold correlationReplay at fresh
  dsimp only at fresh
  split at fresh
  case h_1 absent =>
    refine absurd (decide_eq_true same) (List.find?_eq_none.mp absent (id, event) ?_)
    refine List.mem_flatMap.mpr ⟨id, inv.known id group stored, ?_⟩
    rw [stored]
    exact List.mem_map_of_mem mem
  case h_2 =>
    split at fresh
    · cases Except.ok.inj fresh
    · cases fresh

/-- What the start of a transaction does: a merge or a split takes its key, which has no event,
and an edit takes nothing. -/
theorem Inv.start_cases (inv : Inv guarded q) (started : q.start tx = some q') :
    Quiet (some tx) q q' ∧ q'.findings = q.findings ∧ q'.edits = q.edits ∧
      ((∃ number request, tx = ⟨number, .correlate request⟩ ∧ request.valid = true ∧
          q'.progress tx = some .begun ∧ q'.keys request.idempotencyKey = some tx ∧
          Unused q.groups request.idempotencyKey) ∨
        ∃ number edit, tx = ⟨number, .edit edit⟩ ∧ q'.progress tx = some (.editing [] none)) := by
  unfold Store.start at started
  split at started
  case isTrue => cases started
  case isFalse =>
  obtain ⟨number, request | edit⟩ := tx
  · dsimp only at started
    split at started
    case isFalse => cases started
    case isTrue test =>
      split at started
      case h_2 => cases started
      case h_1 fresh =>
        simp only [Bool.and_eq_true, Option.isNone_iff_eq_none] at test
        obtain rfl := Option.some.inj started
        refine ⟨⟨.refl, rfl, rfl, fun _ _ same => same, ?_, ?_⟩, rfl, rfl,
          .inl ⟨number, request, rfl, test.1, progress_proceed _, Function.update_self _ _ _,
            inv.unused_of_replay fresh⟩⟩
        · exact fun _ other =>
            Function.update_of_ne (fun same => other (congrArg some same.symm)) _ _
        · intro key tx _ held
          have apart : key ≠ request.idempotencyKey := by
            rintro rfl
            exact nomatch test.2.symm.trans held
          exact (Function.update_of_ne apart _ _).trans held
  · dsimp only at started
    split at started
    case isFalse => cases started
    case isTrue =>
      obtain rfl := Option.some.inj started
      exact ⟨.proceed _ .refl fun _ _ same => same, rfl, rfl,
        .inr ⟨number, edit, rfl, progress_proceed _⟩⟩

theorem Inv.start (inv : Inv guarded q) (started : q.start tx = some q') : Inv guarded q' := by
  obtain ⟨quiet, -, edits, begun⟩ := inv.start_cases started
  refine inv.quiet quiet ?_ ?_ (edits ▸ inv.edits)
  · intro tx' progress same running
    obtain rfl := Option.some.inj same
    rcases begun with ⟨number, request, rfl, valid, first, -⟩ | ⟨number, edit, rfl, first⟩
    · obtain rfl := Option.some.inj (first.symm.trans running)
      exact .begun valid
    · obtain rfl := Option.some.inj (first.symm.trans running)
      exact .editing (fun _ mem => nomatch mem) fun _ _ _ mem => nomatch mem
  · intro number request progress same _
    obtain rfl := Option.some.inj same
    rcases begun with ⟨number', request', work, -, -, held, unused⟩ | ⟨number', edit, work, -⟩
    · obtain rfl := Work.correlate.inj (Tx.mk.inj work).2
      exact ⟨held, unused⟩
    · cases work

end

/-! ### The commit of a merge or a split -/

/-- The store after the commit of a group. -/
def publish (q : Store FindingID GroupID) (tx : Tx FindingID) (id : GroupID)
    (group : Group FindingID) : Store FindingID GroupID :=
  ({ q with
    findings := q.findings.commit tx
    groups := Function.update q.groups id (some group)
    groupIDs := if id ∈ q.groupIDs then q.groupIDs else q.groupIDs ++ [id] } :
      Store FindingID GroupID).finish tx

theorem groups_publish {group' : Group FindingID}
    (stored : (q.publish tx id group).groups id' = some group') :
    (id' = id ∧ group' = group) ∨ (id' ≠ id ∧ q.groups id' = some group') := by
  by_cases same : id' = id
  · subst same
    have published : (q.publish tx id' group).groups id' = some group := Function.update_self _ _ _
    exact .inl ⟨rfl, Option.some.inj (stored.symm.trans published)⟩
  · have kept : (q.publish tx id group).groups id' = q.groups id' :=
      Function.update_of_ne same _ _
    exact .inr ⟨same, kept ▸ stored⟩

theorem groups_publish_of_ne (apart : id' ≠ id) :
    (q.publish tx id group).groups id' = q.groups id' :=
  Function.update_of_ne apart _ _

theorem Inv.persist_publish (inv : Inv guarded q) :
    Persist q.findings.rows (q.publish tx id group).findings.rows :=
  fun _ _ stored => (Table.Act.commit (M := Finding.Follows)).rows .refl .trans inv.staged stored

/-- What the commit of a merge or a split leaves to the other transactions. -/
theorem Inv.frame_publish (inv : Inv guarded q) (primary : q.LockedBy tx request.primary)
    (other : q.LockedBy tx request.other) (written : q.Written tx request id group)
    {tx' : Tx FindingID} (apart : tx' ≠ tx) : Frame tx' q (q.publish tx id group) := by
  have untouched : ∀ f, q.LockedBy tx' f → f ≠ request.primary ∧ f ≠ request.other := by
    intro f locked
    constructor
    · rintro rfl
      exact apart (locked.owner primary)
    · rintro rfl
      exact apart (locked.owner other)
  -- a finding that another transaction holds is active in the group only if it was before
  have before : ∀ f, q.LockedBy tx' f → f ∈ group.activeMemberIDs →
      ∃ old, q.groups id = some old ∧ f ∈ old.activeMemberIDs := by
    intro f locked member
    rcases written.joins f member with old | ⟨-, own⟩
    · exact old
    · exact absurd own (not_or.mpr (untouched f locked))
  refine ⟨inv.persist_publish, ?_, ?_, ?_, ?_, ?_⟩
  · intro f version row since holds
    exact holds.commit apart.symm
  · intro f locked free id' group' stored member
    rcases groups_publish stored with ⟨rfl, rfl⟩ | ⟨-, stored⟩
    · obtain ⟨old, stored, member⟩ := before f locked member
      exact free id' old stored member
    · exact free id' group' stored member
  · intro id' group' stored locked
    have other : id' ≠ id := by
      rintro rfl
      rcases written.origin with ⟨fresh, -⟩ | ⟨old, stored', leads, -⟩
      · exact nomatch fresh.symm.trans stored
      · obtain rfl := Option.some.inj (stored.symm.trans stored')
        exact (untouched _ locked).1 leads
    rw [groups_publish_of_ne other, stored]
  · rintro f locked visible ⟨id', group', stored, active, member, leads⟩
    rcases groups_publish stored with ⟨rfl, rfl⟩ | ⟨-, stored⟩
    · obtain ⟨old, stored, member⟩ := before f locked member
      refine visible ⟨id', old, stored, (inv.wellFormed id' old stored).state_of_mem member, member,
        ?_⟩
      rcases written.origin with ⟨fresh, -⟩ | ⟨old', stored', primary', -⟩
      · exact nomatch fresh.symm.trans stored
      · obtain rfl := Option.some.inj (stored.symm.trans stored')
        rw [primary', ← written.leads]
        exact leads
    · exact visible ⟨id', group', stored, active, member, leads⟩
  · intro id' generated fresh
    have other : id' ≠ id := by
      rintro rfl
      rcases written.origin with ⟨-, generated', -⟩ | ⟨old, stored, -⟩
      · exact apart (Option.some.inj (generated.symm.trans generated'))
      · exact nomatch fresh.symm.trans stored
    exact ⟨(groups_publish_of_ne other).trans fresh, generated⟩

theorem Inv.exclusive_publish (inv : Inv guarded q) (written : q.Written tx request id group) :
    Exclusive (q.publish tx id group).groups := by
  -- an active member of the new version is in no other group
  have alone : ∀ f ∈ group.activeMemberIDs, ∀ id' group', q.groups id' = some group' →
      f ∈ group'.activeMemberIDs → id' = id := by
    intro f member id' group' stored member'
    rcases written.joins f member with ⟨old, stored', before⟩ | ⟨free, -⟩
    · exact inv.exclusive id' id group' old f stored stored' member' before
    · exact absurd member' (free id' group' stored)
  intro id₁ id₂ group₁ group₂ f stored₁ stored₂ member₁ member₂
  rcases groups_publish stored₁ with ⟨rfl, rfl⟩ | ⟨-, before₁⟩ <;>
    rcases groups_publish stored₂ with ⟨rfl, rfl⟩ | ⟨-, before₂⟩
  · rfl
  · exact (alone f member₁ id₂ group₂ before₂ member₂).symm
  · exact alone f member₂ id₁ group₁ before₁ member₁
  · exact inv.exclusive id₁ id₂ group₁ group₂ f before₁ before₂ member₁ member₂

omit [LinearOrder FindingID] [DecidableEq GroupID] in
/-- An event of the new version is one of the old, or that of the request. -/
theorem Written.mem_events (written : q.Written tx request id group) {event : Event FindingID}
    (mem : event ∈ group.events) :
    (∃ old, q.groups id = some old ∧ event ∈ old.events) ∨
      event = ⟨request.correlationRevision + 1, request⟩ := by
  rw [written.events] at mem
  rcases List.mem_append.mp mem with before | added
  · cases stored : q.groups id with
    | none => simp [stored] at before
    | some old =>
      simp only [stored, Option.map_some, Option.getD_some] at before
      exact .inl ⟨old, rfl, before⟩
  · exact .inr (List.mem_singleton.mp added)

/-- Every event after the commit was there before, in the same group, or is that of the
request. -/
theorem Written.events_publish (written : q.Written tx request id group) {group' : Group FindingID}
    (stored : (q.publish tx id group).groups id' = some group') {event : Event FindingID}
    (mem : event ∈ group'.events) :
    (∃ old, q.groups id' = some old ∧ event ∈ old.events) ∨
      (id' = id ∧ event = ⟨request.correlationRevision + 1, request⟩) := by
  rcases groups_publish stored with ⟨rfl, rfl⟩ | ⟨-, stored⟩
  · rcases written.mem_events mem with before | added
    · exact .inl before
    · exact .inr ⟨rfl, added⟩
  · exact .inl ⟨group', stored, mem⟩

theorem Inv.keysUnique_publish (inv : Inv guarded q) (written : q.Written tx request id group)
    (unused : Unused q.groups request.idempotencyKey) :
    KeysUnique (q.publish tx id group).groups := by
  intro id₁ id₂ group₁ group₂ stored₁ stored₂ event₁ mem₁ event₂ mem₂ same
  rcases written.events_publish stored₁ mem₁ with ⟨old₁, before₁, old_mem₁⟩ | ⟨rfl, rfl⟩ <;>
    rcases written.events_publish stored₂ mem₂ with ⟨old₂, before₂, old_mem₂⟩ | ⟨rfl, rfl⟩
  · exact inv.keysUnique id₁ id₂ old₁ old₂ before₁ before₂ event₁ old_mem₁ event₂ old_mem₂ same
  · exact absurd same (unused id₁ old₁ before₁ event₁ old_mem₁)
  · exact absurd same.symm (unused id₂ old₂ before₂ event₂ old_mem₂)
  · exact ⟨rfl, rfl⟩

theorem Inv.publish (inv : Inv guarded q) {number : ℕ}
    (running : q.progress ⟨number, .correlate request⟩ = some (.written id group)) :
    Inv guarded (q.publish ⟨number, .correlate request⟩ id group) := by
  have standing := inv.standing _ _ running
  obtain ⟨held, unused⟩ := inv.keyed _ _ _ running
  cases standing with
  | written advances other released current written =>
  have primary := advances.lockedBy
  constructor
  · intro id' group' stored
    show id' ∈ (if id ∈ q.groupIDs then q.groupIDs else q.groupIDs ++ [id])
    rcases groups_publish stored with ⟨rfl, -⟩ | ⟨-, stored⟩
    · split
      · assumption
      · exact List.mem_append_right _ (List.mem_singleton_self _)
    · have known := inv.known id' group' stored
      split
      · exact known
      · exact List.mem_append_left _ known
  · intro id' group' stored
    show (q.generatedBy id').isSome
    rcases groups_publish stored with ⟨rfl, -⟩ | ⟨-, stored⟩
    · rcases written.origin with ⟨-, generated, -⟩ | ⟨old, stored, -⟩
      · rw [generated]
        rfl
      · exact inv.generated id' old stored
    · exact inv.generated id' group' stored
  · exact inv.staged.commit _
  · intro id' group' stored
    rcases groups_publish stored with ⟨rfl, rfl⟩ | ⟨-, stored⟩
    · exact written.wellFormed.persist inv.persist_publish
    · exact (inv.wellFormed id' group' stored).persist inv.persist_publish
  · exact inv.exclusive_publish written
  · exact inv.keysUnique_publish written unused
  · intro tx progress running'
    have apart : tx ≠ ⟨number, .correlate request⟩ := by
      rintro rfl
      exact nomatch (Function.update_self _ _ _).symm.trans running'
    have before : q.progress tx = some progress :=
      (Function.update_of_ne apart _ _).symm.trans running'
    exact (inv.standing tx progress before).frame (inv.frame_publish primary other written apart)
  · intro number' request' progress running'
    have apart : (⟨number', .correlate request'⟩ : Tx FindingID) ≠
        ⟨number, .correlate request⟩ := by
      intro same
      rw [same] at running'
      exact nomatch (Function.update_self _ _ _).symm.trans running'
    obtain ⟨held', unused'⟩ := inv.keyed number' request' progress
      ((Function.update_of_ne apart _ _).symm.trans running')
    constructor
    · show (q.keys request'.idempotencyKey).filter _ = _
      rw [held', Option.filter_some, if_pos (decide_eq_true apart)]
    · intro id' group' stored event mem
      rcases written.events_publish stored mem with ⟨old, stored, mem⟩ | ⟨-, rfl⟩
      · exact unused' id' old stored event mem
      · intro same
        rw [show request.idempotencyKey = request'.idempotencyKey from same, held'] at held
        exact apart (Option.some.inj held)
  · exact inv.edits

/-! ### The invariant of every run -/

section Commit

variable {number : ℕ} {edit : Edit FindingID}

theorem commit_correlate (ran : q.commit tx (.correlate request) progress = some q') :
    ∃ id group, progress = .written id group ∧ q' = q.publish tx id group := by
  unfold Store.commit at ran
  cases progress with
  | written id group => exact ⟨id, group, rfl, (Option.some.inj ran).symm⟩
  | _ => cases ran

/-- The store after the commit of an edit. -/
def publishEdit (q : Store FindingID GroupID) (tx : Tx FindingID) (edit : Edit FindingID) :
    Store FindingID GroupID :=
  ({ q with
    findings := q.findings.commit tx
    edits := q.edits ++ edit.findings.map fun f =>
      (⟨edit, f, q.workVisible f⟩ : EditRecord FindingID) } : Store FindingID GroupID).finish tx

theorem commit_edit (ran : q.commit tx (.edit edit) progress = some q') :
    (progress = .rechecked ∨ (edit.rechecks = false ∧ progress = .editing edit.findings none)) ∧
      q' = q.publishEdit tx edit := by
  unfold Store.commit at ran
  dsimp only at ran
  split at ran
  case isFalse => cases ran
  case isTrue ready =>
    refine ⟨?_, (Option.some.inj ran).symm⟩
    simpa only [Bool.or_eq_true, Bool.and_eq_true, Bool.not_eq_true', decide_eq_true_eq] using ready

omit [DecidableEq GroupID] in
/-- The findings that an edit commits: held and advanced, and visible, but for a patch or a note
that took its lock unguarded. -/
theorem Inv.ready_edit (inv : Inv guarded q)
    (running : q.progress ⟨number, .edit edit⟩ = some progress)
    (ready : progress = .rechecked ∨
      (edit.rechecks = false ∧ progress = .editing edit.findings none)) :
    (∀ f ∈ edit.findings, q.Advances ⟨number, .edit edit⟩ f) ∧
      (guarded ∨ edit.rechecks = true → ∀ f ∈ edit.findings, ¬ Secondary q.groups f) := by
  have standing := inv.standing _ _ running
  rcases ready with rfl | ⟨once, rfl⟩
  · cases standing with
    | rechecked advances visible => exact ⟨advances, fun _ => visible⟩
  · cases standing with
    | editing advances visible =>
    refine ⟨advances, ?_⟩
    rintro (holds | rechecks)
    · exact visible holds once
    · exact nomatch once.symm.trans rechecks

omit [DecidableEq GroupID] in
theorem Inv.publishEdit (inv : Inv guarded q)
    (running : q.progress ⟨number, .edit edit⟩ = some progress)
    (ready : progress = .rechecked ∨
      (edit.rechecks = false ∧ progress = .editing edit.findings none)) :
    Inv guarded (q.publishEdit ⟨number, .edit edit⟩ edit) := by
  refine inv.finish .commit ?_
  intro record recorded guard
  rcases List.mem_append.mp recorded with before | added
  · exact inv.edits record before guard
  · obtain ⟨f, mem, rfl⟩ := List.mem_map.mp added
    exact (inv.workVisible_iff f).mpr ((inv.ready_edit running ready).2 guard f mem)

end Commit

omit [DecidableEq GroupID] in
/-- A write of an import. -/
theorem Inv.environment (inv : Inv guarded q)
    (act : Table.Act Finding.Follows none q.findings findings) :
    Inv guarded { q with findings } := by
  have quiet : Quiet none q { q with findings } :=
    ⟨act, rfl, rfl, fun _ _ same => same, fun _ _ => rfl, fun _ _ _ held => held⟩
  exact inv.quiet quiet (fun _ _ same => nomatch same) (fun _ _ _ same => nomatch same) inv.edits

theorem Inv.step (inv : Inv guarded q) {a : Action FindingID GroupID}
    (granted : guarded → q.grantsVisible a = true) (step : q.step a = some q') :
    Inv guarded q' := by
  unfold Store.step at step
  cases a with
  | importFinding f assetID sourceID =>
    dsimp only at step
    split at step
    case isTrue => cases step
    case isFalse absent =>
      obtain rfl := Option.some.inj step
      exact inv.environment (.insert (by simpa using absent))
  | importEvidence f =>
    dsimp only at step
    split at step
    case isTrue => cases step
    case isFalse locked =>
      obtain rfl := Option.some.inj step
      exact inv.environment
        (.update (by simpa using locked) Finding.follows_advanceEvidence)
  | start tx => exact inv.start step
  | execute tx statement =>
    obtain ⟨progress, running, ran⟩ := Option.bind_eq_some_iff.mp step
    have standing := inv.standing tx progress running
    have open' : q.progress tx ≠ none := by
      rw [running]
      exact Option.some_ne_none _
    obtain ⟨number, request | edit⟩ := tx
    · exact inv.executes (inv.executes_correlate standing ran) open'
    · exact inv.executes (inv.executes_edit standing running granted ran) open'
  | commit tx =>
    obtain ⟨progress, running, ran⟩ := Option.bind_eq_some_iff.mp step
    obtain ⟨number, request | edit⟩ := tx
    · obtain ⟨id, group, rfl, rfl⟩ := commit_correlate ran
      exact inv.publish running
    · obtain ⟨ready, rfl⟩ := commit_edit ran
      exact inv.publishEdit running ready
  | abort tx =>
    dsimp only at step
    split at step
    case isFalse => cases step
    case isTrue =>
      obtain rfl := Option.some.inj step
      exact inv.finish .abort inv.edits

end Store

end Aspm.Correlation
