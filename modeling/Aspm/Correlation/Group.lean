import Aspm.Reconcile.Model

/-!
# Correlation groups

A group of findings that an analyst declared to be one: its row of `finding_correlations`
with its rows of `finding_correlation_members` and `finding_correlation_events`.  The three
are written by one transaction and only by the transactions of `mergeFindings` and
`splitFinding`, so a group is one value here, with the members by ordinal and the events by
sequence.

A merge creates a group of two or adds one member to a group; a split releases one member,
and both of the last two.  Released members stay in the group for ever, as do their
ordinals.

`Group.WellFormed` is what the three tables promise about one group.  That no finding is in
two groups is a matter of the whole store, and of the locks of the transactions.
-/

namespace Aspm.Correlation

open Reconcile (Time)

abbrev ActorID := String

inductive WorkflowState where
  | opened
  | inProgress
  | pendingRetest
  | resolved
deriving DecidableEq

inductive Disposition where
  | none
  | acceptedRisk
  | suppressed
  | falsePositive
deriving DecidableEq

/-- The decision that a request selects for a finding. -/
structure FindingDecision where
  ownerID : Option ActorID
  workflowState : WorkflowState
  disposition : Disposition
  acceptedRiskExpiresAt : Option Time
  dispositionScope : String
  suppressionExpiresAt : Option Time
  dispositionRationale : String
deriving DecidableEq

/-- The columns of `findings` that merges and splits read. -/
structure Finding where
  assetID : String
  sourceID : String
  decisionRevision : ℕ
  evidenceRevision : ℕ
deriving DecidableEq

/-- The white space of Unicode, which `strings.TrimSpace` cuts off. -/
def isSpace (c : Char) : Bool :=
  c.toNat ∈ [0x09, 0x0a, 0x0b, 0x0c, 0x0d, 0x20, 0x85, 0xa0, 0x1680, 0x2028, 0x2029, 0x202f,
    0x205f, 0x3000] || (0x2000 ≤ c.toNat && c.toNat ≤ 0x200a)

def validText (value : String) (limit : ℕ) : Bool :=
  value.toList.any (fun c => !isSpace c) && value.utf8ByteSize ≤ limit &&
    value.toList.all (fun c => c.toNat ≠ 0)

/-! ## Requests -/

/-- The errors of the handlers: `errInvalid`, `errConflict`, `errNotFound`, `errTooLarge` and
`pgx.ErrNoRows`. -/
inductive RequestError where
  | invalid
  | conflict
  | notFound
  | tooLarge
  | noRows
deriving DecidableEq

/-- The revisions of a finding that a request was made for. -/
structure Revisions where
  decision : ℕ
  evidence : ℕ
deriving DecidableEq

def Finding.revisions (row : Finding) : Revisions := ⟨row.decisionRevision, row.evidenceRevision⟩

inductive Change where
  | merge (decision : FindingDecision)
  | split (primaryDecision memberDecision : FindingDecision)
deriving DecidableEq

section Group

variable (FindingID : Type)

/-- The binding of a request of `mergeFindings` or `splitFinding`, which is what its digest
is taken of.  `other` is the other finding of a merge, and the member of a split. -/
structure Request where
  actor : ActorID
  primary : FindingID
  other : FindingID
  correlationRevision : ℕ
  primaryRevisions : Revisions
  otherRevisions : Revisions
  change : Change
  rationale : String
  idempotencyKey : String
deriving DecidableEq

structure Member where
  findingID : FindingID
  ordinal : ℕ
  /-- `released_at IS NULL`. -/
  active : Bool
deriving DecidableEq

/-- An event has its type, actor, rationale and idempotency key from the request. -/
structure Event where
  sequence : ℕ
  request : Request FindingID
deriving DecidableEq

inductive GroupState where
  | active
  | split
deriving DecidableEq

structure Group where
  primary : FindingID
  state : GroupState
  revision : ℕ
  members : List (Member FindingID)
  events : List (Event FindingID)
deriving DecidableEq

end Group

variable {FindingID : Type} [DecidableEq FindingID]

def Request.isMerge (request : Request FindingID) : Bool :=
  match request.change with
  | .merge _ => true
  | .split _ _ => false

/-- The checks of both handlers before they begin a transaction. -/
def Request.valid (request : Request FindingID) : Bool :=
  request.other ≠ request.primary && (request.isMerge || 1 ≤ request.correlationRevision) &&
    1 ≤ request.primaryRevisions.decision && 1 ≤ request.primaryRevisions.evidence &&
    1 ≤ request.otherRevisions.decision && 1 ≤ request.otherRevisions.evidence &&
    validText request.rationale 8192 && validText request.idempotencyKey 256

namespace Group

/-- `correlationActiveMemberIDs`. -/
def activeMemberIDs (group : Group FindingID) : List FindingID :=
  (group.members.filter (·.active)).map (·.findingID)

/-! ## What the requests write -/

/-- A merge whose primary is in no group. -/
def create (request : Request FindingID) : Group FindingID where
  primary := request.primary
  state := .active
  revision := 1
  members := [⟨request.primary, 0, true⟩, ⟨request.other, 1, true⟩]
  events := [⟨1, request⟩]

/-- A merge whose primary leads the group. -/
def extend (request : Request FindingID) (group : Group FindingID) : Group FindingID :=
  { group with
    revision := group.revision + 1
    members := group.members ++ [⟨request.other, group.members.length, true⟩]
    events := group.events ++ [⟨group.revision + 1, request⟩] }

/-- The split that leaves nothing of the group. -/
def terminal (group : Group FindingID) : Bool := group.activeMemberIDs.length = 2

def released (request : Request FindingID) (group : Group FindingID) (m : Member FindingID) :
    Bool :=
  m.active && (group.terminal || m.findingID = request.other)

def expectedReleased (group : Group FindingID) : ℕ := if group.terminal then 2 else 1

def release (request : Request FindingID) (group : Group FindingID) : Group FindingID :=
  { group with
    state := if group.terminal then .split else .active
    revision := group.revision + 1
    members := group.members.map fun m =>
      if group.released request m then { m with active := false } else m
    events := group.events ++ [⟨group.revision + 1, request⟩] }

/-- The members that keep a merge from adding the finding: its own earlier membership, and an
active member from the same source. -/
def refuses (sourceOf : FindingID → Option String) (other : FindingID)
    (m : Member FindingID) : Bool :=
  m.findingID = other || (m.active && sourceOf m.findingID = sourceOf other)

end Group

/-! ## Well-formed groups -/

section WellFormed

variable (rows : FindingID → Option Finding)

def assetOf (f : FindingID) : Option String := (rows f).map (·.assetID)

def sourceOf (f : FindingID) : Option String := (rows f).map (·.sourceID)

/-- What holds of the active members of an active group. -/
structure Group.Joined (group : Group FindingID) : Prop where
  two : 2 ≤ group.activeMemberIDs.length
  primary : group.primary ∈ group.activeMemberIDs
  stored : ∀ f ∈ group.activeMemberIDs, (rows f).isSome
  asset : ∀ f ∈ group.activeMemberIDs, assetOf rows f = assetOf rows group.primary
  sources : ∀ f ∈ group.activeMemberIDs, ∀ f' ∈ group.activeMemberIDs,
    sourceOf rows f = sourceOf rows f' → f = f'

structure Group.WellFormed (group : Group FindingID) : Prop where
  distinct : (group.members.map (·.findingID)).Nodup
  ordinals : group.members.map (·.ordinal) = List.range group.members.length
  bounded : group.members.length ≤ 64
  sequences : group.events.map (·.sequence) = List.range' 1 group.revision
  joined : group.state = .active → group.Joined rows
  dissolved : group.state = .split → group.activeMemberIDs = []

end WellFormed

namespace Group

variable {rows : FindingID → Option Finding} {request : Request FindingID}
  {group : Group FindingID} {f : FindingID}

section

omit [DecidableEq FindingID]

theorem mem_activeMemberIDs :
    f ∈ group.activeMemberIDs ↔ ∃ m ∈ group.members, m.active = true ∧ m.findingID = f := by
  simp only [activeMemberIDs, List.mem_map, List.mem_filter, and_assoc]

theorem activeMemberIDs_sublist :
    group.activeMemberIDs.Sublist (group.members.map (·.findingID)) :=
  List.filter_sublist.map _

theorem WellFormed.active_nodup (wellFormed : group.WellFormed rows) :
    group.activeMemberIDs.Nodup :=
  wellFormed.distinct.sublist activeMemberIDs_sublist

/-- A group with an active member is active. -/
theorem WellFormed.state_of_mem (wellFormed : group.WellFormed rows)
    (member : f ∈ group.activeMemberIDs) : group.state = .active := by
  cases state : group.state with
  | active => rfl
  | split =>
    rw [wellFormed.dissolved state] at member
    exact absurd member List.not_mem_nil

theorem WellFormed.length_events (wellFormed : group.WellFormed rows) :
    group.events.length = group.revision := by
  have lengths := congrArg List.length wellFormed.sequences
  rwa [List.length_map, List.length_range'] at lengths

end

/-! ### The active members after each write -/

omit [DecidableEq FindingID] in
@[simp] theorem activeMemberIDs_create :
    (create request).activeMemberIDs = [request.primary, request.other] := rfl

omit [DecidableEq FindingID] in
@[simp] theorem activeMemberIDs_extend :
    (extend request group).activeMemberIDs = group.activeMemberIDs ++ [request.other] := by
  simp [activeMemberIDs, extend, List.filter_append]

/-- Releasing takes the released members away, and leaves the order of the others. -/
theorem activeMemberIDs_release :
    (release request group).activeMemberIDs =
      ((group.members.filter (·.active)).filter fun m => !group.released request m).map
        (·.findingID) := by
  unfold activeMemberIDs
  simp only [release, List.filter_map, List.map_map, List.filter_filter]
  rw [List.map_congr_left (g := fun m => m.findingID)]
  · congr 1
    apply List.filter_congr
    intro m _
    by_cases gone : group.released request m = true <;> simp [gone]
  · intro m _
    by_cases gone : group.released request m = true <;> simp [gone]

theorem activeMemberIDs_release_terminal (terminal : group.terminal = true) :
    (release request group).activeMemberIDs = [] := by
  rw [activeMemberIDs_release, List.map_eq_nil_iff, List.filter_eq_nil_iff]
  intro m mem
  simp [released, terminal, (List.mem_filter.mp mem).2]

theorem activeMemberIDs_release_one (remains : group.terminal = false) :
    (release request group).activeMemberIDs =
      group.activeMemberIDs.filter (· ≠ request.other) := by
  rw [activeMemberIDs_release, activeMemberIDs, List.filter_map]
  congr 1
  apply List.filter_congr
  intro m mem
  simp [released, remains, (List.mem_filter.mp mem).2]

/-! ### Every write keeps a group well formed -/

omit [DecidableEq FindingID] in
theorem sequences_append (wellFormed : group.WellFormed rows) :
    (group.events ++ [(⟨group.revision + 1, request⟩ : Event FindingID)]).map (·.sequence) =
      List.range' 1 (group.revision + 1) := by
  rw [List.map_append, wellFormed.sequences, List.range'_concat, Nat.one_mul, Nat.add_comm 1]
  rfl

/-- The findings of a merge, as far as it compares them. -/
structure Mergeable (rows : FindingID → Option Finding) (request : Request FindingID) : Prop where
  apart : request.other ≠ request.primary
  primary : (rows request.primary).isSome
  other : (rows request.other).isSome
  asset : assetOf rows request.primary = assetOf rows request.other
  source : sourceOf rows request.primary ≠ sourceOf rows request.other

omit [DecidableEq FindingID] in
theorem wellFormed_create (mergeable : Mergeable rows request) :
    (create request).WellFormed rows where
  distinct := by simpa [create] using mergeable.apart.symm
  ordinals := rfl
  bounded := by simp [create]
  sequences := rfl
  joined _ := {
    two := le_rfl
    primary := List.mem_cons_self
    stored := by simpa using ⟨mergeable.primary, mergeable.other⟩
    asset := by
      rw [activeMemberIDs_create]
      intro f member
      rcases List.mem_pair.mp member with rfl | rfl
      · rfl
      · exact mergeable.asset.symm
    sources := by
      simp [mergeable.source, mergeable.source.symm] }
  dissolved state := nomatch state

theorem wellFormed_extend (wellFormed : group.WellFormed rows) (active : group.state = .active)
    (leads : group.primary = request.primary) (mergeable : Mergeable rows request)
    (admitted : ∀ m ∈ group.members, refuses (sourceOf rows) request.other m = false)
    (room : group.members.length ≤ 63) : (extend request group).WellFormed rows where
  distinct := by
    rw [extend, List.map_append, List.nodup_append]
    refine ⟨wellFormed.distinct, List.nodup_singleton _, ?_⟩
    intro f old f' new same
    obtain ⟨m, mem, rfl⟩ := List.mem_map.mp old
    have refused := admitted m mem
    simp_all [refuses]
  ordinals := by
    rw [extend, List.map_append, wellFormed.ordinals, List.length_append, List.length_singleton,
      List.range_succ]
    rfl
  bounded := by
    rw [extend, List.length_append, List.length_singleton]
    omega
  sequences := sequences_append wellFormed
  joined _ := by
    have joined := wellFormed.joined active
    have asset : assetOf rows request.other = assetOf rows group.primary := by
      rw [leads, mergeable.asset]
    have source : ∀ f ∈ group.activeMemberIDs,
        sourceOf rows f ≠ sourceOf rows request.other := by
      intro f member same
      obtain ⟨m, mem, active, rfl⟩ := mem_activeMemberIDs.mp member
      have refused := admitted m mem
      simp [refuses, active, same] at refused
    constructor
    · rw [activeMemberIDs_extend, List.length_append]
      exact joined.two.trans (Nat.le_add_right _ _)
    · rw [activeMemberIDs_extend]
      exact List.mem_append_left _ joined.primary
    · rw [activeMemberIDs_extend]
      intro f member
      rcases List.mem_append.mp member with old | new
      · exact joined.stored f old
      · rw [List.mem_singleton.mp new]
        exact mergeable.other
    · rw [activeMemberIDs_extend]
      intro f member
      rcases List.mem_append.mp member with old | new
      · exact joined.asset f old
      · rw [List.mem_singleton.mp new]
        exact asset
    · rw [activeMemberIDs_extend]
      intro f member f' member' same
      rcases List.mem_append.mp member with old | new <;>
        rcases List.mem_append.mp member' with old' | new'
      · exact joined.sources f old f' old' same
      · rw [List.mem_singleton.mp new'] at same
        exact absurd same (source f old)
      · rw [List.mem_singleton.mp new] at same
        exact absurd same.symm (source f' old')
      · rw [List.mem_singleton.mp new, List.mem_singleton.mp new']
  dissolved state := by
    rw [extend, active] at state
    cases state

/-- The active members that a split of one member leaves. -/
theorem mem_release_one (remains : group.terminal = false) :
    f ∈ (release request group).activeMemberIDs ↔
      f ∈ group.activeMemberIDs ∧ f ≠ request.other := by
  rw [activeMemberIDs_release_one remains, List.mem_filter, decide_eq_true_eq]

theorem length_release_one (wellFormed : group.WellFormed rows) (remains : group.terminal = false)
    (member : request.other ∈ group.activeMemberIDs) :
    (release request group).activeMemberIDs.length + 1 = group.activeMemberIDs.length := by
  rw [activeMemberIDs_release_one remains]
  have erased : group.activeMemberIDs.erase request.other =
      group.activeMemberIDs.filter (· ≠ request.other) := by
    rw [wellFormed.active_nodup.erase_eq_filter]
    exact List.filter_congr fun f _ => by simp [bne, beq_eq_decide]
  rw [← erased]
  exact List.length_erase_add_one member

omit [DecidableEq FindingID] in
/-- Two active members are the primary and the one that a split names. -/
theorem terminal_members (wellFormed : group.WellFormed rows) (active : group.state = .active)
    (terminal : group.terminal = true) (member : request.other ∈ group.activeMemberIDs)
    (apart : request.other ≠ group.primary) (before : f ∈ group.activeMemberIDs) :
    f = group.primary ∨ f = request.other := by
  have primary := (wellFormed.joined active).primary
  have nodup := wellFormed.active_nodup
  obtain ⟨first, second, pair⟩ := List.length_eq_two.mp (of_decide_eq_true terminal)
  rw [pair] at member primary before
  rcases List.mem_pair.mp member with same | same <;>
    rcases List.mem_pair.mp primary with same' | same' <;>
    rcases List.mem_pair.mp before with same'' | same'' <;> simp_all

theorem wellFormed_release (wellFormed : group.WellFormed rows) (active : group.state = .active)
    (member : request.other ∈ group.activeMemberIDs) (apart : request.other ≠ group.primary) :
    (release request group).WellFormed rows where
  distinct := by
    have same : (release request group).members.map (·.findingID) =
        group.members.map (·.findingID) := by
      rw [release, List.map_map]
      apply List.map_congr_left
      intro m _
      show (if _ then _ else _ : Member FindingID).findingID = _
      split <;> rfl
    exact same ▸ wellFormed.distinct
  ordinals := by
    have same : (release request group).members.map (·.ordinal) =
        group.members.map (·.ordinal) := by
      rw [release, List.map_map]
      apply List.map_congr_left
      intro m _
      show (if _ then _ else _ : Member FindingID).ordinal = _
      split <;> rfl
    rw [same, wellFormed.ordinals, release, List.length_map]
  bounded := by
    rw [release, List.length_map]
    exact wellFormed.bounded
  sequences := sequences_append wellFormed
  joined state := by
    have remains : group.terminal = false := by
      by_contra terminal
      simp [release, Bool.not_eq_false _ ▸ terminal] at state
    have joined := wellFormed.joined active
    have count : group.activeMemberIDs.length ≠ 2 := by
      simpa [Group.terminal] using remains
    have shorter := length_release_one wellFormed remains member
    constructor
    · have two := joined.two
      omega
    · exact (mem_release_one remains).mpr ⟨joined.primary, apart.symm⟩
    · intro f left
      exact joined.stored f ((mem_release_one remains).mp left).1
    · intro f left
      exact joined.asset f ((mem_release_one remains).mp left).1
    · intro f left f' left' same
      exact joined.sources f ((mem_release_one remains).mp left).1 f'
        ((mem_release_one remains).mp left').1 same
  dissolved state := by
    have terminal : group.terminal = true := by
      by_contra remains
      simp [release, remains] at state
    exact activeMemberIDs_release_terminal terminal

end Group

end Aspm.Correlation
