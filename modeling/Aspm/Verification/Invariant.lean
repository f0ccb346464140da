import Aspm.Lib.Lease
import Aspm.Verification.Queue

/-!
# The invariant of the verification queue

`Move` lists the ways in which a committed job can change, and `Effect` what a step does to
the whole store; `step_effect` connects them with the step function.  From there on, no
proof looks at the statements again.

The part of the invariant that carries the weight is about a revocation under way: while it
holds its approval, no job of that approval can be inserted, so every open job of the
approval is one that it has cancelled or one that it is still waiting for (`Standing.cancelling`).
When it commits, none is left.
-/

namespace Aspm.Verification

open Nullable RowTable
open Reconcile (Time)
open Imports (second WorkerID)

variable {condition : JobRow → Bool} {id : ApprovalID} {b : Approval} {time : Time}
  {row row' : JobRow} {request : RevokeRequest}

def JobState.phase : JobState → Lease.Phase
  | .queued => .waiting
  | .processing => .held
  | _ => .settled

def JobRow.work (row : JobRow) : Lease.Work := ⟨row.state.phase, row.fence, row.attempts⟩

/-! ## How a job moves -/

section Moves

variable {ID : Type}

/-- The changes of a committed job, with the action that commits them. -/
inductive Move (claimed : List (Record ID)) (now : Time) (id : ID) :
    Action ID → JobRow → JobRow → Prop
  | exhaust {row : JobRow} {wall : Time} (exhausted : row.exhausted now = true) :
      Move claimed now id (.failExhausted wall) row (row.failExhausted wall)
  | claim {row : JobRow} {worker : WorkerID} {lease : Time}
      (claimable : row.claimable now = true) :
      Move claimed now id (.claim worker lease) row (row.claim worker lease now)
  | retry {row : JobRow} {record : Record ID} {wall time : Time} (own : record.id = id)
      (known : record ∈ claimed) (room : record.attempts < verificationAttempts)
      (active : row.active record time = true) :
      Move claimed now id (.retry record wall time) row
        (row.requeue (time + second * row.attempts))
  | requeue {row : JobRow} {record : Record ID} (own : record.id = id)
      (held : row.heldBy record = true) :
      Move claimed now id (.requeueCancelled record) row (row.requeue now)
  | settle {a : Action ID} {row : JobRow} {record : Record ID} {time : Time}
      (settlement : Settlement) (wall : Time)
      (acts : a = .settle record settlement wall time ∨ a = .retry record wall time)
      (held : row.heldBy record = true) :
      Move claimed now id a row (row.settle settlement wall)
  | publish {number : ℕ} {record : Record ID} {outcome : Outcome} {row : JobRow}
      {wall time : Time} (own : record.id = id) (past : time ≤ now)
      (active : row.active record time = true) :
      Move claimed now id (.commit ⟨number, .publish record outcome⟩) row
        (row.succeed outcome wall)
  | cancel {number : ℕ} {request : RevokeRequest} {row : JobRow} {wall : Time}
      (approval : row.approvalID = request.approvalID) (isOpen : row.isOpen = true) :
      Move claimed now id (.commit ⟨number, .revoke request⟩) row (row.cancel wall)

variable {claimed : List (Record ID)} {now now' : Time} {id : ID} {a : Action ID}
  {record : Record ID}

theorem JobRow.heldBy_iff : row.heldBy record = true ↔
    row.workerID = some record.workerID ∧ row.fence = record.fence ∧ row.state = .processing := by
  simp only [heldBy, Bool.and_eq_true, decide_eq_true_eq, and_assoc]

theorem JobRow.heldBy_of_active (active : row.active record now = true) :
    row.heldBy record = true := by
  simp only [JobRow.active, Bool.and_eq_true] at active
  exact active.1

theorem JobRow.isOpen_iff :
    row.isOpen = true ↔ row.state = .queued ∨ row.state = .processing := by
  simp only [isOpen, Bool.or_eq_true, decide_eq_true_eq]

theorem JobRow.isOpen_of_heldBy (held : row.heldBy record = true) : row.isOpen = true :=
  isOpen_iff.mpr (.inr (heldBy_iff.mp held).2.2)

theorem JobRow.lapsed_iff : row.lapsed now = true ↔
    row.state = .processing ∧ ∃ time, row.leaseUntil = some time ∧ time ≤ now := by
  cases expires : row.leaseUntil <;> simp [lapsed, expires]

theorem JobRow.exhausted_iff : row.exhausted now = true ↔
    verificationAttempts ≤ row.attempts ∧ row.lapsed now = true := by
  simp only [exhausted, Bool.and_eq_true, decide_eq_true_eq]

theorem JobRow.claimable_iff : row.claimable now = true ↔
    row.attempts < verificationAttempts ∧
      ((row.state = .queued ∧ row.availableAt ≤ now) ∨ row.lapsed now = true) := by
  simp only [claimable, Bool.and_eq_true, Bool.or_eq_true, decide_eq_true_eq]

theorem JobRow.isOpen_of_claimable (claimable : row.claimable now = true) : row.isOpen = true := by
  rcases (claimable_iff.mp claimable).2 with ⟨queued, -⟩ | lapsed
  · exact isOpen_iff.mpr (.inl queued)
  · exact isOpen_iff.mpr (.inr (lapsed_iff.mp lapsed).1)

theorem JobRow.pending_of_isOpen (isOpen : row.isOpen = true) : row.work.phase ≠ .settled := by
  rcases isOpen_iff.mp isOpen with state | state <;> simp [work, state, JobState.phase]

theorem Settlement.phase_state (settlement : Settlement) : settlement.state.phase = .settled := by
  rcases settlement with _ | _ | _ | outcome | _
  case policy => cases outcome <;> rfl
  all_goals rfl

theorem JobRow.work_settle (settlement : Settlement) (wall : Time) (row : JobRow) :
    (row.settle settlement wall).work = ⟨.settled, row.fence, row.attempts⟩ := by
  rw [work, ← settlement.phase_state]
  rfl

/-- Only open jobs move. -/
theorem Move.isOpen (move : Move claimed now id a row row') : row.isOpen = true := by
  cases move with
  | exhaust exhausted =>
    exact JobRow.isOpen_iff.mpr
      (.inr (JobRow.lapsed_iff.mp (JobRow.exhausted_iff.mp exhausted).2).1)
  | claim claimable => exact JobRow.isOpen_of_claimable claimable
  | retry _ _ _ active => exact JobRow.isOpen_of_heldBy (JobRow.heldBy_of_active active)
  | requeue _ held => exact JobRow.isOpen_of_heldBy held
  | settle _ _ _ held => exact JobRow.isOpen_of_heldBy held
  | publish _ _ active => exact JobRow.isOpen_of_heldBy (JobRow.heldBy_of_active active)
  | cancel _ isOpen => exact isOpen

theorem Move.approvalID (move : Move claimed now id a row row') :
    row'.approvalID = row.approvalID := by
  cases move <;> rfl

theorem Move.binding (move : Move claimed now id a row row') : row'.binding = row.binding := by
  cases move <;> rfl

/-- Jobs refine the fenced lease. -/
theorem Move.lease (move : Move claimed now id a row row') :
    Lease.Step verificationAttempts row.work row'.work := by
  have pending := JobRow.pending_of_isOpen move.isOpen
  have held : ∀ {record : Record ID}, row.heldBy record = true → row.work.phase = .held :=
    fun held => by rw [JobRow.work, (JobRow.heldBy_iff.mp held).2.2, JobState.phase]
  cases move with
  | exhaust => exact .settle pending le_rfl
  | claim claimable => exact .claim pending (JobRow.claimable_iff.mp claimable).1
  | retry _ _ _ active => exact .requeue (held (JobRow.heldBy_of_active active))
  | requeue _ held' => exact .requeue (held held')
  | settle settlement wall =>
    rw [JobRow.work_settle]
    exact .settle pending le_rfl
  | publish => exact .settle pending le_rfl
  | cancel => exact .settle pending (Nat.le_succ _)

/-- A job that is being processed after a move was claimed by it. -/
theorem Move.claimed_of_processing (move : Move claimed now id a row row')
    (processing : row'.state = .processing) :
    ∃ worker lease, row' = row.claim worker lease now := by
  cases move with
  | claim => exact ⟨_, _, rfl⟩
  | settle settlement wall =>
    have settled := settlement.phase_state
    rw [show settlement.state = .processing from processing] at settled
    cases settled
  | _ => cases processing

/-- A move takes a new fence or keeps fence and attempts. -/
theorem Move.fence_or_attempts (move : Move claimed now id a row row') :
    row.fence < row'.fence ∨ (row'.fence = row.fence ∧ row'.attempts = row.attempts) := by
  cases move with
  | claim => exact .inl (Nat.lt_succ_self _)
  | cancel => exact .inl (Nat.lt_succ_self _)
  | _ => exact .inr ⟨rfl, rfl⟩

/-- What a transaction will commit does not depend on later claims, nor on the time. -/
theorem Move.later {claimed' : List (Record ID)} {tx : Tx ID}
    (move : Move claimed now id (.commit tx) row row') (le : now ≤ now') :
    Move claimed' now' id (.commit tx) row row' := by
  cases move with
  | settle settlement wall acts => rcases acts with acts | acts <;> cases acts
  | publish own past active => exact .publish own (past.trans le) active
  | cancel approval isOpen => exact .cancel approval isOpen

end Moves

/-! ## What a step can do -/

section Steps

variable {ID : Type} [LinearOrder ID]

/-- The transaction that takes the action. -/
def Action.tx {ID : Type} : Action ID → Option (Tx ID)
  | .checkApproval number request _ => some ⟨number, .enqueue request⟩
  | .insertJob number request _ => some ⟨number, .enqueue request⟩
  | .publish number record outcome _ => some ⟨number, .publish record outcome⟩
  | .publishRow number record outcome _ => some ⟨number, .publish record outcome⟩
  | .revoke number request _ => some ⟨number, .revoke request⟩
  | .cancelJobs number request => some ⟨number, .revoke request⟩
  | .cancelRow number request _ => some ⟨number, .revoke request⟩
  | .commit tx => some tx
  | .rollback tx => some tx
  | _ => none

/-- The effects of each action, with the conditions under which it is taken. -/
inductive Effect (q : Store ID) : Action ID → Store ID → Prop
  | tick (d : ℕ) :
      Effect q (.tick d) { q with jobs := q.jobs.tick d, approvals := q.approvals.tick d }
  | tickWall (d : ℕ) : Effect q (.tickWall d) { q with wall := q.wall + d }
  | advanceEvidence (finding : FindingKey) :
      Effect q (.advanceEvidence finding) { q with
        revisions := Function.update q.revisions finding (q.revisions finding + 1) }
  | approve (id : ApprovalID) (binding : Binding) (userID rationale : String)
      (expiresAt wall : Time) (fresh : q.approvals.rows id = none) :
      Effect q (.approve id binding userID rationale expiresAt wall) { q with
        approvals := q.approvals.insert id
          ⟨binding, userID, rationale, expiresAt, none, none, none⟩ }
  | checkApproval (number : ℕ) (request : EnqueueRequest) (wall : Time) :
      Effect q (.checkApproval number request wall)
        (q.setProgress ⟨number, .enqueue request⟩ (some .checked))
  | insertJob (number : ℕ) (request : EnqueueRequest) (id : ID) (a : Approval)
      (free : q.approvals.locks request.approvalID = none)
      (approval : q.approvals.rows request.approvalID = some a)
      (fresh : q.jobs.rows id = none) :
      Effect q (.insertJob number request id)
        { q.setProgress ⟨number, .enqueue request⟩ none with
          jobs := q.jobs.insert id (Store.insertRow request a q.jobs.now)
          ids := q.ids ++ [id] }
  | update (a : Action ID) (selected : List ID) (set : JobRow → JobRow)
      (claimed : List (Record ID)) (single : a.tx = none)
      (free : ∀ id ∈ selected, q.jobs.locks id = none)
      (moves : ∀ id ∈ selected, ∀ row, q.jobs.rows id = some row →
        Move q.claimed q.jobs.now id a row (set row))
      (records : ∀ r ∈ claimed, r.id ∈ selected ∧ ∃ row, q.jobs.rows r.id = some row ∧
        r.fence = (set row).fence ∧ r.attempts = (set row).attempts) :
      Effect q a { q with
        jobs := q.jobs.update selected set
        claimed := q.claimed ++ claimed }
  | publish (number : ℕ) (record : Record ID) (outcome : Outcome) (wall : Time)
      (known : record ∈ q.claimed) (past : wall ≤ q.wall) :
      Effect q (.publish number record outcome wall)
        (q.setProgress ⟨number, .publish record outcome⟩
          (some (.scanning ⟨q.jobs.now, q.approvals.rows, q.revisions, wall⟩)))
  | publishRow (number : ℕ) (record : Record ID) (outcome : Outcome) (time : Time)
      (s : Snapshot) (row : JobRow)
      (scanning : q.progress ⟨number, .publish record outcome⟩ = some (.scanning s))
      (free : q.jobs.locks record.id = none) (stored : q.jobs.rows record.id = some row)
      (begun : s.time ≤ time) (since : q.jobs.unchangedSince record.id time = true)
      (active : row.active record time = true) (permits : s.permits row = true) :
      Effect q (.publishRow number record outcome time)
        { q.setProgress ⟨number, .publish record outcome⟩ (some (.published s time)) with
          jobs := q.jobs.stage ⟨number, .publish record outcome⟩ record.id
            (row.succeed outcome s.wall) }
  | revoke (number : ℕ) (request : RevokeRequest) (wall : Time) (a : Approval)
      (free : q.approvals.locks request.approvalID = none)
      (stored : q.approvals.rows request.approvalID = some a)
      (workspace : a.binding.workspaceID = request.workspaceID)
      (finding : a.binding.findingID = request.findingID) (unrevoked : a.revokedAt = none) :
      Effect q (.revoke number request wall)
        { q.setProgress ⟨number, .revoke request⟩ (some (.revoking wall)) with
          approvals := q.approvals.stage ⟨number, .revoke request⟩ request.approvalID
            (a.revoke wall request.userID request.rationale) }
  | cancelJobs (number : ℕ) (request : RevokeRequest) (wall : Time)
      (revoking : q.progress ⟨number, .revoke request⟩ = some (.revoking wall)) :
      Effect q (.cancelJobs number request)
        (q.setProgress ⟨number, .revoke request⟩
          (some (.cancelling wall (q.openJobs request))))
  | cancelRow (number : ℕ) (request : RevokeRequest) (id : ID) (wall : Time)
      (pending : List ID) (row : JobRow)
      (cancelling : q.progress ⟨number, .revoke request⟩ = some (.cancelling wall pending))
      (free : q.jobs.locks id = none) (stored : q.jobs.rows id = some row)
      (isOpen : row.isOpen = true) (mem : id ∈ pending) :
      Effect q (.cancelRow number request id)
        { q.setProgress ⟨number, .revoke request⟩
            (some (.cancelling wall (pending.erase id))) with
          jobs := q.jobs.stage ⟨number, .revoke request⟩ id (row.cancel wall) }
  | skipRow (number : ℕ) (request : RevokeRequest) (id : ID) (wall : Time)
      (pending : List ID) (row : JobRow)
      (cancelling : q.progress ⟨number, .revoke request⟩ = some (.cancelling wall pending))
      (stored : q.jobs.rows id = some row) (settled : row.isOpen = false) :
      Effect q (.cancelRow number request id)
        (q.setProgress ⟨number, .revoke request⟩ (some (.cancelling wall (pending.erase id))))
  | commitPublish (tx : Tx ID) (s : Snapshot) (time : Time)
      (published : q.progress tx = some (.published s time)) :
      Effect q (.commit tx)
        { q.setProgress tx none with
          jobs := q.jobs.commit tx
          approvals := q.approvals.commit tx }
  | commitRevoke (tx : Tx ID) (wall : Time)
      (cancelled : q.progress tx = some (.cancelling wall [])) :
      Effect q (.commit tx)
        { q.setProgress tx none with
          jobs := q.jobs.commit tx
          approvals := q.approvals.commit tx }
  | rollback (tx : Tx ID) :
      Effect q (.rollback tx)
        { q.setProgress tx none with
          jobs := q.jobs.abort tx
          approvals := q.approvals.abort tx }

variable {q q' : Store ID} {a : Action ID}

theorem Store.mem_candidates {key : ID → Time} {id : ID} (mem : id ∈ q.candidates key condition) :
    q.jobs.locks id = none ∧ ∃ row, q.jobs.rows id = some row ∧ condition row = true := by
  simp only [candidates, List.mem_insertionSort, List.mem_filter, Bool.and_eq_true,
    Option.isNone_iff_eq_none, Option.any_eq_true_iff_get] at mem
  obtain ⟨-, free, some_, holds⟩ := mem
  exact ⟨free, _, (Option.some_get some_).symm, holds⟩

omit [LinearOrder ID] in
theorem Store.approvalOf_eq_some {workspaceID findingID : String}
    (found : q.approvalOf workspaceID findingID id = some b) :
    q.approvals.rows id = some b ∧ b.binding.workspaceID = workspaceID ∧
      b.binding.findingID = findingID := by
  obtain ⟨stored, same⟩ := Option.filter_eq_some_iff.mp found
  simp only [Bool.and_eq_true, decide_eq_true_eq] at same
  exact ⟨stored, same.1, same.2⟩

theorem Store.updateRow_eq_some {record : Record ID} {set : JobRow → JobRow}
    (updated : q.updateRow record time condition set = some q') :
    record ∈ q.claimed ∧ q.jobs.locks record.id = none ∧
      (∃ row, q.jobs.rows record.id = some row ∧ condition row = true) ∧
      q' = { q with jobs := q.jobs.update [record.id] set } := by
  unfold updateRow at updated
  split at updated
  case h_1 row free stored =>
    split at updated
    case isTrue holds =>
      simp only [Bool.and_eq_true, decide_eq_true_eq] at holds
      exact ⟨holds.1.1, free, ⟨row, stored, holds.2⟩, (Option.some.inj updated).symm⟩
    case isFalse => cases updated
  case h_2 => cases updated

/-- A worker's update of the row that it has claimed. -/
theorem effect_of_updateRow {record : Record ID} {set : JobRow → JobRow}
    (updated : q.updateRow record time condition set = some q') (single : a.tx = none)
    (moves : record ∈ q.claimed → ∀ row, condition row = true →
      Move q.claimed q.jobs.now record.id a row (set row)) : Effect q a q' := by
  obtain ⟨known, free, ⟨row, stored, holds⟩, rfl⟩ := Store.updateRow_eq_some updated
  have effect := Effect.update (q := q) a [record.id] set [] single ?_ ?_ ?_
  · rwa [List.append_nil] at effect
  · exact fun id mem => by rw [List.mem_singleton.mp mem, free]
  · intro id mem row' stored'
    obtain rfl := List.mem_singleton.mp mem
    obtain rfl := Option.some.inj (stored.symm.trans stored')
    exact moves known row holds
  · exact fun r mem => absurd mem List.not_mem_nil

theorem effect_of_settle {record : Record ID} {settlement : Settlement} {wall : Time}
    (settled : q.settle record settlement wall time = some q')
    (acts : a = .settle record settlement wall time ∨ a = .retry record wall time) :
    Effect q a q' := by
  have single : a.tx = none := by rcases acts with rfl | rfl <;> rfl
  refine effect_of_updateRow settled single fun _ row holds => .settle settlement wall acts ?_
  split at holds
  · exact JobRow.heldBy_of_active holds
  · exact holds

theorem effect_of_failExhausted (wall : Time) :
    Effect q (.failExhausted wall)
      { q with jobs := q.jobs.update q.exhausted (·.failExhausted wall) } := by
  have effect := Effect.update (q := q) (.failExhausted wall) q.exhausted
    (·.failExhausted wall) [] rfl ?_ ?_ ?_
  · rwa [List.append_nil] at effect
  · exact fun id mem => (Store.mem_candidates (List.mem_of_mem_take mem)).1
  · intro id mem row stored
    obtain ⟨-, row', stored', exhausted⟩ := Store.mem_candidates (List.mem_of_mem_take mem)
    obtain rfl := Option.some.inj (stored.symm.trans stored')
    exact .exhaust exhausted
  · exact fun r mem => absurd mem List.not_mem_nil

theorem effect_of_claim {worker : WorkerID} {lease : Time} {id : ID}
    (mem : id ∈ q.candidates q.availableAt (·.claimable q.jobs.now))
    (stored : q.jobs.rows id = some row) :
    Effect q (.claim worker lease) { q with
      jobs := q.jobs.update [id] (·.claim worker lease q.jobs.now)
      claimed := q.claimed ++ [⟨id, worker, row.fence + 1, row.attempts + 1⟩] } := by
  obtain ⟨free, row', stored', claimable⟩ := Store.mem_candidates mem
  obtain rfl := Option.some.inj (stored.symm.trans stored')
  refine .update _ _ _ _ rfl ?_ ?_ ?_
  · exact fun j mem => by rw [List.mem_singleton.mp mem, free]
  · intro j mem other same
    obtain rfl := List.mem_singleton.mp mem
    obtain rfl := Option.some.inj (stored.symm.trans same)
    exact .claim claimable
  · intro r mem
    obtain rfl := List.mem_singleton.mp mem
    exact ⟨List.mem_singleton_self _, row, stored, rfl, rfl⟩

/-- **What a step can do.** -/
theorem step_effect (step : q.step a = some q') : Effect q a q' := by
  unfold Store.step at step
  cases a with
  | tick d =>
    obtain rfl := Option.some.inj step
    exact .tick d
  | tickWall d =>
    obtain rfl := Option.some.inj step
    exact .tickWall d
  | advanceEvidence finding =>
    obtain rfl := Option.some.inj step
    exact .advanceEvidence finding
  | approve id binding userID rationale expiresAt wall =>
    dsimp only at step
    split at step
    case isTrue guard =>
      obtain rfl := Option.some.inj step
      simp only [Bool.and_eq_true, Option.isNone_iff_eq_none] at guard
      exact .approve id binding userID rationale expiresAt wall guard.1.1.1.1
    case isFalse => cases step
  | checkApproval number request wall =>
    dsimp only at step
    split at step
    · split at step
      · obtain rfl := Option.some.inj step
        exact .checkApproval number request wall
      · cases step
    · cases step
  | insertJob number request id =>
    dsimp only at step
    split at step
    case h_1 b checked free found =>
      split at step
      case isTrue guard =>
        obtain rfl := Option.some.inj step
        simp only [Bool.and_eq_true, Option.isNone_iff_eq_none] at guard
        exact .insertJob number request id b free (Store.approvalOf_eq_some found).1 guard.1
      case isFalse => cases step
    case h_2 => cases step
  | failExhausted wall =>
    dsimp only at step
    split at step
    · obtain rfl := Option.some.inj step
      exact effect_of_failExhausted wall
    · cases step
  | claim worker lease =>
    dsimp only at step
    split at step
    case h_1 => cases step
    case h_2 id rest candidates =>
      split at step
      case h_1 row stored =>
        obtain rfl := Option.some.inj step
        refine effect_of_claim ?_ stored
        rw [candidates]
        exact List.mem_cons_self
      case h_2 => cases step
  | retry record wall time =>
    dsimp only at step
    split at step
    case isTrue =>
      split at step
      · exact effect_of_settle step (.inr rfl)
      · cases step
    case isFalse room =>
      exact effect_of_updateRow step rfl fun known row active =>
        .retry rfl known (not_le.mp room) active
  | requeueCancelled record =>
    exact effect_of_updateRow step rfl fun _ row held => .requeue rfl held
  | settle record settlement wall time =>
    dsimp only at step
    split at step
    · exact effect_of_settle step (.inl rfl)
    · cases step
  | publish number record outcome wall =>
    dsimp only at step
    split at step
    case isTrue guard =>
      obtain rfl := Option.some.inj step
      simp only [Bool.and_eq_true, decide_eq_true_eq] at guard
      exact .publish number record outcome wall guard.1.1 guard.1.2
    case isFalse => cases step
  | publishRow number record outcome time =>
    dsimp only at step
    split at step
    case h_1 s row scanning free stored =>
      split at step
      case isTrue guard =>
        obtain rfl := Option.some.inj step
        simp only [Bool.and_eq_true, decide_eq_true_eq] at guard
        exact .publishRow number record outcome time s row scanning free stored guard.1.1.1
          guard.1.1.2 guard.1.2 guard.2
      case isFalse => cases step
    case h_2 => cases step
  | revoke number request wall =>
    dsimp only at step
    split at step
    case h_1 b free found =>
      split at step
      case isTrue guard =>
        obtain rfl := Option.some.inj step
        simp only [Bool.and_eq_true, Option.isNone_iff_eq_none] at guard
        obtain ⟨stored, workspace, finding⟩ := Store.approvalOf_eq_some found
        exact .revoke number request wall b free stored workspace finding guard.1.1
      case isFalse => cases step
    case h_2 => cases step
  | cancelJobs number request =>
    dsimp only at step
    split at step
    case h_1 wall revoking =>
      obtain rfl := Option.some.inj step
      exact .cancelJobs number request wall revoking
    case h_2 => cases step
  | cancelRow number request id =>
    dsimp only at step
    split at step
    case h_1 wall pending row cancelling free stored =>
      split at step
      case isTrue mem =>
        split at step
        case isTrue isOpen =>
          obtain rfl := Option.some.inj step
          exact .cancelRow number request id wall pending row cancelling free stored isOpen mem
        case isFalse settled =>
          obtain rfl := Option.some.inj step
          exact .skipRow number request id wall pending row cancelling stored
            (Bool.not_eq_true _ ▸ settled)
      case isFalse => cases step
    case h_2 => cases step
  | commit tx =>
    dsimp only at step
    split at step
    case h_1 s time published =>
      obtain rfl := Option.some.inj step
      exact .commitPublish tx s time published
    case h_2 wall cancelled =>
      obtain rfl := Option.some.inj step
      exact .commitRevoke tx wall cancelled
    case h_3 => cases step
  | rollback tx =>
    obtain rfl := Option.some.inj step
    exact .rollback tx

/-! ## The invariant -/

omit [LinearOrder ID] in
/-- The version of an approval that its revocation has written. -/
def RevokedBy (id : ApprovalID) (tx : Tx ID) (b b' : Approval) : Prop :=
  ∃ number request wall, tx = ⟨number, .revoke request⟩ ∧ request.approvalID = id ∧
    b.revokedAt = none ∧ b' = b.revoke wall request.userID request.rationale

/-- What an open transaction relies on. -/
inductive Standing (q : Store ID) : Tx ID → Progress ID → Prop
  | scanning {number : ℕ} {record : Record ID} {outcome : Outcome} {s : Snapshot}
      (known : record ∈ q.claimed) (wall : s.wall ≤ q.wall)
      (revisions : ∀ f, s.revisions f ≤ q.revisions f)
      (seen : ∀ id b, s.approvals id = some b → ∃ b', q.approvals.rows id = some b' ∧
        b'.binding = b.binding ∧ b'.expiresAt = b.expiresAt)
      -- as long as the job is held, what the snapshot says of its revocation is still true
      (current : ∀ row, q.jobs.rows record.id = some row → row.heldBy record = true →
        ∀ b, s.approvals row.approvalID = some b → b.revokedAt = none →
        ∀ b', q.approvals.rows row.approvalID = some b' → b'.revokedAt = none) :
      Standing q ⟨number, .publish record outcome⟩ (.scanning s)
  | published {number : ℕ} {record : Record ID} {outcome : Outcome} {s : Snapshot}
      {row : JobRow} {since time : Time}
      (holds : q.jobs.Holds ⟨number, .publish record outcome⟩ record.id
        (some (row.succeed outcome s.wall)) row since)
      (unchanged : since ≤ time) (past : time ≤ q.jobs.now) (active : row.active record time = true)
      (unrevoked : ∀ b, q.approvals.rows row.approvalID = some b → b.revokedAt = none) :
      Standing q ⟨number, .publish record outcome⟩ (.published s time)
  | revoking {number : ℕ} {request : RevokeRequest} {wall since : Time} {b b' : Approval}
      (holds : q.approvals.Holds ⟨number, .revoke request⟩ request.approvalID (some b') b since)
      (workspace : b.binding.workspaceID = request.workspaceID)
      (finding : b.binding.findingID = request.findingID) :
      Standing q ⟨number, .revoke request⟩ (.revoking wall)
  | cancelling {number : ℕ} {request : RevokeRequest} {wall since : Time} {b b' : Approval}
      {pending : List ID}
      (holds : q.approvals.Holds ⟨number, .revoke request⟩ request.approvalID (some b') b since)
      (targets : ∀ id ∈ pending, ∃ row, q.jobs.rows id = some row ∧
        row.approvalID = request.approvalID)
      (jobs : ∀ id row, q.jobs.rows id = some row → row.approvalID = request.approvalID →
        row.isOpen = true → id ∈ pending ∨
          q.jobs.locks id = some ⟨⟨number, .revoke request⟩, some (row.cancel wall)⟩) :
      Standing q ⟨number, .revoke request⟩ (.cancelling wall pending)
  | checked {number : ℕ} {request : EnqueueRequest} :
      Standing q ⟨number, .enqueue request⟩ .checked

structure Inv (q : Store ID) : Prop where
  staged : q.jobs.Staged fun id tx => Move q.claimed q.jobs.now id (.commit tx)
  revocations : q.approvals.Staged RevokedBy
  known : ∀ id row, q.jobs.rows id = some row → id ∈ q.ids
  bound : ∀ id row, q.jobs.rows id = some row →
    ∃ b, q.approvals.rows row.approvalID = some b ∧ b.binding = row.binding
  attempts : ∀ id row, q.jobs.rows id = some row → row.attempts ≤ verificationAttempts
  leased : ∀ id row, q.jobs.rows id = some row → row.state = .processing → row.leaseUntil.isSome
  records : ∀ r ∈ q.claimed, ∃ row, q.jobs.rows r.id = some row ∧ r.fence ≤ row.fence ∧
    (row.fence = r.fence → row.attempts = r.attempts)
  standing : ∀ tx p, q.progress tx = some p → Standing q tx p

omit [LinearOrder ID] in
theorem inv_empty (now wall : Time) : Inv (Store.empty now wall : Store ID) where
  staged := fun _ _ _ locked => by cases locked
  revocations := fun _ _ _ locked => by cases locked
  known := fun _ _ stored => by cases stored
  bound := fun _ _ stored => by cases stored
  attempts := fun _ _ stored => by cases stored
  leased := fun _ _ stored => by cases stored
  records := fun _ mem => absurd mem List.not_mem_nil
  standing := fun _ _ opened => by cases opened

/-! ### Rows -/

theorem Inv.moves (inv : Inv q) (effect : Effect q a q') :
    Table.Moves (fun id => Move q.claimed q.jobs.now id a) q.jobs q'.jobs := by
  cases effect with
  | insertJob number request id b free approval fresh => exact Table.moves_insert _ fresh
  | update a selected set claimed single free moves records => exact Table.moves_update moves
  | commitPublish tx s time published => exact inv.staged.moves_commit tx
  | commitRevoke tx wall cancelled => exact inv.staged.moves_commit tx
  | _ => exact Table.Moves.of_rows_eq rfl

/-- A row of the new table has moved from one of the old, or was just inserted. -/
theorem Inv.origin (inv : Inv q) (effect : Effect q a q') {id : ID}
    (stored' : q'.jobs.rows id = some row') :
    (∃ row, q.jobs.rows id = some row ∧
      Relation.ReflGen (Move q.claimed q.jobs.now id a) row row') ∨
    (∃ request b, q.approvals.rows request.approvalID = some b ∧
      q.approvals.locks request.approvalID = none ∧
      row' = Store.insertRow request b q.jobs.now ∧ id ∈ q'.ids) := by
  cases before : q.jobs.rows id with
  | some row =>
    obtain ⟨row'', stored, related⟩ := inv.moves effect id row before
    obtain rfl := Option.some.inj (stored.symm.trans stored')
    exact .inl ⟨row, rfl, related⟩
  | none =>
    right
    cases effect with
    | insertJob number request j b free approval fresh =>
      by_cases same : id = j
      · subst same
        rw [Table.rows_insert, Function.update_self] at stored'
        obtain rfl := Option.some.inj stored'
        exact ⟨request, b, approval, free, rfl, List.mem_append_right _ (by simp)⟩
      · rw [Table.rows_insert, Function.update_of_ne same, before] at stored'
        cases stored'
    | update a selected set claimed single free moves records =>
      rw [Table.rows_update_none _ _ before] at stored'
      cases stored'
    | commitPublish tx s time published =>
      rw [inv.staged.rows_commit_none _ before] at stored'
      cases stored'
    | commitRevoke tx wall cancelled =>
      rw [inv.staged.rows_commit_none _ before] at stored'
      cases stored'
    | _ => exact absurd (before.symm.trans stored') (by simp)

/-- The columns of an approval that a revocation leaves alone. -/
structure Revokes (b b' : Approval) : Prop where
  unrevoked : b.revokedAt = none
  revoked : b'.revokedAt ≠ none
  binding : b'.binding = b.binding
  expiresAt : b'.expiresAt = b.expiresAt

theorem Inv.approvals_moves (inv : Inv q) (effect : Effect q a q') :
    Table.Moves (fun _ => Revokes) q.approvals q'.approvals := by
  have commits : ∀ tx : Tx ID,
      Table.Moves (fun _ => Revokes) q.approvals (q.approvals.commit tx) := by
    refine fun tx => (inv.revocations.moves_commit tx).mono ?_
    rintro id b _ ⟨number, request, wall, -, -, unrevoked, rfl⟩
    exact ⟨unrevoked, Option.some_ne_none _, rfl, rfl⟩
  cases effect with
  | approve id binding userID rationale expiresAt wall fresh => exact Table.moves_insert _ fresh
  | commitPublish tx s time published => exact commits tx
  | commitRevoke tx wall cancelled => exact commits tx
  | _ => exact Table.Moves.of_rows_eq rfl

theorem Inv.approval_kept (inv : Inv q) (effect : Effect q a q')
    (stored : q.approvals.rows id = some b) : ∃ b', q'.approvals.rows id = some b' ∧
      b'.binding = b.binding ∧ b'.expiresAt = b.expiresAt := by
  obtain ⟨b', stored', related⟩ := inv.approvals_moves effect id b stored
  rcases related with _ | revokes
  · exact ⟨b, stored', rfl, rfl⟩
  · exact ⟨b', stored', revokes.binding, revokes.expiresAt⟩

/-- A record that a worker holds on a job pins the job down. -/
theorem Inv.held_unchanged (inv : Inv q) (effect : Effect q a q') {r : Record ID}
    (known : r ∈ q.claimed) (stored' : q'.jobs.rows r.id = some row')
    (held : row'.heldBy r = true) : q.jobs.rows r.id = some row' := by
  obtain ⟨row, stored, le, -⟩ := inv.records r known
  obtain ⟨row'', stored'', related⟩ := inv.moves effect r.id row stored
  obtain rfl := Option.some.inj (stored''.symm.trans stored')
  rcases related with _ | move
  · exact stored
  · obtain ⟨-, fence, processing⟩ := JobRow.heldBy_iff.mp held
    obtain ⟨worker, lease, rfl⟩ := move.claimed_of_processing processing
    have next : (row.claim worker lease q.jobs.now).fence = row.fence + 1 := rfl
    omega

theorem Effect.ids_subset (effect : Effect q a q') : q.ids ⊆ q'.ids := by
  cases effect with
  | insertJob => exact List.subset_append_left _ _
  | _ => exact List.Subset.refl _

theorem Effect.claimed_subset (effect : Effect q a q') : q.claimed ⊆ q'.claimed := by
  cases effect with
  | update => exact List.subset_append_left _ _
  | _ => exact List.Subset.refl _

theorem Effect.now_le (effect : Effect q a q') : q.jobs.now ≤ q'.jobs.now := by
  cases effect with
  | tick d => exact le_add_of_nonneg_right (Int.natCast_nonneg d)
  | _ => exact le_rfl

theorem Effect.wall_le (effect : Effect q a q') : q.wall ≤ q'.wall := by
  cases effect with
  | tickWall d => exact le_add_of_nonneg_right (Int.natCast_nonneg d)
  | _ => exact le_rfl

/-- Evidence revisions only grow. -/
theorem Effect.revisions_le (effect : Effect q a q') (f : FindingKey) :
    q.revisions f ≤ q'.revisions f := by
  cases effect with
  | advanceEvidence finding =>
    show q.revisions f ≤ Function.update q.revisions finding (q.revisions finding + 1) f
    by_cases same : f = finding
    · subst same
      rw [Function.update_self]
      exact le_add_of_nonneg_right zero_le_one
    · rw [Function.update_of_ne same]
  | _ => exact le_rfl

theorem Inv.known_effect (inv : Inv q) (effect : Effect q a q') (id : ID) (row' : JobRow)
    (stored' : q'.jobs.rows id = some row') : id ∈ q'.ids := by
  rcases inv.origin effect stored' with ⟨row, stored, -⟩ | ⟨_, _, _, _, _, mem⟩
  · exact effect.ids_subset (inv.known id row stored)
  · exact mem

theorem Inv.bound_effect (inv : Inv q) (effect : Effect q a q') (id : ID) (row' : JobRow)
    (stored' : q'.jobs.rows id = some row') :
    ∃ b, q'.approvals.rows row'.approvalID = some b ∧ b.binding = row'.binding := by
  rcases inv.origin effect stored' with ⟨row, stored, related⟩ | ⟨request, b, approval, -, rfl, -⟩
  · obtain ⟨b, approval, binding⟩ := inv.bound id row stored
    obtain ⟨b', approval', binding', -⟩ := inv.approval_kept effect approval
    rcases related with _ | move
    · exact ⟨b', approval', binding'.trans binding⟩
    · refine ⟨b', move.approvalID ▸ approval', ?_⟩
      rw [binding', binding, move.binding]
  · obtain ⟨b', approval', binding', -⟩ := inv.approval_kept effect approval
    exact ⟨b', approval', binding'⟩

theorem Inv.attempts_effect (inv : Inv q) (effect : Effect q a q') (id : ID) (row' : JobRow)
    (stored' : q'.jobs.rows id = some row') : row'.attempts ≤ verificationAttempts := by
  rcases inv.origin effect stored' with ⟨row, stored, related⟩ | ⟨_, _, _, _, rfl, _⟩
  · rcases related with _ | move
    · exact inv.attempts id _ stored
    · exact move.lease.attempts_le (inv.attempts id row stored)
  · exact Nat.zero_le _

theorem Inv.leased_effect (inv : Inv q) (effect : Effect q a q') (id : ID) (row' : JobRow)
    (stored' : q'.jobs.rows id = some row') (processing : row'.state = .processing) :
    row'.leaseUntil.isSome := by
  rcases inv.origin effect stored' with ⟨row, stored, related⟩ | ⟨_, _, _, _, rfl, _⟩
  · rcases related with _ | move
    · exact inv.leased id _ stored processing
    · obtain ⟨worker, lease, rfl⟩ := move.claimed_of_processing processing
      rfl
  · cases processing

theorem Inv.records_kept (inv : Inv q) (effect : Effect q a q') {r : Record ID}
    (known : r ∈ q.claimed) : ∃ row, q'.jobs.rows r.id = some row ∧ r.fence ≤ row.fence ∧
      (row.fence = r.fence → row.attempts = r.attempts) := by
  obtain ⟨row, stored, le, same⟩ := inv.records r known
  obtain ⟨row', stored', related⟩ := inv.moves effect r.id row stored
  refine ⟨row', stored', ?_⟩
  rcases related with _ | move
  · exact ⟨le, same⟩
  · rcases move.fence_or_attempts with higher | ⟨fence, attempts⟩
    · exact ⟨by omega, fun equal => by omega⟩
    · exact ⟨fence ▸ le, fun equal => attempts.trans (same (fence.symm.trans equal))⟩

theorem Inv.records_effect (inv : Inv q) (effect : Effect q a q') (r : Record ID)
    (mem : r ∈ q'.claimed) : ∃ row, q'.jobs.rows r.id = some row ∧ r.fence ≤ row.fence ∧
      (row.fence = r.fence → row.attempts = r.attempts) := by
  by_cases known : r ∈ q.claimed
  · exact inv.records_kept effect known
  cases effect with
  | update a selected set claimed single free moves records =>
    have new : r ∈ claimed := (List.mem_append.mp mem).resolve_left known
    obtain ⟨chosen, row, stored, fence, attempts⟩ := records r new
    refine ⟨set row, ?_, fence.le, fun _ => attempts.symm⟩
    rw [Table.rows_update, if_pos chosen, stored, Option.map_some]
  | _ => exact absurd mem known

theorem Inv.staged_effect (inv : Inv q) (effect : Effect q a q') :
    q'.jobs.Staged fun id tx => Move q'.claimed q'.jobs.now id (.commit tx) := by
  have later : ∀ {t : Table ID JobRow (Tx ID)},
      t.Staged (fun id tx => Move q.claimed q.jobs.now id (.commit tx)) →
      t.Staged (fun id tx => Move q'.claimed q'.jobs.now id (.commit tx)) :=
    fun staged => staged.mono fun _ _ _ _ move => move.later effect.now_le
  cases effect with
  | tick d => exact later (inv.staged.tick d)
  | insertJob number request id b free approval fresh => exact later (inv.staged.insert _ fresh)
  | update a selected set claimed single free moves records =>
    exact later (inv.staged.update set free)
  | publishRow number record outcome time s row scanning free stored begun since active permits =>
    refine inv.staged.stage _ stored (.publish rfl ?_ active)
    exact (Table.unchangedSince_iff.mp since).2
  | cancelRow number request id wall pending row cancelling free stored isOpen mem =>
    refine inv.staged.stage _ stored (.cancel ?_ isOpen)
    cases inv.standing _ _ cancelling with
    | cancelling holds targets jobs =>
      obtain ⟨row', stored', approval⟩ := targets id mem
      obtain rfl := Option.some.inj (stored.symm.trans stored')
      exact approval
  | commitPublish tx s time published => exact inv.staged.commit tx
  | commitRevoke tx wall cancelled => exact inv.staged.commit tx
  | rollback tx => exact inv.staged.abort tx
  | _ => exact inv.staged

theorem Inv.revocations_effect (inv : Inv q) (effect : Effect q a q') :
    q'.approvals.Staged RevokedBy := by
  cases effect with
  | tick d => exact inv.revocations.tick d
  | approve id binding userID rationale expiresAt wall fresh =>
    exact inv.revocations.insert _ fresh
  | revoke number request wall b free stored workspace finding unrevoked =>
    exact inv.revocations.stage _ stored ⟨number, request, wall, rfl, rfl, unrevoked, rfl⟩
  | commitPublish tx s time published => exact inv.revocations.commit tx
  | commitRevoke tx wall cancelled => exact inv.revocations.commit tx
  | rollback tx => exact inv.revocations.abort tx
  | _ => exact inv.revocations

/-! ### Transactions -/

variable {tx : Tx ID}

theorem Effect.progress_other (effect : Effect q a q') (other : a.tx ≠ some tx) :
    q'.progress tx = q.progress tx := by
  have apart : ∀ {actor : Tx ID} {p : Option (Progress ID)}, some actor ≠ some tx →
      (q.setProgress actor p).progress tx = q.progress tx :=
    fun other => Function.update_of_ne (fun same => other (congrArg some same.symm)) _ _
  cases effect with
  | tick => rfl
  | tickWall => rfl
  | advanceEvidence => rfl
  | approve => rfl
  | update => rfl
  | _ => exact apart other

theorem Effect.keeps_jobs (effect : Effect q a q') (other : a.tx ≠ some tx) {id : ID}
    {version : Option JobRow} {since : Time} (holds : q.jobs.Holds tx id version row since) :
    q'.jobs.Holds tx id version row since := by
  have apart : ∀ {actor : Tx ID}, some actor ≠ some tx → actor ≠ tx := fun other same =>
    other (congrArg some same)
  cases effect with
  | tick d => exact holds.tick d
  | insertJob number request j b free approval fresh => exact holds.insert fresh _
  | update a selected set claimed single free moves records => exact holds.update set free
  | publishRow number record outcome time s row scanning free stored begun since active permits =>
    exact holds.stage (Table.freeFor_of_none free) (apart other) _
  | cancelRow number request j wall pending row cancelling free stored isOpen mem =>
    exact holds.stage (Table.freeFor_of_none free) (apart other) _
  | commitPublish actor s time published => exact holds.commit (apart other)
  | commitRevoke actor wall cancelled => exact holds.commit (apart other)
  | rollback actor => exact holds.abort (apart other)
  | _ => exact holds

theorem Effect.keeps_approvals (effect : Effect q a q') (other : a.tx ≠ some tx)
    {version : Option Approval} {since : Time} (holds : q.approvals.Holds tx id version b since) :
    q'.approvals.Holds tx id version b since := by
  have apart : ∀ {actor : Tx ID}, some actor ≠ some tx → actor ≠ tx := fun other same =>
    other (congrArg some same)
  cases effect with
  | tick d => exact holds.tick d
  | approve id binding userID rationale expiresAt wall fresh => exact holds.insert fresh _
  | revoke number request wall b free stored workspace finding unrevoked =>
    exact holds.stage (Table.freeFor_of_none free) (apart other) _
  | commitPublish actor s time published => exact holds.commit (apart other)
  | commitRevoke actor wall cancelled => exact holds.commit (apart other)
  | rollback actor => exact holds.abort (apart other)
  | _ => exact holds

omit [LinearOrder ID] in
/-- **A revocation leaves no open job behind**: when it commits, the open jobs of its approval
are the ones it has cancelled. -/
theorem Inv.revoked_jobs (inv : Inv q) {number : ℕ} {wall : Time}
    (cancelled : q.progress ⟨number, .revoke request⟩ = some (.cancelling wall [])) {id : ID}
    (stored : q.jobs.rows id = some row) (approval : row.approvalID = request.approvalID)
    (isOpen : row.isOpen = true) :
    q.jobs.locks id = some ⟨⟨number, .revoke request⟩, some (row.cancel wall)⟩ := by
  cases inv.standing _ _ cancelled with
  | cancelling holds targets jobs =>
    exact (jobs id row stored approval isOpen).resolve_left List.not_mem_nil

/-- Only the end of a revocation changes a committed approval, and only its own. -/
theorem Inv.approval_unchanged (inv : Inv q) (effect : Effect q a q') {b' : Approval}
    (stored : q.approvals.rows id = some b) (stored' : q'.approvals.rows id = some b') :
    b' = b ∨ ∃ number request wall, a = .commit ⟨number, .revoke request⟩ ∧
      request.approvalID = id ∧
      q.progress ⟨number, .revoke request⟩ = some (.cancelling wall []) ∧
      q'.jobs = q.jobs.commit ⟨number, .revoke request⟩ := by
  obtain ⟨b'', moved, related⟩ := inv.approvals_moves effect id b stored
  obtain rfl := Option.some.inj (moved.symm.trans stored')
  rcases related with _ | revokes
  · exact .inl rfl
  right
  -- a row that changed was written by the transaction that commits
  have written : ∀ {actor : Tx ID}, q'.approvals = q.approvals.commit actor →
      RevokedBy id actor b b'' := by
    intro actor commits
    rw [commits] at moved
    obtain ⟨version, visible, related⟩ := inv.revocations.visible actor stored
    obtain rfl := Option.some.inj (visible.symm.trans moved)
    rcases related with _ | revoked
    · exact absurd revokes.unrevoked revokes.revoked
    · exact revoked
  have unchanged : q'.approvals.rows id = q.approvals.rows id → False := by
    intro same
    rw [same, stored] at moved
    obtain rfl := Option.some.inj moved
    exact revokes.revoked revokes.unrevoked
  cases effect with
  | approve j binding userID rationale expiresAt wall fresh =>
    refine absurd ?_ unchanged
    have other : id ≠ j := by
      rintro rfl
      exact nomatch fresh.symm.trans stored
    exact Function.update_of_ne other _ _
  | commitPublish actor s time published =>
    obtain ⟨number, request, -, rfl, -⟩ := written rfl
    cases inv.standing _ _ published
  | commitRevoke actor wall cancelled =>
    obtain ⟨number, request, -, rfl, own, -⟩ := written rfl
    exact ⟨number, request, wall, rfl, own, cancelled, rfl⟩
  | _ => exact absurd rfl unchanged

/-- The approval of a job that stays open is not revoked meanwhile. -/
theorem Inv.open_unrevoked (inv : Inv q) (effect : Effect q a q') {id : ID}
    (stored : q.jobs.rows id = some row) (stored' : q'.jobs.rows id = some row)
    (isOpen : row.isOpen = true) {b' : Approval}
    (approval : q.approvals.rows row.approvalID = some b)
    (approval' : q'.approvals.rows row.approvalID = some b') : b' = b := by
  rcases inv.approval_unchanged effect approval approval' with
    same | ⟨number, request, wall, -, own, cancelled, commits⟩
  · exact same
  · have locked := inv.revoked_jobs cancelled stored own.symm isOpen
    have holds : q.jobs.Holds ⟨number, .revoke request⟩ id (some (row.cancel wall)) row
        (q.jobs.changedAt id) := ⟨locked, stored, rfl⟩
    have committed : q'.jobs.rows id = some (row.cancel wall) := commits ▸ holds.rows_commit
    have same : row = row.cancel wall := Option.some.inj (stored'.symm.trans committed)
    rw [same] at isOpen
    cases isOpen

/-- A step leaves the transactions of others where they stand. -/
theorem Inv.standing_other (inv : Inv q) (effect : Effect q a q') (other : a.tx ≠ some tx)
    {p : Progress ID} (opened : q.progress tx = some p) : Standing q' tx p := by
  cases inv.standing tx p opened with
  | scanning known wall revisions seen current =>
    refine .scanning (effect.claimed_subset known) (wall.trans effect.wall_le)
      (fun f => (revisions f).trans (effect.revisions_le f)) ?_ ?_
    · intro id b shown
      obtain ⟨b', stored, binding, expiresAt⟩ := seen id b shown
      obtain ⟨b'', stored', binding', expiresAt'⟩ := inv.approval_kept effect stored
      exact ⟨b'', stored', binding'.trans binding, expiresAt'.trans expiresAt⟩
    · intro row stored' held b shown unrevoked b' approval'
      have stored := inv.held_unchanged effect known stored' held
      obtain ⟨b₀, approval, -⟩ := inv.bound _ row stored
      obtain rfl := inv.open_unrevoked effect stored stored' (JobRow.isOpen_of_heldBy held)
        approval approval'
      exact current row stored held b shown unrevoked b' approval
  | published holds unchanged past active unrevoked =>
    have kept := effect.keeps_jobs other holds
    refine .published kept unchanged (past.trans effect.now_le) active ?_
    intro b' approval'
    obtain ⟨b₀, approval, -⟩ := inv.bound _ _ holds.stored
    obtain rfl := inv.open_unrevoked effect holds.stored kept.stored
      (JobRow.isOpen_of_heldBy (JobRow.heldBy_of_active active)) approval approval'
    exact unrevoked b' approval
  | revoking holds workspace finding =>
    exact .revoking (effect.keeps_approvals other holds) workspace finding
  | cancelling holds targets jobs =>
    refine .cancelling (effect.keeps_approvals other holds) ?_ ?_
    · intro id mem
      obtain ⟨row, stored, approval⟩ := targets id mem
      obtain ⟨row', stored', related⟩ := inv.moves effect id row stored
      refine ⟨row', stored', ?_⟩
      rcases related with _ | move
      · exact approval
      · exact move.approvalID.trans approval
    · intro id row' stored' approval' isOpen'
      rcases inv.origin effect stored' with
        ⟨row, stored, related⟩ | ⟨request', b, -, free, rfl, -⟩
      · have before : row.approvalID = row'.approvalID ∧ row.isOpen = true := by
          rcases related with _ | move
          · exact ⟨rfl, isOpen'⟩
          · exact ⟨move.approvalID.symm, move.isOpen⟩
        refine (jobs id row stored (before.1.trans approval') before.2).imp_right fun locked => ?_
        have kept := effect.keeps_jobs other ⟨locked, stored, rfl⟩
        obtain rfl := Option.some.inj (kept.stored.symm.trans stored')
        exact kept.locked
      · -- whoever inserts a job shares the key of its approval, which is locked here
        rw [show request'.approvalID = _ from approval', holds.locked] at free
        cases free
  | checked => exact .checked

omit [LinearOrder ID] in
theorem Inv.mem_openJobs (inv : Inv q) {id : ID} (stored : q.jobs.rows id = some row)
    (approval : row.approvalID = request.approvalID)
    (approved : q.approvals.rows request.approvalID = some b)
    (workspace : b.binding.workspaceID = request.workspaceID)
    (finding : b.binding.findingID = request.findingID) (isOpen : row.isOpen = true) :
    id ∈ q.openJobs request := by
  obtain ⟨b', approved', binding⟩ := inv.bound id row stored
  rw [approval] at approved'
  obtain rfl := Option.some.inj (approved.symm.trans approved')
  refine List.mem_filter.mpr ⟨inv.known id row stored, ?_⟩
  simp [stored, ← binding, workspace, finding, approval, isOpen]

omit [LinearOrder ID] in
theorem Store.approval_of_mem_openJobs {id : ID} (mem : id ∈ q.openJobs request) :
    ∃ row, q.jobs.rows id = some row ∧ row.approvalID = request.approvalID := by
  obtain ⟨-, holds⟩ := List.mem_filter.mp mem
  obtain ⟨some_, holds⟩ := (Option.any_eq_true_iff_get _ _).mp holds
  simp only [Bool.and_eq_true, decide_eq_true_eq] at holds
  exact ⟨_, (Option.some_get some_).symm, holds.1.2⟩

omit [LinearOrder ID] in
/-- The approval of a job that the update is about to publish is not revoked. -/
theorem Inv.publishing (inv : Inv q) {number : ℕ} {record : Record ID} {outcome : Outcome}
    {s : Snapshot} (scanning : q.progress ⟨number, .publish record outcome⟩ = some (.scanning s))
    (stored : q.jobs.rows record.id = some row) (held : row.heldBy record = true)
    (permits : s.permits row = true) (approval : q.approvals.rows row.approvalID = some b) :
    b.revokedAt = none := by
  cases inv.standing _ _ scanning with
  | scanning known wall revisions seen current =>
    obtain ⟨some_, holds⟩ := (Option.any_eq_true_iff_get _ _).mp permits
    simp only [Bool.and_eq_true, Option.isNone_iff_eq_none] at holds
    exact current row stored held _ (Option.some_get some_).symm holds.1.1.1.1.2 b approval

theorem Inv.standing_own (inv : Inv q) (effect : Effect q a q') (own : a.tx = some tx)
    {p : Progress ID} (opened : q'.progress tx = some p) : Standing q' tx p := by
  have set : ∀ {actor : Tx ID} {p₀ : Option (Progress ID)}, some actor = some tx →
      (q.setProgress actor p₀).progress tx = some p → p₀ = some p := by
    rintro actor p₀ ⟨⟩ opened
    rwa [Store.progress_setProgress, Function.update_self] at opened
  cases effect with
  | tick => cases own
  | tickWall => cases own
  | advanceEvidence => cases own
  | approve => cases own
  | update a selected set claimed single free moves records =>
    rw [single] at own
    cases own
  | checkApproval number request wall =>
    obtain ⟨⟩ := set own opened
    obtain ⟨⟩ := own
    exact .checked
  | publish number record outcome wall known past =>
    obtain ⟨⟩ := set own opened
    obtain ⟨⟩ := own
    refine .scanning known past (fun _ => le_rfl) (fun _ b shown => ⟨b, shown, rfl, rfl⟩) ?_
    intro row _ _ b shown unrevoked b' approval
    obtain rfl := Option.some.inj (shown.symm.trans approval)
    exact unrevoked
  | publishRow number record outcome time s row scanning free stored begun since active permits =>
    obtain ⟨⟩ := set own opened
    obtain ⟨⟩ := own
    obtain ⟨unchanged, past⟩ := Table.unchangedSince_iff.mp since
    exact .published ⟨Function.update_self _ _ _, stored, rfl⟩ unchanged past active
      fun b approval => inv.publishing scanning stored (JobRow.heldBy_of_active active) permits
        approval
  | revoke number request wall b free stored workspace finding unrevoked =>
    obtain ⟨⟩ := set own opened
    obtain ⟨⟩ := own
    exact .revoking ⟨Function.update_self _ _ _, stored, rfl⟩ workspace finding
  | cancelJobs number request wall revoking =>
    obtain ⟨⟩ := set own opened
    obtain ⟨⟩ := own
    cases inv.standing _ _ revoking with
    | revoking holds workspace finding =>
      refine .cancelling holds (fun id mem => Store.approval_of_mem_openJobs mem) ?_
      intro id row stored approval isOpen
      exact .inl (inv.mem_openJobs stored approval holds.stored workspace finding isOpen)
  | cancelRow number request id wall pending row cancelling free stored isOpen mem =>
    obtain ⟨⟩ := set own opened
    obtain ⟨⟩ := own
    cases inv.standing _ _ cancelling with
    | cancelling holds targets jobs =>
      refine .cancelling holds (fun j mem => targets j (List.mem_of_mem_erase mem)) ?_
      intro j row' stored' approval isOpen'
      by_cases same : j = id
      · subst same
        obtain rfl := Option.some.inj (stored.symm.trans stored')
        exact .inr (Function.update_self _ _ _)
      · refine (jobs j row' stored' approval isOpen').imp ?_ fun locked => ?_
        · exact fun mem => (List.mem_erase_of_ne same).mpr mem
        · exact (Function.update_of_ne same _ _).trans locked
  | skipRow number request id wall pending row cancelling stored settled =>
    obtain ⟨⟩ := set own opened
    obtain ⟨⟩ := own
    cases inv.standing _ _ cancelling with
    | cancelling holds targets jobs =>
      refine .cancelling holds (fun j mem => targets j (List.mem_of_mem_erase mem)) ?_
      intro j row' stored' approval isOpen'
      refine (jobs j row' stored' approval isOpen').imp_left fun mem => ?_
      refine (List.mem_erase_of_ne ?_).mpr mem
      rintro rfl
      obtain rfl := Option.some.inj (stored.symm.trans stored')
      rw [settled] at isOpen'
      cases isOpen'
  | insertJob => exact nomatch set own opened
  | commitPublish => exact nomatch set own opened
  | commitRevoke => exact nomatch set own opened
  | rollback => exact nomatch set own opened

theorem Inv.effect (inv : Inv q) (effect : Effect q a q') : Inv q' where
  staged := inv.staged_effect effect
  revocations := inv.revocations_effect effect
  known := inv.known_effect effect
  bound := inv.bound_effect effect
  attempts := inv.attempts_effect effect
  leased := inv.leased_effect effect
  records := inv.records_effect effect
  standing := by
    intro tx p opened
    by_cases own : a.tx = some tx
    · exact inv.standing_own effect own opened
    · exact inv.standing_other effect own (effect.progress_other own ▸ opened)

theorem Store.Reachable.inv (reachable : Store.Reachable q) : Inv q := by
  refine Machine.Reachable.invariant ?_ ?_ reachable
  · rintro _ ⟨now, wall, rfl⟩
    exact inv_empty now wall
  · exact fun s a s' inv step => inv.effect (step_effect step)

end Steps

end Aspm.Verification
