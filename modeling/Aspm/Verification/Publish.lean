import Aspm.Verification.Stranded

/-!
# Verification success is authorised

What `publishVerificationSuccess` guarantees when it turns a job to success.  The worker
holds the latest fence, and at the instant of the row update no committed transaction has
revoked the approval: a revocation that commits first has cancelled the job, and one that
comes later waits for it.

The evidence revision of the finding and the expiry of the approval are another matter.
Nothing ties them to the row: the sub-query reads them in the snapshot that the statement
took at its start, with a clock value read before that, and the update proceeds on them even
if it had to wait for the row and an import committed meanwhile (`published_after_import`).
-/

namespace Aspm.Verification

open Nullable RowTable
open Reconcile (Time)

variable {row row' : JobRow} {b : Approval}
variable {ID : Type} {q q' : Store ID} {a : Action ID}

theorem Snapshot.permits_iff {s : Snapshot} : s.permits row = true ↔
    ∃ b, s.approvals row.approvalID = some b ∧ b.binding.workspaceID = row.binding.workspaceID ∧
      b.revokedAt = none ∧ s.wall < b.expiresAt ∧
      b.binding.evidenceRevision = s.revisions b.binding.finding ∧
      b.binding.evidenceRevision = row.binding.evidenceRevision ∧
      b.binding.evidenceDigest = row.binding.evidenceDigest := by
  cases shown : s.approvals row.approvalID <;> simp [permits, shown, and_assoc]

/-- Success comes from the end of a publishing transaction alone. -/
theorem Move.published {claimed : List (Record ID)} {now : Time} {id : ID}
    (move : Move claimed now id a row row') (succeeded : row'.state = .succeeded) :
    ∃ number record outcome, a = .commit ⟨number, .publish record outcome⟩ ∧ record.id = id := by
  cases move with
  | publish own => exact ⟨_, _, _, rfl, own⟩
  | settle settlement wall =>
    have other : settlement.state ≠ .succeeded := by
      rcases settlement with _ | _ | _ | outcome | _
      case policy => cases outcome <;> exact JobState.noConfusion
      all_goals exact JobState.noConfusion
    exact absurd succeeded other
  | _ => cases succeeded

section Steps

variable [LinearOrder ID]

/-- **At the row update** the worker holds the latest fence, the approval is not revoked, and
what else the sub-query asks for was so in the snapshot. -/
theorem Inv.publishRow (inv : Inv q) {number : ℕ} {record : Record ID} {outcome : Outcome}
    {time : Time} (step : q.step (.publishRow number record outcome time) = some q') :
    ∃ s row b, q.progress ⟨number, .publish record outcome⟩ = some (.scanning s) ∧
      q.jobs.rows record.id = some row ∧ row.active record time = true ∧
      q.jobs.changedAt record.id ≤ time ∧ time ≤ q.jobs.now ∧ s.time ≤ time ∧
      q.approvals.rows row.approvalID = some b ∧ b.revokedAt = none ∧
      b.binding = row.binding ∧ s.wall < b.expiresAt ∧ s.wall ≤ q.wall ∧
      s.revisions row.binding.finding = b.binding.evidenceRevision ∧
      s.revisions row.binding.finding ≤ q.revisions row.binding.finding ∧
      q'.jobs.locks record.id =
        some ⟨⟨number, .publish record outcome⟩, some (row.succeed outcome s.wall)⟩ := by
  cases step_effect step with
  | update _ _ _ _ single => cases single
  | publishRow _ _ _ _ s row scanning free stored begun since active permits =>
    obtain ⟨unchanged, past⟩ := Table.unchangedSince_iff.mp since
    obtain ⟨b, approval, binding⟩ := inv.bound _ row stored
    have unrevoked := inv.publishing scanning stored (JobRow.heldBy_of_active active) permits
      approval
    obtain ⟨b₀, shown, -, -, unexpired, revision, -⟩ := Snapshot.permits_iff.mp permits
    cases inv.standing _ _ scanning with
    | scanning known wall revisions seen current =>
      -- the columns that the snapshot shows of the approval are those it still has
      obtain ⟨b', approval', binding', expiresAt⟩ := seen _ b₀ shown
      obtain rfl := Option.some.inj (approval.symm.trans approval')
      have finding : b₀.binding.finding = row.binding.finding := by
        rw [← binding', binding]
      refine ⟨s, row, b, scanning, stored, active, unchanged, past, begun, approval, unrevoked,
        binding, expiresAt ▸ unexpired, wall, ?_, revisions _, Function.update_self _ _ _⟩
      rw [← finding, ← revision, binding']

variable {id : ID}

/-- The end of a publishing transaction finds the approval still unrevoked. -/
theorem Inv.success (inv : Inv q) (effect : Effect q a q') (stored : q.jobs.rows id = some row)
    (stored' : q'.jobs.rows id = some row') (before : row.state ≠ .succeeded)
    (after : row'.state = .succeeded) :
    ∃ number record outcome s time, a = .commit ⟨number, .publish record outcome⟩ ∧
      record.id = id ∧
      q.progress ⟨number, .publish record outcome⟩ = some (.published s time) ∧
      row.active record time = true ∧ q.jobs.changedAt id ≤ time ∧ time ≤ q.jobs.now ∧
      row' = row.succeed outcome s.wall ∧
      ∀ b, q.approvals.rows row.approvalID = some b → b.revokedAt = none := by
  obtain ⟨row'', moved, related⟩ := inv.moves effect id row stored
  obtain rfl := Option.some.inj (moved.symm.trans stored')
  rcases related with _ | move
  · exact absurd after before
  obtain ⟨number, record, outcome, rfl, rfl⟩ := move.published after
  cases effect with
  | update _ _ _ _ single => cases single
  | commitRevoke _ wall cancelled => cases inv.standing _ _ cancelled
  | commitPublish _ s time published =>
    cases inv.standing _ _ published with
    | published holds unchanged past active unrevoked =>
      obtain rfl := Option.some.inj (holds.stored.symm.trans stored)
      have installed := holds.rows_commit
      obtain rfl := Option.some.inj (installed.symm.trans stored')
      exact ⟨number, record, outcome, s, time, rfl, rfl, published, active,
        holds.since.trans_le unchanged, past, rfl, unrevoked⟩

/-- A revoked approval stays revoked. -/
theorem Inv.revoked_kept (inv : Inv q) (effect : Effect q a q') {id : ApprovalID}
    (stored : q.approvals.rows id = some b) (revoked : b.revokedAt ≠ none) :
    q'.approvals.rows id = some b :=
  (inv.approvals_moves effect).frozen stored fun _ revokes => revoked revokes.unrevoked

theorem Inv.rows_of_terminal (inv : Inv q) (effect : Effect q a q')
    (stored : q.jobs.rows id = some row) (terminal : row.isOpen = false) :
    q'.jobs.rows id = some row := by
  refine (inv.moves effect).frozen stored fun row' move => ?_
  rw [move.isOpen] at terminal
  cases terminal

/-- Under a revoked approval no step makes a job succeed. -/
theorem Inv.succeeded_before (inv : Inv q) (effect : Effect q a q')
    (approval : q.approvals.rows row'.approvalID = some b) (revoked : b.revokedAt ≠ none)
    (stored' : q'.jobs.rows id = some row') (succeeded : row'.state = .succeeded) :
    q.jobs.rows id = some row' := by
  rcases inv.origin effect stored' with ⟨row, stored, related⟩ | ⟨_, _, _, _, rfl, _⟩
  · rcases related with _ | move
    · exact stored
    · have unfinished : row.state ≠ .succeeded := by
        rcases JobRow.isOpen_iff.mp move.isOpen with state | state <;> simp [state]
      obtain ⟨_, _, _, _, _, _, _, _, _, _, _, _, unrevoked⟩ :=
        inv.success effect stored stored' unfinished succeeded
      rw [move.approvalID] at approval
      exact absurd (unrevoked b approval) revoked
  · cases succeeded

theorem Inv.run_revoked (inv : Inv q) {actions : List (Action ID)}
    (runs : Machine.run Store.step q actions = some q')
    (approval : q.approvals.rows row'.approvalID = some b) (revoked : b.revokedAt ≠ none)
    (stored' : q'.jobs.rows id = some row') (succeeded : row'.state = .succeeded) :
    q.jobs.rows id = some row' := by
  have kept := Machine.run_invariant
    (P := fun s => Inv s ∧ s.approvals.rows row'.approvalID = some b ∧
      (s.jobs.rows id = some row' → q.jobs.rows id = some row'))
    ?_ ⟨inv, approval, fun stored => stored⟩ runs
  · exact kept.2.2 stored'
  · rintro s a s' ⟨inv, approval, before⟩ step
    have effect := step_effect step
    refine ⟨inv.effect effect, inv.revoked_kept effect approval revoked, fun stored => ?_⟩
    exact before (inv.succeeded_before effect approval revoked stored succeeded)

theorem Inv.run_terminal (inv : Inv q) {actions : List (Action ID)}
    (runs : Machine.run Store.step q actions = some q') (stored : q.jobs.rows id = some row)
    (terminal : row.isOpen = false) : q'.jobs.rows id = some row := by
  refine (Machine.run_invariant (P := fun s => Inv s ∧ s.jobs.rows id = some row)
    ?_ ⟨inv, stored⟩ runs).2
  rintro s a s' ⟨inv, stored⟩ step
  exact ⟨inv.effect (step_effect step), inv.rows_of_terminal (step_effect step) stored terminal⟩

/-- **Verification success is authorised.**  In every reachable state:

* the update of `publishVerificationSuccess` begins with the committed approvals and evidence
  revisions of that instant, and with a reading of the clock that is not ahead of it;
* it writes the row only for the worker with the latest fence, whose lease was unexpired at an
  instant after the statement began and since which the row had not changed.  When it writes,
  no committed transaction has revoked the approval, whose evidence digest is that of the job;
  the evidence revision of the finding was the approved one in the snapshot, and the approval
  was unexpired at that reading of the clock;
* a job becomes succeeded by committing such a write alone, and then the approval is still not
  revoked;
* attempts stay within three.

Along every run from there, no job succeeds under an approval whose revocation has committed,
and terminal jobs stay as they are. -/
theorem publish_authorised (reachable : Store.Reachable q) :
    (∀ number record outcome wall q',
      q.step (.publish number record outcome wall) = some q' → wall ≤ q.wall ∧
        q'.progress ⟨number, .publish record outcome⟩ =
          some (.scanning ⟨q.jobs.now, q.approvals.rows, q.revisions, wall⟩)) ∧
    (∀ number record outcome time q',
      q.step (.publishRow number record outcome time) = some q' →
      ∃ s row b, q.progress ⟨number, .publish record outcome⟩ = some (.scanning s) ∧
        q.jobs.rows record.id = some row ∧ row.active record time = true ∧
        q.jobs.changedAt record.id ≤ time ∧ time ≤ q.jobs.now ∧ s.time ≤ time ∧
        q.approvals.rows row.approvalID = some b ∧ b.revokedAt = none ∧
        b.binding = row.binding ∧ s.wall < b.expiresAt ∧ s.wall ≤ q.wall ∧
        s.revisions row.binding.finding = b.binding.evidenceRevision ∧
        s.revisions row.binding.finding ≤ q.revisions row.binding.finding ∧
        q'.jobs.locks record.id =
          some ⟨⟨number, .publish record outcome⟩, some (row.succeed outcome s.wall)⟩) ∧
    (∀ a q', q.step a = some q' → ∀ id row row', q.jobs.rows id = some row →
      q'.jobs.rows id = some row' → row.state ≠ .succeeded → row'.state = .succeeded →
      ∃ number record outcome s time, a = .commit ⟨number, .publish record outcome⟩ ∧
        record.id = id ∧
        q.progress ⟨number, .publish record outcome⟩ = some (.published s time) ∧
        row.active record time = true ∧ q.jobs.changedAt id ≤ time ∧ time ≤ q.jobs.now ∧
        row' = row.succeed outcome s.wall ∧
        ∀ b, q.approvals.rows row.approvalID = some b → b.revokedAt = none) ∧
    (∀ id row, q.jobs.rows id = some row → row.attempts ≤ 3) ∧
    (∀ actions q', Machine.run Store.step q actions = some q' →
      (∀ b id row', q.approvals.rows row'.approvalID = some b → b.revokedAt ≠ none →
        q'.jobs.rows id = some row' → row'.state = .succeeded → q.jobs.rows id = some row') ∧
      (∀ id row, q.jobs.rows id = some row → row.isOpen = false →
        q'.jobs.rows id = some row)) := by
  have inv := reachable.inv
  refine ⟨?_, fun number record outcome time q' => inv.publishRow, ?_, inv.attempts, ?_⟩
  · intro number record outcome wall q' step
    cases step_effect step with
    | update _ _ _ _ single => cases single
    | publish _ _ _ _ known past => exact ⟨past, Function.update_self _ _ _⟩
  · intro a q' step id row row' stored stored'
    exact inv.success (step_effect step) stored stored'
  · intro actions q' runs
    exact ⟨fun b id row' => inv.run_revoked runs, fun id row => inv.run_terminal runs⟩

/-! ## Fences -/

/-- The record with which a worker writes to the row of its job. -/
def Action.record : Action ID → Option (Record ID)
  | .retry record _ _ => some record
  | .requeueCancelled record => some record
  | .settle record _ _ _ => some record
  | .publishRow _ record _ _ => some record
  | _ => none

theorem Store.heldBy_of_settle {record : Record ID} {settlement : Settlement} {wall time : Time}
    (settled : q.settle record settlement wall time = some q') :
    ∃ row, q.jobs.rows record.id = some row ∧ row.heldBy record = true := by
  obtain ⟨-, -, ⟨row, stored, holds⟩, -⟩ := Store.updateRow_eq_some settled
  refine ⟨row, stored, ?_⟩
  split_ifs at holds
  · exact JobRow.heldBy_of_active holds
  · exact holds

/-- Who writes to a row holds it. -/
theorem Inv.heldBy_of_step (inv : Inv q) (step : q.step a = some q') {record : Record ID}
    (writes : a.record = some record) :
    ∃ row, q.jobs.rows record.id = some row ∧ row.heldBy record = true := by
  cases a with
  | settle r settlement wall time =>
    obtain rfl := Option.some.inj writes
    exact Store.heldBy_of_settle (Option.ite_none_right_eq_some.mp step).2
  | retry r wall time =>
    obtain rfl := Option.some.inj writes
    rw [Store.step] at step
    split at step
    · exact Store.heldBy_of_settle (Option.ite_none_right_eq_some.mp step).2
    · obtain ⟨-, -, ⟨row, stored, active⟩, -⟩ := Store.updateRow_eq_some step
      exact ⟨row, stored, JobRow.heldBy_of_active active⟩
  | requeueCancelled r =>
    obtain rfl := Option.some.inj writes
    obtain ⟨-, -, held, -⟩ := Store.updateRow_eq_some step
    exact held
  | publishRow number r outcome time =>
    obtain rfl := Option.some.inj writes
    obtain ⟨s, row, b, -, stored, active, -⟩ := inv.publishRow step
    exact ⟨row, stored, JobRow.heldBy_of_active active⟩
  | _ => cases writes

/-- **Only the newest claim writes.**  In every run, whenever a worker settles, requeues or
publishes a job, no claim of that job has a greater fence than its own. -/
theorem newest_claim_writes (now wall : Time) (actions : List (Action ID)) :
    Machine.Always Store.step (fun q a => ∀ record, a.record = some record →
      ∀ other ∈ q.claimed, other.id = record.id → other.fence ≤ record.fence)
      (Store.empty now wall) actions := by
  refine Machine.always_of_inv (fun q a q' inv taken => ⟨?_, inv.effect (step_effect taken)⟩)
    (inv_empty now wall) actions
  intro record writes other mem same
  obtain ⟨row, stored, held⟩ := inv.heldBy_of_step taken writes
  obtain ⟨row', stored', le, -⟩ := inv.records other mem
  rw [same] at stored'
  obtain rfl := Option.some.inj (stored.symm.trans stored')
  exact le.trans (JobRow.heldBy_iff.mp held).2.1.le

end Steps

/-! A publication that waits for a revocation, which rolls back after an import has
committed. -/

namespace Sample

def revokeRequest : RevokeRequest :=
  ⟨"workspace", "finding", "approval", "user", "rationale"⟩

def record : Record ℕ := ⟨1, "worker", 1, 1⟩

def waiting : List (Action ℕ) :=
  enqueued ++ [.claim "worker" 90000000, .revoke 2 revokeRequest 0, .cancelJobs 2 revokeRequest,
    .cancelRow 2 revokeRequest 1, .publish 3 record .reproduced 0,
    .advanceEvidence ("workspace", "finding"), .tick 5, .rollback ⟨2, .revoke revokeRequest⟩]

end Sample

/-- The row update goes through although the finding's committed evidence revision is two,
and the approved one is one. -/
theorem published_after_import :
    ∃ q q' q'', Machine.run Store.step (Store.empty 0 0) Sample.waiting = some q ∧
      q.step (.publishRow 3 Sample.record .reproduced 0) = some q' ∧
      q'.step (.commit ⟨3, .publish Sample.record .reproduced⟩) = some q'' ∧
      (q''.jobs.rows 1).map (·.state) = some .succeeded ∧
      (q.jobs.rows 1).map (·.binding.evidenceRevision) = some 1 ∧
      (q.approvals.rows "approval").map (·.binding.evidenceRevision) = some 1 ∧
      q.revisions ("workspace", "finding") = 2 := by
  have before : (Machine.run Store.step (Store.empty 0 0) Sample.waiting).map (fun q =>
      ((q.jobs.rows 1).map (·.binding.evidenceRevision),
        (q.approvals.rows "approval").map (·.binding.evidenceRevision),
        q.revisions ("workspace", "finding"))) = some (some 1, some 1, 2) := by decide
  have after : ((Machine.run Store.step (Store.empty 0 0) Sample.waiting).bind fun q =>
      (q.step (.publishRow 3 Sample.record .reproduced 0)).bind fun q' =>
        (q'.step (.commit ⟨3, .publish Sample.record .reproduced⟩)).map fun q'' =>
          (q''.jobs.rows 1).map (·.state)) = some (some .succeeded) := by decide
  obtain ⟨q, ran, rest⟩ := Option.bind_eq_some_iff.mp after
  obtain ⟨q', wrote, rest⟩ := Option.bind_eq_some_iff.mp rest
  obtain ⟨q'', committed, state⟩ := Option.map_eq_some_iff.mp rest
  rw [ran, Option.map_some] at before
  obtain ⟨job, columns⟩ := Prod.mk.inj (Option.some.inj before)
  obtain ⟨approval, revision⟩ := Prod.mk.inj columns
  exact ⟨q, q', q'', ran, wrote, committed, state, job, approval, revision⟩

/-- In the same run, what the theorem says of the row update. -/
theorem publish_authorised_waiting :
    ∃ q q', Machine.run Store.step (Store.empty 0 0) Sample.waiting = some q ∧
      q.step (.publishRow 3 Sample.record .reproduced 0) = some q' ∧
      ∃ s row b, q.progress ⟨3, .publish Sample.record .reproduced⟩ = some (.scanning s) ∧
        q.jobs.rows 1 = some row ∧ q.approvals.rows row.approvalID = some b ∧
        b.revokedAt = none ∧ s.revisions row.binding.finding = b.binding.evidenceRevision := by
  have enabled : ((Machine.run Store.step (Store.empty 0 0) Sample.waiting).bind
      (·.step (.publishRow 3 Sample.record .reproduced 0))).isSome = true := by decide
  obtain ⟨q', wrote⟩ := Option.isSome_iff_exists.mp enabled
  obtain ⟨q, ran, step⟩ := Option.bind_eq_some_iff.mp wrote
  have reachable : Store.Reachable q := ⟨_, Sample.waiting, ⟨0, 0, rfl⟩, ran⟩
  obtain ⟨s, row, b, scanning, stored, -, -, -, -, approval, unrevoked, -, -, -, revision, -⟩ :=
    (publish_authorised reachable).2.1 3 Sample.record .reproduced 0 q' step
  exact ⟨q, q', ran, step, s, row, b, scanning, stored, approval, unrevoked, revision⟩

end Aspm.Verification
