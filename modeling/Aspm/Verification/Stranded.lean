import Aspm.Verification.Invariant

/-!
# Which verification jobs are stranded

A job is recoverable if the worker's two statements, `claimVerification` and
`failExhausted`, take it up once its time has come.  Jobs under a lease always are: if they
have attempts left they can be claimed again, and if not they can be failed.  A queued job
is recoverable only with attempts left, for `failExhausted` looks at jobs in processing
alone.

`retryVerification` queues a job only with attempts left.  `requeueCancelledVerification`
does not look at the attempts, so a worker that is shut down during the third and last
attempt leaves a queued job that nothing takes up again.
-/

namespace Aspm.Verification

open Nullable RowTable
open Reconcile (Time)

/-- One of the worker's statements takes the job up once its time has come. -/
def JobRow.Recoverable (row : JobRow) : Prop :=
  (row.state = .queued ∧ ∀ now, row.availableAt ≤ now → row.claimable now = true) ∨
  (row.state = .processing ∧ ∃ until_, row.leaseUntil = some until_ ∧
    ∀ now, until_ ≤ now → row.claimable now = true ∨ row.exhausted now = true)

/-- Every job that is not terminal is recoverable. -/
def Store.NoneStranded {ID : Type} (q : Store ID) : Prop :=
  ∀ id row, q.jobs.rows id = some row → row.isOpen = true → row.Recoverable

/-- The step does not requeue a job that has used up its attempts. -/
def Store.SparesLastAttempt {ID : Type} (q : Store ID) (a : Action ID) : Prop :=
  ∀ record, a = .requeueCancelled record → ∀ row, q.jobs.rows record.id = some row →
    row.heldBy record = true → row.attempts < verificationAttempts

variable {ID : Type}
variable {row : JobRow}

theorem JobRow.recoverable_of_processing (processing : row.state = .processing)
    (leased : row.leaseUntil.isSome) : row.Recoverable := by
  obtain ⟨until_, lease⟩ := Option.isSome_iff_exists.mp leased
  refine .inr ⟨processing, until_, lease, fun now passed => ?_⟩
  have lapsed : row.lapsed now = true := lapsed_iff.mpr ⟨processing, until_, lease, passed⟩
  rcases lt_or_ge row.attempts verificationAttempts with room | full
  · exact .inl (claimable_iff.mpr ⟨room, .inr lapsed⟩)
  · exact .inr (exhausted_iff.mpr ⟨full, lapsed⟩)

theorem JobRow.recoverable_of_queued (queued : row.state = .queued)
    (room : row.attempts < verificationAttempts) : row.Recoverable :=
  .inl ⟨queued, fun _ due => claimable_iff.mpr ⟨room, .inl ⟨queued, due⟩⟩⟩

/-- Nothing ever takes up a queued job without attempts left. -/
theorem JobRow.stranded (queued : row.state = .queued) (full : verificationAttempts ≤ row.attempts)
    (now : Time) : row.claimable now = false ∧ row.exhausted now = false := by
  constructor
  · rw [Bool.eq_false_iff, ne_eq, claimable_iff]
    exact fun claimable => absurd claimable.1 (not_lt.mpr full)
  · rw [Bool.eq_false_iff, ne_eq, exhausted_iff, lapsed_iff, queued]
    exact fun exhausted => nomatch exhausted.2.1

theorem JobRow.Recoverable.room (recoverable : row.Recoverable) (queued : row.state = .queued) :
    row.attempts < verificationAttempts := by
  rcases recoverable with ⟨-, due⟩ | ⟨processing, -⟩
  · exact (claimable_iff.mp (due row.availableAt le_rfl)).1
  · rw [queued] at processing
    cases processing

section Steps

variable [LinearOrder ID] {q q' : Store ID} {a : Action ID}

omit [LinearOrder ID] in
/-- A move into the queue leaves attempts, unless it requeues a last one. -/
theorem Inv.room_of_move (inv : Inv q) (spares : q.SparesLastAttempt a) {id : ID}
    {row row' : JobRow} (stored : q.jobs.rows id = some row)
    (move : Move q.claimed q.jobs.now id a row row') (queued : row'.state = .queued) :
    row'.attempts < verificationAttempts := by
  cases move with
  | retry own known room active =>
    subst own
    obtain ⟨row₀, stored₀, -, same⟩ := inv.records _ known
    obtain rfl := Option.some.inj (stored.symm.trans stored₀)
    have fence := (JobRow.heldBy_iff.mp (JobRow.heldBy_of_active active)).2.1
    exact (same fence).trans_lt room
  | requeue own held =>
    subst own
    exact spares _ rfl row stored held
  | settle settlement wall =>
    have settled := settlement.phase_state
    rw [show settlement.state = .queued from queued] at settled
    cases settled
  | _ => cases queued

theorem Inv.noneStranded_step (inv : Inv q) (none : q.NoneStranded)
    (spares : q.SparesLastAttempt a) (effect : Effect q a q') : q'.NoneStranded := by
  intro id row' stored' isOpen
  rcases JobRow.isOpen_iff.mp isOpen with queued | processing
  · refine JobRow.recoverable_of_queued queued ?_
    rcases inv.origin effect stored' with ⟨row, stored, related⟩ | ⟨_, _, _, _, rfl, _⟩
    · rcases related with _ | move
      · exact (none id _ stored isOpen).room queued
      · exact inv.room_of_move spares stored move queued
    · show 0 < 3
      decide
  · exact JobRow.recoverable_of_processing processing
      (inv.leased_effect effect id row' stored' processing)

/-- A step that requeues a last attempt strands the job. -/
theorem sparesLastAttempt_of_noneStranded (step : q.step a = some q') (none : q'.NoneStranded) :
    q.SparesLastAttempt a := by
  rintro record rfl row stored held
  have updated : q.updateRow record q.jobs.now (·.heldBy record) (·.requeue q.jobs.now) =
      some q' := step
  obtain ⟨-, -, -, rfl⟩ := Store.updateRow_eq_some updated
  have requeued : (q.jobs.update [record.id] (·.requeue q.jobs.now)).rows record.id =
      some (row.requeue q.jobs.now) := by
    rw [Table.rows_update, if_pos (List.mem_singleton_self _), stored, Option.map_some]
  exact (none record.id _ requeued rfl).room rfl

/-- **No job is stranded just if no last attempt is requeued.**  Along every run, each job
that is not terminal can be claimed once its time has come, or failed once its lease has
passed, in every state that the run reaches, if and only if no step of the run is a
`requeueCancelledVerification` that takes effect on a job without attempts left. -/
theorem noneStranded_iff_sparesLastAttempt (now wall : Time) (actions : List (Action ID)) :
    Machine.Throughout Store.step Store.NoneStranded (Store.empty now wall) actions ↔
      Machine.Always Store.step Store.SparesLastAttempt (Store.empty now wall) actions := by
  refine Machine.throughout_iff_always (I := Inv) ?_ ?_ ?_ (inv_empty now wall) ?_ actions
  · exact fun s a s' inv step => inv.effect (step_effect step)
  · exact fun s a s' inv none spares step => inv.noneStranded_step none spares (step_effect step)
  · exact fun s a s' _ step none => sparesLastAttempt_of_noneStranded step none
  · exact fun id row stored => nomatch stored

end Steps

/-! A job whose worker is shut down during each of its three attempts. -/

namespace Sample

def binding : Binding :=
  ⟨"workspace", "finding", "evidence", "deterministic-evidence", "environment", "scope", 1,
    "sha256:digest"⟩

def enqueueRequest : EnqueueRequest := ⟨"workspace", "finding", "approval", "key", "user"⟩

/-- An approval and a job for it. -/
def enqueued : List (Action ℕ) :=
  [.approve "approval" binding "user" "rationale" 60000000 0, .checkApproval 1 enqueueRequest 0,
    .insertJob 1 enqueueRequest 1]

def threeShutdowns : List (Action ℕ) :=
  enqueued ++ [.claim "worker" 90000000, .requeueCancelled ⟨1, "worker", 1, 1⟩,
    .claim "worker" 90000000, .requeueCancelled ⟨1, "worker", 2, 2⟩,
    .claim "worker" 90000000, .requeueCancelled ⟨1, "worker", 3, 3⟩]

end Sample

/-- The third shutdown leaves a queued job that no statement ever takes up. -/
theorem third_shutdown_strands :
    ∃ q, Machine.run Store.step (Store.empty 0 0) Sample.threeShutdowns = some q ∧
      ∃ row, q.jobs.rows 1 = some row ∧ row.state = .queued ∧ row.attempts = 3 ∧
        ∀ now, row.claimable now = false ∧ row.exhausted now = false := by
  have left : (Machine.run Store.step (Store.empty 0 0) Sample.threeShutdowns).bind
      (fun q => (q.jobs.rows 1).map fun row => (row.state, row.attempts)) =
        some (.queued, 3) := by decide
  obtain ⟨q, ran, found⟩ := Option.bind_eq_some_iff.mp left
  obtain ⟨row, stored, columns⟩ := Option.map_eq_some_iff.mp found
  obtain ⟨queued, attempts⟩ := Prod.mk.inj columns
  exact ⟨q, ran, row, stored, queued, attempts, JobRow.stranded queued attempts.ge⟩

end Aspm.Verification
