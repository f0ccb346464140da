import Aspm.Lib.Lease
import Aspm.Imports.Queue
import Aspm.Reconcile.Rows

/-!
# Imports are processed exactly once

`step_effect` says once what a step of the queue can do to its tables; everything else
is read off from it.  Rows refine the fenced lease (`Advances`), so terminal rows stay,
attempts are bounded and fences grow.  Committed `reconcile` transactions and
succeeded rows correspond one to one, and the finding tables are the reconciliation of
exactly the committed imports, in the order of their commits.
-/

namespace Aspm.Imports

open Nullable RowTable
open Reconcile (Time ImportRecord Import Finding AssetContext)

variable {row : ImportRow}

/-! ## Rows as leased work -/

def ImportState.phase : ImportState → Lease.Phase
  | .queued => .waiting
  | .processing => .held
  | .succeeded => .settled
  | .failed => .settled

def ImportRow.work (row : ImportRow) : Lease.Work :=
  ⟨row.state.phase, row.fence, row.attempts⟩

/-- A row moves as leased work does, and only until it is settled. -/
structure Advances (row row' : ImportRow) : Prop where
  pending : row.work.phase ≠ .settled
  record : row'.record = row.record
  lease : Lease.Step importAttempts row.work row'.work

namespace ImportRow

variable {ID : Type} {claim : Claim ID} {now : Time}

theorem state_of_heldBy (held : row.heldBy claim = true) : row.state = .processing := by
  simp only [heldBy, Bool.and_eq_true, decide_eq_true_eq] at held
  exact held.2

theorem heldBy_of_active (active : row.active claim now = true) : row.heldBy claim = true := by
  simp only [ImportRow.active, Bool.and_eq_true] at active
  exact active.1

theorem phase_of_heldBy (held : row.heldBy claim = true) : row.work.phase = .held := by
  simp only [work, state_of_heldBy held, ImportState.phase]

theorem pending_of_heldBy (held : row.heldBy claim = true) : row.work.phase ≠ .settled := by
  simp [phase_of_heldBy held]

theorem pending_of_exhausted (exhausted : row.exhausted now = true) :
    row.work.phase ≠ .settled := by
  simp only [ImportRow.exhausted, Bool.and_eq_true, Bool.or_eq_true, decide_eq_true_eq]
    at exhausted
  rcases exhausted.2 with state | ⟨state, -⟩ <;> simp [work, state, ImportState.phase]

theorem claimable_iff : row.claimable now = true ↔ row.attempts < importAttempts ∧
    ((row.state = .queued ∧ row.availableAt ≤ now) ∨
      (row.state = .processing ∧ (le row.leaseUntil (some now)).holds = true)) := by
  simp only [claimable, Bool.and_eq_true, Bool.or_eq_true, decide_eq_true_eq]

theorem advances_failExhausted (exhausted : row.exhausted now = true) :
    Advances row row.failExhausted :=
  ⟨pending_of_exhausted exhausted, rfl, .settle (pending_of_exhausted exhausted) le_rfl⟩

theorem advances_claim (worker : WorkerID) (claimable : row.claimable now = true) :
    Advances row (row.claim worker now) := by
  obtain ⟨room, free⟩ := claimable_iff.mp claimable
  have pending : row.work.phase ≠ .settled := by
    rcases free with ⟨state, -⟩ | ⟨state, -⟩ <;> simp [work, state, ImportState.phase]
  exact ⟨pending, rfl, .claim pending room⟩

theorem advances_succeed (held : row.heldBy claim = true) (count : ℕ) :
    Advances row (row.succeed count) :=
  ⟨pending_of_heldBy held, rfl, .settle (pending_of_heldBy held) le_rfl⟩

theorem advances_fail (held : row.heldBy claim = true) (failure : ProcessFailure) :
    Advances row (row.fail failure now) := by
  refine ⟨pending_of_heldBy held, rfl, ?_⟩
  unfold work fail
  cases failure.retryable && row.attempts < importAttempts with
  | true => exact .requeue (phase_of_heldBy held)
  | false => exact .settle (pending_of_heldBy held) le_rfl

theorem advances_release (held : row.heldBy claim = true) : Advances row row.release :=
  ⟨pending_of_heldBy held, rfl, .requeue (phase_of_heldBy held)⟩

theorem advances_failRevoked (held : row.heldBy claim = true) : Advances row row.failRevoked :=
  ⟨pending_of_heldBy held, rfl, .settle (pending_of_heldBy held) le_rfl⟩

theorem advances_revoke (open_ : row.state = .queued ∨ row.state = .processing) :
    Advances row row.revoke := by
  have pending : row.work.phase ≠ .settled := by
    rcases open_ with state | state <;> simp [work, state, ImportState.phase]
  exact ⟨pending, rfl, .settle pending (Nat.le_succ _)⟩

end ImportRow

/-! ## What a step can do -/

section Steps

variable {ID : Type} [LinearOrder ID] (digestOf : Finding → String)

/-- An update that a statement commits at once: it advances rows that nobody has locked,
and makes none of them succeed. -/
def Sound (q : Queue ID) (selected : List ID) (set : ImportRow → ImportRow) : Prop :=
  ∀ id ∈ selected, q.table.locks id = none ∧
    ∀ row, q.table.rows id = some row → Advances row (set row) ∧ (set row).state ≠ .succeeded

/-- The effects of a step, whichever statement it is. -/
inductive Effect (q : Queue ID) : Queue ID → Prop
  | tick (d : ℕ) : Effect q { q with table := q.table.tick d }
  | insert (id : ID) (row : ImportRow) (fresh : q.table.rows id = none)
      (queued : row.state = .queued) (attempts : row.attempts = 0)
      (run : q.runTaken row.record.runID = false) :
      Effect q { q with table := q.table.insert id row, ids := q.ids ++ [id] }
  | update (selected : List ID) (set : ImportRow → ImportRow) (sound : Sound q selected set) :
      Effect q { q with table := q.table.update selected set }
  | lock (id : ID) (owner : Owner ID) (free : q.table.locks id = none)
      (unfinished : owner = .other ∨ ∃ claim, owner = .reconcile claim none ∧ claim.id = id) :
      Effect q { q with table := q.table.lock owner id }
  | finalize (id : ID) (claim : Claim ID) (row : ImportRow) (findings : List Finding)
      (asset : AssetContext) (lock : Option ImportRow)
      (held : q.table.locks id = some ⟨.reconcile claim none, lock⟩)
      (stored : q.table.rows id = some row) (active : row.active claim q.table.now = true) :
      Effect q { q with
        table := q.table.stage
          (.reconcile claim (some (⟨row.record, findings, asset⟩, q.table.now))) id
          (row.succeed findings.length) }
  | commit (id : ID) (claim : Claim ID) (imp : Import) (time : Time) (lock : Option ImportRow)
      (held : q.table.locks id = some ⟨.reconcile claim (some (imp, time)), lock⟩) :
      Effect q { q with
        table := q.table.commit (.reconcile claim (some (imp, time)))
        store := Reconcile.reconcile digestOf q.store imp
        committed := q.committed ++ [⟨claim, imp, time⟩] }
  | abort (owner : Owner ID) : Effect q { q with table := q.table.abort owner }

variable {condition : ImportRow → Bool} {id : ID}

theorem Queue.mem_candidates {q : Queue ID} :
    id ∈ q.candidates condition ↔
      id ∈ q.ids ∧ q.table.locks id = none ∧
        ∃ row, q.table.rows id = some row ∧ condition row = true := by
  simp only [candidates, List.mem_insertionSort, List.mem_filter, Bool.and_eq_true,
    Option.isNone_iff_eq_none, Option.any_eq_true_iff_get]
  constructor
  · rintro ⟨mem, free, some_, holds⟩
    exact ⟨mem, free, _, (Option.some_get some_).symm, holds⟩
  · rintro ⟨mem, free, row, stored, holds⟩
    refine ⟨mem, free, by simp [stored], ?_⟩
    simpa [stored] using holds

variable {set : ImportRow → ImportRow}

/-- A row that a statement selects under a condition advances by it. -/
theorem sound_of_candidates {q : Queue ID} {selected : List ID}
    (sub : selected ⊆ q.candidates condition)
    (advances : ∀ row, condition row = true → Advances row (set row))
    (unfinished : ∀ row, (set row).state ≠ .succeeded) : Sound q selected set := by
  intro id mem
  obtain ⟨-, free, row, stored, holds⟩ := Queue.mem_candidates.mp (sub mem)
  refine ⟨free, fun row' stored' => ?_⟩
  obtain rfl := Option.some.inj (stored.symm.trans stored')
  exact ⟨advances row holds, unfinished row⟩

variable {time : Time}

theorem Queue.updateRow_eq_some {q q' : Queue ID}
    (updated : q.updateRow id time condition set = some q') :
    q.table.locks id = none ∧ q.table.unchangedSince id time = true ∧
      (∃ row, q.table.rows id = some row ∧ condition row = true) ∧
      q' = { q with table := q.table.update [id] set } := by
  unfold updateRow at updated
  split at updated
  case h_1 row free stored =>
    split at updated
    case isTrue holds =>
      rw [Bool.and_eq_true] at holds
      exact ⟨free, holds.1, ⟨row, stored, holds.2⟩, (Option.some.inj updated).symm⟩
    case isFalse => cases updated
  case h_2 => cases updated

/-- An update of one row, under a condition that lets it advance. -/
theorem effect_of_updateRow {q q' : Queue ID}
    (updated : q.updateRow id time condition set = some q')
    (advances : ∀ row, condition row = true → Advances row (set row))
    (unfinished : ∀ row, (set row).state ≠ .succeeded) : Effect digestOf q q' := by
  obtain ⟨free, -, ⟨row, stored, holds⟩, rfl⟩ := Queue.updateRow_eq_some updated
  refine .update [id] set ?_
  intro j mem
  obtain rfl := List.mem_singleton.mp mem
  refine ⟨free, fun row' stored' => ?_⟩
  obtain rfl := Option.some.inj (stored.symm.trans stored')
  exact ⟨advances row holds, unfinished row⟩

/-- **What a step can do.** -/
theorem step_effect {q q' : Queue ID} {a : Action ID} (step : q.step digestOf a = some q') :
    Effect digestOf q q' := by
  cases a with
  | tick d =>
    obtain rfl := Option.some.inj step
    exact .tick d
  | enqueue id record submittedBy =>
    simp only [Queue.step] at step
    split at step
    case isTrue => cases step
    case isFalse taken =>
      simp only [Bool.or_eq_true, not_or, Bool.not_eq_true, Option.isSome_eq_false_iff,
        Option.isNone_iff_eq_none] at taken
      obtain rfl := Option.some.inj step
      exact .insert id _ taken.1.1 rfl rfl taken.2
  | failExhausted =>
    obtain rfl := Option.some.inj step
    refine .update _ _ (sound_of_candidates (List.take_subset _ _) ?_ ?_)
    · exact fun row exhausted => ImportRow.advances_failExhausted exhausted
    · exact fun row => by simp [ImportRow.failExhausted]
  | claim worker =>
    simp only [Queue.step] at step
    split at step
    case h_1 => cases step
    case h_2 id rest candidates =>
      obtain rfl := Option.some.inj step
      have sub : [id] ⊆ q.candidates (·.claimable q.table.now) := by
        rw [candidates]
        exact List.cons_subset_cons id (List.nil_subset rest)
      refine .update _ _ (sound_of_candidates sub ?_ ?_)
      · exact fun row claimable => ImportRow.advances_claim worker claimable
      · exact fun row => by simp [ImportRow.claim]
  | check claim time =>
    simp only [Queue.step] at step
    split at step
    case h_1 row free stored =>
      split at step
      · obtain rfl := Option.some.inj step
        exact .lock claim.id _ free (.inr ⟨claim, rfl, rfl⟩)
      · cases step
    case h_2 => cases step
  | finalize id findings asset =>
    simp only [Queue.step] at step
    split at step
    case h_1 claim lock row held stored =>
      split at step
      case isTrue active =>
        obtain rfl := Option.some.inj step
        exact .finalize id claim row findings asset lock held stored active
      case isFalse => cases step
    case h_2 => cases step
  | commit id =>
    simp only [Queue.step] at step
    split at step
    case h_1 claim imp time lock held =>
      obtain rfl := Option.some.inj step
      exact .commit id claim imp time lock held
    case h_2 => cases step
  | rollback id =>
    simp only [Queue.step] at step
    split at step
    · obtain rfl := Option.some.inj step
      exact .abort _
    · cases step
  | lockOther id =>
    simp only [Queue.step] at step
    split at step
    case h_1 free =>
      obtain rfl := Option.some.inj step
      exact .lock id .other free (.inl rfl)
    case h_2 => cases step
  | fail claim failure time =>
    refine effect_of_updateRow digestOf step (fun row active => ?_) (fun row => ?_)
    · exact ImportRow.advances_fail (ImportRow.heldBy_of_active active) failure
    · simp only [ImportRow.fail]
      split_ifs <;> simp
  | release claim =>
    exact effect_of_updateRow digestOf step (fun row held => ImportRow.advances_release held)
      (fun row => by simp [ImportRow.release])
  | failRevoked claim =>
    exact effect_of_updateRow digestOf step
      (fun row held => ImportRow.advances_failRevoked held)
      (fun row => by simp [ImportRow.failRevoked])
  | revoke id =>
    refine effect_of_updateRow digestOf step (fun row open_ => ImportRow.advances_revoke ?_)
      (fun row => by simp [ImportRow.revoke, ImportRow.failRevoked])
    simpa using open_

/-! ## The invariant -/

/-- The version that a `reconcile` transaction has written for a row: the success of
the import it carries, under a claim that was active when the final update ran. -/
def StagedBy (id : ID) (owner : Owner ID) (row version : ImportRow) : Prop :=
  ∃ claim imp time, owner = .reconcile claim (some (imp, time)) ∧ claim.id = id ∧
    row.active claim time = true ∧ imp.record = row.record ∧
    version = row.succeed imp.findings.length

/-- The committed transactions against the rows: each succeeded row has its one commit,
and the finding tables are the reconciliation of the committed imports. -/
structure Ledger (rows : ID → Option ImportRow) (ids : List ID) (committed : List (Commit ID))
    (store : Reconcile.Store) : Prop where
  known : ∀ id row, rows id = some row → id ∈ ids
  runs : ∀ a b rowA rowB, rows a = some rowA → rows b = some rowB →
    rowA.record.runID = rowB.record.runID → a = b
  commits : ∀ c ∈ committed, ∃ row, rows c.claim.id = some row ∧ row.state = .succeeded ∧
    row.record = c.imp.record
  succeeded : ∀ id row, rows id = some row → row.state = .succeeded →
    ∃ c ∈ committed, c.claim.id = id
  once : (committed.map (·.claim.id)).Nodup
  attempts : ∀ id row, rows id = some row → row.attempts ≤ importAttempts
  store : store = Reconcile.reconcileAll digestOf .empty (committed.map (·.imp))

structure Inv (q : Queue ID) : Prop where
  staged : q.table.Staged StagedBy
  owners : ∀ id claim result version,
    q.table.locks id = some ⟨.reconcile claim result, version⟩ →
      claim.id = id ∧ (result.isSome → version.isSome)
  clock : ∀ id claim imp time version,
    q.table.locks id = some ⟨.reconcile claim (some (imp, time)), version⟩ → time ≤ q.table.now
  ledger : Ledger digestOf q.table.rows q.ids q.committed q.store

omit [LinearOrder ID] in
theorem inv_empty (now : Time) : Inv digestOf (Queue.empty now : Queue ID) where
  staged := fun _ _ _ locked => by cases locked
  owners := fun _ _ _ _ locked => by cases locked
  clock := fun _ _ _ _ _ locked => by cases locked
  ledger :=
    { known := fun _ _ stored => by cases stored
      runs := fun _ _ _ _ stored => by cases stored
      commits := fun _ mem => absurd mem List.not_mem_nil
      succeeded := fun _ _ stored => by cases stored
      once := List.nodup_nil
      attempts := fun _ _ stored => by cases stored
      store := rfl }

variable {digestOf} {q q' : Queue ID}

/-- A new import of a new run. -/
theorem Ledger.insert (ledger : Ledger digestOf q.table.rows q.ids q.committed q.store)
    (fresh : q.table.rows id = none) (queued : row.state = .queued) (attempts : row.attempts = 0)
    (run : q.runTaken row.record.runID = false) :
    Ledger digestOf (Function.update q.table.rows id (some row)) (q.ids ++ [id]) q.committed
      q.store := by
  have newRun : ∀ j other, q.table.rows j = some other →
      other.record.runID ≠ row.record.runID := by
    intro j other stored same
    have taken : q.runTaken row.record.runID = true :=
      List.any_eq_true.mpr ⟨j, ledger.known j other stored, by simp [stored, same]⟩
    rw [run] at taken
    cases taken
  have cases_ : ∀ j other, Function.update q.table.rows id (some row) j = some other →
      j = id ∧ other = row ∨ q.table.rows j = some other := by
    intro j other stored
    by_cases same : j = id
    · subst same
      rw [Function.update_self] at stored
      exact .inl ⟨rfl, (Option.some.inj stored).symm⟩
    · rw [Function.update_of_ne same] at stored
      exact .inr stored
  refine ⟨?_, ?_, ?_, ?_, ledger.once, ?_, ledger.store⟩
  · intro j other stored
    rcases cases_ j other stored with ⟨rfl, -⟩ | old
    · simp
    · exact List.mem_append_left _ (ledger.known j other old)
  · intro a b rowA rowB storedA storedB same
    rcases cases_ a rowA storedA with ⟨rfl, rfl⟩ | oldA <;>
      rcases cases_ b rowB storedB with ⟨rfl, rfl⟩ | oldB
    · rfl
    · exact absurd same.symm (newRun b rowB oldB)
    · exact absurd same (newRun a rowA oldA)
    · exact ledger.runs a b rowA rowB oldA oldB same
  · intro c mem
    obtain ⟨other, stored, succeeded, record⟩ := ledger.commits c mem
    have ne : c.claim.id ≠ id := by
      rintro rfl
      rw [fresh] at stored
      cases stored
    exact ⟨other, by rw [Function.update_of_ne ne, stored], succeeded, record⟩
  · intro j other stored succeeded
    rcases cases_ j other stored with ⟨-, rfl⟩ | old
    · rw [queued] at succeeded
      cases succeeded
    · exact ledger.succeeded j other old succeeded
  · intro j other stored
    rcases cases_ j other stored with ⟨-, rfl⟩ | old
    · rw [attempts]
      exact Nat.zero_le _
    · exact ledger.attempts j other old

omit [LinearOrder ID] in
/-- Rows that advance without succeeding keep the ledger, and so does one that succeeds
together with its commit. -/
theorem Ledger.advance {rows rows' : ID → Option ImportRow} {ids : List ID}
    {committed : List (Commit ID)} {s : Reconcile.Store}
    (ledger : Ledger digestOf rows ids committed s) (added : List (Commit ID))
    (forward : ∀ id row, rows id = some row →
      ∃ row', rows' id = some row' ∧ (row' = row ∨ Advances row row'))
    (backward : ∀ id row', rows' id = some row' → ∃ row, rows id = some row ∧
      (row' = row ∨ Advances row row' ∧
        (row'.state = .succeeded → ∃ c ∈ added, c.claim.id = id)))
    (new : ∀ c ∈ added, ∃ row row', rows c.claim.id = some row ∧ rows' c.claim.id = some row' ∧
      row.state = .processing ∧ row'.state = .succeeded ∧ row'.record = c.imp.record)
    (single : added.length ≤ 1) :
    Ledger digestOf rows' ids (committed ++ added)
      (added.foldl (fun s c => Reconcile.reconcile digestOf s c.imp) s) := by
  have record : ∀ id row', rows' id = some row' → ∃ row, rows id = some row ∧
      row'.record = row.record := by
    intro id row' stored
    obtain ⟨row, before, rfl | ⟨advances, -⟩⟩ := backward id row' stored
    · exact ⟨row', before, rfl⟩
    · exact ⟨row, before, advances.record⟩
  refine ⟨?_, ?_, ?_, ?_, ?_, ?_, ?_⟩
  · intro id row' stored
    obtain ⟨row, before, -⟩ := record id row' stored
    exact ledger.known id row before
  · intro a b rowA rowB storedA storedB same
    obtain ⟨oldA, beforeA, recordA⟩ := record a rowA storedA
    obtain ⟨oldB, beforeB, recordB⟩ := record b rowB storedB
    exact ledger.runs a b oldA oldB beforeA beforeB (by rw [← recordA, ← recordB, same])
  · intro c mem
    rcases List.mem_append.mp mem with old | added_
    · obtain ⟨row, before, succeeded, same⟩ := ledger.commits c old
      obtain ⟨row', stored, rfl | advances⟩ := forward _ row before
      · exact ⟨row', stored, succeeded, same⟩
      · exact absurd (by simp [ImportRow.work, succeeded, ImportState.phase]) advances.pending
    · obtain ⟨-, row', -, stored, -, succeeded, same⟩ := new c added_
      exact ⟨row', stored, succeeded, same⟩
  · intro id row' stored succeeded
    obtain ⟨row, before, rfl | ⟨-, committed_⟩⟩ := backward id row' stored
    · obtain ⟨c, mem, same⟩ := ledger.succeeded id row' before succeeded
      exact ⟨c, List.mem_append_left _ mem, same⟩
    · obtain ⟨c, mem, same⟩ := committed_ succeeded
      exact ⟨c, List.mem_append_right _ mem, same⟩
  · rw [List.map_append, List.nodup_append]
    refine ⟨ledger.once, ?_, ?_⟩
    · rcases added with _ | ⟨c, _ | ⟨d, rest⟩⟩
      · exact List.nodup_nil
      · exact List.nodup_singleton _
      · simp at single
    · intro a ha b hb same
      obtain ⟨c, memc, rfl⟩ := List.mem_map.mp ha
      obtain ⟨d, memd, rfl⟩ := List.mem_map.mp hb
      obtain ⟨row, before, succeeded, -⟩ := ledger.commits c memc
      obtain ⟨row₂, -, before₂, -, processing, -⟩ := new d memd
      rw [same, before₂, Option.some.injEq] at before
      rw [← before, processing] at succeeded
      cases succeeded
  · intro id row' stored
    obtain ⟨row, before, rfl | ⟨advances, -⟩⟩ := backward id row' stored
    · exact ledger.attempts id row' before
    · exact advances.lease.attempts_le (ledger.attempts id row before)
  · rw [ledger.store, List.map_append, Reconcile.reconcileAll, Reconcile.reconcileAll,
      List.foldl_append, List.foldl_map, List.foldl_map]

/-- A transaction that is about to commit: the row of its claim is still as it was when the
final update ran, its version is the success of that row, and no other row is its own. -/
theorem Inv.committing (inv : Inv digestOf q) {claim : Claim ID} {imp : Import}
    {lock : Option ImportRow}
    (held : q.table.locks id = some ⟨.reconcile claim (some (imp, time)), lock⟩) :
    claim.id = id ∧ ∃ row, q.table.rows id = some row ∧ row.active claim time = true ∧
      imp.record = row.record ∧
      (q.table.commit (.reconcile claim (some (imp, time)))).rows =
        Function.update q.table.rows id (some (row.succeed imp.findings.length)) := by
  obtain ⟨same, written⟩ := inv.owners id claim _ lock held
  obtain ⟨version, rfl⟩ := Option.isSome_iff_exists.mp (written rfl)
  obtain ⟨row, stored, _, _, _, owner, -, active, record, rfl⟩ := inv.staged id _ version held
  cases owner
  refine ⟨same, row, stored, active, record, ?_⟩
  funext j
  rw [Table.rows_commit]
  by_cases here : j = id
  · subst here
    simp [Table.visible, held]
  · rw [Function.update_of_ne here]
    unfold Table.visible
    split
    case h_1 owner version locked =>
      rw [if_neg]
      rintro rfl
      exact here ((inv.owners j claim _ _ locked).1.symm.trans same)
    case h_2 => rfl

theorem Inv.moves (inv : Inv digestOf q) (effect : Effect digestOf q q') :
    Table.Moves (fun _ => Advances) q.table q'.table := by
  cases effect with
  | tick d => exact .of_rows_eq rfl
  | insert id row fresh => exact Table.moves_insert row fresh
  | update selected set sound =>
    exact Table.moves_update fun id mem row stored => ((sound id mem).2 row stored).1
  | lock id owner => exact .of_rows_eq rfl
  | finalize id claim row findings asset => exact .of_rows_eq rfl
  | commit id claim imp time lock held =>
    obtain ⟨-, row, stored, active, -, rows⟩ := inv.committing held
    intro j row' stored'
    rw [rows]
    by_cases here : j = id
    · subst here
      obtain rfl := Option.some.inj (stored.symm.trans stored')
      exact ⟨_, Function.update_self .., .single (ImportRow.advances_succeed
        (ImportRow.heldBy_of_active active) _)⟩
    · exact ⟨row', by rw [Function.update_of_ne here, stored'], .refl⟩
  | abort owner => exact .of_rows_eq rfl

/-- A commit writes the ledger together with the row. -/
theorem Inv.ledger_commit (inv : Inv digestOf q) {claim : Claim ID} {imp : Import}
    {lock : Option ImportRow}
    (held : q.table.locks id = some ⟨.reconcile claim (some (imp, time)), lock⟩) :
    Ledger digestOf (q.table.commit (.reconcile claim (some (imp, time)))).rows q.ids
      (q.committed ++ [⟨claim, imp, time⟩]) (Reconcile.reconcile digestOf q.store imp) := by
  obtain ⟨same, row, stored, active, record, rows⟩ := inv.committing held
  have held' := ImportRow.heldBy_of_active active
  rw [rows]
  refine inv.ledger.advance [⟨claim, imp, time⟩] ?_ ?_ ?_ le_rfl
  · intro j row' stored'
    by_cases here : j = id
    · subst here
      obtain rfl := Option.some.inj (stored.symm.trans stored')
      exact ⟨_, Function.update_self .., .inr (ImportRow.advances_succeed held' _)⟩
    · exact ⟨row', by rw [Function.update_of_ne here, stored'], .inl rfl⟩
  · intro j row' stored'
    by_cases here : j = id
    · subst here
      rw [Function.update_self, Option.some.injEq] at stored'
      subst stored'
      exact ⟨row, stored, .inr ⟨ImportRow.advances_succeed held' _,
        fun _ => ⟨_, List.mem_singleton_self _, same⟩⟩⟩
    · rw [Function.update_of_ne here] at stored'
      exact ⟨row', stored', .inl rfl⟩
  · intro c mem
    obtain rfl := List.mem_singleton.mp mem
    refine ⟨row, row.succeed imp.findings.length, ?_, ?_, ImportRow.state_of_heldBy held', rfl,
      record.symm⟩
    · rw [same, stored]
    · rw [same, Function.update_self]

/-- **The invariant is kept.** -/
theorem Inv.effect (inv : Inv digestOf q) (effect : Effect digestOf q q') : Inv digestOf q' := by
  cases effect with
  | tick d =>
    refine ⟨inv.staged.tick d, inv.owners, ?_, inv.ledger⟩
    intro id claim imp time version locked
    exact (inv.clock id claim imp time version locked).trans (by simp [Table.tick])
  | insert id row fresh queued attempts run =>
    exact ⟨inv.staged.insert row fresh, inv.owners, inv.clock,
      inv.ledger.insert fresh queued attempts run⟩
  | update selected set sound =>
    have free : ∀ id ∈ selected, q.table.locks id = none := fun id mem => (sound id mem).1
    refine ⟨inv.staged.update set free, inv.owners, inv.clock, ?_⟩
    have moves : Table.Moves (fun _ row row' => Advances row row' ∧ row'.state ≠ .succeeded)
        q.table (q.table.update selected set) :=
      Table.moves_update fun id mem row stored => (sound id mem).2 row stored
    rw [← List.append_nil q.committed]
    refine inv.ledger.advance [] ?_ ?_ (by simp) (by simp)
    · intro id row stored
      obtain ⟨row', stored', related⟩ := moves id row stored
      rcases related with _ | ⟨advances, -⟩
      · exact ⟨row, stored', .inl rfl⟩
      · exact ⟨row', stored', .inr advances⟩
    · intro id row' stored
      obtain ⟨row, before, related⟩ :=
        moves.backward (fun k => Table.rows_update_none selected set) stored
      rcases related with _ | ⟨advances, unfinished⟩
      · exact ⟨row', before, .inl rfl⟩
      · exact ⟨row, before, .inr ⟨advances, fun done => absurd done unfinished⟩⟩
  | lock id owner free unfinished =>
    have cases_ : ∀ j claim result version,
        (q.table.lock owner id).locks j = some ⟨.reconcile claim result, version⟩ →
        (claim.id = j ∧ result = none) ∨
          q.table.locks j = some ⟨.reconcile claim result, version⟩ := by
      intro j claim result version locked
      by_cases here : j = id
      · subst here
        rw [Table.locks_lock, Function.update_self, Option.some.injEq, Lock.mk.injEq] at locked
        obtain ⟨rfl, -⟩ := locked
        rcases unfinished with impossible | ⟨claim', owner, same⟩
        · cases impossible
        · cases owner
          exact .inl ⟨same, rfl⟩
      · rw [Table.locks_lock, Function.update_of_ne here] at locked
        exact .inr locked
    refine ⟨inv.staged.lock owner id, ?_, ?_, inv.ledger⟩
    · intro j claim result version locked
      rcases cases_ j claim result version locked with ⟨same, rfl⟩ | old
      · exact ⟨same, by simp⟩
      · exact inv.owners j claim result version old
    · intro j claim imp time version locked
      rcases cases_ j claim _ version locked with ⟨-, impossible⟩ | old
      · cases impossible
      · exact inv.clock j claim imp time version old
  | finalize id claim row findings asset lock held stored active =>
    obtain ⟨same, -⟩ := inv.owners id claim none lock held
    refine ⟨inv.staged.stage _ stored ⟨claim, _, _, rfl, same, active, rfl, rfl⟩, ?_, ?_,
      inv.ledger⟩
    · intro j claim' result version locked
      by_cases here : j = id
      · subst here
        rw [Table.locks_stage, Function.update_self, Option.some.injEq, Lock.mk.injEq] at locked
        obtain ⟨owner, rfl⟩ := locked
        cases owner
        exact ⟨same, by simp⟩
      · rw [Table.locks_stage, Function.update_of_ne here] at locked
        exact inv.owners j claim' result version locked
    · intro j claim' imp time version locked
      by_cases here : j = id
      · subst here
        rw [Table.locks_stage, Function.update_self, Option.some.injEq, Lock.mk.injEq] at locked
        cases locked.1
        exact le_rfl
      · rw [Table.locks_stage, Function.update_of_ne here] at locked
        exact inv.clock j claim' imp time version locked
  | commit id claim imp time lock held =>
    refine ⟨inv.staged.commit _, ?_, ?_, inv.ledger_commit held⟩
    · exact fun j claim' result version locked =>
        inv.owners j claim' result version (Table.locks_commit locked).1
    · exact fun j claim' imp' time' version locked =>
        inv.clock j claim' imp' time' version (Table.locks_commit locked).1
  | abort owner =>
    refine ⟨inv.staged.abort owner, ?_, ?_, inv.ledger⟩
    · exact fun j claim result version locked =>
        inv.owners j claim result version (Option.filter_eq_some_iff.mp locked).1
    · exact fun j claim imp time version locked =>
        inv.clock j claim imp time version (Option.filter_eq_some_iff.mp locked).1

theorem Queue.Reachable.inv (reachable : Queue.Reachable digestOf q) : Inv digestOf q := by
  refine Machine.Reachable.invariant ?_ ?_ reachable
  · rintro _ ⟨now, rfl⟩
    exact inv_empty digestOf now
  · exact fun s a s' inv step => inv.effect (step_effect digestOf step)

/-! ## The consequences -/

omit [LinearOrder ID] in
/-- Distinct imports have distinct runs, so no run is committed twice. -/
theorem Ledger.runs_nodup {rows : ID → Option ImportRow} {ids : List ID}
    {committed : List (Commit ID)} {s : Reconcile.Store}
    (ledger : Ledger digestOf rows ids committed s) :
    (committed.map (·.imp.record.runID)).Nodup := by
  refine (List.nodup_map_iff_inj_on (List.Nodup.of_map _ ledger.once)).mpr ?_
  intro c memc d memd same
  obtain ⟨rowC, storedC, -, recordC⟩ := ledger.commits c memc
  obtain ⟨rowD, storedD, -, recordD⟩ := ledger.commits d memd
  refine List.inj_on_of_nodup_map ledger.once memc memd ?_
  exact ledger.runs _ _ rowC rowD storedC storedD (by rw [recordC, recordD, same])

/-- Terminal rows never change again. -/
theorem Inv.rows_of_terminal (inv : Inv digestOf q) (effect : Effect digestOf q q')
    (stored : q.table.rows id = some row)
    (terminal : row.state = .succeeded ∨ row.state = .failed) : q'.table.rows id = some row := by
  refine (inv.moves effect).frozen stored fun row' advances => advances.pending ?_
  rcases terminal with state | state <;> simp [ImportRow.work, state, ImportState.phase]

/-- A commit that a step adds was made by the transaction that held the row, under a claim
that its row still carries, and turns the row to success. -/
theorem Inv.commit_of_new (inv : Inv digestOf q) (effect : Effect digestOf q q') {c : Commit ID}
    (mem : c ∈ q'.committed) (new : c ∉ q.committed) :
    ∃ row, q.table.rows c.claim.id = some row ∧ row.active c.claim c.time = true ∧
      c.time ≤ q.table.now ∧ c.imp.record = row.record ∧
      q'.table.rows c.claim.id = some (row.succeed c.imp.findings.length) := by
  cases effect with
  | commit id claim imp time lock held =>
    obtain ⟨same, row, stored, active, record, rows⟩ := inv.committing held
    obtain rfl : c = ⟨claim, imp, time⟩ := by simpa [new] using mem
    exact ⟨row, same ▸ stored, active, inv.clock id claim imp time lock held, record,
      by rw [rows, same, Function.update_self]⟩
  | _ => exact absurd mem new

/-- A claim takes the next fence and the next attempt. -/
theorem claim_takes_fence {worker : WorkerID} (step : q.step digestOf (.claim worker) = some q') :
    ∃ id row, q.table.rows id = some row ∧
      q'.table.rows id = some (row.claim worker q.table.now) := by
  simp only [Queue.step] at step
  split at step
  case h_1 => cases step
  case h_2 id rest candidates =>
    have mem : id ∈ q.candidates (·.claimable q.table.now) := by
      rw [candidates]
      exact List.mem_cons_self
    obtain ⟨-, -, row, stored, -⟩ := Queue.mem_candidates.mp mem
    obtain rfl := Option.some.inj step
    refine ⟨id, row, stored, ?_⟩
    rw [Table.rows_update, if_pos (List.mem_singleton_self id), stored, Option.map_some]

/-- An exhausted row that no lock keeps and that the limit leaves room for is failed. -/
theorem Inv.exhausted_fails (inv : Inv digestOf q) (stored : q.table.rows id = some row)
    (exhausted : row.exhausted q.table.now = true) (free : q.table.locks id = none)
    (room : (q.exhausted.filter (· ≠ id)).length < 100) :
    (q.table.update q.exhausted ImportRow.failExhausted).rows id = some row.failExhausted := by
  have candidate : id ∈ q.candidates (·.exhausted q.table.now) :=
    Queue.mem_candidates.mpr ⟨inv.ledger.known id row stored, free, row, stored, exhausted⟩
  have selected : id ∈ q.exhausted := by
    by_contra missed
    have others : q.exhausted.filter (· ≠ id) = q.exhausted :=
      List.filter_eq_self.mpr fun j mem => by
        simpa using fun same : j = id => missed (same ▸ mem)
    rw [others, Queue.exhausted, List.length_take] at room
    -- a list of fewer than a hundred candidates is taken whole
    have short : (q.candidates (·.exhausted q.table.now)).length ≤ 100 := by omega
    rw [Queue.exhausted, List.take_of_length_le short] at missed
    exact missed candidate
  rw [Table.rows_update, if_pos selected, stored, Option.map_some]

/-- **Imports are processed exactly once.**  In every reachable state of the queue:

* no import and no run has two committed transactions, an import has succeeded exactly
  when it has one, and the finding tables hold what these transactions wrote;
* attempts stay within the limit;
* a step that commits a transaction turns the row to success, the transaction carries the
  worker and the fence of the row, and the lease was unexpired at the final update;
* a claim raises fence and attempts by one, and no step lowers a fence;
* the first statement of `claimImport` fails every exhausted row that is not locked and
  not beyond its limit of a hundred rows;
* along every run from here, succeeded and failed rows stay as they are. -/
theorem imports_exactly_once (reachable : Queue.Reachable digestOf q) :
    (q.committed.map (·.claim.id)).Nodup ∧ (q.committed.map (·.imp.record.runID)).Nodup ∧
    (∀ id, (∃ row, q.table.rows id = some row ∧ row.state = .succeeded) ↔
      ∃ c ∈ q.committed, c.claim.id = id) ∧
    q.store = Reconcile.reconcileAll digestOf .empty (q.committed.map (·.imp)) ∧
    (∀ id row, q.table.rows id = some row → row.attempts ≤ 3) ∧
    (∀ a q', q.step digestOf a = some q' →
      (∀ c ∈ q'.committed, c ∉ q.committed →
        ∃ row, q.table.rows c.claim.id = some row ∧ row.active c.claim c.time = true ∧
          c.time ≤ q.table.now ∧ c.imp.record = row.record ∧
          q'.table.rows c.claim.id = some (row.succeed c.imp.findings.length)) ∧
      (∀ worker, a = .claim worker → ∃ id row row', q.table.rows id = some row ∧
        q'.table.rows id = some row' ∧ row'.fence = row.fence + 1 ∧
        row'.attempts = row.attempts + 1) ∧
      (∀ id row, q.table.rows id = some row →
        ∃ row', q'.table.rows id = some row' ∧ row.fence ≤ row'.fence) ∧
      (a = .failExhausted → ∀ id row, q.table.rows id = some row →
        row.exhausted q.table.now = true → q.table.locks id = none →
        (q.exhausted.filter (· ≠ id)).length < 100 →
        ∃ row', q'.table.rows id = some row' ∧ row'.state = .failed)) ∧
    (∀ actions q', Machine.run (Queue.step digestOf) q actions = some q' →
      ∀ id row, q.table.rows id = some row → row.state = .succeeded ∨ row.state = .failed →
        q'.table.rows id = some row) := by
  have inv := reachable.inv
  refine ⟨inv.ledger.once, inv.ledger.runs_nodup, ?_, inv.ledger.store, inv.ledger.attempts,
    ?_, ?_⟩
  · intro id
    constructor
    · rintro ⟨row, stored, succeeded⟩
      exact inv.ledger.succeeded id row stored succeeded
    · rintro ⟨c, mem, rfl⟩
      obtain ⟨row, stored, succeeded, -⟩ := inv.ledger.commits c mem
      exact ⟨row, stored, succeeded⟩
  · intro a q' step
    have effect := step_effect digestOf step
    refine ⟨fun c mem new => inv.commit_of_new effect mem new, ?_, ?_, ?_⟩
    · rintro worker rfl
      obtain ⟨id, row, stored, claimed⟩ := claim_takes_fence step
      exact ⟨id, row, _, stored, claimed, rfl, rfl⟩
    · intro id row stored
      obtain ⟨row', stored', related⟩ := inv.moves effect id row stored
      rcases related with _ | advances
      · exact ⟨row, stored', le_rfl⟩
      · exact ⟨row', stored', advances.lease.fence_le⟩
    · rintro rfl id row stored exhausted free room
      obtain rfl := Option.some.inj step
      exact ⟨_, inv.exhausted_fails stored exhausted free room, rfl⟩
  · intro actions q' runs id row stored terminal
    refine (Machine.run_invariant (P := fun s => Inv digestOf s ∧ s.table.rows id = some row)
      ?_ ⟨inv, stored⟩ runs).2
    rintro s a s' ⟨inv, stored⟩ step
    have effect := step_effect digestOf step
    exact ⟨inv.effect effect, inv.rows_of_terminal effect stored terminal⟩

end Steps

/-- The first worker lets its lease pass, the second one takes the import over and commits;
what the first one still tries does nothing. -/
def takeover : List (Action ℕ) :=
  let imp := Reconcile.Sample.scan "run" .succeeded .full 0 ["title"]
  [.enqueue 1 imp.record none, .claim "first", .tick 90000000, .claim "second",
    .check ⟨1, "second", 2⟩ 90000000, .finalize 1 imp.findings imp.asset, .commit 1]

theorem imports_exactly_once_takeover :
    ∃ q, Machine.run (Queue.step (·.title)) (Queue.empty 0) takeover = some q ∧
      q.committed.map (·.claim) = [⟨1, "second", 2⟩] ∧
      q.step (·.title) (.check ⟨1, "first", 1⟩ 90000000) = none ∧
      (q.committed.map (·.imp.record.runID)).Nodup ∧
      ∀ actions q', Machine.run (Queue.step (·.title)) q actions = some q' →
        q'.table.rows 1 = q.table.rows 1 := by
  refine ⟨_, rfl, rfl, rfl, ?_⟩
  obtain ⟨-, runs, -, -, -, -, terminal⟩ :=
    imports_exactly_once (show Queue.Reachable (·.title) _ from ⟨_, takeover, ⟨0, rfl⟩, rfl⟩)
  exact ⟨runs, fun actions q' ran => terminal actions q' ran 1 _ rfl (.inl rfl)⟩

end Aspm.Imports
