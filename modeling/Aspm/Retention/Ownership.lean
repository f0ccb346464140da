import Aspm.Retention.Store

/-!
# Who owns a run

Fences only grow, and a run has one owner at most.  So a worker that has lost its run never owns
it again: after any step a party owns its run only if it did before, or has just claimed it and
stands at the start of an item.  And the tasks of a run are what they were when it was queued.
-/

namespace Aspm.Retention

open Reconcile (Time)

namespace Run

variable {Task : Type} {run run' : Run Task} {now : Time} {worker : WorkerID}
  {fence index lease : ℕ}

def tasks (run : Run Task) : List Task :=
  run.items.map (·.task)

theorem tasks_queue (tasks : List Task) (now : Time) : (queue tasks now).tasks = tasks := by
  unfold Run.tasks queue
  rw [List.map_map]
  exact List.map_id tasks

/-- Nobody owns the run any more. -/
structure Freed (run run' : Run Task) : Prop where
  tasks : run'.tasks = run.tasks
  fence : run'.fence = run.fence
  free : ∀ worker fence, run'.ownedBy worker fence = false

theorem Freed.after {given : Run Task}
    (same : given.tasks = run.tasks ∧ given.fence = run.fence) (freed : Freed given run') :
    Freed run run' :=
  ⟨freed.tasks.trans same.1, freed.fence.trans same.2, freed.free⟩

variable {set : Item Task → Item Task}

theorem tasks_modify (same : ∀ item, (set item).task = item.task) (items : List (Item Task))
    (i : ℕ) : (items.modify i set).map (·.task) = items.map (·.task) := by
  refine List.ext_getElem? fun j => ?_
  rw [List.getElem?_map, List.getElem?_map, List.getElem?_modify]
  cases items[j]? with
  | none => rfl
  | some item =>
    by_cases here : i = j
    · simp [here, same]
    · simp [here]

theorem updateProcessing_same (same : ∀ item, (set item).task = item.task)
    (updated : run.updateProcessing index set = some run') :
    run'.tasks = run.tasks ∧ run'.fence = run.fence := by
  obtain ⟨-, result⟩ := Option.ite_none_right_eq_some.mp updated
  obtain rfl := Option.some.inj result
  exact ⟨tasks_modify same _ _, rfl⟩

theorem getD_updateProcessing_same (same : ∀ item, (set item).task = item.task) :
    ((run.updateProcessing index set).getD run).tasks = run.tasks ∧
      ((run.updateProcessing index set).getD run).fence = run.fence := by
  cases updated : run.updateProcessing index set with
  | none => exact ⟨rfl, rfl⟩
  | some run' => exact updateProcessing_same same updated

theorem ownedBy_eq_false (idle : ∀ owner until_, run.state ≠ .processing owner until_) :
    run.ownedBy worker fence = false := by
  refine Bool.eq_false_of_not_eq_true fun owned => ?_
  obtain ⟨leaseUntil, state, -⟩ := ownedBy_iff.mp owned
  exact idle _ _ state

theorem finalize_freed (done : run.finalize worker fence = some run') : Freed run run' := by
  obtain ⟨-, result⟩ := Option.ite_none_right_eq_some.mp done
  obtain rfl := Option.some.inj result
  refine ⟨rfl, rfl, fun _ _ => ownedBy_eq_false fun owner until_ => ?_⟩
  dsimp only
  split <;> nofun

theorem advance_freed (done : run.advance now worker fence = some run') : Freed run run' := by
  unfold advance at done
  split at done
  · obtain ⟨-, result⟩ := Option.ite_none_right_eq_some.mp done
    obtain rfl := Option.some.inj result
    exact ⟨rfl, rfl, fun _ _ => rfl⟩
  · exact finalize_freed done

theorem finish_freed {outcome : Outcome}
    (done : run.finish now worker fence index outcome = some run') : Freed run run' := by
  obtain ⟨-, done⟩ := Option.ite_none_right_eq_some.mp done
  obtain ⟨updated, set, done⟩ := Option.bind_eq_some_iff.mp done
  exact (advance_freed done).after (updateProcessing_same (by intro; rfl) set)

theorem retry_freed {attempts : ℕ}
    (done : run.retry now worker fence index attempts = some run') : Freed run run' := by
  obtain ⟨-, done⟩ := Option.ite_none_right_eq_some.mp done
  split at done
  · refine (advance_freed done).after (getD_updateProcessing_same ?_)
    intro
    rfl
  · obtain rfl := Option.some.inj done
    refine ⟨(getD_updateProcessing_same ?_).1, (getD_updateProcessing_same ?_).2, fun _ _ => rfl⟩
    all_goals
      intro
      rfl

theorem renew_ownedBy {worker' : WorkerID} {fence' : ℕ}
    (renewed : run.renew now worker fence lease = some run')
    (owned : run'.ownedBy worker' fence' = true) : run.ownedBy worker' fence' = true := by
  obtain ⟨active, result⟩ := Option.ite_none_right_eq_some.mp renewed
  obtain rfl := Option.some.inj result
  obtain ⟨leaseUntil, state, -⟩ := ownedBy_iff.mp (ownedBy_of_active active)
  obtain ⟨_, same, fence⟩ := ownedBy_iff.mp owned
  obtain ⟨rfl, -⟩ := RunState.processing.inj same
  exact ownedBy_iff.mpr ⟨leaseUntil, state, fence⟩

theorem renew_same (renewed : run.renew now worker fence lease = some run') :
    run'.tasks = run.tasks ∧ run'.fence = run.fence := by
  obtain ⟨-, result⟩ := Option.ite_none_right_eq_some.mp renewed
  obtain rfl := Option.some.inj result
  exact ⟨rfl, rfl⟩

/-- A claim takes an item under a new fence, or leaves the run to nobody. -/
theorem claim_same {claimed : Claimed}
    (claim : run.claim now worker lease = some (run', claimed)) :
    run'.tasks = run.tasks ∧ run.fence ≤ run'.fence ∧
      ((∃ index, claimed = .item index ∧ run'.fence = run.fence + 1) ∨
        (∀ index, claimed ≠ .item index) ∧ ∀ worker fence, run'.ownedBy worker fence = false) := by
  have given (index : ℕ) (set : Item Task → Item Task)
      (same : ∀ item, (set item).task = item.task) :
      ({ run.seize now worker lease with items := run.items.modify index set }).tasks =
        run.tasks := tasks_modify same _ _
  unfold Run.claim at claim
  split at claim
  · unfold abandon at claim
    split at claim
    · cases claim
      exact ⟨rfl, le_rfl, .inr ⟨fun _ same => (by cases same), fun _ _ => rfl⟩⟩
    · obtain ⟨_, done, result⟩ := Option.map_eq_some_iff.mp claim
      cases result
      have freed := advance_freed done
      refine ⟨freed.tasks.trans (given _ _ fun _ => rfl), ?_, .inr ⟨fun _ same => (by cases same), freed.free⟩⟩
      rw [freed.fence]
      exact Nat.le_succ run.fence
  · obtain ⟨-, claim⟩ := Option.ite_none_right_eq_some.mp claim
    unfold take at claim
    dsimp only at claim
    split at claim
    · obtain ⟨_, done, result⟩ := Option.map_eq_some_iff.mp claim
      cases result
      have freed := finalize_freed done
      refine ⟨freed.tasks, ?_, .inr ⟨fun _ same => (by cases same), freed.free⟩⟩
      rw [freed.fence]
      exact Nat.le_succ run.fence
    · cases claim
      exact ⟨given _ _ fun _ => rfl, Nat.le_succ run.fence, .inl ⟨_, rfl, rfl⟩⟩

end Run

/-! ## A step of a run -/

namespace Ledger

variable {Task : Type} {l l' : Ledger Task} {fence : ℕ}

/-- The claim under this fence is that of the owner. -/
def owns (l : Ledger Task) (fence : ℕ) : Bool :=
  (l.claims fence).any fun c => l.run.ownedBy c.worker fence

theorem owns_eq_false (free : ∀ worker fence, l.run.ownedBy worker fence = false) :
    l.owns fence = false := by
  unfold owns
  cases l.claims fence with
  | none => rfl
  | some c => exact free c.worker fence

theorem owns_iff : l.owns fence = true ↔
    ∃ c, l.claims fence = some c ∧ l.run.ownedBy c.worker fence = true := by
  unfold owns
  rw [Option.any_eq_true]

/-- A worker that lets go of its claim takes nobody's run away, and gives none. -/
theorem release_owns {released : ℕ} {run : Option (Run Task)}
    (freed : ∀ run', run = some run' → Run.Freed l.run run')
    (owned : (l.release released run).owns fence = true) : l.owns fence = true := by
  cases run with
  | some run' =>
    rw [owns_eq_false (freed run' rfl).free] at owned
    cases owned
  | none =>
    obtain ⟨c, held, owner⟩ := owns_iff.mp owned
    by_cases same : fence = released
    · subst same
      change Function.update l.claims fence none fence = some c at held
      rw [Function.update_self] at held
      cases held
    · change Function.update l.claims released none fence = some c at held
      rw [Function.update_of_ne same] at held
      exact owns_iff.mpr ⟨c, held, owner⟩

theorem release_same {released : ℕ} {run : Option (Run Task)}
    (freed : ∀ run', run = some run' → Run.Freed l.run run') :
    (l.release released run).run.tasks = l.run.tasks ∧
      (l.release released run).run.fence = l.run.fence := by
  cases run with
  | some run' => exact ⟨(freed run' rfl).tasks, (freed run' rfl).fence⟩
  | none => exact ⟨rfl, rfl⟩

theorem renew_cases {now : Time} {renewed lease : ℕ}
    (step : l.step (.renew now renewed lease) = some l') :
    ∃ c : Claim, ∃ run', l.claims renewed = some c ∧
      l.run.renew now c.worker renewed lease = some run' ∧ l' = { l with run := run' } := by
  obtain ⟨c, held, step⟩ := Option.bind_eq_some_iff.mp step
  obtain ⟨run', done, rfl⟩ := Option.map_eq_some_iff.mp step
  exact ⟨c, run', held, done, rfl⟩

/-- All steps but a claim only let go of claims. -/
theorem release_cases {a : Action}
    (other : ∀ now worker lease, a ≠ .claim now worker lease) (step : l.step a = some l') :
    (∃ now renewed lease, a = .renew now renewed lease) ∨
      ∃ released run, l' = l.release released run ∧
        ∀ run', run = some run' → Run.Freed l.run run' := by
  cases a with
  | claim now worker lease => exact absurd rfl (other now worker lease)
  | renew now renewed lease => exact .inl ⟨now, renewed, lease, rfl⟩
  | finish now released outcome =>
    obtain ⟨c, -, rfl⟩ := Option.map_eq_some_iff.mp step
    exact .inr ⟨released, _, rfl, fun _ done => Run.finish_freed done⟩
  | retry now released =>
    obtain ⟨c, -, rfl⟩ := Option.map_eq_some_iff.mp step
    exact .inr ⟨released, _, rfl, fun _ done => Run.retry_freed done⟩
  | drop released =>
    obtain ⟨c, -, rfl⟩ := Option.map_eq_some_iff.mp step
    exact .inr ⟨released, _, rfl, nofun⟩

theorem owns_of_step {a : Action} (other : ∀ now worker lease, a ≠ .claim now worker lease)
    (step : l.step a = some l') (owned : l'.owns fence = true) : l.owns fence = true := by
  rcases release_cases other step with ⟨now, renewed, lease, rfl⟩ | ⟨released, run, rfl, freed⟩
  · obtain ⟨c, run', -, done, rfl⟩ := renew_cases step
    obtain ⟨c', held, owner⟩ := owns_iff.mp owned
    exact owns_iff.mpr ⟨c', held, Run.renew_ownedBy done owner⟩
  · exact release_owns freed owned

theorem same_of_step {a : Action} (other : ∀ now worker lease, a ≠ .claim now worker lease)
    (step : l.step a = some l') : l'.run.tasks = l.run.tasks ∧ l'.run.fence = l.run.fence := by
  rcases release_cases other step with ⟨now, renewed, lease, rfl⟩ | ⟨released, run, rfl, freed⟩
  · obtain ⟨c, run', -, done, rfl⟩ := renew_cases step
    exact Run.renew_same done
  · exact release_same freed

end Ledger

/-! ## A step of the store -/

namespace Store

variable {ID Data Digest : Type} {q q' : Store ID Data Digest} {party : Party ID} {run : ID}

theorem owns_iff : q.owns party = true ↔
    ∃ l, q.ledgers party.run = some l ∧ l.owns party.fence = true := by
  unfold owns claimOf
  cases q.ledgers party.run with
  | none => simp
  | some l =>
    simp only [Option.bind_some, Option.some.injEq, exists_eq_left', Ledger.owns, Option.any_map]

theorem owns_congr (same : q'.ledgers = q.ledgers) : q'.owns party = q.owns party := by
  unfold owns claimOf
  rw [same]

theorem owns_of_leasedSince {since : Time} (leased : q.leasedSince party since = true) :
    q.owns party = true := by
  obtain ⟨-, active⟩ := Bool.and_eq_true_iff.mp leased
  obtain ⟨claim, held, active⟩ := (Option.any_eq_true _ _).mp active
  exact (Option.any_eq_true _ _).mpr ⟨claim, held, Run.ownedBy_of_active active⟩

variable [DecidableEq ID]

theorem owns_of_update {l' : Ledger (Task ID Digest)}
    (same : q'.ledgers = Function.update q.ledgers run (some l'))
    (owned : q'.owns party = true) :
    q.owns party = true ∨ party.run = run ∧ l'.owns party.fence = true := by
  obtain ⟨l, stored, owner⟩ := owns_iff.mp owned
  rw [same] at stored
  by_cases here : party.run = run
  · rw [here, Function.update_self] at stored
    obtain rfl := Option.some.inj stored
    exact .inr ⟨here, owner⟩
  · rw [Function.update_of_ne here] at stored
    exact .inl (owns_iff.mpr ⟨l, stored, owner⟩)

theorem stepRun_cases {a : Ledger.Action} (step : q.stepRun run a = some q') :
    ∃ l l', q.ledgers run = some l ∧ l.step a = some l' ∧
      q' = { q with ledgers := Function.update q.ledgers run (some l') } := by
  obtain ⟨l, stored, next⟩ := Option.bind_eq_some_iff.mp step
  obtain ⟨l', moved, rfl⟩ := Option.map_eq_some_iff.mp next
  exact ⟨l, l', stored, moved, rfl⟩

/-- Whoever renews a lease owns the run. -/
theorem owns_of_renew {now : Time} {lease : ℕ}
    (step : q.stepRun party.run (.renew now party.fence lease) = some q') :
    q.owns party = true := by
  obtain ⟨l, l', stored, moved, -⟩ := stepRun_cases step
  obtain ⟨c, run', held, done, -⟩ := Ledger.renew_cases moved
  obtain ⟨active, -⟩ := Option.ite_none_right_eq_some.mp done
  exact owns_iff.mpr ⟨l, stored, Ledger.owns_iff.mpr ⟨c, held, Run.ownedBy_of_active active⟩⟩

end Store

end Aspm.Retention
