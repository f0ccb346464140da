import Aspm.Install.Execute

/-!
# A call and its checkpoint

While a call runs, its checkpoint is the record that it has in memory, up to the units it
wrote since.  So what holds of the one holds of the other, and most facts about a call can be
read off the disk.

The plan id of the checkpoint says what was planned last only for some kinds of change.
`Record.Formed` has what is always true of it.
-/

namespace Aspm.Install

open Json (Text byteLength)

/-! ## The kinds of change -/

/-- When a request comes to which kind of change. -/
inductive Change (record : Record) (r : Request) : ChangeKind → Prop where
  | fresh (operation : r.operation = .apply) (none : record.fingerprint = none) :
      Change record r .initialInstall
  | resumeInstall (operation : r.operation = .apply) (unfinished : record.phase ≠ .applied)
      (kind : record.kind = some .initialInstall) (same : record.bundle = some r.bundle) :
      Change record r .initialInstall
  | resumeUpgrade (operation : r.operation = .apply) (unfinished : record.phase ≠ .applied)
      (kind : record.kind = some .upgrade) (previous : record.previous ≠ none)
      (same : record.bundle = some r.bundle) : Change record r .upgrade
  | again (operation : r.operation = .apply) (same : record.bundle = some r.bundle)
      (otherwise : record.phase = .applied ∨ record.kind ≠ some .initialInstall ∧
        (record.kind ≠ some .upgrade ∨ record.previous = none)) : Change record r .reapply
  | upgrade (operation : r.operation = .apply) (applied : record.phase = .applied)
      (other : record.bundle ≠ some r.bundle) (installed : record.bundle ≠ none) :
      Change record r .upgrade
  | migrate (operation : r.operation = .apply) (installed : record.fingerprint ≠ none)
      (old : record.bundle = none) : Change record r .checkpointMigration
  | back (operation : r.operation = .rollback) (eligible : record.mode = some .activationEligible)
      (offered : record.previous = some (r.bundle, r.config)) : Change record r .rollback
  | remove (operation : r.operation = .uninstall) (installed : record.bundle ≠ none) :
      Change record r .uninstall

section Change

variable {record : Record} {r : Request} {kind : ChangeKind} {current : Option Bundle}

theorem change_of_applyKind (operation : r.operation = .apply)
    (result : applyKind record r = .ok (kind, current)) : Change record r kind := by
  unfold applyKind at result
  split at result
  · next none => cases result; exact .fresh operation none
  · next installed old =>
      split at result
      · cases result
      · cases result
        exact .migrate operation (by simp [installed]) old
  · next found installed release =>
      split at result
      · next same =>
          cases result
          exact .resumeInstall operation same.1 same.2.1 (by rw [release, same.2.2])
      · next notInstall =>
          split at result
          · next same =>
              cases result
              exact .resumeUpgrade operation same.1 same.2.1 same.2.2.1
                (by rw [release, same.2.2.2])
          · next notUpgrade =>
              split at result
              · next same =>
                  cases result
                  subst same
                  refine .again operation release ?_
                  by_cases applied : record.phase = .applied
                  · exact .inl applied
                  · refine .inr ⟨fun kind => notInstall ⟨applied, kind, rfl⟩, ?_⟩
                    by_cases kind : record.kind = some .upgrade
                    · right
                      by_contra previous
                      exact notUpgrade ⟨applied, kind, previous, rfl⟩
                    · exact .inl kind
              · next other =>
                  split at result
                  · cases result
                  · next applied =>
                      cases result
                      exact .upgrade operation (not_not.mp applied)
                        (by simpa [release] using other) (by simp [release])

theorem change_of_changeKind (result : changeKind record r = .ok (kind, current)) :
    Change record r kind := by
  unfold changeKind at result
  split at result
  · next operation =>
      split at result
      · cases result
      · next installed =>
          cases result
          exact .remove operation installed
  · next operation =>
      split at result
      · cases result
      · split at result
        · cases result
        · next offered =>
            cases result
            rw [not_or, not_not, not_not] at offered
            exact .back operation offered.1 offered.2
  · next operation => exact change_of_applyKind operation result

namespace Change

theorem apply_iff (change : Change record r kind) :
    r.operation = .apply ↔ kind ≠ .rollback ∧ kind ≠ .uninstall := by
  cases change <;> simp [*]

theorem rollback_iff (change : Change record r kind) :
    r.operation = .rollback ↔ kind = .rollback := by
  cases change <;> simp [*]

theorem uninstall_iff (change : Change record r kind) :
    r.operation = .uninstall ↔ kind = .uninstall := by
  cases change <;> simp [*]

end Change

end Change

/-! ## The checkpoint -/

namespace Record

/-- What is true of every checkpoint. -/
structure Formed (record : Record) : Prop where
  version : record.version ≠ 1
  bundle : record.fingerprint ≠ none → record.bundle ≠ none
  previous : record.previous ≠ none → record.fingerprint ≠ none
  planned : record.planID ≠ none → record.fingerprint ≠ none
  config : record.bundle ≠ none → record.config ≠ none
  /-- The last plan of an `apply` was about the release that is there. -/
  identified : ∀ id, record.planID = some id → id.plan.operation = .apply →
    record.bundle = some id.plan.bundle ∧
      (record.kind = some .upgrade → record.config = some id.plan.config)

theorem formed_fresh : fresh.Formed where
  version := by decide
  bundle := fun some => absurd rfl some
  previous := fun some => absurd rfl some
  planned := fun some => absurd rfl some
  config := fun some => absurd rfl some
  identified := fun id stored => by cases stored

theorem lineage_eq_some {record : Record} {b : Bundle} {config : Configuration} :
    record.lineage = some (b, config) ↔ record.bundle = some b ∧ record.config = some config := by
  cases bundle : record.bundle <;> cases found : record.config <;> simp [lineage, bundle, found]

theorem Formed.lineage_ne_none {record : Record} (formed : record.Formed)
    (installed : record.bundle ≠ none) : record.lineage ≠ none := by
  obtain ⟨b, bundle⟩ := Option.ne_none_iff_exists'.mp installed
  obtain ⟨config, found⟩ := Option.ne_none_iff_exists'.mp (formed.config installed)
  rw [lineage_eq_some.mpr ⟨bundle, found⟩]
  exact Option.some_ne_none _

end Record

/-! ## A call that was let in -/

/-- What `Execute` has checked before its first checkpoint. -/
structure Entered (host : Host) (d : Disk) (c : Call) : Prop where
  prepared : prepare host d.record c.request = .ok c.prepared
  target : d.record.fingerprint = none ∨ d.record.fingerprint = some c.plan.fingerprint
  uninstall : c.plan.kind ≠ .checkpointMigration → c.request.operation = .uninstall →
    d.record.config = some c.plan.config ∧ d.record.roles = some c.request.roles
  owned : c.plan.kind ≠ .checkpointMigration → c.request.config.kind = .linux →
    validateOwnedUnits d.record d = true
  reapply : c.plan.kind ≠ .checkpointMigration →
    c.reapply = (d.record.phase = .applied && c.plan.kind = .reapply &&
      d.record.bundle = some c.plan.bundle)

section Enter

variable {host : Host} {d : Disk} {r : Request} {approval : Option PlanID} {c : Call}

theorem enter_eq_ok (result : enter host d r approval = .ok c) :
    c.request = r ∧ approval = some c.id ∧ Entered host d c := by
  simp only [enter, Fallible.bind_eq_ok, Fallible.check_eq_ok, exists_const,
    decide_eq_true_eq] at result
  obtain ⟨p, prepared, approved, target, result⟩ := result
  have request : p.request = r := by
    obtain ⟨-, -, -, kind, current, -, id, -, rfl⟩ := prepare_eq_ok.mp prepared
    rfl
  have target : d.record.fingerprint = none ∨ d.record.fingerprint = some p.plan.fingerprint := by
    simpa using target
  subst request
  split at result
  · next migration =>
      cases Fallible.pure_eq_ok.mp result
      exact ⟨rfl, approved, prepared, target, fun regular => absurd migration regular,
        fun regular => absurd migration regular, fun regular => absurd migration regular⟩
  · simp only [Fallible.bind_eq_ok, Fallible.check_eq_ok, exists_const, Fallible.pure_eq_ok]
      at result
    obtain ⟨uninstall, owned, -, rfl⟩ := result
    refine ⟨rfl, approved, prepared, target, fun _ operation => ?_, fun _ linux => ?_, fun _ => rfl⟩
    · have operation : p.request.operation = .uninstall := operation
      simp only [operation, ne_eq, not_true, decide_false, Bool.false_or, Bool.and_eq_true,
        decide_eq_true_eq] at uninstall
      exact ⟨uninstall.1.2, uninstall.2⟩
    · have linux : p.request.config.kind = .linux := linux
      simpa [linux] using owned

end Enter

namespace Entered

variable {host : Host} {d : Disk} {c : Call}

theorem accepts (entered : Entered host d c) : host.Accepts c.request :=
  (prepare_eq_ok.mp entered.prepared).1

theorem plan_eq (entered : Entered host d c) :
    ∃ current, c.plan = makePlan c.request c.plan.kind current := by
  obtain ⟨-, -, -, kind, current, -, id, -, same⟩ := prepare_eq_ok.mp entered.prepared
  refine ⟨current, ?_⟩
  have plan : c.plan = makePlan c.request kind current := congrArg Prepared.plan same.symm
  rw [plan]
  rfl

theorem bundle (entered : Entered host d c) : c.plan.bundle = c.request.bundle := by
  obtain ⟨current, plan⟩ := entered.plan_eq
  rw [plan]
  rfl

theorem config (entered : Entered host d c) : c.plan.config = c.request.config := by
  obtain ⟨current, plan⟩ := entered.plan_eq
  rw [plan]
  rfl

theorem fingerprint (entered : Entered host d c) :
    c.plan.fingerprint = c.request.fingerprint := by
  obtain ⟨current, plan⟩ := entered.plan_eq
  rw [plan]
  rfl

theorem change (entered : Entered host d c) : Change d.record c.request c.plan.kind := by
  obtain ⟨-, -, -, kind, current, result, id, -, same⟩ := prepare_eq_ok.mp entered.prepared
  have plan : c.plan = makePlan c.request kind current := congrArg Prepared.plan same.symm
  rw [plan]
  exact change_of_changeKind result

/-- The id is the one of the checkpoint, or a digest of the request. -/
theorem id_cases (entered : Entered host d c) :
    d.record.planID = some c.id ∧ (keepsReapplied d.record c.request c.plan.kind = true ∨
        keepsUnfinished d.record c.request c.plan.kind = true) ∨
      c.id = boundID c.request c.plan := by
  obtain ⟨-, -, -, kind, current, -, id, identified, same⟩ := prepare_eq_ok.mp entered.prepared
  have plan : c.plan = makePlan c.request kind current := congrArg Prepared.plan same.symm
  have found : c.id = id := congrArg Prepared.id same.symm
  rw [← plan, ← found] at identified
  exact (identify_eq_ok identified).imp_left planID_of_keptID

theorem operation_of_keepsReapplied (entered : Entered host d c)
    (keeps : keepsReapplied d.record c.request c.plan.kind = true) :
    c.request.operation = .apply := by
  simp only [keepsReapplied, Bool.and_eq_true, decide_eq_true_eq] at keeps
  rw [entered.change.apply_iff, keeps.1.1]
  decide

/-- Only an `apply` is given the id of the checkpoint. -/
theorem id_of_operation (entered : Entered host d c) (other : c.request.operation ≠ .apply) :
    c.id = boundID c.request c.plan := by
  rcases entered.id_cases with ⟨-, keeps | keeps⟩ | bound
  · exact absurd (entered.operation_of_keepsReapplied keeps) other
  · simp only [keepsUnfinished, Bool.and_eq_true, decide_eq_true_eq] at keeps
    exact absurd keeps.1.1.1.1.1.1.1 other
  · exact bound

/-- There is no old checkpoint to migrate. -/
theorem regular (entered : Entered host d c) (formed : d.record.Formed) :
    c.plan.kind ≠ .checkpointMigration := by
  intro kind
  have change := entered.change
  rw [kind] at change
  cases change with
  | migrate _ installed old => exact formed.bundle installed old

/-- An upgrade under the id of the checkpoint is one to the release of the checkpoint. -/
theorem upgrade_same (entered : Entered host d c) (formed : d.record.Formed)
    (kind : c.plan.kind = .upgrade) (stored : d.record.planID = some c.id) :
    d.record.bundle = some c.request.bundle ∧ d.record.config = some c.request.config := by
  have change := entered.change
  rw [kind] at change
  have operation : c.request.operation = .apply := change.apply_iff.mpr (by decide)
  rcases entered.id_cases with ⟨-, keeps | keeps⟩ | bound
  · simp [keepsReapplied, kind] at keeps
  · simp only [keepsUnfinished, Bool.and_eq_true, decide_eq_true_eq] at keeps
    exact ⟨keeps.1.1.1.1.2, keeps.1.1.1.2⟩
  · obtain ⟨current, plan⟩ := entered.plan_eq
    have identified := formed.identified _ stored
    rw [bound, plan] at identified
    obtain ⟨same, configured⟩ := identified operation
    refine ⟨same, ?_⟩
    cases change with
    | resumeUpgrade _ _ upgrade => exact configured upgrade
    | upgrade _ _ other => exact absurd same other

end Entered

end Aspm.Install
