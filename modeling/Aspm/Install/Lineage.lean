import Aspm.Install.Approval

/-!
# The release a rollback goes back to

An upgrade remembers the release it replaces, and offers it to a rollback until the new
release may have run.  The offer is a field of the checkpoint, `RollbackMode`, and the start
of the new release takes it back; but only if the kind of the change is an upgrade or a
rollback.  An `apply` that takes up an unfinished rollback is a `reapply`, so it starts the
new release and leaves the offer standing.

Both results here exclude that.  The one about the release that is offered also excludes a
second upgrade under another plan id before the first is finished: it remembers the release
that it is upgrading to.
-/

namespace Aspm.Install

open Json (Text)

variable {host : Host} {w w' : World} {a : Action} {c : Call} {record : Record} {s : StepName}

/-! ## Conditions on the calls that are let in -/

/-- A call that is let in meets the condition. -/
def admitted (host : Host) (ok : Record → List Entry → Call → Bool) (w : World) : Action → Bool
  | .execute r approval =>
    match enter host w.disk r approval with
    | .ok c => ok w.disk.record w.log c
    | .error _ => true
  | .plan _ | .proceed | .fail _ | .kill => true

/-- A call at its first checkpoint has met the condition. -/
theorem opening_of_admitted {ok : Record → List Entry → Call → Bool}
    (met : admitted host ok w a = true) (taken : step host w a = some w')
    (at_ : w'.stage = .opening c) : ok w'.disk.record w'.log c = true := by
  cases taken_of_step taken with
  | planned idle => simp [idle] at at_
  | planRefused idle => simp [idle] at at_
  | refused idle => simp [idle] at at_
  | entered idle admits =>
    cases at_
    simpa [admitted, admits] using met
  | opened from_ =>
    unfold openCall at at_
    split at at_ <;> cases at_
  | finished => cases at_
  | stepped from_ =>
    unfold enterStep at at_
    split at at_
    · cases at_
    · split at at_ <;> cases at_
  | performed from_ =>
    rcases performNext_cases host w _ _ _ _ _ _ with ⟨cause, failed⟩ | ⟨d, record, -, next⟩
    · rw [failed] at at_
      cases at_
    · rw [next] at at_
      cases at_
  | completed => cases at_
  | refusedStep => cases at_
  | failed => cases at_
  | killed => cases at_

/-- The call takes up a rollback that was not finished. -/
def takesUpRollback (record : Record) (c : Call) : Bool :=
  c.request.operation = .apply && record.kind = some .rollback && record.phase ≠ .applied

/-! ## The offer of a rollback -/

namespace Record

/-- The previous release is offered. -/
def Offers (record : Record) : Prop := record.mode = some .activationEligible

/-- What stands behind an offer: an upgrade or a rollback that has not started a release. -/
structure Offering (record : Record) : Prop where
  unfinished : record.Offers → record.phase ≠ .applied
  kind : record.Offers → record.kind = some .upgrade ∨ record.kind = some .rollback
  previous : record.Offers → record.previous ≠ none
  before : record.Offers → ∀ s ∈ record.completed, s.boundary = false

theorem offering_of_not_offers (none : ¬ record.Offers) : record.Offering :=
  ⟨fun offers => absurd offers none, fun offers => absurd offers none,
    fun offers => absurd offers none, fun offers => absurd offers none⟩

theorem Offering.withUnits {other : Record} (offering : other.Offering)
    (linked : other = record.withUnits other) : record.Offering := by
  rw [linked] at offering
  exact ⟨offering.unfinished, offering.kind, offering.previous, offering.before⟩

theorem not_offers_cross (record : Record) : ¬ record.cross.Offers := by
  intro offers
  cases offers

theorem Offering.fail (offering : record.Offering) (s : StepName) (cause : Failure) :
    (record.fail s cause).Offering where
  unfinished := fun _ => by simp [Record.fail]
  kind := offering.kind
  previous := offering.previous
  before := offering.before

/-- A boundary step of an upgrade or a rollback withdraws the offer before it runs. -/
theorem Offering.not_offers_of_boundary (offering : record.Offering) (call : InCall c record)
    (crossed : record.crosses c s = false) (boundary : s.boundary = true) : ¬ record.Offers := by
  intro offers
  have kind : c.plan.kind = .upgrade ∨ c.plan.kind = .rollback := by
    have found := offering.kind offers
    rwa [call.kind, Option.some_inj, Option.some_inj] at found
  have offers : record.mode = some .activationEligible := offers
  have crosses : record.crosses c s = true := by
    simp only [crosses, boundary, offers, decide_true, Bool.and_true, Bool.true_and,
      Bool.or_eq_true, decide_eq_true_eq]
    exact kind
  rw [crossed] at crosses
  cases crosses

theorem Offering.complete (offering : record.Offering) (call : InCall c record)
    (crossed : record.crosses c s = false) :
    (record.complete s).Offering where
  unfinished := offering.unfinished
  kind := offering.kind
  previous := offering.previous
  before := by
    intro offers t mem
    rcases mem_complete.mp mem with rfl | earlier
    · exact Bool.eq_false_iff.mpr fun boundary =>
        offering.not_offers_of_boundary call crossed boundary offers
    · exact offering.before offers t earlier

end Record

/-- An `apply` or a rollback has a boundary step. -/
theorem exists_boundary {r : Request} (operation : r.operation ≠ .uninstall) :
    ∃ s ∈ steps r, s.boundary = true := by
  cases found : r.operation with
  | uninstall => exact absurd found operation
  | apply | rollback =>
    cases target : r.config.kind with
    | linux => exact ⟨.startCore, by simp [steps, found, target, linuxApply], rfl⟩
    | kubernetes => exact ⟨.helmUpgrade, by simp [steps, found, target, kubernetesApply], rfl⟩

/-- An uninstall has none. -/
theorem operation_of_boundary {r : Request} (mem : s ∈ steps r) (boundary : s.boundary = true) :
    r.operation ≠ .uninstall := by
  intro operation
  have none : ∀ s ∈ steps r, s.boundary = false := by
    cases target : r.config.kind with
    | linux =>
      simp only [steps, operation, target]
      decide
    | kubernetes =>
      simp only [steps, operation, target]
      cases r.deleteData <;> decide
  rw [none s mem] at boundary
  cases boundary

/-- The end of a call leaves no offer. -/
theorem Record.Offering.finish (offering : record.Offering) (holding : Holding w c record []) :
    ¬ (record.finish c).Offers := by
  intro offers
  by_cases kind : c.plan.kind = .rollback
  · simp [Record.Offers, Record.finish, kind] at offers
  · have offers : record.Offers := by
      simpa [Record.Offers, Record.finish, kind] using offers
    have upgrade : c.plan.kind = .upgrade := by
      have found := offering.kind offers
      rw [holding.call.kind, Option.some_inj, Option.some_inj] at found
      exact found.resolve_right kind
    have operation : c.request.operation ≠ .uninstall := fun operation => by
      have := holding.call.removes.mp operation
      rw [upgrade] at this
      cases this
    obtain ⟨s, mem, boundary⟩ := exists_boundary operation
    obtain ⟨done, all, behind⟩ := holding.progress
    rw [List.append_nil] at all
    have no := offering.before offers s (behind s (all ▸ mem))
    rw [boundary] at no
    cases no

section Start

variable {d : Disk}

/-- An upgrade under a new id offers the release that is there; every other call offers what
was offered. -/
theorem Entered.offers_start (entered : Entered host d c) (formed : d.record.Formed)
    (offers : (d.record.start c).Offers) :
    c.plan.kind = .upgrade ∧ d.record.planID ≠ some c.id ∧
        (d.record.start c).previous = d.record.lineage ∨
      d.record.Offers ∧ (c.plan.kind = .upgrade → d.record.planID = some c.id) ∧
        c.plan.kind ≠ .uninstall ∧ (d.record.start c).previous = d.record.previous := by
  have regular := entered.regular formed
  have offers : (d.record.retarget c.prepared).mode = some .activationEligible := offers
  have previous : (d.record.start c).previous = (d.record.retarget c.prepared).previous := rfl
  rw [previous]
  unfold Record.retarget at offers ⊢
  cases kind : c.prepared.plan.kind with
  | initialInstall => simp [kind] at offers
  | checkpointMigration => exact absurd kind regular
  | uninstall => simp [kind] at offers
  | reapply | rollback =>
    simp only [kind] at offers
    exact .inr ⟨offers, fun other => ChangeKind.noConfusion other, ChangeKind.noConfusion, rfl⟩
  | upgrade =>
    by_cases stored : d.record.planID = some c.prepared.id
    · simp only [kind, if_pos stored] at offers ⊢
      exact .inr ⟨offers, fun _ => stored, ChangeKind.noConfusion, trivial⟩
    · simp only [if_neg stored]
      exact .inl ⟨trivial, stored, trivial⟩

theorem Entered.offering_start (entered : Entered host d c) (formed : d.record.Formed)
    (offering : d.record.Offering) (notTaken : takesUpRollback d.record c = false) :
    (d.record.start c).Offering := by
  have change := entered.change
  refine ⟨fun _ => Phase.noConfusion, ?_, ?_, ?_⟩
  · intro offers
    show some c.plan.kind = _ ∨ some c.plan.kind = _
    rw [Option.some_inj, Option.some_inj]
    rcases entered.offers_start formed offers with ⟨kind, -⟩ | ⟨old, -, notRemoved, -⟩
    · exact .inl kind
    · -- the kinds of change that leave an offer standing
      have unfinished := offering.unfinished old
      cases kind : c.plan.kind with
      | upgrade => exact .inl rfl
      | rollback => exact .inr rfl
      | uninstall => exact absurd kind notRemoved
      | checkpointMigration => exact absurd kind (entered.regular formed)
      | initialInstall =>
        simp [Record.Offers, Record.start, Record.retarget, kind] at offers
      | reapply =>
        rw [kind] at change
        cases change with
        | again operation same otherwise =>
          obtain ⟨-, notUpgrade⟩ := otherwise.resolve_left unfinished
          rcases offering.kind old with upgrade | rollback
          · exact absurd (notUpgrade.resolve_left (not_not.mpr upgrade)) (offering.previous old)
          · simp [takesUpRollback, operation, rollback, unfinished] at notTaken
  · intro offers
    rcases entered.offers_start formed offers with ⟨kind, -, same⟩ | ⟨old, -, -, same⟩
    · rw [same]
      rw [kind] at change
      cases change with
      | resumeUpgrade _ _ _ _ same => exact formed.lineage_ne_none (by simp [same])
      | upgrade _ _ _ installed => exact formed.lineage_ne_none installed
    · rw [same]
      exact offering.previous old
  · intro offers s mem
    have mem : s ∈ if c.reapply ∨ d.record.planID ≠ some c.id then [] else d.record.completed := mem
    split at mem
    · cases mem
    · next kept =>
        rcases entered.offers_start formed offers with ⟨-, fresh, -⟩ | ⟨old, -⟩
        · exact absurd (.inr fresh) kept
        · exact offering.before old s mem

end Start

/-- The offer of the checkpoint, over a step. -/
theorem offering_step (based : w.Based host) (offering : w.disk.record.Offering)
    (notTaken : ∀ c, w.stage = .opening c → takesUpRollback w.disk.record c = false)
    (taken : step host w a = some w') : w'.disk.record.Offering := by
  cases taken_of_step taken with
  | planned | planRefused | refused | entered | killed => exact offering
  | opened at_ =>
    have entered := based.opening at_
    simp only [openCall, if_neg (entered.regular based.formed)]
    exact entered.offering_start based.formed offering (notTaken _ at_)
  | finished at_ =>
    have holding := based.looping at_
    exact Record.offering_of_not_offers ((offering.withUnits holding.linked).finish holding)
  | stepped at_ =>
    unfold enterStep
    split
    · exact offering
    · split
      · exact Record.offering_of_not_offers (Record.not_offers_cross _)
      · exact offering
  | performed at_ =>
    obtain ⟨holding, -⟩ := based.running at_
    rcases performNext_cases host w _ _ _ _ _ _ with ⟨cause, failed⟩ | ⟨d, record, result, next⟩
    · rw [failed]
      exact (offering.withUnits holding.linked).fail _ cause
    · rw [next]
      show d.record.Offering
      rw [perform_loaded result]
      exact offering
  | completed at_ =>
    obtain ⟨holding, crossed⟩ := based.running at_
    exact (offering.withUnits holding.linked).complete holding.call crossed
  | refusedStep at_ => exact (offering.withUnits (based.looping at_).linked).fail _ _
  | failed at_ => exact (offering.withUnits (based.running at_).1.linked).fail _ _

/-! ## The release that is offered -/

/-- The release and the configuration that an `Execute` returned as applied last. -/
def lastApplied : List Entry → Option (Bundle × Configuration)
  | [] => none
  | .returned r .applied :: _ => some (r.bundle, r.config)
  | _ :: log => lastApplied log

theorem lastApplied_entries (e : Effect) (r : Request) (log : List Entry) :
    lastApplied (e.entries r ++ log) = lastApplied log := by
  cases e <;> rfl

/-- No rollback is taken up by an `apply`, and no unfinished upgrade under another id. -/
def finishesFirst (record : Record) (_ : List Entry) (c : Call) : Bool :=
  !takesUpRollback record c &&
    (c.plan.kind ≠ .upgrade || record.phase = .applied || record.planID = some c.id)

/-- What is offered, and what is there when nothing is under way, is what was applied last. -/
structure World.Lined (w : World) : Prop where
  offered : w.disk.record.Offers → w.disk.record.previous = lastApplied w.log
  applied : w.disk.record.phase = .applied → w.disk.record.lineage = lastApplied w.log

namespace World.Lined

variable {todo : List StepName}

theorem blank : World.blank.Lined where
  offered := fun offers => by cases offers
  applied := fun applied => by cases applied

/-- A step on a record that is not finished, with nothing returned. -/
theorem unfinished (lined : w.Lined) (holding : Holding w c record todo)
    (log : lastApplied w'.log = lastApplied w.log)
    (offers : w'.disk.record.Offers → record.Offers)
    (previous : w'.disk.record.previous = record.previous)
    (phase : w'.disk.record.phase ≠ .applied) : w'.Lined where
  offered := by
    intro now
    have disk : w.disk.record.Offers := by
      show w.disk.record.mode = _
      rw [holding.linked]
      exact offers now
    rw [log, previous, ← lined.offered disk]
    exact (Record.same_units holding.linked).previous.symm
  applied := fun applied => absurd applied phase

theorem openCall (lined : w.Lined) (based : w.Based host) (at_ : w.stage = .opening c)
    (met : finishesFirst w.disk.record w.log c = true) : (openCall w c).Lined := by
  have entered := based.opening at_
  simp only [Install.openCall, if_neg (entered.regular based.formed)]
  refine ⟨fun offers => ?_, fun applied => by cases applied⟩
  show (w.disk.record.start c).previous = lastApplied w.log
  rcases entered.offers_start based.formed offers with ⟨kind, fresh, same⟩ | ⟨old, -, -, same⟩
  · -- a new upgrade starts from a release that was applied
    rw [same]
    refine lined.applied ?_
    simpa [finishesFirst, kind, fresh] using (Bool.and_eq_true_iff.mp met).2
  · rw [same]
    exact lined.offered old

theorem finishCall (based : w.Based host) (offering : w.disk.record.Offering)
    (at_ : w.stage = .looping c record []) : (finishCall w c record).Lined := by
  have holding := based.looping at_
  refine ⟨fun offers => absurd offers ((offering.withUnits holding.linked).finish holding),
    fun applied => ?_⟩
  have applied : (record.finish c).phase = .applied := applied
  have operation : c.request.operation ≠ .uninstall := by
    intro operation
    rw [Record.finish_phase, if_pos operation] at applied
    cases applied
  show (record.finish c).lineage =
    lastApplied (.returned c.request (record.finish c).phase :: w.log)
  rw [applied]
  exact holding.call.finish_lineage operation

end World.Lined

theorem lined_step (lined : w.Lined) (based : w.Based host) (offering : w.disk.record.Offering)
    (met : ∀ c, w.stage = .opening c → finishesFirst w.disk.record w.log c = true)
    (taken : step host w a = some w') : w'.Lined := by
  cases taken_of_step taken with
  | planned | planRefused | refused | entered | killed => exact ⟨lined.offered, lined.applied⟩
  | opened at_ => exact lined.openCall based at_ (met _ at_)
  | finished at_ => exact .finishCall based offering at_
  | stepped at_ =>
    unfold enterStep
    split
    · exact ⟨lined.offered, lined.applied⟩
    · split
      · refine ⟨fun offers => absurd offers (Record.not_offers_cross _), fun applied => ?_⟩
        have holding := based.looping at_
        have applied : Record.phase _ = Phase.applied := applied
        have unfinished := holding.call.unfinished
        simp [Record.cross, unfinished] at applied
      · exact ⟨lined.offered, lined.applied⟩
  | performed at_ =>
    obtain ⟨holding, -⟩ := based.running at_
    rcases performNext_cases host w _ _ _ _ _ _ with ⟨cause, failed⟩ | ⟨d, record, result, next⟩
    · rw [failed]
      exact lined.unfinished holding rfl id rfl (by simp [failStep, Record.fail])
    · rw [next]
      refine ⟨?_, ?_⟩
      · show d.record.Offers → d.record.previous = lastApplied _
        rw [perform_loaded result, lastApplied_entries]
        exact lined.offered
      · show d.record.phase = _ → d.record.lineage = lastApplied _
        rw [perform_loaded result, lastApplied_entries]
        exact lined.applied
  | completed at_ =>
    obtain ⟨holding, -⟩ := based.running at_
    refine lined.unfinished holding rfl id rfl fun applied => ?_
    have both := holding.call.unfinished.symm.trans applied
    cases both
  | refusedStep at_ =>
    exact lined.unfinished (based.looping at_) rfl id rfl (by simp [failStep, Record.fail])
  | failed at_ =>
    exact lined.unfinished (based.running at_).1 rfl id rfl (by simp [failStep, Record.fail])

theorem finishesFirst_not_takesUp {log : List Entry} (met : finishesFirst record log c = true) :
    takesUpRollback record c = false := by
  simpa using (Bool.and_eq_true_iff.mp met).1

/-- If no `apply` takes up an unfinished rollback, and none takes up an unfinished upgrade
under another plan id, then a checkpoint that offers a rollback offers the release that was
applied last, with its configuration. -/
theorem rollback_target_applied {host : Host} {as : List Action} {w : World}
    (met : Machine.Always (step host) (fun w a => admitted host finishesFirst w a = true) .blank as)
    (runs : Machine.run (step host) .blank as = some w)
    (eligible : w.disk.record.mode = some .activationEligible) :
    ∃ bundle config, w.disk.record.previous = some (bundle, config) ∧
      lastApplied w.log = some (bundle, config) := by
  obtain ⟨-, offering, lined, -⟩ := met.run_invariant
    (I := fun w => w.Based host ∧ w.disk.record.Offering ∧ w.Lined ∧
      ∀ c, w.stage = .opening c → finishesFirst w.disk.record w.log c = true)
    (fun w a w' inv met taken => by
      obtain ⟨based, offering, lined, opening⟩ := inv
      exact ⟨based.step taken, offering_step based offering
        (fun c at_ => finishesFirst_not_takesUp (opening c at_)) taken,
        lined_step lined based offering opening taken,
        fun c at_ => opening_of_admitted met taken at_⟩)
    ⟨.blank, Record.offering_of_not_offers (by rintro ⟨⟩), .blank, fun c at_ => by cases at_⟩ runs
  obtain ⟨⟨bundle, config⟩, previous⟩ := Option.ne_none_iff_exists'.mp (offering.previous eligible)
  exact ⟨bundle, config, previous, (lined.offered eligible).symm.trans previous⟩

def clusterUpgrade : Request := plainRequest .apply .kubernetes ['b']

def clusterUpgradeID : PlanID := plainID clusterUpgrade .upgrade (some (plainBundle ['a']))

/-- A release is applied, and an upgrade begun. -/
def upgradeBegun : List Action :=
  callFor clusterInstall clusterInstallID 30 ++ callFor clusterUpgrade clusterUpgradeID 1

theorem rollback_target_applied_upgrade :
    ∃ w, Machine.run (step plainHost) .blank upgradeBegun = some w ∧
      w.disk.record.mode = some .activationEligible ∧
      ∃ bundle config, w.disk.record.previous = some (bundle, config) ∧
        lastApplied w.log = some (bundle, config) := by
  obtain ⟨w, runs, found⟩ := Machine.exists_run_of_any (step plainHost)
    (p := fun w => decide (w.disk.record.mode = some .activationEligible))
    (by decide +kernel : (Machine.run (step plainHost) .blank upgradeBegun).any _ = true)
  have met : Machine.Always (step plainHost)
      (fun w a => admitted plainHost finishesFirst w a = true) .blank upgradeBegun :=
    Machine.always_of_checkAlways (by decide +kernel)
  have eligible := of_decide_eq_true found
  exact ⟨w, runs, eligible, rollback_target_applied met runs eligible⟩

/-- The upgrade fails at its first step, and is tried again with another secret for the core
role. -/
def upgradeReplanned : List Action :=
  upgradeBegun ++ .fail .command ::
    callFor (clusterUpgrade.withCore ['d'])
      (plainID (clusterUpgrade.withCore ['d']) .upgrade (some (plainBundle ['a']))) 1

/-- Now the release that never ran is the one a rollback is offered. -/
theorem rollback_target_unapplied :
    ∃ w, Machine.run (step plainHost) .blank upgradeReplanned = some w ∧
      w.disk.record.mode = some .activationEligible ∧
      w.disk.record.previous = some (clusterUpgrade.bundle, clusterUpgrade.config) ∧
      lastApplied w.log = some (clusterInstall.bundle, clusterInstall.config) ∧
      clusterUpgrade.bundle ≠ clusterInstall.bundle := by
  obtain ⟨w, runs, found⟩ := Machine.exists_run_of_any (step plainHost)
    (p := fun w => decide (w.disk.record.mode = some .activationEligible ∧
      w.disk.record.previous = some (clusterUpgrade.bundle, clusterUpgrade.config) ∧
      lastApplied w.log = some (clusterInstall.bundle, clusterInstall.config)))
    (by decide +kernel : (Machine.run (step plainHost) .blank upgradeReplanned).any _ = true)
  obtain ⟨eligible, previous, applied⟩ := of_decide_eq_true found
  exact ⟨w, runs, eligible, previous, applied, by decide⟩

end Aspm.Install
