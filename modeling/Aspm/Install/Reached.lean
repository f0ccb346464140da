import Aspm.Install.Calls

/-!
# What every reachable world has

`World.Based` says of a world that its checkpoint is formed, that a call in progress has the
checkpoint as its own record up to the units, and that the steps which the call has behind it
are in the list of completed ones.  The results about releases and plans all start from it.
-/

namespace Aspm.Install

variable {record record' : Record} {c : Call} {todo : List StepName} {s : StepName} {host : Host}
  {d : Disk} {e : Effect} {w : World}

/-! ## A call in progress -/

/-- What a call knows about its record from the first checkpoint to the last. -/
structure InCall (c : Call) (record : Record) : Prop where
  regular : c.plan.kind ≠ .checkpointMigration
  kind : record.kind = some c.plan.kind
  id : record.planID = some c.id
  unfinished : record.phase = .planned
  fingerprint : record.fingerprint = some c.request.fingerprint
  roles : record.roles = some c.request.roles
  caller : record.caller = c.request.caller
  installs : c.request.operation = .apply ↔ c.plan.kind ≠ .rollback ∧ c.plan.kind ≠ .uninstall
  returns : c.request.operation = .rollback ↔ c.plan.kind = .rollback
  removes : c.request.operation = .uninstall ↔ c.plan.kind = .uninstall
  bundle : c.plan.bundle = c.request.bundle
  config : c.plan.config = c.request.config
  target : c.request.operation = .apply →
    record.lineage = some (c.request.bundle, c.request.config)
  back : c.request.operation = .rollback →
    record.previous = some (c.request.bundle, c.request.config)
  replaces : c.plan.kind = .upgrade → record.previous ≠ none
  bound : c.request.operation ≠ .apply → c.id.plan.operation = c.request.operation

namespace Record

/-- The same record, but for the units. -/
def withUnits (record other : Record) : Record := { record with ownedUnits := other.ownedUnits }

/-- The fields that a step or its failure leaves alone. -/
structure Same (record record' : Record) : Prop where
  version : record'.version = record.version
  fingerprint : record'.fingerprint = record.fingerprint
  bundle : record'.bundle = record.bundle
  config : record'.config = record.config
  previous : record'.previous = record.previous
  planID : record'.planID = record.planID
  kind : record'.kind = record.kind
  roles : record'.roles = record.roles
  caller : record'.caller = record.caller

theorem same_units {other : Record} (linked : other = record.withUnits other) :
    Same record other := by
  rw [linked]
  exact ⟨rfl, rfl, rfl, rfl, rfl, rfl, rfl, rfl, rfl⟩

theorem same_fail (record : Record) (s : StepName) (cause : Failure) :
    Same record (record.fail s cause) := ⟨rfl, rfl, rfl, rfl, rfl, rfl, rfl, rfl, rfl⟩

theorem same_complete (record : Record) (s : StepName) : Same record (record.complete s) :=
  ⟨rfl, rfl, rfl, rfl, rfl, rfl, rfl, rfl, rfl⟩

theorem same_cross (record : Record) : Same record record.cross :=
  ⟨rfl, rfl, rfl, rfl, rfl, rfl, rfl, rfl, rfl⟩

namespace Same

variable {record'' : Record}

theorem symm (same : Same record record') : Same record' record :=
  ⟨same.version.symm, same.fingerprint.symm, same.bundle.symm, same.config.symm,
    same.previous.symm, same.planID.symm, same.kind.symm, same.roles.symm, same.caller.symm⟩

theorem lineage (same : Same record record') : record'.lineage = record.lineage := by
  simp only [Record.lineage, same.bundle, same.config]

theorem formed (same : Same record record') (formed : record.Formed) : record'.Formed where
  version := by rw [same.version]; exact formed.version
  bundle := by rw [same.fingerprint, same.bundle]; exact formed.bundle
  previous := by rw [same.previous, same.fingerprint]; exact formed.previous
  planned := by rw [same.planID, same.fingerprint]; exact formed.planned
  config := by rw [same.bundle, same.config]; exact formed.config
  identified := by
    rw [same.planID, same.bundle, same.kind, same.config]
    exact formed.identified

end Same

end Record

theorem InCall.of_same (call : InCall c record) (same : record.Same record')
    (phase : record'.phase = record.phase) : InCall c record' where
  regular := call.regular
  kind := same.kind.trans call.kind
  id := same.planID.trans call.id
  unfinished := phase.trans call.unfinished
  fingerprint := same.fingerprint.trans call.fingerprint
  roles := same.roles.trans call.roles
  caller := same.caller.trans call.caller
  installs := call.installs
  returns := call.returns
  removes := call.removes
  bundle := call.bundle
  config := call.config
  target := fun operation => same.lineage.trans (call.target operation)
  back := fun operation => same.previous.trans (call.back operation)
  replaces := fun kind => by rw [same.previous]; exact call.replaces kind
  bound := call.bound

/-! ## The first checkpoint -/

section Start

open Record (lineage_eq_some)

theorem Entered.start_lineage (entered : Entered host d c) (formed : d.record.Formed)
    (operation : c.request.operation = .apply) :
    (d.record.start c).lineage = some (c.request.bundle, c.request.config) := by
  rw [lineage_eq_some, ← entered.bundle, ← entered.config]
  have regular := entered.regular formed
  obtain ⟨notBack, notRemove⟩ := entered.change.apply_iff.mp operation
  unfold Record.start Record.retarget
  cases kind : c.prepared.plan.kind with
  | initialInstall => exact ⟨rfl, rfl⟩
  | reapply => exact ⟨rfl, rfl⟩
  | upgrade =>
    by_cases stored : d.record.planID = some c.prepared.id
    · obtain ⟨bundle, config⟩ := entered.upgrade_same formed kind stored
      simp only [if_pos stored]
      exact ⟨bundle.trans (by rw [entered.bundle]), config.trans (by rw [entered.config])⟩
    · simp only [if_neg stored, and_self]
  | rollback => exact absurd kind notBack
  | uninstall => exact absurd kind notRemove
  | checkpointMigration => exact absurd kind regular

/-- An uninstall or a rollback leaves the release as it is until its end. -/
theorem Record.start_lineage_of_other (record : Record)
    (other : c.plan.kind = .rollback ∨ c.plan.kind = .uninstall) :
    (record.start c).bundle = record.bundle ∧ (record.start c).config = record.config ∧
      (record.start c).previous = record.previous := by
  unfold Record.start Record.retarget
  rcases other with kind | kind <;> rw [kind] <;> exact ⟨rfl, rfl, rfl⟩

theorem Record.start_ownedUnits (record : Record) (c : Call) :
    (record.start c).ownedUnits = record.ownedUnits := by
  show (record.retarget c.prepared).ownedUnits = _
  unfold Record.retarget
  split
  · rfl
  · split <;> rfl
  · rfl
  · rfl
  · rfl
  · rfl

theorem Entered.formed_start (entered : Entered host d c) (formed : d.record.Formed) :
    (d.record.start c).Formed := by
  by_cases operation : c.request.operation = .apply
  · obtain ⟨bundle, config⟩ := lineage_eq_some.mp (entered.start_lineage formed operation)
    refine ⟨(by decide : stateVersion ≠ 1), fun _ => by simp [bundle],
      fun _ => Option.some_ne_none _, fun _ => Option.some_ne_none _, fun _ => by simp [config], ?_⟩
    rintro id stored about
    obtain rfl : c.id = id := Option.some.inj stored
    rw [bundle, config]
    rcases entered.id_cases with ⟨stored, keeps⟩ | bound
    · obtain ⟨same, configured⟩ := formed.identified _ stored about
      rcases keeps with keeps | keeps
      · -- a reapplied release
        simp only [keepsReapplied, Bool.and_eq_true, decide_eq_true_eq] at keeps
        have change := entered.change
        rw [keeps.1.1] at change
        cases change with
        | again _ again =>
          refine ⟨again.symm.trans same, fun kind => ?_⟩
          have kind : some c.plan.kind = some ChangeKind.upgrade := kind
          rw [keeps.1.1] at kind
          cases kind
      · simp only [keepsUnfinished, Bool.and_eq_true, decide_eq_true_eq] at keeps
        refine ⟨keeps.1.1.1.1.2.symm.trans same, fun kind => ?_⟩
        have kind : some c.plan.kind = some ChangeKind.upgrade := kind
        exact keeps.1.1.1.2.symm.trans (configured (keeps.1.1.1.1.1.2.trans kind))
    · obtain ⟨current, plan⟩ := entered.plan_eq
      rw [bound, plan]
      exact ⟨rfl, fun _ => rfl⟩
  · have change := entered.change
    have other : c.plan.kind = .rollback ∨ c.plan.kind = .uninstall := by
      by_contra none
      rw [not_or] at none
      exact operation (change.apply_iff.mpr none)
    obtain ⟨bundle, config, -⟩ := Record.start_lineage_of_other d.record other
    have installed : d.record.bundle ≠ none := by
      rcases other with kind | kind
      · rw [kind] at change
        cases change with
        | back operation eligible offered =>
          exact formed.bundle (formed.previous (by simp [offered]))
      · rw [kind] at change
        cases change with
        | remove _ installed => exact installed
    refine ⟨(by decide : stateVersion ≠ 1), fun _ => bundle ▸ installed,
      fun _ => Option.some_ne_none _, fun _ => Option.some_ne_none _, fun _ => ?_, ?_⟩
    · rw [config]
      exact formed.config installed
    · rintro id stored about
      obtain rfl : c.id = id := Option.some.inj stored
      obtain ⟨current, plan⟩ := entered.plan_eq
      rw [entered.id_of_operation operation, plan] at about
      exact absurd about operation

theorem Entered.inCall (entered : Entered host d c) (formed : d.record.Formed) :
    InCall c (d.record.start c) where
  regular := entered.regular formed
  kind := rfl
  id := rfl
  unfinished := rfl
  fingerprint := congrArg some entered.fingerprint
  roles := rfl
  caller := rfl
  installs := entered.change.apply_iff
  returns := entered.change.rollback_iff
  removes := entered.change.uninstall_iff
  bundle := entered.bundle
  config := entered.config
  target := entered.start_lineage formed
  back := fun operation => by
    have change := entered.change
    have kind := change.rollback_iff.mp operation
    rw [kind] at change
    cases change with
    | back _ _ offered => exact (Record.start_lineage_of_other _ (.inl kind)).2.2.trans offered
  replaces := fun kind => by
    have change := entered.change
    rw [kind] at change
    have start : (d.record.start c).previous = (d.record.retarget c.prepared).previous := rfl
    rw [start, Record.retarget, kind]
    by_cases stored : d.record.planID = some c.prepared.id
    · simp only [if_pos stored]
      cases change with
      | resumeUpgrade _ _ _ previous => exact previous
      | upgrade _ _ other => exact absurd (entered.upgrade_same formed kind stored).1 other
    · simp only [if_neg stored]
      cases change with
      | resumeUpgrade _ _ _ _ same => exact formed.lineage_ne_none (by simp [same])
      | upgrade _ _ _ installed => exact formed.lineage_ne_none installed
  bound := fun operation => by
    obtain ⟨current, plan⟩ := entered.plan_eq
    rw [entered.id_of_operation operation, plan]
    rfl

end Start

/-! ## The last checkpoint -/

namespace InCall

theorem formed_finish (call : InCall c record) (formed : record.Formed) :
    (record.finish c).Formed := by
  unfold Record.finish
  by_cases kind : c.plan.kind = .rollback
  · simp only [if_pos kind]
    refine ⟨formed.version, fun _ => Option.some_ne_none _, fun some => absurd rfl some,
      formed.planned, fun _ => Option.some_ne_none _, ?_⟩
    rintro id stored about
    have operation := call.returns.mpr kind
    obtain rfl : c.id = id := Option.some.inj (call.id.symm.trans stored)
    rw [call.bound (by simp [operation]), operation] at about
    cases about
  · simp only [if_neg kind]
    exact ⟨formed.version, formed.bundle, formed.previous, formed.planned, formed.config,
      formed.identified⟩

/-- What was applied is the release of the checkpoint. -/
theorem finish_lineage (call : InCall c record) (operation : c.request.operation ≠ .uninstall) :
    (record.finish c).lineage = some (c.request.bundle, c.request.config) := by
  unfold Record.finish
  by_cases kind : c.plan.kind = .rollback
  · simp only [if_pos kind, Record.lineage, call.bundle, call.config]
  · simp only [if_neg kind]
    refine call.target ?_
    cases found : c.request.operation with
    | apply => rfl
    | rollback => exact absurd (call.returns.mp found) kind
    | uninstall => exact absurd found operation

end InCall

/-! ## The world -/

/-- The record of a call, and the part of the plan that it has behind it. -/
structure Holding (w : World) (c : Call) (record : Record) (todo : List StepName) : Prop where
  call : InCall c record
  linked : w.disk.record = record.withUnits w.disk.record
  progress : ∃ done, steps c.request = done ++ todo ∧ ∀ s ∈ done, s ∈ record.completed

def Stage.Sound (host : Host) (w : World) : Stage → Prop
  | .idle => True
  | .opening c => Entered host w.disk c
  | .looping c record todo => Holding w c record todo
  | .running c record s _ todo => Holding w c record (s :: todo) ∧ record.crosses c s = false

structure World.Based (host : Host) (w : World) : Prop where
  formed : w.disk.record.Formed
  stage : w.stage.Sound host w

namespace World.Based

variable {w' : World} {a : Action}

theorem blank : World.blank.Based host := ⟨Record.formed_fresh, trivial⟩

theorem looping (based : w.Based host) (at_ : w.stage = .looping c record todo) :
    Holding w c record todo := by
  have sound := based.stage
  rw [at_] at sound
  exact sound

theorem running (based : w.Based host) {pending : List Effect}
    (at_ : w.stage = .running c record s pending todo) :
    Holding w c record (s :: todo) ∧ record.crosses c s = false := by
  have sound := based.stage
  rw [at_] at sound
  exact sound

theorem opening (based : w.Based host) (at_ : w.stage = .opening c) : Entered host w.disk c := by
  have sound := based.stage
  rw [at_] at sound
  exact sound

/-- The record in memory is formed as well. -/
theorem memory (based : w.Based host) (holding : Holding w c record todo) : record.Formed :=
  (Record.same_units holding.linked).symm.formed based.formed

theorem idle_of_log (based : w.Based host) (idle : w.stage = .idle) (log : List Entry) :
    World.Based host { w with log := log } :=
  ⟨based.formed, by
    show Stage.Sound host _ w.stage
    rw [idle]
    exact trivial⟩

theorem failStep (based : w.Based host) (holding : Holding w c record todo) (s : StepName)
    (cause : Failure) : (failStep w c record s cause).Based host :=
  ⟨(Record.same_fail record s cause).formed (based.memory holding), trivial⟩

theorem openCall (based : w.Based host) (at_ : w.stage = .opening c) :
    (openCall w c).Based host := by
  have entered := based.opening at_
  have regular := entered.regular based.formed
  simp only [Install.openCall, if_neg regular]
  exact ⟨entered.formed_start based.formed,
    ⟨entered.inCall based.formed, rfl, [], rfl, fun _ mem => absurd mem List.not_mem_nil⟩⟩

theorem finishCall (based : w.Based host) (at_ : w.stage = .looping c record []) :
    (finishCall w c record).Based host :=
  have holding := based.looping at_
  ⟨holding.call.formed_finish (based.memory holding), trivial⟩

theorem enterStep (based : w.Based host) (at_ : w.stage = .looping c record (s :: todo)) :
    (enterStep w c record s todo).Based host := by
  have holding := based.looping at_
  unfold Install.enterStep
  by_cases skipped : record.skips c s = true
  · rw [if_pos skipped]
    obtain ⟨done, all, behind⟩ := holding.progress
    simp only [Record.skips, Bool.and_eq_true, decide_eq_true_eq] at skipped
    refine ⟨based.formed, holding.call, holding.linked, done ++ [s], by simp [all], ?_⟩
    rintro t mem
    rcases List.mem_append.mp mem with earlier | last
    · exact behind t earlier
    · obtain rfl := List.mem_singleton.mp last
      exact skipped.2
  · rw [if_neg skipped]
    by_cases crossing : record.crosses c s = true
    · rw [if_pos crossing]
      have call := holding.call.of_same (Record.same_cross record) rfl
      exact ⟨(Record.same_cross record).formed (based.memory holding),
        ⟨call, rfl, holding.progress⟩, by simp [Record.crosses, Record.cross]⟩
    · rw [if_neg crossing]
      exact ⟨based.formed, ⟨holding.call, holding.linked, holding.progress⟩,
        Bool.eq_false_iff.mpr crossing⟩

end World.Based

/-! ## Steps and their effects -/

/-- An effect changes the units of the record at most. -/
theorem perform_record {r : Request} {d' : Disk}
    (result : perform host r d record e = .ok (d', record')) :
    record' = record.withUnits record' ∧ d'.checkpoint = d.checkpoint := by
  cases e with
  | material =>
    obtain ⟨m, -, same⟩ := Fallible.map_eq_ok.mp result
    cases same
    exact ⟨rfl, rfl⟩
  | unit u =>
    simp only [perform] at result
    split at result
    · cases result
    · split at result
      · cases result
      · cases result
        exact ⟨rfl, rfl⟩
  | readPolicy | validate =>
    simp only [perform] at result
    split at result
    · cases result
      exact ⟨rfl, rfl⟩
    · cases result
  | requireOwned =>
    simp only [perform] at result
    split at result
    · cases result
    · cases result
      exact ⟨rfl, rfl⟩
  | policy | environments | native _ | networkFiles | values | remove _ =>
    cases result
    exact ⟨rfl, rfl⟩

/-- The checkpoint stays as it is. -/
theorem perform_loaded {r : Request} {d' : Disk}
    (result : perform host r d record e = .ok (d', record')) : d'.record = d.record := by
  simp only [Disk.record, (perform_record result).2]

/-- What an effect leaves: a failed step, or the rest of the step with a new disk. -/
theorem performNext_cases (host : Host) (w : World) (c : Call) (record : Record) (s : StepName)
    (e : Effect) (pending : List Effect) (todo : List StepName) :
    (∃ cause, performNext host w c record s e pending todo = failStep w c record s cause) ∨
      ∃ disk record', perform host c.request w.disk record e = .ok (disk, record') ∧
        performNext host w c record s e pending todo =
          ⟨disk, .running c record' s pending todo, e.entries c.request ++ w.log⟩ := by
  unfold performNext
  cases result : perform host c.request w.disk record e with
  | error cause => exact .inl ⟨cause, rfl⟩
  | ok pair => exact .inr ⟨pair.1, pair.2, rfl, rfl⟩

theorem Record.mem_complete {t : StepName} :
    t ∈ (record.complete s).completed ↔ t = s ∨ t ∈ record.completed := by
  unfold Record.complete
  by_cases mem : s ∈ record.completed
  · simp only [if_pos mem]
    exact ⟨.inr, fun found => found.elim (fun same => same ▸ mem) id⟩
  · simp only [if_neg mem, List.mem_append, List.mem_singleton]
    exact or_comm

theorem Holding.perform {disk : Disk} {stage : Stage} {log : List Entry}
    (holding : Holding w c record todo)
    (result : perform host c.request w.disk record e = .ok (disk, record')) :
    Holding ⟨disk, stage, log⟩ c record' todo := by
  obtain ⟨units, -⟩ := perform_record result
  have loaded := perform_loaded result
  refine ⟨holding.call.of_same (Record.same_units units) ?_, ?_, ?_⟩
  · rw [units]
    rfl
  · show disk.record = record'.withUnits disk.record
    rw [loaded, units]
    exact holding.linked
  · rw [units]
    exact holding.progress

namespace World.Based

variable {w' : World} {a : Action}

theorem performNext (based : w.Based host) {pending : List Effect}
    (at_ : w.stage = .running c record s (e :: pending) todo) :
    (performNext host w c record s e pending todo).Based host := by
  obtain ⟨holding, crossed⟩ := based.running at_
  rcases performNext_cases host w c record s e pending todo with
    ⟨cause, failed⟩ | ⟨disk, record', result, next⟩
  · rw [failed]
    exact based.failStep holding s cause
  · rw [next]
    obtain ⟨units, -⟩ := perform_record result
    have loaded := perform_loaded result
    refine ⟨?_, holding.perform result, ?_⟩
    · show disk.record.Formed
      rw [loaded]
      exact based.formed
    · rw [units]
      exact crossed

theorem completeStep (based : w.Based host) (at_ : w.stage = .running c record s [] todo) :
    (completeStep w c record s todo).Based host := by
  obtain ⟨holding, -⟩ := based.running at_
  have same := Record.same_complete record s
  obtain ⟨done, all, behind⟩ := holding.progress
  refine ⟨same.formed (based.memory holding), holding.call.of_same same rfl, rfl,
    done ++ [s], by simp [all], ?_⟩
  rintro t mem
  rw [Record.mem_complete]
  rcases List.mem_append.mp mem with earlier | last
  · exact .inr (behind t earlier)
  · exact .inl (List.mem_singleton.mp last)

/-- **The step.** -/
theorem step (based : w.Based host) (taken : step host w a = some w') : w'.Based host := by
  cases taken_of_step taken with
  | planned idle => exact based.idle_of_log idle _
  | planRefused idle => exact based.idle_of_log idle _
  | refused idle => exact based.idle_of_log idle _
  | entered idle admitted => exact ⟨based.formed, (enter_eq_ok admitted).2.2⟩
  | opened at_ => exact based.openCall at_
  | finished at_ => exact based.finishCall at_
  | stepped at_ => exact based.enterStep at_
  | performed at_ => exact based.performNext at_
  | completed at_ => exact based.completeStep at_
  | refusedStep at_ => exact based.failStep (based.looping at_) _ _
  | failed at_ => exact based.failStep (based.running at_).1 _ _
  | killed => exact ⟨based.formed, trivial⟩

end World.Based

end Aspm.Install
