import Aspm.Install.Lineage

/-!
# No way back to an old release

A release is superseded when a boundary step was run for another one after it had been
applied: the other may have changed the data.  A rollback must not start a superseded release.

The checkpoint guards this with its offer, so the condition on the calls is the one under which
an offer is withdrawn in time: no `apply` takes up an unfinished rollback.  And no upgrade goes
back to a release that was applied before, which makes a superseded release the current one.
-/

namespace Aspm.Install

variable {log : List Entry} {e : Entry} {host : Host}

/-- An `Execute` returned that this release is applied. -/
def appliedIn (b : Bundle) : List Entry → Bool
  | [] => false
  | .returned r .applied :: log => r.bundle = b || appliedIn b log
  | _ :: log => appliedIn b log

/-- A boundary step was run for another release after this one was applied. -/
def superseded (b : Bundle) : List Entry → Bool
  | [] => false
  | .ran r s :: log => s.boundary && r.bundle ≠ b && appliedIn b log || superseded b log
  | _ :: log => superseded b log

theorem appliedIn_cons {b : Bundle} (applied : appliedIn b log = true) (e : Entry) :
    appliedIn b (e :: log) = true := by
  cases e with
  | returned r phase =>
    cases phase with
    | applied => simp [appliedIn, applied]
    | notStarted | planned | failed | uninstalled => exact applied
  | planned | rejected | began | ran | issued | failed => exact applied

theorem appliedIn_of_superseded {b : Bundle} (old : superseded b log = true) :
    appliedIn b log = true := by
  fun_induction superseded b log with
  | case1 => cases old
  | case2 log r s ih =>
    rcases Bool.or_eq_true_iff.mp old with now | earlier
    · exact (Bool.and_eq_true_iff.mp now).2
    · exact ih earlier
  | case3 e log other ih => exact appliedIn_cons (ih old) e

/-- An entry that neither applies nor starts a release. -/
def Entry.idle : Entry → Bool
  | .ran _ s => !s.boundary
  | .returned _ phase => phase ≠ .applied
  | _ => true

theorem appliedIn_of_idle (idle : e.idle = true) (b : Bundle) (log : List Entry) :
    appliedIn b (e :: log) = appliedIn b log := by
  cases e with
  | returned r phase =>
    cases phase with
    | applied => cases idle
    | notStarted | planned | failed | uninstalled => rfl
  | planned | rejected | began | ran | issued | failed => rfl

theorem superseded_of_idle (idle : e.idle = true) (b : Bundle) (log : List Entry) :
    superseded b (e :: log) = superseded b log := by
  cases e with
  | ran r s =>
    have inner : s.boundary = false := by simpa [Entry.idle] using idle
    simp [superseded, inner]
  | planned | rejected | began | issued | failed | returned => rfl

/-- No rollback is taken up by an `apply`, and no upgrade goes to a release that was applied
before. -/
def movesForward (record : Record) (log : List Entry) (c : Call) : Bool :=
  !takesUpRollback record c && (c.plan.kind ≠ .upgrade || !appliedIn c.request.bundle log)

/-- A boundary step of a rollback is run for a release that is not superseded. -/
def Entry.NotOld : Entry → List Entry → Prop
  | .ran r s, log => r.operation = .rollback → s.boundary = true → superseded r.bundle log = false
  | _, _ => True

/-- What holds of a checkpoint, given the log. -/
structure Record.Ahead (record : Record) (log : List Entry) : Prop where
  current : ∀ b, superseded b log = true → record.bundle ≠ some b
  offered : record.Offers → ∀ b, superseded b log = true → record.previous.map Prod.fst ≠ some b
  fresh : record.Offers → ∀ b, record.bundle = some b → appliedIn b log = false
  blank : record.fingerprint = none → ∀ b, appliedIn b log = false

structure World.Ahead (w : World) : Prop where
  record : w.disk.record.Ahead w.log
  /-- While a rollback is under way, its target is not superseded and the release it leaves was
  never applied. -/
  back : ∀ c, w.stage.call = some c → c.request.operation = .rollback →
    superseded c.request.bundle w.log = false ∧
      ∀ b, w.disk.record.bundle = some b → appliedIn b w.log = false
  ran : History.Everywhere Entry.NotOld w.log

namespace Record.Ahead

variable {record record' : Record}

theorem keep (ahead : record.Ahead log) (bundle : record'.bundle = record.bundle)
    (offers : record'.Offers → record.Offers) (previous : record'.previous = record.previous)
    (fingerprint : record'.fingerprint = record.fingerprint) : record'.Ahead log where
  current := by rw [bundle]; exact ahead.current
  offered := fun now => by rw [previous]; exact ahead.offered (offers now)
  fresh := fun now => by rw [bundle]; exact ahead.fresh (offers now)
  blank := by rw [fingerprint]; exact ahead.blank

theorem cons_idle (ahead : record.Ahead log) (idle : e.idle = true) :
    record.Ahead (e :: log) where
  current := fun b => by rw [superseded_of_idle idle]; exact ahead.current b
  offered := fun now b => by rw [superseded_of_idle idle]; exact ahead.offered now b
  fresh := fun now b => by rw [appliedIn_of_idle idle]; exact ahead.fresh now b
  blank := fun none b => by rw [appliedIn_of_idle idle]; exact ahead.blank none b

end Record.Ahead

namespace Entered

variable {d : Disk} {c : Call}

/-- The release after the first checkpoint: the one before it, or one that was never
applied. -/
theorem bundle_start (entered : Entered host d c) (formed : d.record.Formed)
    (ahead : d.record.Ahead log) (met : movesForward d.record log c = true) :
    (d.record.start c).bundle = d.record.bundle ∨
      ∃ b, (d.record.start c).bundle = some b ∧ appliedIn b log = false := by
  by_cases operation : c.request.operation = .apply
  · have bundle := (Record.lineage_eq_some.mp (entered.start_lineage formed operation)).1
    rw [bundle]
    have change := entered.change
    cases kind : c.plan.kind with
    | upgrade =>
      refine .inr ⟨c.request.bundle, rfl, ?_⟩
      simpa [movesForward, kind] using (Bool.and_eq_true_iff.mp met).2
    | initialInstall =>
      rw [kind] at change
      cases change with
      | fresh _ none => exact .inr ⟨c.request.bundle, rfl, ahead.blank none _⟩
      | resumeInstall _ _ _ same => exact .inl same.symm
    | reapply =>
      rw [kind] at change
      cases change with
      | again _ same => exact .inl same.symm
    | checkpointMigration => exact absurd kind (entered.regular formed)
    | rollback =>
      rw [change.rollback_iff.mpr kind] at operation
      cases operation
    | uninstall =>
      rw [change.uninstall_iff.mpr kind] at operation
      cases operation
  · refine .inl (Record.start_lineage_of_other _ ?_).1
    by_contra none
    rw [not_or] at none
    exact operation (entered.change.apply_iff.mpr none)

theorem ahead_start (entered : Entered host d c) (formed : d.record.Formed)
    (ahead : d.record.Ahead log) (met : movesForward d.record log c = true) :
    (d.record.start c).Ahead log where
  current := by
    intro b old
    rcases entered.bundle_start formed ahead met with same | ⟨b', bundle, unapplied⟩
    · rw [same]
      exact ahead.current b old
    · rw [bundle]
      rintro ⟨⟩
      rw [appliedIn_of_superseded old] at unapplied
      cases unapplied
  offered := by
    intro offers b old
    rcases entered.offers_start formed offers with ⟨-, -, same⟩ | ⟨before, -, -, same⟩
    · -- the release that is there is offered
      rw [same]
      intro offered
      obtain ⟨⟨b', config⟩, lineage, rfl⟩ := Option.map_eq_some_iff.mp offered
      exact ahead.current b' old (Record.lineage_eq_some.mp lineage).1
    · rw [same]
      exact ahead.offered before b old
  fresh := by
    intro offers b bundle
    rcases entered.bundle_start formed ahead met with same | ⟨b', found, unapplied⟩
    · rcases entered.offers_start formed offers with ⟨kind, -, -⟩ | ⟨before, -, -, -⟩
      · have target := (Record.lineage_eq_some.mp (entered.start_lineage formed
          (entered.change.apply_iff.mpr (by rw [kind]; decide)))).1
        obtain rfl : c.request.bundle = b := Option.some.inj (target.symm.trans bundle)
        simpa [movesForward, kind] using (Bool.and_eq_true_iff.mp met).2
      · rw [same] at bundle
        exact ahead.fresh before b bundle
    · obtain rfl := Option.some.inj (found.symm.trans bundle)
      exact unapplied
  blank := fun none => by cases none

end Entered

namespace World.Ahead

variable {w w' : World} {c : Call} {record : Record} {s : StepName} {todo : List StepName}

theorem blank : World.blank.Ahead where
  record := ⟨fun b old => (by cases old), fun offers => (by cases offers),
    fun offers => (by cases offers), fun _ _ => rfl⟩
  back := fun c none => by cases none
  ran := History.everywhere_nil

/-- A step that logs nothing about releases and keeps the record. -/
theorem keep (ahead : w.Ahead) (record : w'.disk.record.Ahead w.log)
    (bundle : w'.disk.record.bundle = w.disk.record.bundle)
    (call : ∀ c, w'.stage.call = some c → w.stage.call = some c)
    (log : w'.log = w.log ∨ ∃ e : Entry, e.idle = true ∧ w'.log = e :: w.log) : w'.Ahead := by
  rcases log with log | ⟨e, idle, log⟩
  · refine ⟨by rwa [log], fun c found back => ?_, by rw [log]; exact ahead.ran⟩
    rw [log, bundle]
    exact ahead.back c (call c found) back
  · refine ⟨by rw [log]; exact record.cons_idle idle, fun c found back => ?_, ?_⟩
    · simp only [log, bundle, superseded_of_idle idle, appliedIn_of_idle idle]
      exact ahead.back c (call c found) back
    · rw [log]
      refine History.everywhere_cons.mpr ⟨?_, ahead.ran⟩
      cases e with
      | ran r s =>
        intro _ boundary
        simp [Entry.idle, boundary] at idle
      | planned | rejected | began | issued | failed | returned => trivial

/-- The record of a call in progress. -/
theorem memory (ahead : w.Ahead) (holding : Holding w c record todo) : record.Ahead w.log := by
  have same := Record.same_units holding.linked
  refine ahead.record.keep same.bundle.symm (fun offers => ?_) same.previous.symm
    same.fingerprint.symm
  show w.disk.record.mode = _
  rw [holding.linked]
  exact offers

theorem failStep (ahead : w.Ahead) (holding : Holding w c record todo) (s : StepName)
    (cause : Failure) : (failStep w c record s cause).Ahead := by
  refine ahead.keep ?_ (Record.same_units holding.linked).bundle.symm (fun _ none => by cases none)
    (.inr ⟨_, rfl, rfl⟩)
  show (record.fail s cause).Ahead w.log
  exact (ahead.memory holding).keep rfl id rfl rfl

theorem openCall (ahead : w.Ahead) (based : w.Based host) (at_ : w.stage = .opening c)
    (met : movesForward w.disk.record w.log c = true) : (openCall w c).Ahead := by
  have entered := based.opening at_
  have record := entered.ahead_start based.formed ahead.record met
  simp only [Install.openCall, if_neg (entered.regular based.formed)]
  refine ⟨record.cons_idle rfl, fun c' found back => ?_,
    History.everywhere_cons.mpr ⟨trivial, ahead.ran⟩⟩
  cases found
  have change := entered.change
  have kind := change.rollback_iff.mp back
  rw [kind] at change
  cases change with
  | back _ eligible offered =>
    refine ⟨?_, fun b bundle => ?_⟩
    · refine Bool.eq_false_iff.mpr fun old => ahead.record.offered eligible _ old ?_
      rw [offered]
      rfl
    · refine ahead.record.fresh eligible b ?_
      exact (Record.start_lineage_of_other _ (.inl kind)).1.symm.trans bundle

/-- A boundary step supersedes the releases applied before, but for the one it starts. -/
theorem boundary (ahead : w.Ahead) (holding : Holding w c record (s :: todo))
    {record' : Record}
    (bundle : record'.bundle = record.bundle) (fingerprint : record'.fingerprint ≠ none)
    (withdrawn : ¬ record'.Offers) (at_ : w.stage.call = some c) (inner : s.boundary = true) :
    record'.Ahead (.ran c.request s :: w.log) where
  current := by
    intro b old
    rw [bundle]
    simp only [superseded, Bool.or_eq_true, Bool.and_eq_true, decide_eq_true_eq] at old
    rcases old with ⟨⟨-, other⟩, applied⟩ | earlier
    · have mem : s ∈ steps c.request := by
        obtain ⟨done, all, -⟩ := holding.progress
        rw [all]
        simp
      cases operation : c.request.operation with
      | apply =>
        rw [(Record.lineage_eq_some.mp (holding.call.target operation)).1]
        exact fun same => other (Option.some.inj same)
      | rollback =>
        intro same
        have unapplied := (ahead.back c at_ operation).2 b
          ((Record.same_units holding.linked).bundle.trans same)
        rw [applied] at unapplied
        cases unapplied
      | uninstall => exact absurd operation (operation_of_boundary mem inner)
    · exact (ahead.memory holding).current b earlier
  offered := fun offers => absurd offers withdrawn
  fresh := fun offers => absurd offers withdrawn
  blank := fun none => absurd none fingerprint

theorem enterStep (ahead : w.Ahead) (based : w.Based host) (offering : w.disk.record.Offering)
    (at_ : w.stage = .looping c record (s :: todo)) : (enterStep w c record s todo).Ahead := by
  have holding := based.looping at_
  have same := Record.same_units holding.linked
  have call : w.stage.call = some c := by rw [at_]; rfl
  have calls : ∀ c', some c = some c' → w.stage.call = some c' := fun c' found =>
    call.trans found
  have installed : record.fingerprint ≠ none := by simp [holding.call.fingerprint]
  have memory := ahead.memory holding
  -- what every world after a boundary step has in common
  have started : ∀ w' : World, w'.log = .ran c.request s :: w.log → w'.stage.call = some c →
      w'.disk.record.bundle = record.bundle → w'.disk.record.fingerprint ≠ none →
      ¬ w'.disk.record.Offers → s.boundary = true → w'.Ahead := by
    intro w' log found bundle fingerprint withdrawn inner
    refine ⟨?_, ?_, ?_⟩
    · rw [log]
      exact ahead.boundary holding bundle fingerprint withdrawn call inner
    · intro c' other back
      obtain rfl : c = c' := Option.some.inj (found.symm.trans other)
      have before := ahead.back c call back
      rw [log, bundle, ← same.bundle]
      exact ⟨by simpa [superseded] using before.1, before.2⟩
    · rw [log]
      exact History.everywhere_cons.mpr ⟨fun back _ => (ahead.back c call back).1, ahead.ran⟩
  unfold Install.enterStep
  split
  · exact ahead.keep ahead.record rfl calls (.inl rfl)
  · split
    · next crossing =>
        have inner : s.boundary = true := by
          simp only [Record.crosses, Bool.and_eq_true] at crossing
          exact crossing.1.1
        exact started _ rfl rfl rfl installed (Record.not_offers_cross record) inner
    · next crossing =>
        by_cases inner : s.boundary = true
        · have withdrawn := (offering.withUnits holding.linked).not_offers_of_boundary holding.call
            (Bool.eq_false_iff.mpr crossing) inner
          refine started _ rfl rfl same.bundle (by rw [same.fingerprint]; exact installed) ?_ inner
          show ¬ w.disk.record.mode = _
          rw [holding.linked]
          exact withdrawn
        · exact ahead.keep ahead.record rfl calls (.inr ⟨_, by simpa [Entry.idle] using inner, rfl⟩)

theorem finishCall (ahead : w.Ahead) (based : w.Based host) (offering : w.disk.record.Offering)
    (at_ : w.stage = .looping c record []) : (finishCall w c record).Ahead := by
  have holding := based.looping at_
  have withdrawn := (offering.withUnits holding.linked).finish holding
  have installed : (record.finish c).fingerprint ≠ none := by
    have same : (record.finish c).fingerprint = record.fingerprint := by
      by_cases kind : c.plan.kind = .rollback <;> simp [Record.finish, kind]
    simp [same, holding.call.fingerprint]
  refine ⟨⟨fun b old => ?_, fun offers => absurd offers withdrawn,
    fun offers => absurd offers withdrawn, fun none => absurd none installed⟩,
    fun c none => (by cases none), History.everywhere_cons.mpr ⟨trivial, ahead.ran⟩⟩
  have old : superseded b w.log = true := old
  show (record.finish c).bundle ≠ some b
  by_cases kind : c.plan.kind = .rollback
  · -- the target of the rollback is the release that is there now
    have target : (record.finish c).bundle = some c.request.bundle := by
      simp [Record.finish, kind, holding.call.bundle]
    rw [target]
    rintro ⟨⟩
    have back := (ahead.back c (by rw [at_]; rfl) (holding.call.returns.mpr kind)).1
    rw [old] at back
    cases back
  · have same : (record.finish c).bundle = record.bundle := by simp [Record.finish, kind]
    rw [same]
    exact (ahead.memory holding).current b old

end World.Ahead

theorem ahead_step {w w' : World} {a : Action} (ahead : w.Ahead) (based : w.Based host)
    (offering : w.disk.record.Offering)
    (met : ∀ c, w.stage = .opening c → movesForward w.disk.record w.log c = true)
    (taken : step host w a = some w') : w'.Ahead := by
  cases taken_of_step taken with
  | planned => exact ahead.keep ahead.record rfl (fun _ found => found) (.inr ⟨_, rfl, rfl⟩)
  | planRefused => exact ahead.keep ahead.record rfl (fun _ found => found) (.inr ⟨_, rfl, rfl⟩)
  | refused => exact ahead.keep ahead.record rfl (fun _ found => found) (.inr ⟨_, rfl, rfl⟩)
  | entered => exact ahead.keep ahead.record rfl (fun _ none => by cases none) (.inl rfl)
  | killed => exact ahead.keep ahead.record rfl (fun _ none => by cases none) (.inl rfl)
  | opened at_ => exact ahead.openCall based at_ (met _ at_)
  | finished at_ => exact ahead.finishCall based offering at_
  | stepped at_ => exact ahead.enterStep based offering at_
  | performed at_ =>
    obtain ⟨holding, -⟩ := based.running at_
    rcases performNext_cases host w _ _ _ _ _ _ with ⟨cause, failed⟩ | ⟨d, record, result, next⟩
    · rw [failed]
      exact ahead.failStep holding _ cause
    · rw [next]
      have loaded := perform_loaded result
      refine ahead.keep ?_ (congrArg Record.bundle loaded)
        (fun c found => by rw [at_]; exact found) ?_
      · show d.record.Ahead w.log
        rw [loaded]
        exact ahead.record
      · rename_i e _ _
        cases e with
        | native command => exact .inr ⟨_, rfl, rfl⟩
        | material | policy | environments | readPolicy | unit _ | networkFiles | requireOwned
          | validate | remove _ | values => exact .inl rfl
  | completed at_ =>
    obtain ⟨holding, -⟩ := based.running at_
    exact ahead.keep ((ahead.memory holding).keep rfl id rfl rfl)
      (Record.same_units holding.linked).bundle.symm (fun c found => by rw [at_]; exact found)
      (.inl rfl)
  | refusedStep at_ => exact ahead.failStep (based.looping at_) _ _
  | failed at_ => exact ahead.failStep (based.running at_).1 _ _

/-- If no `apply` takes up an unfinished rollback and no upgrade goes to a release that was
applied before, then no rollback runs a boundary step for a superseded release, and one that is
asked for is refused by `Plan` and by `Execute`: the data have to be restored, or there is no
such rollback. -/
theorem no_superseded_start {host : Host} {as : List Action} {w : World}
    (met : Machine.Always (step host) (fun w a => admitted host movesForward w a = true) .blank as)
    (runs : Machine.run (step host) .blank as = some w) :
    (∀ newer older r s, w.log = newer ++ .ran r s :: older → r.operation = .rollback →
        s.boundary = true → superseded r.bundle older = false) ∧
      ∀ r, host.Accepts r → r.operation = .rollback → superseded r.bundle w.log = true →
        (prepare host w.disk.record r = .error .restoreRequired ∨
          prepare host w.disk.record r = .error .unsupported) ∧
        ∀ approval, enter host w.disk r approval = .error .restoreRequired ∨
          enter host w.disk r approval = .error .unsupported := by
  obtain ⟨based, -, ahead, -⟩ := met.run_invariant
    (I := fun w => w.Based host ∧ w.disk.record.Offering ∧ w.Ahead ∧
      ∀ c, w.stage = .opening c → movesForward w.disk.record w.log c = true)
    (fun w a w' inv met taken => by
      obtain ⟨based, offering, ahead, opening⟩ := inv
      exact ⟨based.step taken, offering_step based offering
        (fun c at_ => by simpa using (Bool.and_eq_true_iff.mp (opening c at_)).1) taken,
        ahead_step ahead based offering opening taken,
        fun c at_ => opening_of_admitted met taken at_⟩)
    ⟨.blank, Record.offering_of_not_offers (by rintro ⟨⟩), .blank, fun c at_ => by cases at_⟩ runs
  refine ⟨fun newer older r s split => ahead.ran newer (.ran r s) older split, ?_⟩
  intro r accepts operation old
  have refused := prepare_rollback accepts based.formed.version operation fun eligible offered => by
    refine ahead.record.offered eligible _ old ?_
    rw [offered]
    rfl
  refine ⟨refused, fun approval => ?_⟩
  rcases refused with refused | refused
  · exact .inl (by simp [enter, refused, bind, Except.bind])
  · exact .inr (by simp [enter, refused, bind, Except.bind])

def clusterRollback : Request := plainRequest .rollback .kubernetes ['a']

def clusterRollbackID : PlanID := plainID clusterRollback .rollback (some (plainBundle ['b']))

/-- A release is applied, and an upgrade runs its boundary step and fails after it. -/
def upgradeStarted : List Action :=
  callFor clusterInstall clusterInstallID 30 ++ callFor clusterUpgrade clusterUpgradeID 26 ++
    [.fail .command]

theorem no_superseded_start_upgrade :
    ∃ w, Machine.run (step plainHost) .blank upgradeStarted = some w ∧
      plainHost.Accepts clusterRollback ∧ superseded clusterRollback.bundle w.log = true ∧
      (prepare plainHost w.disk.record clusterRollback = .error .restoreRequired ∨
        prepare plainHost w.disk.record clusterRollback = .error .unsupported) := by
  obtain ⟨w, runs, found⟩ := Machine.exists_run_of_any (step plainHost)
    (p := fun w => superseded clusterRollback.bundle w.log)
    (by decide +kernel : (Machine.run (step plainHost) .blank upgradeStarted).any _ = true)
  have met : Machine.Always (step plainHost)
      (fun w a => admitted plainHost movesForward w a = true) .blank upgradeStarted :=
    Machine.always_of_checkAlways (by decide +kernel)
  have accepts : plainHost.Accepts clusterRollback := ⟨rfl, rfl, rfl, rfl, rfl, rfl⟩
  exact ⟨w, runs, accepts, found,
    ((no_superseded_start met runs).2 clusterRollback accepts rfl found).1⟩

/-- An upgrade fails before its boundary step, and so does the rollback from it.  The new
release is then applied, which takes up the rollback; and the old one is rolled back to. -/
def rollbackReopened : List Action :=
  callFor clusterInstall clusterInstallID 30 ++ callFor clusterUpgrade clusterUpgradeID 1 ++
    .fail .command :: callFor clusterRollback clusterRollbackID 1 ++
    .fail .command :: callFor clusterUpgrade clusterRollbackID 30 ++
    callFor (clusterRollback.withCore ['d'])
      (plainID (clusterRollback.withCore ['d']) .rollback (some (plainBundle ['b']))) 30

/-- The new release was applied, and then the old one was started over its data. -/
theorem superseded_start :
    ∃ w newer older, Machine.run (step plainHost) .blank rollbackReopened = some w ∧
      w.log = newer ++ .ran (clusterRollback.withCore ['d']) .helmUpgrade :: older ∧
      superseded clusterRollback.bundle older = true ∧
      .returned clusterUpgrade .applied ∈ older := by
  obtain ⟨w, runs, found⟩ := Machine.exists_run_of_any (step plainHost)
    (p := fun w => decide
      (w.log.drop 2 = .ran (clusterRollback.withCore ['d']) .helmUpgrade :: w.log.drop 3 ∧
        superseded clusterRollback.bundle (w.log.drop 3) = true ∧
        .returned clusterUpgrade .applied ∈ w.log.drop 3))
    (by decide +kernel : (Machine.run (step plainHost) .blank rollbackReopened).any _ = true)
  obtain ⟨ran, old, applied⟩ := of_decide_eq_true found
  refine ⟨w, w.log.take 2, w.log.drop 3, runs, ?_, old, applied⟩
  rw [← ran, List.take_append_drop]

end Aspm.Install
