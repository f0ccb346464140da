import Aspm.Install.Lineage

/-!
# What a finished call has done

A call passes over the steps that its checkpoint lists as completed.  It is right to do so if
the list was written by a call with the same work before it.  The list is emptied only when the
plan id changes, and an id can come back: an uninstall after a reinstallation has the id that
the checkpoint took over from the uninstall before, and finds its steps completed.

So the condition on a call that keeps the list is that it has the kind and the roles of the
checkpoint, or that none of its own steps is listed.  The other condition is about the moment at
which a process dies: the checkpoint has to know the unit files, or an uninstall will leave some.
-/

namespace Aspm.Install

open Json (Text)

variable {r : Request} {s : StepName} {record record' : Record} {u : UnitName} {w w' : World}
  {c : Call} {host : Host} {d d' : Disk} {e : Effect} {log : List Entry} {todo : List StepName}
  {pending : List Effect}

/-! ## Commands and units -/

/-- The last start or stop command was a stop. -/
def stoppedIn : List Entry → Bool
  | [] => false
  | .issued _ (.stop _) :: _ => true
  | .issued _ (.start _) :: _ => false
  | _ :: log => stoppedIn log

/-- All six unit files are the ones of this bundle, rendered for these roles. -/
def UnitsOf (host : Host) (b : Bundle) (roles : RuntimeRoles) (d : Disk) : Prop :=
  ∀ u, ∃ data, renderUnit host b roles u = .ok data ∧ d.units u = some data

/-- No unit file is there that the record does not list. -/
def Recorded (record : Record) (d : Disk) : Prop :=
  ∀ u data, d.units u = some data → record.ownedUnits u = some data

/-- The steps of a Linux host are those of one operation. -/
theorem mem_steps_linux (linux : r.config.kind = .linux) (mem : s ∈ steps r) :
    s = .protectedCredentials ∨
      (s ∈ linuxUninstall ∧ r.operation = .uninstall) ∨
      (s ∈ linuxApply ∧ r.operation ≠ .uninstall) := by
  unfold steps at mem
  rw [linux] at mem
  rcases List.mem_cons.mp mem with rfl | mem
  · exact .inl rfl
  · cases operation : r.operation with
    | uninstall =>
      rw [operation] at mem
      exact .inr (.inl ⟨mem, rfl⟩)
    | apply | rollback =>
      rw [operation] at mem
      exact .inr (.inr ⟨mem, Operation.noConfusion⟩)

/-- A unit is only written by its step. -/
theorem step_of_unit (mem : Effect.unit u ∈ effects record s) : s = .quadletFiles := by
  cases s <;> simp [effects] at mem ⊢

/-- A unit is only removed by its step. -/
theorem step_of_remove (mem : Effect.remove u ∈ effects record s) :
    s = .removeOwnedActivationDefinitions := by
  cases s <;> simp [effects] at mem ⊢

/-- A service is only started by a step of an installation. -/
theorem step_of_start (mem : Effect.native (.start u) ∈ effects record s) : s ∈ linuxApply := by
  cases s <;> simp [effects] at mem ⊢ <;> decide

theorem not_mem_linuxApply : ∀ s ∈ linuxUninstall, s ∉ linuxApply := by
  decide

/-! ## The condition -/

/-- The call is on a Linux host; if it keeps the completed steps, then they are its own, or
none of its steps is among them. -/
def ownSteps (record : Record) (_ : List Entry) (c : Call) : Bool :=
  c.request.config.kind = .linux &&
    (c.reapply || record.planID ≠ some c.id ||
      (record.kind = some c.plan.kind && record.roles = some c.request.roles) ||
      (steps c.request).all fun s => s = .protectedCredentials || s ∉ record.completed)

/-- The checkpoint knows the unit files. -/
def checkpointed (w : World) : Bool :=
  activationUnits.all fun u =>
    w.disk.units u = none || w.disk.record.ownedUnits u = w.disk.units u

/-- Every call does its own steps, and the process dies when the checkpoint knows the unit
files. -/
def orderly (host : Host) (w : World) (a : Action) : Bool :=
  admitted host ownSteps w a && (a ≠ .kill || checkpointed w)

theorem recorded_of_checkpointed (known : checkpointed w = true) :
    Recorded w.disk.record w.disk := by
  intro u data found
  have known := List.all_eq_true.mp known u (mem_activationUnits u)
  simpa [found] using known

/-! ## What the completed steps say -/

namespace Record

/-- The release that the last call was about. -/
def target (record : Record) : Option Bundle :=
  if record.kind = some .rollback ∧ record.phase ≠ .applied then record.previous.map Prod.fst
  else record.bundle

/-- The completed steps of the last call were done, and are not undone. -/
structure Kept (host : Host) (record : Record) (d : Disk) (log : List Entry) : Prop where
  written : .quadletFiles ∈ record.completed → record.kind ≠ some .uninstall →
    ∃ b roles, record.target = some b ∧ record.roles = some roles ∧ UnitsOf host b roles d
  removed : .removeOwnedActivationDefinitions ∈ record.completed →
    record.kind = some .uninstall → ∀ u, d.units u = none
  stopped : .stopOwnedServices ∈ record.completed → record.kind = some .uninstall →
    stoppedIn log = true
  back : record.kind = some .rollback → record.phase = .applied → ¬ record.Offers

end Record

/-- In a call the target is the bundle of the request. -/
theorem InCall.target_eq (call : InCall c record) (operation : c.request.operation ≠ .uninstall) :
    record.target = some c.request.bundle := by
  unfold Record.target
  cases found : c.request.operation with
  | uninstall => exact absurd found operation
  | rollback =>
    have kind := call.returns.mp found
    rw [if_pos ⟨by rw [call.kind, kind], by rw [call.unfinished]; exact Phase.noConfusion⟩,
      call.back found]
    rfl
  | apply =>
    have notBack := (call.installs.mp found).1
    rw [if_neg (fun both => notBack (Option.some.inj (call.kind.symm.trans both.1)))]
    exact (Record.lineage_eq_some.mp (call.target found)).1

section Call

variable {log' : List Entry}

theorem InCall.kind_uninstall (call : InCall c record) :
    record.kind = some .uninstall ↔ c.request.operation = .uninstall := by
  rw [call.kind, Option.some_inj, call.removes]

/-- What is kept, in terms of the call. -/
theorem InCall.kept_iff (call : InCall c record) :
    record.Kept host d log ↔
      (.quadletFiles ∈ record.completed → c.request.operation ≠ .uninstall →
        UnitsOf host c.request.bundle c.request.roles d) ∧
      (.removeOwnedActivationDefinitions ∈ record.completed →
        c.request.operation = .uninstall → ∀ u, d.units u = none) ∧
      (.stopOwnedServices ∈ record.completed → c.request.operation = .uninstall →
        stoppedIn log = true) := by
  constructor
  · intro kept
    refine ⟨fun listed operation => ?_, fun listed operation => ?_, fun listed operation => ?_⟩
    · obtain ⟨b, roles, target, found, units⟩ := kept.written listed
        (fun kind => operation (call.kind_uninstall.mp kind))
      obtain rfl := Option.some.inj ((call.target_eq operation).symm.trans target)
      obtain rfl := Option.some.inj (call.roles.symm.trans found)
      exact units
    · exact kept.removed listed (call.kind_uninstall.mpr operation)
    · exact kept.stopped listed (call.kind_uninstall.mpr operation)
  · rintro ⟨written, removed, stopped⟩
    refine ⟨fun listed kind => ?_, fun listed kind => ?_, fun listed kind => ?_, fun _ phase => ?_⟩
    · have operation := fun uninstall => kind (call.kind_uninstall.mpr uninstall)
      exact ⟨_, _, call.target_eq operation, call.roles, written listed operation⟩
    · exact removed listed (call.kind_uninstall.mp kind)
    · exact stopped listed (call.kind_uninstall.mp kind)
    · rw [call.unfinished] at phase
      cases phase

end Call

/-! ## The first checkpoint -/

section Start

/-- A call with the kind and the id of the checkpoint is about the same release. -/
theorem Entered.target_of_kind (entered : Entered host d c) (formed : d.record.Formed)
    (kept : d.record.Kept host d log) (stored : d.record.planID = some c.id)
    (kind : d.record.kind = some c.plan.kind) (operation : c.request.operation ≠ .uninstall) :
    d.record.target = some c.request.bundle := by
  have change := entered.change
  have notRemoved : c.plan.kind ≠ .uninstall := fun removed =>
    operation (change.uninstall_iff.mpr removed)
  unfold Record.target
  rw [kind]
  cases found : c.plan.kind with
  | uninstall => exact absurd found notRemoved
  | checkpointMigration => exact absurd found (entered.regular formed)
  | upgrade => simpa using (entered.upgrade_same formed found stored).1
  | initialInstall =>
    rw [found] at change
    cases change with
    | fresh _ none => exact absurd none (formed.planned (by simp [stored]))
    | resumeInstall _ _ _ same => simpa using same
  | reapply =>
    rw [found] at change
    cases change with
    | again _ same => simpa using same
  | rollback =>
    rw [found] at change kind
    cases change with
    | back _ eligible offered =>
      have unfinished : d.record.phase ≠ .applied := fun applied =>
        kept.back kind applied eligible
      rw [if_pos ⟨rfl, unfinished⟩, offered]
      rfl

theorem Entered.kept_start (entered : Entered host d c) (formed : d.record.Formed)
    (kept : d.record.Kept host d log) (own : ownSteps d.record log c = true) :
    (d.record.start c).Kept host d log := by
  rw [(entered.inCall formed).kept_iff]
  have completed : (d.record.start c).completed =
      if c.reapply ∨ d.record.planID ≠ some c.id then [] else d.record.completed := rfl
  rw [completed]
  by_cases cleared : c.reapply = true ∨ d.record.planID ≠ some c.id
  · rw [if_pos cleared]
    exact ⟨fun listed => absurd listed List.not_mem_nil,
      fun listed => absurd listed List.not_mem_nil, fun listed => absurd listed List.not_mem_nil⟩
  rw [if_neg cleared]
  rw [not_or, not_not] at cleared
  obtain ⟨again, stored⟩ := cleared
  simp only [ownSteps, Bool.and_eq_true, Bool.or_eq_true, decide_eq_true_eq] at own
  obtain ⟨linux, ((again' | fresh) | ⟨kind, roles⟩) | none⟩ := own
  · exact absurd again' again
  · exact absurd stored fresh
  · have removes := entered.change.uninstall_iff
    refine ⟨fun listed operation => ?_, fun listed operation => ?_, fun listed operation => ?_⟩
    · obtain ⟨b, roles', target, found, units⟩ := kept.written listed (by
        rw [kind]
        exact fun same => operation (removes.mpr (Option.some.inj same)))
      obtain rfl := Option.some.inj
        ((entered.target_of_kind formed kept stored kind operation).symm.trans target)
      obtain rfl := Option.some.inj (roles.symm.trans found)
      exact units
    · exact kept.removed listed (by rw [kind, removes.mp operation])
    · exact kept.stopped listed (by rw [kind, removes.mp operation])
  · -- the steps of the call are not in the list
    have absent : ∀ s ∈ steps c.request, s ≠ .protectedCredentials → s ∉ d.record.completed := by
      intro s mem other
      have := List.all_eq_true.mp none s mem
      simpa [other] using this
    refine ⟨fun listed operation => ?_, fun listed operation => ?_, fun listed operation => ?_⟩
    · refine absurd listed (absent _ ?_ (by decide))
      cases found : c.request.operation with
      | uninstall => exact absurd found operation
      | apply | rollback => simp [steps, found, linux, linuxApply]
    · exact absurd listed (absent _ (by simp [steps, operation, linux, linuxUninstall]) (by decide))
    · exact absurd listed (absent _ (by simp [steps, operation, linux, linuxUninstall]) (by decide))

end Start

/-! ## A step in progress -/

/-- How far a step has come. -/
structure Working (host : Host) (w : World) (c : Call) (record : Record) (s : StepName)
    (pending : List Effect) : Prop where
  part : ∃ before, pending <:+ effects before s
  writing : s = .quadletFiles → ∀ u, .unit u ∈ pending ∨
    ∃ data, renderUnit host c.request.bundle c.request.roles u = .ok data ∧
      w.disk.units u = some data
  removing : s = .removeOwnedActivationDefinitions → ∀ u, record.ownedUnits u = none ∨
    .remove u ∈ pending ∨ w.disk.units u = none
  stopping : s = .stopOwnedServices → (∃ us, .native (.stop us) ∈ pending) ∨
    stoppedIn w.log = true

/-- What an effect does to the units. -/
theorem perform_units (result : perform host r d record e = .ok (d', record')) :
    (∃ u data, e = .unit u ∧ renderUnit host r.bundle r.roles u = .ok data ∧
        d'.units = Function.update d.units u (some data) ∧
        record'.ownedUnits = Function.update record.ownedUnits u (some data)) ∨
      (∃ u, e = .remove u ∧ d'.units = Function.update d.units u none ∧ record' = record) ∨
      ((∀ u, e ≠ .unit u) ∧ (∀ u, e ≠ .remove u) ∧ d'.units = d.units ∧ record' = record) := by
  cases e with
  | unit u =>
    simp only [perform] at result
    split at result
    · cases result
    · next data rendered =>
        split at result
        · cases result
        · cases result
          exact .inl ⟨u, data, rfl, rendered, rfl, rfl⟩
  | remove u =>
    cases result
    exact .inr (.inl ⟨u, rfl, rfl, rfl⟩)
  | material =>
    obtain ⟨m, -, same⟩ := Fallible.map_eq_ok.mp result
    cases same
    exact .inr (.inr ⟨fun _ => Effect.noConfusion, fun _ => Effect.noConfusion, rfl, rfl⟩)
  | readPolicy | validate =>
    simp only [perform] at result
    split at result
    · cases result
      exact .inr (.inr ⟨fun _ => Effect.noConfusion, fun _ => Effect.noConfusion, rfl, rfl⟩)
    · cases result
  | requireOwned =>
    simp only [perform] at result
    split at result
    · cases result
    · cases result
      exact .inr (.inr ⟨fun _ => Effect.noConfusion, fun _ => Effect.noConfusion, rfl, rfl⟩)
  | policy | environments | native _ | networkFiles | values =>
    cases result
    exact .inr (.inr ⟨fun _ => Effect.noConfusion, fun _ => Effect.noConfusion, rfl, rfl⟩)

theorem Recorded.perform (recorded : Recorded record d)
    (result : perform host r d record e = .ok (d', record')) : Recorded record' d' := by
  intro u data found
  rcases perform_units result with ⟨v, written, -, -, units, owned⟩ | ⟨v, -, units, rfl⟩ |
    ⟨-, -, units, rfl⟩
  · rw [units] at found
    rw [owned]
    by_cases same : u = v
    · subst same
      rw [Function.update_self] at found ⊢
      exact found
    · rw [Function.update_of_ne same] at found ⊢
      exact recorded u data found
  · rw [units] at found
    by_cases same : u = v
    · subst same
      rw [Function.update_self] at found
      cases found
    · rw [Function.update_of_ne same] at found
      exact recorded u data found
  · rw [units] at found
    exact recorded u data found

theorem stoppedIn_entries (notStart : ∀ u, e ≠ .native (.start u))
    (stopped : stoppedIn log = true) : stoppedIn (e.entries r ++ log) = true := by
  cases e with
  | native command =>
    cases command with
    | start u => exact absurd rfl (notStart u)
    | stop us => rfl
    | removePolicySecret | createPolicySecret | daemonReload | ready _ | applyNamespace
      | applyDatabaseSecret | applyRoleSecret _ | applyPolicySecret | helmUpgrade | helmUninstall
      | deleteVolumes | deleteSecrets => exact stopped
  | material | policy | environments | readPolicy | unit _ | networkFiles | requireOwned
    | validate | remove _ | values => exact stopped

namespace Working

variable {stage : Stage}

/-- The next effect is one of the step. -/
theorem mem (working : Working host w c record s (e :: pending)) :
    ∃ before, e ∈ effects before s := by
  obtain ⟨before, part⟩ := working.part
  exact ⟨before, part.subset List.mem_cons_self⟩

theorem perform (working : Working host w c record s (e :: pending))
    (result : perform host c.request w.disk record e = .ok (d', record')) :
    Working host ⟨d', stage, e.entries c.request ++ w.log⟩ c record' s pending where
  part := by
    obtain ⟨before, part⟩ := working.part
    exact ⟨before, (List.suffix_cons e pending).trans part⟩
  writing := by
    intro quadlet u
    obtain ⟨before, mem⟩ := working.mem
    rcases perform_units result with ⟨v, data, rfl, rendered, units, -⟩ | ⟨v, rfl, -, -⟩ |
      ⟨notUnit, -, units, -⟩
    · by_cases same : u = v
      · subst same
        exact .inr ⟨data, rendered, by rw [units, Function.update_self]⟩
      · rcases working.writing quadlet u with later | written
        · rcases List.mem_cons.mp later with first | later
          · cases first
            exact absurd rfl same
          · exact .inl later
        · rw [units, Function.update_of_ne same]
          exact .inr written
    · have other := step_of_remove mem
      rw [quadlet] at other
      cases other
    · rw [units]
      rcases working.writing quadlet u with later | written
      · rcases List.mem_cons.mp later with first | later
        · exact absurd first.symm (notUnit u)
        · exact .inl later
      · exact .inr written
  removing := by
    intro removal u
    obtain ⟨before, mem⟩ := working.mem
    rcases perform_units result with ⟨v, data, rfl, -, -, -⟩ | ⟨v, rfl, units, rfl⟩ |
      ⟨-, notRemove, units, rfl⟩
    · have other := step_of_unit mem
      rw [removal] at other
      cases other
    · by_cases same : u = v
      · subst same
        exact .inr (.inr (by rw [units, Function.update_self]))
      · rw [units, Function.update_of_ne same]
        rcases working.removing removal u with unowned | later | gone
        · exact .inl unowned
        · rcases List.mem_cons.mp later with first | later
          · cases first
            exact absurd rfl same
          · exact .inr (.inl later)
        · exact .inr (.inr gone)
    · rw [units]
      rcases working.removing removal u with unowned | later | gone
      · exact .inl unowned
      · rcases List.mem_cons.mp later with first | later
        · exact absurd first.symm (notRemove u)
        · exact .inr (.inl later)
      · exact .inr (.inr gone)
  stopping := by
    intro stop
    obtain ⟨before, mem⟩ := working.mem
    rcases working.stopping stop with ⟨us, later⟩ | stopped
    · rcases List.mem_cons.mp later with rfl | later
      · exact .inr rfl
      · exact .inl ⟨us, later⟩
    · refine .inr (stoppedIn_entries (fun u start => ?_) stopped)
      rw [start, stop] at mem
      exact absurd (step_of_start mem) (by decide)

end Working

/-- A step at its beginning. -/
theorem working_start (c : Call) {before : Record} (same : before.ownedUnits = record.ownedUnits)
    (s : StepName) :
    Working host w c record s (effects before s) where
  part := ⟨before, List.suffix_rfl⟩
  writing := by
    rintro rfl u
    left
    cases u <;> simp [effects]
  removing := by
    rintro rfl u
    by_cases owned : record.ownedUnits u = none
    · exact .inl owned
    · right
      left
      have listed : u ∈ ownedList before := by
        simp [ownedList, same, Option.isSome_iff_ne_none, owned]
      exact List.mem_cons_of_mem _ (List.mem_map_of_mem listed)
  stopping := by
    rintro rfl
    exact .inl ⟨ownedList before, by simp [effects]⟩

/-! ## The world -/

/-- The record of the call in progress, or else the checkpoint. -/
def World.current (w : World) : Record :=
  match w.stage with
  | .idle | .opening _ => w.disk.record
  | .looping _ record _ | .running _ record _ _ _ => record

section Current

theorem World.current_idle (at_ : w.stage = .idle) : w.current = w.disk.record := by
  simp only [current, at_]

theorem World.current_opening (at_ : w.stage = .opening c) : w.current = w.disk.record := by
  simp only [current, at_]

theorem World.current_looping (at_ : w.stage = .looping c record todo) : w.current = record := by
  simp only [current, at_]

theorem World.current_running (at_ : w.stage = .running c record s pending todo) :
    w.current = record := by
  simp only [current, at_]

end Current

structure World.Kept (host : Host) (w : World) : Prop where
  record : w.disk.record.Kept host w.disk w.log
  recorded : Recorded w.current w.disk
  linux : ∀ c, w.stage.call = some c → c.request.config.kind = .linux
  working : ∀ c record s pending todo, w.stage = .running c record s pending todo →
    Working host w c record s pending

/-- The checkpoint of a call in progress. -/
theorem Holding.disk (holding : Holding w c record todo) : InCall c w.disk.record := by
  refine holding.call.of_same (Record.same_units holding.linked) ?_
  rw [holding.linked]
  rfl

namespace Record.Kept

variable {log' : List Entry}

/-- On a disk with the same units, after entries that start nothing. -/
theorem mono (kept : record.Kept host d log) (units : d'.units = d.units)
    (stopped : stoppedIn log = true → stoppedIn log' = true) : record.Kept host d' log' where
  written := by
    intro listed kind
    obtain ⟨b, roles, target, found, all⟩ := kept.written listed kind
    exact ⟨b, roles, target, found, fun u => by rw [units]; exact all u⟩
  removed := by
    rw [units]
    exact kept.removed
  stopped := fun listed kind => stopped (kept.stopped listed kind)
  back := kept.back

/-- In a call, only the completed steps matter. -/
theorem of_completed (kept : record.Kept host d log) (call : InCall c record)
    (call' : InCall c record') (completed : record'.completed = record.completed) :
    record'.Kept host d log := by
  rw [call.kept_iff] at kept
  rw [call'.kept_iff, completed]
  exact kept

end Record.Kept

namespace World.Kept

theorem blank : World.blank.Kept host where
  record := ⟨fun listed => absurd listed List.not_mem_nil,
    fun listed => absurd listed List.not_mem_nil, fun listed => absurd listed List.not_mem_nil,
    fun kind => by cases kind⟩
  recorded := fun u data found => by cases found
  linux := fun c none => by cases none
  working := fun c record s pending todo at_ => by cases at_

/-- A step that leaves the disk and logs nothing about services. -/
theorem quiet (kept : w.Kept host) (disk : w'.disk = w.disk)
    (stopped : stoppedIn w.log = true → stoppedIn w'.log = true)
    (recorded : Recorded w'.current w'.disk) (call : w'.stage.call = none) : w'.Kept host where
  record := by
    rw [disk]
    exact kept.record.mono rfl stopped
  recorded := recorded
  linux := fun c found => by rw [call] at found; cases found
  working := fun c record s pending todo at_ => by rw [at_] at call; cases call

/-- The record in memory keeps what the checkpoint keeps. -/
theorem memory (kept : w.Kept host) (holding : Holding w c record todo) :
    record.Kept host w.disk w.log := by
  refine kept.record.of_completed holding.disk holding.call ?_
  rw [holding.linked]
  rfl

theorem failStep (kept : w.Kept host) (holding : Holding w c record todo)
    (current : w.current = record) (s : StepName) (cause : Failure) :
    (failStep w c record s cause).Kept host where
  record := by
    have memory := kept.memory holding
    exact ⟨fun listed kind => by
        obtain ⟨b, roles, target, found, units⟩ := memory.written listed kind
        refine ⟨b, roles, ?_, found, units⟩
        show (record.fail s cause).target = some b
        simpa [Record.target, Record.fail, holding.call.unfinished] using target,
      memory.removed, memory.stopped, fun _ phase => by cases phase⟩
  recorded := by
    have recorded := kept.recorded
    rw [current] at recorded
    exact recorded
  linux := fun c none => by cases none
  working := fun c record s pending todo at_ => by cases at_

theorem openCall (kept : w.Kept host) (based : w.Based host) (at_ : w.stage = .opening c)
    (own : ownSteps w.disk.record w.log c = true) : (openCall w c).Kept host := by
  have entered := based.opening at_
  simp only [Install.openCall, if_neg (entered.regular based.formed)]
  have started := entered.kept_start based.formed kept.record own
  refine ⟨started.mono rfl id, ?_, ?_, fun c record s pending todo at_ => by cases at_⟩
  · -- the first checkpoint lists the units that the last one listed
    have recorded := kept.recorded
    rw [current_opening at_] at recorded
    intro u data found
    show (w.disk.record.start c).ownedUnits u = _
    rw [Record.start_ownedUnits]
    exact recorded u data found
  · rintro c' ⟨⟩
    simp only [ownSteps, Bool.and_eq_true, decide_eq_true_eq] at own
    exact own.1

theorem finishCall (kept : w.Kept host) (based : w.Based host)
    (at_ : w.stage = .looping c record []) : (finishCall w c record).Kept host := by
  have holding := based.looping at_
  have call := holding.call
  have memory := call.kept_iff.mp (kept.memory holding)
  refine ⟨⟨fun listed kind => ?_, fun listed kind => ?_, fun listed kind => ?_, fun kind _ => ?_⟩,
    ?_, fun c none => (by cases none), fun c record s pending todo at_ => (by cases at_)⟩
  · have listed : .quadletFiles ∈ (record.finish c).completed := listed
    have kind : (record.finish c).kind ≠ some .uninstall := kind
    rw [Record.finish_completed] at listed
    rw [Record.finish_kind] at kind
    have operation := fun uninstall => kind (call.kind_uninstall.mpr uninstall)
    refine ⟨c.request.bundle, c.request.roles, ?_, ?_, memory.1 listed operation⟩
    · show (record.finish c).target = _
      have applied : (record.finish c).phase = .applied := by
        rw [Record.finish_phase, if_neg operation]
      rw [Record.target, if_neg (fun both => both.2 applied)]
      exact (Record.lineage_eq_some.mp (call.finish_lineage operation)).1
    · exact (Record.finish_roles record c).trans call.roles
  · have kind : (record.finish c).kind = some .uninstall := kind
    have listed : .removeOwnedActivationDefinitions ∈ (record.finish c).completed := listed
    rw [Record.finish_completed] at listed
    rw [Record.finish_kind] at kind
    exact memory.2.1 listed (call.kind_uninstall.mp kind)
  · have kind : (record.finish c).kind = some .uninstall := kind
    have listed : .stopOwnedServices ∈ (record.finish c).completed := listed
    rw [Record.finish_completed] at listed
    rw [Record.finish_kind] at kind
    exact memory.2.2 listed (call.kind_uninstall.mp kind)
  · have kind : (record.finish c).kind = some .rollback := kind
    rw [Record.finish_kind, call.kind, Option.some_inj] at kind
    show ¬ (record.finish c).Offers
    simp [Record.Offers, Record.finish, kind]
  · have recorded := kept.recorded
    rw [current_looping at_] at recorded
    intro u data found
    show (record.finish c).ownedUnits u = _
    rw [Record.finish_ownedUnits]
    exact recorded u data found

theorem enterStep (kept : w.Kept host) (based : w.Based host)
    (at_ : w.stage = .looping c record (s :: todo)) : (enterStep w c record s todo).Kept host := by
  have holding := based.looping at_
  have linux := kept.linux c (by rw [at_]; rfl)
  have recorded := kept.recorded
  rw [current_looping at_] at recorded
  unfold Install.enterStep
  split
  · exact ⟨kept.record, recorded, fun c' found => by cases found; exact linux,
      fun c record s pending todo at_ => by cases at_⟩
  · split
    · have call := holding.call.of_same (Record.same_cross record) rfl
      refine ⟨((kept.memory holding).of_completed holding.call call rfl).mono rfl id, recorded,
        fun c' found => by cases found; exact linux, ?_⟩
      rintro c' record' s' pending todo' ⟨⟩
      exact working_start c rfl s
    · refine ⟨kept.record.mono rfl id, recorded, fun c' found => by cases found; exact linux, ?_⟩
      rintro c' record' s' pending todo' ⟨⟩
      exact working_start c rfl s

theorem performNext (kept : w.Kept host) (based : w.Based host)
    (at_ : w.stage = .running c record s (e :: pending) todo) :
    (performNext host w c record s e pending todo).Kept host := by
  obtain ⟨holding, -⟩ := based.running at_
  have linux := kept.linux c (by rw [at_]; rfl)
  have current := current_running at_
  have recorded := kept.recorded
  rw [current] at recorded
  have working := kept.working c record s (e :: pending) todo at_
  rcases performNext_cases host w c record s e pending todo with
    ⟨cause, failed⟩ | ⟨d, record', result, next⟩
  · rw [failed]
    exact kept.failStep holding current s cause
  · rw [next]
    refine ⟨?_, recorded.perform result, fun c' found => by cases found; exact linux, ?_⟩
    · show d.record.Kept host d (e.entries c.request ++ w.log)
      rw [perform_loaded result]
      obtain ⟨written, removed, stopped⟩ := holding.disk.kept_iff.mp kept.record
      obtain ⟨before, mem⟩ := working.mem
      have place : s ∈ steps c.request := by
        obtain ⟨done, all, -⟩ := holding.progress
        rw [all]
        simp
      have place := mem_steps_linux linux place
      refine holding.disk.kept_iff.mpr ⟨fun listed operation u => ?_, fun listed operation u => ?_,
        fun listed operation => ?_⟩
      · obtain ⟨data, rendered, found⟩ := written listed operation u
        rcases perform_units result with ⟨v, data', rfl, rendered', units, -⟩ |
          ⟨v, rfl, -, -⟩ | ⟨-, -, units, -⟩
        · by_cases same : u = v
          · subst same
            exact ⟨data', rendered', by rw [units, Function.update_self]⟩
          · exact ⟨data, rendered, by rw [units, Function.update_of_ne same]; exact found⟩
        · -- an installation removes nothing
          rw [step_of_remove mem] at place
          rcases place with other | ⟨-, uninstall⟩ | ⟨other, -⟩
          · cases other
          · exact absurd uninstall operation
          · exact absurd other (by decide)
        · exact ⟨data, rendered, by rw [units]; exact found⟩
      · have gone := removed listed operation u
        rcases perform_units result with ⟨v, data', rfl, -, -, -⟩ | ⟨v, rfl, units, -⟩ |
          ⟨-, -, units, -⟩
        · -- and an uninstall writes nothing
          rw [step_of_unit mem] at place
          rcases place with other | ⟨other, -⟩ | ⟨-, install⟩
          · cases other
          · exact absurd other (by decide)
          · exact absurd operation install
        · rw [units]
          by_cases same : u = v
          · subst same
            exact Function.update_self ..
          · rw [Function.update_of_ne same]
            exact gone
        · rw [units]
          exact gone
      · refine stoppedIn_entries (fun u start => ?_) (stopped listed operation)
        rw [start] at mem
        have apply := step_of_start mem
        rcases place with rfl | ⟨uninstall, -⟩ | ⟨-, install⟩
        · exact absurd apply (by decide)
        · exact absurd apply (not_mem_linuxApply s uninstall)
        · exact absurd operation install
    · rintro c' record'' s' pending' todo' ⟨⟩
      exact working.perform result

theorem completeStep (kept : w.Kept host) (based : w.Based host)
    (at_ : w.stage = .running c record s [] todo) : (completeStep w c record s todo).Kept host := by
  obtain ⟨holding, -⟩ := based.running at_
  have linux := kept.linux c (by rw [at_]; rfl)
  have recorded := kept.recorded
  rw [current_running at_] at recorded
  have working := kept.working c record s [] todo at_
  have call := holding.call.of_same (Record.same_complete record s) rfl
  obtain ⟨written, removed, stopped⟩ := holding.call.kept_iff.mp (kept.memory holding)
  refine ⟨?_, recorded, fun c' found => by cases found; exact linux,
    fun c record s pending todo at_ => by cases at_⟩
  show (record.complete s).Kept host _ w.log
  refine call.kept_iff.mpr ⟨fun listed operation u => ?_, fun listed operation u => ?_,
    fun listed operation => ?_⟩
  · rcases Record.mem_complete.mp listed with now | earlier
    · exact (working.writing now.symm u).resolve_left List.not_mem_nil
    · exact written earlier operation u
  · rcases Record.mem_complete.mp listed with now | earlier
    · rcases working.removing now.symm u with unowned | later | gone
      · -- a file that is there is listed
        show w.disk.units u = none
        cases found : w.disk.units u with
        | none => rfl
        | some data =>
          rw [recorded u data found] at unowned
          cases unowned
      · exact absurd later List.not_mem_nil
      · exact gone
    · exact removed earlier operation u
  · rcases Record.mem_complete.mp listed with now | earlier
    · rcases working.stopping now.symm with ⟨us, later⟩ | done
      · exact absurd later List.not_mem_nil
      · exact done
    · exact stopped earlier operation

end World.Kept

theorem kept_step {a : Action} (kept : w.Kept host) (based : w.Based host)
    (own : ∀ c, w.stage = .opening c → ownSteps w.disk.record w.log c = true)
    (met : orderly host w a = true) (taken : step host w a = some w') : w'.Kept host := by
  have idle : w.stage = .idle → Recorded w.disk.record w.disk ∧ w.stage.call = none := by
    intro idle
    have recorded := kept.recorded
    rw [World.current_idle idle] at recorded
    exact ⟨recorded, by rw [idle]; rfl⟩
  cases taken_of_step taken with
  | planned at_ | planRefused at_ | refused at_ =>
    refine kept.quiet rfl id ?_ (idle at_).2
    show Recorded w.current w.disk
    exact kept.recorded
  | entered at_ => exact kept.quiet rfl id (idle at_).1 rfl
  | opened at_ => exact kept.openCall based at_ (own _ at_)
  | finished at_ => exact kept.finishCall based at_
  | stepped at_ => exact kept.enterStep based at_
  | performed at_ => exact kept.performNext based at_
  | completed at_ => exact kept.completeStep based at_
  | refusedStep at_ =>
    exact kept.failStep (based.looping at_) (World.current_looping at_) _ _
  | failed at_ =>
    exact kept.failStep (based.running at_).1 (World.current_running at_) _ _
  | killed =>
    have known : checkpointed w = true := by simpa [orderly, admitted] using met
    exact kept.quiet rfl id (recorded_of_checkpointed known) rfl

/-- Only the end of a call returns a phase. -/
theorem finished_of_returned {a : Action} {phase : Phase} (based : w.Based host)
    (taken : step host w a = some w') (returned : w'.log = .returned r phase :: w.log) :
    ∃ c record, w.stage = .looping c record [] ∧ w' = finishCall w c record ∧ c.request = r ∧
      (record.finish c).phase = phase := by
  have silent : w.log ≠ .returned r phase :: w.log := (List.cons_ne_self _ _).symm
  cases taken_of_step taken with
  | planned | planRefused | refused | refusedStep | failed => cases returned
  | entered | completed | killed => exact absurd returned silent
  | opened at_ =>
    simp only [openCall, if_neg ((based.opening at_).regular based.formed)] at returned
    cases returned
  | finished at_ =>
    cases returned
    exact ⟨_, _, at_, rfl, rfl, rfl⟩
  | stepped at_ =>
    unfold enterStep at returned
    split at returned
    · exact absurd returned silent
    · split at returned <;> cases returned
  | performed at_ =>
    rename_i e _ _
    rcases performNext_cases host w _ _ _ e _ _ with ⟨cause, failed⟩ | ⟨d, record, -, next⟩
    · rw [failed] at returned
      cases returned
    · rw [next] at returned
      cases e with
      | native command => cases returned
      | material | policy | environments | readPolicy | unit _ | networkFiles | requireOwned
        | validate | remove _ | values => exact absurd returned silent

/-- On a Linux host where every call does its own steps and the process only dies when the
checkpoint knows the unit files: a call that returns `applied` leaves the six unit files of its
bundle and its roles, and one that returns `uninstalled` leaves none, with the services stopped
after they were last started. -/
theorem finished_call_performed {host : Host} {as : List Action} {w w' : World} {a : Action}
    {r : Request} {phase : Phase}
    (met : Machine.Always (step host) (fun w a => orderly host w a = true) .blank as)
    (runs : Machine.run (step host) .blank as = some w) (taken : step host w a = some w')
    (returned : w'.log = .returned r phase :: w.log) :
    (phase = .applied → UnitsOf host r.bundle r.roles w'.disk) ∧
      (phase = .uninstalled → (∀ u, w'.disk.units u = none) ∧ stoppedIn w'.log = true) := by
  obtain ⟨based, kept, -⟩ := met.run_invariant
    (I := fun w => w.Based host ∧ w.Kept host ∧
      ∀ c, w.stage = .opening c → ownSteps w.disk.record w.log c = true)
    (fun w a w' inv met taken => by
      obtain ⟨based, kept, opening⟩ := inv
      exact ⟨based.step taken, kept_step kept based opening met taken,
        fun c at_ => opening_of_admitted (Bool.and_eq_true_iff.mp met).1 taken at_⟩)
    ⟨.blank, .blank, fun c at_ => by cases at_⟩ runs
  obtain ⟨c, record, at_, rfl, rfl, rfl⟩ := finished_of_returned based taken returned
  have holding := based.looping at_
  have linux := kept.linux c (by rw [at_]; rfl)
  obtain ⟨written, removed, stopped⟩ := holding.call.kept_iff.mp (kept.memory holding)
  have done : ∀ s ∈ steps c.request, s ∈ record.completed := by
    obtain ⟨done, all, behind⟩ := holding.progress
    rw [List.append_nil] at all
    rw [all]
    exact behind
  rw [Record.finish_phase]
  by_cases operation : c.request.operation = .uninstall
  · rw [if_pos operation]
    refine ⟨Phase.noConfusion, fun _ => ⟨removed (done _ ?_) operation,
      stopped (done _ ?_) operation⟩⟩
    all_goals simp [steps, operation, linux, linuxUninstall]
  · rw [if_neg operation]
    refine ⟨fun _ => written (done _ ?_) operation, Phase.noConfusion⟩
    cases found : c.request.operation with
    | uninstall => exact absurd found operation
    | apply | rollback => simp [steps, found, linux, linuxApply]

def linuxInstall : Request := plainRequest .apply .linux ['a']

def linuxInstallID : PlanID := plainID linuxInstall .initialInstall none

def linuxRemoval : Request := plainRequest .uninstall .linux ['a']

def linuxRemovalID : PlanID := plainID linuxRemoval .uninstall (some (plainBundle ['a']))

/-- A release is installed and uninstalled, up to the last checkpoint. -/
def installedAndRemoved : List Action :=
  callFor linuxInstall linuxInstallID 60 ++ callFor linuxRemoval linuxRemovalID 23

theorem finished_call_performed_removal :
    ∃ w w', Machine.run (step plainHost) .blank installedAndRemoved = some w ∧
      step plainHost w .proceed = some w' ∧ w'.log = .returned linuxRemoval .uninstalled :: w.log ∧
      (∀ u, w'.disk.units u = none) ∧ stoppedIn w'.log = true := by
  obtain ⟨w, runs, found⟩ := Machine.exists_run_of_any (step plainHost)
    (p := fun w => (step plainHost w .proceed).any fun w' : World =>
      decide (w'.log = Entry.returned linuxRemoval .uninstalled :: w.log))
    (by decide +kernel : (Machine.run (step plainHost) .blank installedAndRemoved).any _ = true)
  have met : Machine.Always (step plainHost) (fun w a => orderly plainHost w a = true) .blank
      installedAndRemoved := Machine.always_of_checkAlways (by decide +kernel)
  obtain ⟨w', taken, checked⟩ := (Option.any_eq_true _ _).mp found
  have returned := of_decide_eq_true checked
  exact ⟨w, w', runs, taken, returned, (finished_call_performed met runs taken returned).2 rfl⟩

/-- The release is installed, uninstalled, installed again under the id of the uninstall, and
uninstalled. -/
def removedTwice : List Action :=
  callFor linuxInstall linuxInstallID 60 ++ callFor linuxRemoval linuxRemovalID 24 ++
    callFor linuxInstall linuxRemovalID 60 ++ callFor linuxRemoval linuxRemovalID 10

/-- The last call returns `uninstalled`, and the unit files are there. -/
theorem uninstalled_with_units :
    ∃ w older, Machine.run (step plainHost) .blank removedTwice = some w ∧
      w.log = .returned linuxRemoval .uninstalled :: older ∧
      (∀ u, w.disk.units u ≠ none) ∧ stoppedIn w.log = false := by
  obtain ⟨w, runs, found⟩ := Machine.exists_run_of_any (step plainHost)
    (p := fun w => decide (w.log.head? = some (.returned linuxRemoval .uninstalled) ∧
      (∀ u ∈ activationUnits, w.disk.units u ≠ none) ∧ stoppedIn w.log = false))
    (by decide +kernel : (Machine.run (step plainHost) .blank removedTwice).any _ = true)
  obtain ⟨head, units, started⟩ := of_decide_eq_true found
  exact ⟨w, w.log.tail, runs, (List.cons_head?_tail head).symm,
    fun u => units u (mem_activationUnits u), started⟩

end Aspm.Install
