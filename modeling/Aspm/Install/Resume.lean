import Aspm.Install.Units

/-!
# Taking up an interrupted installation

An `apply` that failed or died can be executed again: the checkpoint has its kind, its release,
its configuration and its roles, so `prepare` finds the same kind of change and hands out the id
of the checkpoint; the steps that are completed are passed over and the others run again.

Two things can stand in the way.  `Execute` compares the unit files with the checkpoint before it
does anything, and it reads at most 64 KiB of each.  The files of an upgrade are written one by
one, and the checkpoint learns of them after the last: a process that dies in between leaves files
that no later call accepts.  So the condition is that the process dies when the files that the
checkpoint lists are the ones it lists, that rendered units can be read back, and that the
secrets are usable.
-/

namespace Aspm.Install

open Json (Text byteLength)

variable {w w' : World} {host : Host} {r : Request} {u : UnitName} {data : Text} {d d' : Disk}
  {m : Material} {record record' : Record} {e : Effect} {c : Call}

/-! ## The condition -/

/-- The credentials that a request brings along. -/
def Request.material (r : Request) : Material := ⟨r.fingerprint, r.config.references, r.roleKeys⟩

/-- The rendered units of a request can be read back. -/
def fits (host : Host) (r : Request) : Bool :=
  activationUnits.all fun u =>
    match renderUnit host r.bundle r.roles u with
    | .ok data => byteLength data ≤ unitLimit
    | .error _ => true

/-- The call is on the Linux host, with the credentials of the host and with units that can be
read back. -/
def sameCredentials (host : Host) (m : Material) (_ : Record) (_ : List Entry) (c : Call) : Bool :=
  c.request.config.kind = .linux && c.request.material = m && fits host c.request

/-- A unit file that the record lists is the one it lists, or gone. -/
def Listed (record : Record) (d : Disk) : Prop :=
  ∀ u expected data, record.ownedUnits u = some expected → d.units u = some data → data = expected

def listedOnDisk (w : World) : Bool :=
  activationUnits.all fun u =>
    w.disk.record.ownedUnits u = none || w.disk.units u = none ||
      w.disk.record.ownedUnits u = w.disk.units u

/-- Every call has the credentials of the host, and the process dies when the listed files are
the ones that are there. -/
def resumable (host : Host) (m : Material) (w : World) (a : Action) : Bool :=
  admitted host (sameCredentials host m) w a && (a ≠ .kill || listedOnDisk w)

theorem listed_of_listedOnDisk (known : listedOnDisk w = true) : Listed w.disk.record w.disk := by
  intro u expected data owned found
  have known := List.all_eq_true.mp known u (mem_activationUnits u)
  simp only [owned, found, Bool.or_eq_true, decide_eq_true_eq, reduceCtorEq, false_or,
    Option.some_inj] at known
  exact known.symm

theorem byteLength_of_fits (fit : fits host r = true)
    (rendered : renderUnit host r.bundle r.roles u = .ok data) : byteLength data ≤ unitLimit := by
  have each := List.all_eq_true.mp fit u (mem_activationUnits u)
  simpa [rendered] using each

theorem readable_of_fits (fit : fits host r = true)
    (rendered : renderUnit host r.bundle r.roles u = .ok data) : readable data = true := by
  simp [readable, renderUnit_ne_nil rendered, byteLength_of_fits fit rendered]

/-! ## The files of the host -/

/-- The call that a stage is in, from the moment it was let in. -/
def Stage.owner : Stage → Option Call
  | .idle => none
  | .opening c | .looping c _ _ | .running c _ _ _ _ => some c

/-- No call is in progress. -/
def Stage.isIdle : Stage → Bool
  | .idle => true
  | _ => false

theorem Stage.eq_idle {stage : Stage} (idle : stage.isIdle = true) : stage = .idle := by
  cases stage with
  | idle => rfl
  | opening | looping | running => cases idle

structure World.Tended (host : Host) (m : Material) (w : World) : Prop where
  listed : Listed w.current w.disk
  readable : ∀ u data, w.disk.units u = some data → readable data = true
  material : ∀ found, w.disk.material = some found → found = m
  call : ∀ c, w.stage.owner = some c →
    c.request.config.kind = .linux ∧ c.request.material = m ∧ host.Accepts c.request ∧
      fits host c.request = true

theorem materialize_eq (matching : ∀ found, d.material = some found → found = r.material)
    (result : materialize host r d = .ok m) : m = r.material := by
  unfold materialize at result
  split at result
  · next found stored =>
      have same := matching found stored
      split at result
      · cases result
      · split at result
        · split at result
          · cases result
          · split at result
            · cases result
            · cases result
              rw [same]
              rfl
        · split at result
          · cases result
          · split at result
            · cases result
            · cases result
              exact same
  · split at result
    · cases result
    · split at result
      · cases result
      · split at result
        · cases result
        · cases result
          rfl

/-- What an effect does to the credentials. -/
theorem perform_material (result : perform host r d record e = .ok (d', record')) :
    (∃ m, materialize host r d = .ok m ∧ d'.material = some m) ∨ d'.material = d.material := by
  cases e with
  | material =>
    obtain ⟨m, made, same⟩ := Fallible.map_eq_ok.mp result
    cases same
    exact .inl ⟨m, made, rfl⟩
  | unit u =>
    simp only [perform] at result
    split at result
    · cases result
    · split at result
      · cases result
      · cases result
        exact .inr rfl
  | readPolicy | validate =>
    simp only [perform] at result
    split at result
    · cases result
      exact .inr rfl
    · cases result
  | requireOwned =>
    simp only [perform] at result
    split at result
    · cases result
    · cases result
      exact .inr rfl
  | policy | environments | native _ | networkFiles | values | remove _ =>
    cases result
    exact .inr rfl

theorem Listed.perform (listed : Listed record d)
    (result : perform host r d record e = .ok (d', record')) : Listed record' d' := by
  intro u expected data owned found
  rcases perform_units result with ⟨v, written, -, -, units, listing⟩ | ⟨v, -, units, rfl⟩ |
    ⟨-, -, units, rfl⟩
  · rw [units] at found
    rw [listing] at owned
    by_cases same : u = v
    · subst same
      rw [Function.update_self] at found owned
      exact Option.some.inj (found.symm.trans owned)
    · rw [Function.update_of_ne same] at found owned
      exact listed u expected data owned found
  · rw [units] at found
    by_cases same : u = v
    · subst same
      rw [Function.update_self] at found
      cases found
    · rw [Function.update_of_ne same] at found
      exact listed u expected data owned found
  · rw [units] at found
    exact listed u expected data owned found

theorem readable_perform (fit : fits host r = true)
    (all : ∀ u data, d.units u = some data → readable data = true)
    (result : perform host r d record e = .ok (d', record')) (found : d'.units u = some data) :
    readable data = true := by
  rcases perform_units result with ⟨v, written, -, rendered, units, -⟩ | ⟨v, -, units, -⟩ |
    ⟨-, -, units, -⟩
  · rw [units] at found
    by_cases same : u = v
    · subst same
      rw [Function.update_self] at found
      obtain rfl := Option.some.inj found
      exact readable_of_fits fit rendered
    · rw [Function.update_of_ne same] at found
      exact all u data found
  · rw [units] at found
    by_cases same : u = v
    · subst same
      rw [Function.update_self] at found
      cases found
    · rw [Function.update_of_ne same] at found
      exact all u data found
  · rw [units] at found
    exact all u data found

namespace World.Tended

theorem blank : World.blank.Tended host m where
  listed := fun u expected data owned => by cases owned
  readable := fun u data found => by cases found
  material := fun found stored => by cases stored
  call := fun c none => by cases none

/-- A step that leaves the files. -/
theorem quiet (tended : w.Tended host m) (units : w'.disk.units = w.disk.units)
    (material : w'.disk.material = w.disk.material) (listed : Listed w'.current w'.disk)
    (call : ∀ c, w'.stage.owner = some c →
      c.request.config.kind = .linux ∧ c.request.material = m ∧ host.Accepts c.request ∧
        fits host c.request = true) : w'.Tended host m where
  listed := listed
  readable := by rw [units]; exact tended.readable
  material := by rw [material]; exact tended.material
  call := call

theorem listed_of_owned (tended : w.Tended host m) (disk : w'.disk.units = w.disk.units)
    (owned : record'.ownedUnits = w.current.ownedUnits) : Listed record' w'.disk := by
  intro u expected data
  rw [owned, disk]
  exact tended.listed u expected data

end World.Tended

theorem tended_step {a : Action} (tended : w.Tended host m) (based : w.Based host)
    (met : resumable host m w a = true) (taken : step host w a = some w') : w'.Tended host m := by
  have current : ∀ {record}, w.current = record → Listed record w.disk := by
    rintro record rfl
    exact tended.listed
  cases taken_of_step taken with
  | planned at_ | planRefused at_ | refused at_ =>
    refine tended.quiet rfl rfl ?_ (fun c found => by simp [at_, Stage.owner] at found)
    exact tended.listed_of_owned rfl rfl
  | entered at_ admits =>
    refine tended.quiet rfl rfl (current (World.current_idle at_)) ?_
    rename_i r approval c
    have same : (c.request.config.kind = .linux ∧ c.request.material = m) ∧
        fits host c.request = true := by
      simpa [resumable, admitted, admits, sameCredentials] using met
    rintro c' ⟨⟩
    exact ⟨same.1.1, same.1.2, (enter_eq_ok admits).2.2.accepts, same.2⟩
  | opened at_ =>
    have entered := based.opening at_
    simp only [openCall, if_neg (entered.regular based.formed)]
    refine tended.quiet rfl rfl ?_ ?_
    · refine tended.listed_of_owned rfl ?_
      rw [World.current_opening at_]
      exact Record.start_ownedUnits _ _
    · rintro c' ⟨⟩
      exact tended.call _ (by rw [at_]; rfl)
  | finished at_ =>
    refine tended.quiet rfl rfl ?_ (fun c none => by cases none)
    refine tended.listed_of_owned rfl ?_
    rw [World.current_looping at_]
    exact Record.finish_ownedUnits _ _
  | stepped at_ =>
    have owner := tended.call _ (by rw [at_]; rfl)
    have listed := current (World.current_looping at_)
    unfold enterStep
    split
    · exact tended.quiet rfl rfl listed (fun c found => by cases found; exact owner)
    · split
      · exact tended.quiet rfl rfl listed (fun c found => by cases found; exact owner)
      · exact tended.quiet rfl rfl listed (fun c found => by cases found; exact owner)
  | performed at_ =>
    have owner := tended.call _ (by rw [at_]; rfl)
    have listed := current (World.current_running at_)
    rcases performNext_cases host w _ _ _ _ _ _ with ⟨cause, failed⟩ | ⟨d, record, result, next⟩
    · rw [failed]
      exact tended.quiet rfl rfl listed (fun c none => by cases none)
    · rw [next]
      refine ⟨listed.perform result,
        fun u data => readable_perform owner.2.2.2 tended.readable result,
        fun found stored => ?_, fun c found => by cases found; exact owner⟩
      rcases perform_material result with ⟨made, result, same⟩ | same
      · have stored : d.material = some found := stored
        rw [same] at stored
        obtain rfl := Option.some.inj stored
        rw [← owner.2.1]
        exact materialize_eq (by rw [owner.2.1]; exact tended.material) result
      · have stored : d.material = some found := stored
        exact tended.material found (same ▸ stored)
  | completed at_ =>
    have owner := tended.call _ (by rw [at_]; rfl)
    have listed := current (World.current_running at_)
    exact tended.quiet rfl rfl listed (fun c found => by cases found; exact owner)
  | refusedStep at_ =>
    have listed := current (World.current_looping at_)
    exact tended.quiet rfl rfl listed (fun c none => by cases none)
  | failed at_ =>
    have listed := current (World.current_running at_)
    exact tended.quiet rfl rfl listed (fun c none => by cases none)
  | killed =>
    have known : listedOnDisk w = true := by simpa [resumable, admitted] using met
    exact tended.quiet rfl rfl (listed_of_listedOnDisk known) (fun c none => by cases none)

/-! ## Being let in again -/

section Again

/-- A call that was let in is let in again, as long as nothing has changed. -/
theorem enter_of_entered (entered : Entered host d c) (operation : c.request.operation = .apply)
    (regular : c.plan.kind ≠ .checkpointMigration) :
    enter host d c.request (some c.id) = .ok c := by
  have notBack := (entered.change.apply_iff.mp operation).1
  have target : (decide (d.record.fingerprint = none) ||
      decide (d.record.fingerprint = some c.prepared.plan.fingerprint)) = true := by
    simpa using entered.target
  have owned : (decide (c.request.config.kind ≠ .linux) ||
      validateOwnedUnits d.record d) = true := by
    by_cases linux : c.request.config.kind = .linux
    · simp [entered.owned regular linux]
    · simp [linux]
  have reapply := entered.reapply regular
  simp only [enter, Fallible.bind_eq_ok, Fallible.check_eq_ok, exists_const]
  refine ⟨c.prepared, entered.prepared, by simp, target, ?_⟩
  rw [if_neg regular]
  simp only [Fallible.bind_eq_ok, Fallible.check_eq_ok, exists_const, Fallible.pure_eq_ok]
  refine ⟨by simp [operation], owned, by simp [notBack], ?_⟩
  rw [← reapply]

/-- The change of an unfinished `apply` is the same again. -/
theorem applyKind_resumes (call : InCall c record) (same : record.Same record')
    (unfinished : record'.phase ≠ .applied) (operation : c.request.operation = .apply) :
    ∃ current, changeKind record' c.request = .ok (c.plan.kind, current) := by
  have fingerprint := same.fingerprint.trans call.fingerprint
  have bundle := same.bundle.trans (Record.lineage_eq_some.mp (call.target operation)).1
  have kind := same.kind.trans call.kind
  obtain ⟨notBack, notRemoved⟩ := call.installs.mp operation
  simp only [changeKind, operation, applyKind, fingerprint, bundle, kind]
  cases found : c.plan.kind with
  | rollback => exact absurd found notBack
  | uninstall => exact absurd found notRemoved
  | checkpointMigration => exact absurd found call.regular
  | initialInstall => exact ⟨none, by simp [unfinished]⟩
  | reapply => exact ⟨some c.request.bundle, by simp⟩
  | upgrade =>
    have previous : record'.previous ≠ none := by
      rw [same.previous]
      exact call.replaces found
    exact ⟨record'.previous.map Prod.fst, by simp [unfinished, previous]⟩

/-- It is given the id of the checkpoint. -/
theorem keptID_resumes (call : InCall c record) (same : record.Same record')
    (unfinished : record'.phase = .planned ∨ record'.phase = .failed)
    (operation : c.request.operation = .apply) :
    keptID record' c.request c.plan.kind = some c.id := by
  obtain ⟨bundle, config⟩ := Record.lineage_eq_some.mp (call.target operation)
  have keeps : keepsUnfinished record' c.request c.plan.kind = true := by
    simp [keepsUnfinished, operation, unfinished, same.kind, call.kind, same.bundle, bundle,
      same.config, config, same.fingerprint, call.fingerprint, same.caller, call.caller,
      same.roles, call.roles]
  rw [keptID, keeps, Bool.or_true, if_pos rfl]
  exact same.planID.trans call.id

/-- So an interrupted `apply` is let in with the id it had. -/
theorem entered_again (accepts : host.Accepts c.request) (call : InCall c record)
    (same : record.Same d.record) (formed : d.record.Formed)
    (unfinished : d.record.phase = .planned ∨ d.record.phase = .failed)
    (operation : c.request.operation = .apply)
    (owned : c.request.config.kind = .linux → validateOwnedUnits d.record d = true) :
    ∃ c', Entered host d c' ∧ c'.request = c.request := by
  have notApplied : d.record.phase ≠ .applied := by
    rcases unfinished with phase | phase <;> rw [phase] <;> exact Phase.noConfusion
  obtain ⟨current, change⟩ := applyKind_resumes call same notApplied operation
  have kept := keptID_resumes call same unfinished operation
  have prepared : prepare host d.record c.request =
      .ok ⟨c.request, makePlan c.request c.plan.kind current, c.id⟩ := by
    refine prepare_eq_ok.mpr ⟨accepts, formed.version, .inl (by simp [operation]), c.plan.kind,
      current, change, c.id, ?_, rfl⟩
    simp only [identify, makePlan, kept]
  refine ⟨⟨⟨c.request, makePlan c.request c.plan.kind current, c.id⟩, false⟩,
    ⟨prepared, .inr (same.fingerprint.trans call.fingerprint), fun _ uninstall => ?_,
      fun _ => owned, fun _ => ?_⟩, rfl⟩
  · have both := operation.symm.trans uninstall
    cases both
  · simp [notApplied]

end Again

/-! ## The way to the end -/

/-- The effects of an installation's steps on a Linux host. -/
def Effect.installs : Effect → Bool
  | .readPolicy | .native _ | .unit _ | .networkFiles => true
  | _ => false

theorem installs_of_mem {s : StepName} (apply : s ∈ linuxApply) :
    ∀ e ∈ effects record s, e.installs = true := by
  cases s <;> first | (exact absurd apply (by decide)) | simp [effects, Effect.installs]

section Drive

variable (fit : fits host c.request = true) (formed : w.disk.record.Formed)
  (entered : Entered host w.disk c) (idle : w.stage = .idle)
  (linux : c.request.config.kind = .linux) (operation : c.request.operation = .apply)
  (rendered : ∀ u, ∃ data, renderUnit host c.request.bundle c.request.roles u = .ok data)
  (secrets : host.secrets c.request = none) (environments : host.environments c.request = none)
  (matching : ∀ found, w.disk.material = some found → found = c.request.material)

section

include fit rendered

/-- Such an effect succeeds. -/
theorem perform_installs (policy : d.policy = true) (record : Record) (installs : e.installs = true) :
    ∃ d' record', perform host c.request d record e = .ok (d', record') ∧ d'.policy = true := by
  cases e with
  | readPolicy => exact ⟨d, record, by simp [perform, policy], policy⟩
  | native command => exact ⟨d, record, rfl, policy⟩
  | networkFiles => exact ⟨d, record, rfl, policy⟩
  | unit u =>
    obtain ⟨data, result⟩ := rendered u
    have fits : ¬ maxInputBytes < byteLength data := by
      have := byteLength_of_fits fit result
      simp only [unitLimit] at this
      simp only [maxInputBytes]
      omega
    refine ⟨{ d with units := Function.update d.units u (some data) },
      { record with ownedUnits := Function.update record.ownedUnits u (some data) }, ?_, policy⟩
    simp only [perform, result, if_neg fits]
  | material | policy | environments | requireOwned | validate | remove _ | values =>
    cases installs

theorem drive_effects {s : StepName} {todo : List StepName} (pending : List Effect)
    (installs : ∀ e ∈ pending, e.installs = true) (w : World) (record : Record)
    (at_ : w.stage = .running c record s pending todo) (policy : w.disk.policy = true) :
    ∃ w' record', Machine.Leads (step host) .proceed w w' ∧
      w'.stage = .running c record' s [] todo ∧ w'.disk.policy = true := by
  induction pending generalizing w record with
  | nil => exact ⟨w, record, .refl _ _, at_, policy⟩
  | cons e pending ih =>
    obtain ⟨d, record', result, policy'⟩ := perform_installs fit rendered policy record
      (installs e List.mem_cons_self)
    have next : step host w .proceed =
        some ⟨d, .running c record' s pending todo, e.entries c.request ++ w.log⟩ := by
      simp only [step, proceed, at_, performNext, result]
    obtain ⟨w', record'', leads, done, policy''⟩ :=
      ih (fun e mem => installs e (List.mem_cons_of_mem _ mem))
        ⟨d, .running c record' s pending todo, e.entries c.request ++ w.log⟩ record' rfl policy'
    exact ⟨w', record'', .cons next leads, done, policy''⟩

theorem drive_steps (todo : List StepName) (apply : ∀ s ∈ todo, s ∈ linuxApply) (w : World)
    (record : Record)
    (at_ : w.stage = .looping c record todo) (policy : w.disk.policy = true) :
    ∃ w' record', Machine.Leads (step host) .proceed w w' ∧ w'.stage = .looping c record' [] := by
  induction todo generalizing w record with
  | nil => exact ⟨w, record, .refl _ _, at_⟩
  | cons s todo ih =>
    have rest := ih fun s mem => apply s (List.mem_cons_of_mem _ mem)
    have next : step host w .proceed = some (enterStep w c record s todo) := by
      simp only [step, proceed, at_]
    -- either the step is passed over, or its effects lead to its checkpoint
    have entered : (enterStep w c record s todo).stage = .looping c record todo ∨
        ∃ record', (enterStep w c record s todo).stage =
          .running c record' s (effects record s) todo := by
      unfold enterStep
      split
      · exact .inl rfl
      · split
        · exact .inr ⟨_, rfl⟩
        · exact .inr ⟨_, rfl⟩
    have kept : (enterStep w c record s todo).disk.policy = true := by
      unfold enterStep
      split
      · exact policy
      · split <;> exact policy
    rcases entered with skipped | ⟨record', running⟩
    · obtain ⟨w', record', leads, done⟩ := rest _ record skipped kept
      exact ⟨w', record', .cons next leads, done⟩
    · obtain ⟨w₁, record₁, first, complete, policy₁⟩ := drive_effects fit rendered _
        (installs_of_mem (apply s List.mem_cons_self)) _ record' running kept
      have saved : step host w₁ .proceed = some (completeStep w₁ c record₁ s todo) := by
        simp only [step, proceed, complete]
      obtain ⟨w', record'', leads, done⟩ := rest (completeStep w₁ c record₁ s todo)
        (record₁.complete s) rfl policy₁
      exact ⟨w', record'', .cons next (first.trans (.cons saved leads)), done⟩

end

include operation secrets environments matching

/-- The credentials are written again as they were. -/
theorem materialize_again : ∃ m, materialize host c.request w.disk = .ok m := by
  unfold materialize
  cases stored : w.disk.material with
  | none => exact ⟨_, by simp [operation, secrets, environments]; rfl⟩
  | some m =>
    obtain rfl := matching m stored
    by_cases old : c.request.roleKeys.retention = ⟨[], []⟩
    · exact ⟨_, by simp [Request.material, old, operation, environments]; rfl⟩
    · exact ⟨_, by simp [Request.material, old, environments]; rfl⟩

include formed entered linux

/-- The first checkpoint and the credentials. -/
theorem drive_credentials :
    ∃ w' record, Machine.Leads (step host) .proceed { w with stage := .opening c } w' ∧
      w'.stage = .looping c record linuxApply ∧ w'.disk.policy = true := by
  have regular := entered.regular formed
  have all : steps c.request = .protectedCredentials :: linuxApply := by
    simp [steps, operation, linux]
  obtain ⟨m, made⟩ := materialize_again operation secrets environments matching
  set record := w.disk.record.start c with started
  set d := w.disk.save record with saved
  have opened : step host { w with stage := .opening c } .proceed =
      some ⟨d, .looping c record (.protectedCredentials :: linuxApply),
        .began c.request c.id :: w.log⟩ := by
    simp only [step, proceed, openCall, if_neg regular, all, ← started, ← saved]
  have running : ∀ log, step host ⟨d, .looping c record (.protectedCredentials :: linuxApply), log⟩
      .proceed = some ⟨d, .running c record .protectedCredentials
        [.material, .policy, .environments] linuxApply,
        .ran c.request .protectedCredentials :: log⟩ := by
    intro log
    simp [step, proceed, enterStep, Record.skips, Record.crosses, StepName.boundary, effects]
  have performed : ∀ log, step host ⟨d, .running c record .protectedCredentials
      [.material, .policy, .environments] linuxApply, log⟩ .proceed =
        some ⟨{ d with material := some m }, .running c record .protectedCredentials
          [.policy, .environments] linuxApply, log⟩ := by
    intro log
    have result : perform host c.request d record .material =
        .ok ({ d with material := some m }, record) := by
      have made : materialize host c.request d = .ok m := made
      simp only [perform, made, Except.map]
    simp only [step, proceed, performNext, result, Effect.entries, List.nil_append]
  refine ⟨_, record.complete .protectedCredentials,
    .cons opened (.cons (running _) (.cons (performed _) (.cons rfl (.cons rfl (.cons rfl
      (.refl _ _)))))), rfl, rfl⟩

include fit idle rendered

/-- A call that is let in and meets no failure returns `applied`. -/
theorem drive_call :
    ∃ n w' older, Machine.run (step host) w
        (.execute c.request (some c.id) :: List.replicate n .proceed) = some w' ∧
      w'.stage = .idle ∧ w'.log = .returned c.request .applied :: older := by
  have regular := entered.regular formed
  have letIn : step host w (.execute c.request (some c.id)) =
      some { w with stage := .opening c } := by
    simp only [step, idle, enter_of_entered entered operation regular]
  obtain ⟨w₀, record₀, first, at_, policy⟩ := drive_credentials formed entered linux operation
    secrets environments matching
  obtain ⟨w₁, record₁, second, complete⟩ := drive_steps fit rendered linuxApply
    (fun s mem => mem) w₀ record₀ at_ policy
  have saved : step host w₁ .proceed = some (finishCall w₁ c record₁) := by
    simp only [step, proceed, complete]
  obtain ⟨n, runs⟩ := (first.trans second).trans (.cons saved (.refl _ _))
  refine ⟨n, finishCall w₁ c record₁, w₁.log,
    (Machine.run_cons_eq_some _).mpr ⟨_, letIn, runs⟩, rfl, ?_⟩
  simp [finishCall, operation]

end Drive

theorem validateOwnedUnits_of_listed (listed : Listed record d)
    (all : ∀ u data, d.units u = some data → readable data = true) :
    validateOwnedUnits record d = true := by
  refine List.all_eq_true.mpr fun u _ => ?_
  unfold ownedUnitValid
  split
  · next expected data owned found =>
      rw [Bool.and_eq_true, decide_eq_true_eq]
      exact ⟨all u data found, listed u expected data owned found⟩
  · rfl

/-- A call that ended without returning can be let in again. -/
theorem interrupted_entered {a : Action} (based : w.Based host) (tended : w.Tended host m)
    (based' : w'.Based host) (tended' : w'.Tended host m) (taken : step host w a = some w')
    (during : w.stage.owner = some c) (operation : c.request.operation = .apply)
    (ended : w'.stage = .idle) (unreturned : ∀ phase, w'.log ≠ .returned c.request phase :: w.log) :
    ∃ c', Entered host w'.disk c' ∧ c'.request = c.request := by
  have accepts := (tended.call c during).2.2.1
  have owned : validateOwnedUnits w'.disk.record w'.disk = true := by
    have listed := tended'.listed
    rw [World.current_idle ended] at listed
    exact validateOwnedUnits_of_listed listed tended'.readable
  -- the checkpoint of a failed step is that of the call
  have failed : ∀ {record s cause todo}, Holding w c record todo →
      w' = failStep w c record s cause → ∃ c', Entered host w'.disk c' ∧ c'.request = c.request := by
    rintro record s cause todo holding rfl
    exact entered_again accepts holding.call (Record.same_fail record s cause) based'.formed
      (.inr rfl) operation (fun _ => owned)
  cases taken_of_step taken with
  | planned idle | planRefused idle | entered idle | refused idle =>
    rw [idle] at during
    cases during
  | opened at_ =>
    simp only [openCall, if_neg ((based.opening at_).regular based.formed)] at ended
    cases ended
  | finished at_ =>
    rw [at_] at during
    cases during
    exact absurd rfl (unreturned _)
  | stepped at_ =>
    unfold enterStep at ended
    split at ended
    · cases ended
    · split at ended <;> cases ended
  | performed at_ =>
    rename_i record s e pending todo
    rw [at_] at during
    cases during
    rcases performNext_cases host w c record s e pending todo with
      ⟨cause, result⟩ | ⟨d, record', -, next⟩
    · exact failed (based.running at_).1 result
    · rw [next] at ended
      cases ended
  | completed => cases ended
  | refusedStep at_ =>
    rw [at_] at during
    cases during
    exact failed (based.looping at_) rfl
  | failed at_ =>
    rw [at_] at during
    cases during
    exact failed (based.running at_).1 rfl
  | killed =>
    cases stage : w.stage with
    | idle =>
      rw [stage] at during
      cases during
    | opening c' =>
      rw [stage] at during
      cases during
      exact ⟨c, based.opening stage, rfl⟩
    | looping c' record todo =>
      rw [stage] at during
      cases during
      have holding := based.looping stage
      exact entered_again accepts holding.call (Record.same_units holding.linked) based.formed
        (.inl holding.disk.unfinished) operation (fun _ => owned)
    | running c' record s pending todo =>
      rw [stage] at during
      cases during
      have holding := (based.running stage).1
      exact entered_again accepts holding.call (Record.same_units holding.linked) based.formed
        (.inl holding.disk.unfinished) operation (fun _ => owned)

/-- On a Linux host whose calls have one set of usable credentials and units that can be read
back, and whose process dies only when the listed unit files are the ones that
are there: an `apply` that ended without returning is planned again, and executed with that
plan's id it returns `applied` if nothing fails. -/
theorem interrupted_apply_resumes {host : Host} {m : Material} {as : List Action} {a : Action}
    {w w' : World} {c : Call}
    (met : Machine.Always (step host) (fun w a => resumable host m w a = true) .blank (as ++ [a]))
    (runs : Machine.run (step host) .blank as = some w) (taken : step host w a = some w')
    (during : w.stage.owner = some c) (operation : c.request.operation = .apply)
    (ended : w'.stage = .idle) (unreturned : ∀ phase, w'.log ≠ .returned c.request phase :: w.log)
    (rendered : ∀ u, ∃ data, renderUnit host c.request.bundle c.request.roles u = .ok data)
    (secrets : host.secrets c.request = none)
    (environments : host.environments c.request = none) :
    ∃ p, prepare host w'.disk.record c.request = .ok p ∧
      ∃ n w'' older, Machine.run (step host) w'
          (.execute c.request (some p.id) :: List.replicate n .proceed) = some w'' ∧
        w''.stage = .idle ∧ w''.log = .returned c.request .applied :: older := by
  have keeps : ∀ w a w', w.Based host ∧ w.Tended host m → resumable host m w a = true →
      step host w a = some w' → w'.Based host ∧ w'.Tended host m :=
    fun w a w' inv met taken => ⟨inv.1.step taken, tended_step inv.2 inv.1 met taken⟩
  obtain ⟨based, tended⟩ := (met.take as).run_invariant keeps ⟨.blank, .blank⟩ runs
  obtain ⟨based', tended'⟩ := keeps w a w' ⟨based, tended⟩ (met.at [] runs taken) taken
  obtain ⟨c', entered, same⟩ := interrupted_entered based tended based' tended' taken during
    operation ended unreturned
  obtain ⟨linux, material, -, fit⟩ := tended.call c during
  rw [← same] at operation rendered secrets environments linux material fit ⊢
  refine ⟨c'.prepared, entered.prepared, ?_⟩
  exact drive_call fit based'.formed entered ended linux operation rendered secrets environments
    (fun found stored => (tended'.material found stored).trans material.symm)

def linuxUpgrade : Request := plainRequest .apply .linux ['b']

def linuxUpgradeID : PlanID := plainID linuxUpgrade .upgrade (some (plainBundle ['a']))

/-- A release is installed, and an upgrade comes to its first unit file. -/
def upgradeWriting : List Action :=
  callFor linuxInstall linuxInstallID 60 ++ callFor linuxUpgrade linuxUpgradeID 12

/-- Rendering the units of the examples. -/
theorem plain_rendered (u : UnitName) :
    ∃ data, renderUnit plainHost linuxUpgrade.bundle linuxUpgrade.roles u = .ok data := by
  cases u <;> exact ⟨"[Container]\nImage=b".toList, by decide +kernel⟩

/-- The upgrade dies before it writes the file, and is taken up. -/
theorem interrupted_apply_resumes_upgrade :
    ∃ w w' p, Machine.run (step plainHost) .blank upgradeWriting = some w ∧
      step plainHost w .kill = some w' ∧
      prepare plainHost w'.disk.record linuxUpgrade = .ok p ∧
      ∃ n w'' older, Machine.run (step plainHost) w'
          (.execute linuxUpgrade (some p.id) :: List.replicate n .proceed) = some w'' ∧
        w''.stage = .idle ∧ w''.log = .returned linuxUpgrade .applied :: older := by
  obtain ⟨w, runs, found⟩ := Machine.exists_run_of_any (step plainHost)
    (p := fun w => decide ((w.stage.owner.map Call.request) = some linuxUpgrade))
    (by decide +kernel : (Machine.run (step plainHost) .blank upgradeWriting).any _ = true)
  obtain ⟨c, during, request⟩ := Option.map_eq_some_iff.mp (of_decide_eq_true found)
  have met : Machine.Always (step plainHost)
      (fun w a => resumable plainHost linuxUpgrade.material w a = true) .blank
      (upgradeWriting ++ [.kill]) := Machine.always_of_checkAlways (by decide +kernel)
  have rendered := plain_rendered
  rw [← request] at rendered ⊢
  obtain ⟨p, prepared, resumed⟩ := interrupted_apply_resumes met runs rfl during
    (by rw [request]; rfl) rfl (fun phase => (List.cons_ne_self _ _).symm) rendered rfl rfl
  exact ⟨w, _, p, runs, rfl, prepared, resumed⟩

/-- It dies after it has written the file. -/
def upgradeTorn : List Action := upgradeWriting ++ [.proceed, .kill]

/-- The upgrade is planned and then refused. -/
def refusesUpgrade (w : World) : Bool :=
  w.stage.isIdle && match prepare plainHost w.disk.record linuxUpgrade with
    | .ok p => match enter plainHost w.disk linuxUpgrade (some p.id) with
      | .error failure => decide (failure = .approval)
      | .ok _ => false
    | .error _ => false

/-- Now the same upgrade is planned, but no approval of the plan is accepted: the unit file is not
the one in the checkpoint. -/
theorem interrupted_apply_refused :
    ∃ w p, Machine.run (step plainHost) .blank upgradeTorn = some w ∧ w.stage = .idle ∧
      prepare plainHost w.disk.record linuxUpgrade = .ok p ∧
      enter plainHost w.disk linuxUpgrade (some p.id) = .error .approval := by
  obtain ⟨w, runs, found⟩ : ∃ w, Machine.run (step plainHost) .blank upgradeTorn = some w ∧
      refusesUpgrade w = true := Machine.exists_run_of_any _ (by decide +kernel)
  obtain ⟨idle, found⟩ := Bool.and_eq_true_iff.mp found
  split at found
  · next p prepared =>
      split at found
      · next failure refused =>
          obtain rfl := of_decide_eq_true found
          exact ⟨w, p, runs, Stage.eq_idle idle, prepared, refused⟩
      · cases found
  · cases found

end Aspm.Install
