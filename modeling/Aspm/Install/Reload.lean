import Aspm.Install.Saved

/-!
# Every record that is saved, and whether it can be loaded

What holds of every record that is given to `saveState` is `Sound`: one lemma for each way in which
a record changes, and from these the call and the run.  A sound record is loaded again unless it is
longer than `maxInputBytes`.  `loadState` checks that and `saveState` does not, and a readiness key
has any length.
-/

namespace Aspm.Install.StateFile

open EarlyReturn (Program Triple)
open Fallible
open Json (Text)
open Utf8 (Bytes)

variable {host : Host} {record : StateRecord} {p : Prepared} {r : Request} {w : World}

/-! ## What keeps a record consistent -/

/-- What a plan brings to a record. -/
structure Target (p : Prepared) : Prop where
  released : Released p.plan.targetRelease p.plan.bundleDigest p.plan.configID
  caller : p.caller = [] ∨ fileDigest p.caller = true

namespace Consistent

theorem adopt (consistent : Consistent record) (target : Target p) :
    Consistent (record.adopt p) := { consistent with current := target.released }

theorem forget (consistent : Consistent record) : Consistent record.forget :=
  { consistent with previous := .inl ⟨rfl, rfl, rfl⟩ }

theorem remember (consistent : Consistent record) : Consistent record.remember :=
  { consistent with previous := .inr consistent.current }

theorem mode (consistent : Consistent record) (m : RollbackMode) : Consistent (record.mode m) :=
  { consistent with rollbackMode := validRollbackMode_text m }

theorem enter (consistent : Consistent record) (phase : Phase) (kind : ChangeKind) :
    Consistent (record.enter p phase kind) :=
  { consistent with changeKind := validChangeKind_text kind }

theorem claim (consistent : Consistent record) (target : Target p) :
    Consistent (record.claim p) :=
  { consistent with version := rfl, caller := target.caller }

theorem sync (consistent : Consistent record) : Sound record.sync :=
  { consistent with mirrored := by simp [mirrored, StateRecord.sync] }

theorem retarget (consistent : Consistent record) (target : Target p) :
    Consistent (record.retarget p) := by
  unfold StateRecord.retarget
  split
  · exact ((consistent.adopt target).forget).mode _
  · split
    · exact (consistent.remember.adopt target).mode _
    · exact consistent
  · exact consistent.adopt target
  · exact consistent.mode _
  all_goals exact consistent

end Consistent

namespace Sound

theorem reset (sound : Sound record) (reapply : Bool) : Sound (record.reset p reapply) := by
  unfold StateRecord.reset
  split
  · exact { sound with }
  · exact sound

theorem complete (sound : Sound record) (s : StepName) : Sound (record.complete s) := by
  unfold StateRecord.complete
  split
  · exact sound
  · exact { sound with }

theorem hold (sound : Sound record) : Sound record.hold := { sound with secrets := fun _ => id }

theorem own (sound : Sound record) (unit : UnitName × Bytes) : Sound (record.own host unit) := by
  have path : ownedActivationPath unit.1.path = true :=
    List.any_eq_true.mpr ⟨unit.1, mem_activationUnits _, decide_eq_true rfl⟩
  refine { sound with
    units := fun entry mem => ?_, ordered := SortedMap.sorted_put sound.ordered _ _ }
  rcases SortedMap.mem_put mem with rfl | old
  · exact ⟨path, host.fileDigest_digest _⟩
  · exact sound.units entry old

theorem runs (sound : Sound record) (a : Answer) (s : StepName) :
    Sound (StateFile.runs host a s record) := by
  unfold StateFile.runs
  split
  · -- the units one after the other, as far as they were written
    generalize quadletUnits.zip a.unitFiles = units
    induction units generalizing record with
    | nil => exact sound
    | cons unit units ih => exact ih (sound.own unit)
  all_goals first | exact sound | (split <;> first | exact sound.hold | exact sound)

theorem fail (sound : Sound record) (s : StepName) (cause : Failure) :
    Sound (record.fail s cause) := Consistent.sync { sound.toConsistent with }

theorem finish (sound : Sound record) (target : Target p) : Sound (record.finish p) := by
  unfold StateRecord.finish
  have done (phase : Text) :
      Consistent { record with state := { record.state with phase := phase } } :=
    { sound.toConsistent with }
  dsimp only
  split
  · exact ((((done _).adopt target).forget).mode _).sync
  · exact (done _).sync

end Sound

/-! ## What is prepared -/

/-- A record that a call goes on from.  Where there is no checkpoint, it can only install. -/
def Opens (p : Prepared) (record : StateRecord) : Prop :=
  record = fresh ∧ p.plan.changeKind = .initialInstall ∨
    Sound record ∧ p.plan.changeKind ≠ .checkpointMigration

theorem Opens.reset (opens : Opens p record) (reapply : Bool) :
    Opens p (record.reset p reapply) := by
  rcases opens with ⟨rfl, kind⟩ | ⟨sound, kind⟩
  · have same : fresh.reset p reapply = fresh := by
      unfold StateRecord.reset
      split <;> rfl
    exact .inl ⟨same, kind⟩
  · exact .inr ⟨sound.reset reapply, kind⟩

theorem Opens.start (opens : Opens p record) (target : Target p) : Sound (record.start p) := by
  rcases opens with ⟨rfl, kind⟩ | ⟨sound, -⟩
  · have installs : (fresh.claim p).retarget p =
        (((fresh.claim p).adopt p).forget).mode .notNeeded := by
      rw [StateRecord.retarget, kind]
    have consistent : Consistent ((((fresh.claim p).adopt p).forget).mode .notNeeded) :=
      { version := rfl
        secrets := fun _ mem => absurd mem List.not_mem_nil
        units := fun _ mem => absurd mem List.not_mem_nil
        ordered := .nil
        current := target.released
        previous := .inl ⟨rfl, rfl, rfl⟩
        caller := target.caller
        changeKind := (by decide : validChangeKind [] = true)
        rollbackMode := validRollbackMode_text .notNeeded }
    rw [StateRecord.start, installs]
    exact (consistent.enter _ _).sync
  · exact (((sound.toConsistent.claim target).retarget target).enter _ _).sync

theorem changeKind_fresh {change : ChangeKind × Text × Text}
    (result : changeKind host fresh r = .ok change) : change.1 = .initialInstall := by
  unfold changeKind at result
  split at result
  · cases result
  · cases result
  · cases result
    rfl

/-- A sound record has a release. -/
theorem Sound.ne_migration (sound : Sound record) {change : ChangeKind × Text × Text}
    (result : changeKind host record r = .ok change) : change.1 ≠ .checkpointMigration := by
  have release := sound.current.release_ne_nil
  unfold changeKind applyKind at result
  rw [if_neg release] at result
  split at result
  · cases result
    simp
  · split_ifs at result
    cases result
    simp
  · split_ifs at result <;> cases result <;> simp

theorem configID_ne_nil : host.configID r ≠ [] := List.cons_ne_nil _ _

/-! ## What is on the disk -/

/-- Every record that was saved is sound, and the file is one of them. -/
structure World.Kept (w : World) : Prop where
  sound : ∀ record ∈ w.saved, Sound record
  file : ∀ data, w.file = some data → ∃ record ∈ w.saved, data = marshal record

theorem World.Kept.save (kept : w.Kept) (sound : Sound record) (saving : Saving) :
    (w.save record saving).Kept where
  sound := by
    intro saved mem
    rcases List.mem_append.mp mem with old | new
    · exact kept.sound saved old
    · rwa [List.mem_singleton.mp new]
  file := by
    intro data found
    by_cases reaches : saving.reaches = true
    · rw [World.save, if_pos reaches] at found
      exact ⟨record, List.mem_append_right _ (List.mem_singleton_self _),
        (Option.some.inj found).symm⟩
    · rw [World.save, if_neg reaches] at found
      obtain ⟨saved, mem, same⟩ := kept.file data found
      exact ⟨saved, List.mem_append_left _ mem, same⟩

theorem World.Kept.loadState (kept : w.Kept) (loaded : loadState w.file = .ok record) :
    record = fresh ∨ Sound record := by
  cases stored : w.file with
  | none =>
    rw [stored] at loaded
    exact .inl (Except.ok.inj loaded).symm
  | some data =>
    obtain ⟨saved, mem, rfl⟩ := kept.file data stored
    rw [stored, loadState_marshal (kept.sound saved mem)] at loaded
    split at loaded
    · rw [← Except.ok.inj loaded]
      exact .inr (kept.sound saved mem).clean
    · cases loaded

theorem identify_eq_ok {plan named : Plan} (result : identify host record r plan = .ok named) :
    ∃ id, named = { plan with id := id } := by
  unfold identify at result
  dsimp only at result
  split_ifs at result <;> cases result <;> exact ⟨_, rfl⟩

theorem prepare_opens (kept : w.Kept) (prepared : prepare host w.file r = .ok p) :
    Target p ∧ Opens p p.record := by
  simp only [prepare, bind_eq_ok, check_eq_ok, absent_eq_ok, pure_eq_ok, mapError_eq_ok] at prepared
  obtain ⟨-, -, record, loaded, -, -, -, -, -, -, -, version, -, -, change, kind, plan, named,
    rfl⟩ := prepared
  obtain ⟨id, rfl⟩ := identify_eq_ok named
  rw [Bool.and_eq_true, decide_eq_true_eq] at version
  have target : Released r.version (host.digest r.manifest) (host.configID r) :=
    ⟨version.2 ▸ version.1, host.fileDigest_digest _, configID_ne_nil⟩
  refine ⟨⟨target, host.callerIdentity_valid r⟩, ?_⟩
  rcases kept.loadState loaded with rfl | sound
  · exact .inl ⟨rfl, changeKind_fresh kind⟩
  · exact .inr ⟨sound, sound.ne_migration kind⟩

/-! ## What a call does -/

/-- In the middle of a call. -/
def Holds (P : StateRecord → Prop) (f : Frame) : Prop := P f.record ∧ f.world.Kept

/-- The program takes a call from one to the other, and returns with a disk that is kept. -/
abbrev Keeps (P : StateRecord → Prop) (x : Prog) (Q : StateRecord → Prop) : Prop :=
  Triple (Holds P) x (fun _ => Holds Q) fun e => e.world.Kept

section Keeps

variable {P Q R : StateRecord → Prop}

theorem keeps_bind {x y : Prog} (first : Keeps P x Q) (second : Keeps Q y R) :
    Keeps P (x >>= fun _ => y) R := first.bind fun _ => second

theorem keeps_read {α : Type} {f : Frame → α} {x : α → Prog} (each : ∀ a, Keeps P (x a) Q) :
    Keeps P (EarlyReturn.read f >>= x) Q :=
  (Triple.read fun _ start => start : Triple (Holds P) _ (fun _ => Holds P) _).bind each

theorem keeps_pure : Keeps P (pure ⟨⟩) P := Triple.pure fun _ start => start

theorem keeps_change {f : StateRecord → StateRecord} (leads : ∀ record, P record → Q (f record)) :
    Keeps P (change f) Q := Triple.update fun s start => ⟨leads s.record start.1, start.2⟩

theorem keeps_demand (error : Option Refusal) : Keeps P (demand error) P := by
  cases error with
  | none => exact keeps_pure
  | some error => exact Triple.leave fun _ start => start.2

theorem keeps_save (saving : Saving) : Keeps Sound (save saving) Sound := by
  have saved : Keeps Sound (EarlyReturn.update fun s =>
      { s with world := s.world.save s.record saving }) Sound :=
    Triple.update fun s start => ⟨start.1, start.2.save start.1 saving⟩
  exact saved.bind fun _ =>
    Triple.ite (fun _ => keeps_pure) fun _ => Triple.leave fun _ start => start.2

theorem keeps_failedStep (s : StepName) (saving : Saving) (failure : Option Refusal) :
    Keeps Sound (failedStep s saving failure) Sound := by
  cases failure with
  | none => exact keeps_pure
  | some cause =>
    exact Triple.leave fun f start => start.2.save (start.1.fail s cause.failure) saving

end Keeps

theorem keeps_crossBoundary (s : StepName) (saving : Saving) :
    Keeps Sound (crossBoundary p s saving) Sound :=
  keeps_read fun _ => Triple.ite
    (fun _ => keeps_bind (keeps_change fun _ sound => (sound.toConsistent.mode _).sync)
      (keeps_save saving))
    fun _ => keeps_pure

/-- One step, whatever comes of it. -/
theorem keeps_step (reapply : Bool) (answer : StepName → Answer) (s : StepName) :
    Keeps Sound (step host p reapply answer s) Sound := by
  refine keeps_read fun _ => Triple.ite (fun _ => keeps_pure) fun _ => ?_
  refine keeps_bind (keeps_failedStep s _ _) ?_
  refine keeps_bind (keeps_crossBoundary s _) ?_
  refine keeps_bind (keeps_change fun _ sound => sound.runs (answer s) s) ?_
  refine keeps_bind (keeps_failedStep s _ _) ?_
  refine keeps_bind (keeps_change fun _ sound => sound.complete s) ?_
  exact keeps_bind (keeps_save _) (keeps_demand _)

theorem keeps_runSteps (reapply : Bool) (answer : StepName → Answer) (names : List StepName) :
    Keeps Sound (runSteps host p reapply answer names) Sound := by
  induction names with
  | nil => exact keeps_pure
  | cons s rest ih => exact keeps_bind (keeps_step reapply answer s) ih

/-- From the record that was loaded to the last checkpoint. -/
theorem keeps_body (target : Target p) (opens : Opens p p.record) (c : Call) :
    Keeps (Opens p) (body host p c) Sound := by
  have kind : p.plan.changeKind ≠ .checkpointMigration := by
    rcases opens with ⟨-, kind⟩ | ⟨-, kind⟩
    · simp [kind]
    · exact kind
  rw [body, if_neg kind]
  refine keeps_read fun reapply => ?_
  refine keeps_bind (keeps_change fun _ opens => opens.reset reapply) ?_
  refine keeps_read fun owns => keeps_bind (keeps_demand _) ?_
  refine keeps_read fun eligible => keeps_bind (keeps_demand _) ?_
  refine keeps_bind (keeps_change fun _ opens => opens.start target) ?_
  refine keeps_bind (keeps_save _) ?_
  refine keeps_bind (keeps_runSteps reapply _ _) ?_
  exact keeps_bind (keeps_change fun _ sound => sound.finish target) (keeps_save _)

theorem kept_ended {x : Prog} {P Q : StateRecord → Prop} (keeps : Keeps P x Q) {f : Frame}
    (start : Holds P f) : (ended (x f)).world.Kept := by
  obtain ⟨ends, returns⟩ := keeps f start
  cases result : x f with
  | error e => exact returns e result
  | ok done => exact (ends done.1 done.2 result).2

/-- One call. -/
theorem World.Kept.execute (kept : w.Kept) (c : Call) : (execute host w c).world.Kept := by
  unfold StateFile.execute
  cases prepared : prepare host w.file c.request with
  | error e => exact kept
  | ok p =>
    obtain ⟨target, opens⟩ := prepare_opens kept prepared
    simp only [perform]
    split
    · exact kept
    · split
      · exact kept
      · exact kept_ended (keeps_body target opens c) ⟨opens, kept⟩

/-- Any number of calls. -/
theorem kept_run (host : Host) (calls : List Call) : (run host calls).Kept := by
  have foldl (w : World) (kept : w.Kept) :
      (calls.foldl (fun w c => (execute host w c).world) w).Kept := by
    induction calls generalizing w with
    | nil => exact kept
    | cons c calls ih => exact ih _ (kept.execute c)
  refine foldl ⟨none, []⟩ ⟨fun _ mem => absurd mem List.not_mem_nil, fun _ found => ?_⟩
  cases found

/-! ## What can be loaded -/

/-- **Every record that is saved is loaded as it was**, if it is not too long and its readiness keys
are UTF-8.  What is on the disk is a record that was saved, and is loaded unless it is too long. -/
theorem saved_loads (host : Host) (calls : List Call) :
    (∀ record ∈ (run host calls).saved, (marshal record).length ≤ maxInputBytes →
      record.runtimeRoles.WellEncoded → loadState (some (marshal record)) = .ok record) ∧
    ∀ data, (run host calls).file = some data → ∃ record ∈ (run host calls).saved,
      data = marshal record ∧
        (data.length ≤ maxInputBytes → loadState (some data) = .ok record.clean) := by
  have kept := kept_run host calls
  constructor
  · intro record mem fits encoded
    rw [loadState_marshal (kept.sound record mem), if_pos fits, StateRecord.clean_eq encoded]
  · intro data stored
    obtain ⟨record, mem, rfl⟩ := kept.file data stored
    refine ⟨record, mem, rfl, fun fits => ?_⟩
    rw [loadState_marshal (kept.sound record mem), if_pos fits]

namespace Sample

def secret (name : Text) : SecretSelection := ⟨name, "access".toList, "secret".toList⟩

/-- Roles of which the first has this readiness key. -/
def roles (key : Bytes) : RuntimeRoles where
  core := ⟨secret "core-s3".toList, "raw/".toList, key, [], "archive/".toList⟩
  ingestion := ⟨secret "ingestion-s3".toList, "raw/".toList, Utf8.encode "raw/ready".toList,
    "normalized/".toList, []⟩
  retention := ⟨secret "retention-s3".toList, "raw/".toList, Utf8.encode "raw/ready".toList, [],
    "archive/".toList⟩

def request (key : Bytes) : Request :=
  ⟨.apply, false, roles key, [], .kubernetes, "1.0.0".toList, "aspm-evidence".toList, [],
    "1.0.0".toList, [], [], none, none, none⟩

def machine : Host where
  sha256 _ := ⟨List.replicate 32 0, List.length_replicate⟩
  bound _ _ := []
  containsPrivate _ _ := false

/-- The bundle is gone when the first step is to run. -/
def call (key : Bytes) : Call :=
  ⟨request key, false, "deployment-".toList ++ machine.digest [], none, .published,
    fun _ => ⟨some ⟨.bundle, ""⟩, .published, [], none, .published, .published, true⟩, .published⟩

def prepared (key : Bytes) : Prepared where
  plan := { makePlan machine (request key) (.initialInstall, [], []) with
    id := "deployment-".toList ++ machine.digest [] }
  record := fresh
  request := request key
  caller := machine.digest []

/-- What is on the disk after the call. -/
def last (key : Bytes) : StateRecord :=
  (fresh.start (prepared key)).fail .protectedCredentials .bundle

theorem resolve_request {key : Bytes} (valid : validReadinessKey "raw/".toList key = true) :
    resolve (request key) = .ok ⟨⟩ := by
  have core : validateSelection (roles key).core = true := by
    rw [validateSelection, Bool.and_eq_true]
    exact ⟨rfl, valid⟩
  simp only [resolve, bind_eq_ok, check_eq_ok]
  refine ⟨⟨⟩, rfl, ⟨⟩, ?_, ⟨⟩, rfl, ⟨⟩, rfl, ⟨⟩, rfl, ⟨⟩, rfl, rfl⟩
  show (validateSelection (roles key).core && _ && _) = true
  rw [core]
  rfl

theorem run_call (key : Bytes) (valid : validReadinessKey "raw/".toList key = true) :
    last key ∈ (run machine [call key]).saved ∧
      (run machine [call key]).file = some (marshal (last key)) := by
  have prepares : prepare machine none (call key).request = .ok (prepared key) := by
    show prepare machine none (request key) = _
    rw [prepare, resolve_request valid]
    rfl
  have ran : run machine [call key] =
      ⟨some (marshal (last key)), [fresh.start (prepared key), last key]⟩ := by
    show (execute machine ⟨none, []⟩ (call key)).world = _
    rw [execute, prepares]
    rfl
  rw [ran]
  exact ⟨.tail _ (.head _), rfl⟩

def key : Bytes := Utf8.encode "raw/ready".toList

end Sample

theorem saved_loads_failed :
    Sample.last Sample.key ∈ (run Sample.machine [Sample.call Sample.key]).saved ∧
      loadState (some (marshal (Sample.last Sample.key))) = .ok (Sample.last Sample.key) := by
  have mem := (Sample.run_call Sample.key (by decide)).1
  have encoded : (Sample.last Sample.key).runtimeRoles.WellEncoded := by
    intro role mem
    fin_cases mem <;> exact Utf8.valid_encode _
  exact ⟨mem, (saved_loads Sample.machine [Sample.call Sample.key]).1 _ mem (by decide +kernel)
    encoded⟩

/-! ## What cannot be loaded -/

section Length

open Json Json.Layout

theorem mem_written {σ : Type} {zero s : σ} {slots : List (Slot Numeral σ zero)}
    {m : Slot Numeral σ zero} {d : Datum Numeral} (mem : m ∈ slots)
    (writes : m.write (m.get s) = some d) : (m.name, d) ∈ written s slots :=
  List.mem_filterMap.mpr ⟨m, mem, by rw [writes]; rfl⟩

/-- The readiness key of the core is in the file. -/
theorem length_le_marshal (record : StateRecord) :
    (Utf8.coerce record.runtimeRoles.core.readinessKey).length ≤ (marshal record).length := by
  let role := record.runtimeRoles.core
  have key : (Utf8.coerce role.readinessKey).length ≤
      (Datum.print (.string (Utf8.coerce role.readinessKey))).length := by
    have escaped := length_le_escaped (Utf8.coerce role.readinessKey)
    simp only [Datum.print, printString, List.length_cons, List.length_append]
    omega
  have inRole : ("readinessKey".toList, .string (Utf8.coerce role.readinessKey)) ∈
      written role roleSelectionLayout.slots := mem_written (.tail _ (.tail _ (.head _))) rfl
  have inRoles : ("core".toList, roleSelectionLayout.encode role) ∈
      written record.runtimeRoles runtimeRolesLayout.slots := mem_written (.head _) rfl
  have inRecord : ("runtimeRoles".toList, runtimeRolesLayout.encode record.runtimeRoles) ∈
      written record stateRecordLayout.slots :=
    mem_written (.tail _ (.tail _ (.tail _ (.tail _ (.tail _ (.tail _ (.tail _ (.tail _ (.tail _
      (.head _)))))))))) rfl
  rw [marshal, Utf8.length_encode]
  refine le_trans ?_ (length_le_byteLength _)
  exact key.trans ((Datum.length_print_lt_object inRole).le.trans
    ((Datum.length_print_lt_object inRoles).le.trans (Datum.length_print_lt_object inRecord).le))

end Length

/-- A checkpoint that cannot be loaded stays, and everything is refused. -/
theorem stuck_of_unloadable (host : Host) {text : String}
    (unloadable : loadState w.file = .error text) :
    (∀ r, ∃ refusal, plan host w r = .error refusal) ∧
      ∀ c, (execute host w c).world = w ∧
        ∃ refusal, (execute host w c).returned = some (.zero, [refusal]) := by
  have refused (r : Request) : ∃ refusal, prepare host w.file r = .error refusal := by
    rw [prepare]
    cases resolve r with
    | error refusal => exact ⟨refusal, rfl⟩
    | ok _ =>
      rw [unloadable]
      exact ⟨_, rfl⟩
  constructor
  · intro r
    obtain ⟨refusal, error⟩ := refused r
    exact ⟨refusal, by rw [plan, error]; rfl⟩
  · intro c
    obtain ⟨refusal, error⟩ := refused c.request
    rw [execute, error]
    exact ⟨rfl, refusal, rfl⟩

namespace Sample

/-- A readiness key of more than a mebibyte. -/
def longKey : Text := "raw/".toList ++ List.replicate maxInputBytes 'a'

theorem encode_raw (n : ℕ) : Utf8.encode ("raw/".toList ++ List.replicate n 'a') =
    [114, 97, 119] ++ slash :: List.replicate n 97 := by
  have letters : Utf8.encode (List.replicate n 'a') = List.replicate n 97 := by
    rw [Utf8.encode, List.flatMap_replicate]
    exact List.flatten_replicate_singleton
  rw [Utf8.encode_append, letters]
  rfl

theorem relativePath_raw {n : ℕ} (positive : 0 < n) :
    relativePath ([114, 97, 119] ++ slash :: List.replicate n 97) = true := by
  have same : ([114, 97, 119] ++ slash :: List.replicate n 97).map
      (fun b => if b = backslash then slash else b) =
        [114, 97, 119] ++ slash :: List.replicate n 97 := by
    simp only [List.map_append, List.map_cons, List.map_replicate]
    rfl
  have apart : slash ∉ List.replicate n (97 : UInt8) := by
    rw [List.mem_replicate]
    rintro ⟨-, same⟩
    exact absurd same (by decide)
  have parts : ([114, 97, 119] ++ slash :: List.replicate n 97).splitOn slash =
      [[114, 97, 119], List.replicate n 97] := by
    rw [List.splitOn_append_cons_self_of_not_mem (by decide), List.splitOn_eq_singleton apart]
  have named : List.replicate n (97 : UInt8) ∉ [[], [46], [46, 46]] := by
    obtain ⟨n, rfl⟩ := Nat.exists_eq_add_of_lt positive
    simp [List.replicate_succ]
  rw [relativePath, same, parts]
  simp_all [slash]

theorem validReadinessKey_longKey :
    validReadinessKey "raw/".toList (Utf8.encode longKey) = true := by
  have begins : (Utf8.encode "raw/".toList).isPrefixOf (Utf8.encode longKey) = true := by
    rw [longKey, Utf8.encode_append]
    exact List.isPrefixOf_iff_prefix.mpr (List.prefix_append _ _)
  have positive : 0 < maxInputBytes := by norm_num [maxInputBytes]
  have longer : (Utf8.encode "raw/".toList).length < (Utf8.encode longKey).length := by
    simp only [longKey, Utf8.encode_append, List.length_append]
    refine Nat.lt_add_of_pos_right ?_
    rw [Utf8.length_encode]
    exact lt_of_lt_of_le (by simpa using positive) (Json.length_le_byteLength _)
  have plain : globFree (Utf8.encode longKey) = true := by
    simp only [longKey, encode_raw, globFree, List.all_append, List.all_cons, List.all_replicate]
    decide
  rw [validReadinessKey, begins, decide_eq_true longer, plain]
  rw [longKey, encode_raw, relativePath_raw positive]
  rfl

/-- A readiness key that is not UTF-8. -/
def brokenKey : Bytes := Utf8.encode "raw/".toList ++ [255]

theorem clean_ne : (last brokenKey).clean ≠ last brokenKey := by
  intro same
  have key : Utf8.encode (Utf8.coerce brokenKey) = brokenKey :=
    congrArg (fun record => record.runtimeRoles.core.readinessKey) same
  exact absurd key (by decide +kernel)

end Sample

/-- A readiness key that is too long for the file leaves a checkpoint that is not loaded, and every
later call is refused.  One that is not UTF-8 comes back as another. -/
theorem saved_not_loaded :
    (∃ (host : Host) (c : Call), ∃ record ∈ (run host [c]).saved,
      (run host [c]).file = some (marshal record) ∧
      loadState (run host [c]).file = .error "installer checkpoint could not be read" ∧
      status (run host [c]) = .error "installer checkpoint could not be read" ∧
      (∀ r, ∃ refusal, plan host (run host [c]) r = .error refusal) ∧
      ∀ c', (execute host (run host [c]) c').world = run host [c] ∧
        ∃ refusal, (execute host (run host [c]) c').returned = some (.zero, [refusal])) ∧
    ∃ (host : Host) (c : Call), ∃ record ∈ (run host [c]).saved,
      (run host [c]).file = some (marshal record) ∧
        loadState (some (marshal record)) ≠ .ok record := by
  constructor
  · obtain ⟨mem, file⟩ := Sample.run_call _ Sample.validReadinessKey_longKey
    have long : ¬ (marshal (Sample.last (Utf8.encode Sample.longKey))).length ≤ maxInputBytes := by
      have key : (Utf8.coerce (Utf8.encode Sample.longKey)).length ≤ _ :=
        length_le_marshal (Sample.last (Utf8.encode Sample.longKey))
      rw [Utf8.coerce_encode, Sample.longKey, List.length_append, List.length_replicate] at key
      rw [not_le]
      exact lt_of_lt_of_le (Nat.lt_add_of_pos_left (by decide)) key
    have unloadable := file ▸ loadState_marshal ((kept_run _ _).sound _ mem)
    rw [if_neg long] at unloadable
    obtain ⟨plans, calls⟩ := stuck_of_unloadable Sample.machine unloadable
    refine ⟨_, _, _, mem, file, unloadable, ?_, plans, calls⟩
    rw [status, unloadable]
    rfl
  · obtain ⟨mem, file⟩ := Sample.run_call Sample.brokenKey (by decide)
    refine ⟨_, _, _, mem, file, ?_⟩
    rw [loadState_marshal ((kept_run _ _).sound _ mem)]
    split
    · exact fun same => Sample.clean_ne (Except.ok.inj same)
    · simp

end Aspm.Install.StateFile
