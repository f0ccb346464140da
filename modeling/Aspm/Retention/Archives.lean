import Aspm.Retention.Holds

/-!
# Archived evidence keeps its object

Two statements about runs with the tasks of one kind.  Where observations are archived, expired and
restored, an object can be lost in one way: two runs have an item for the same observation, one
worker is about to delete the object, and the other, which has seen a hold, clears the mark.  Where
evidence is archived and orphans are deleted, an object can be lost in one way too: a worker deletes
the object of an orphan and crashes before it commits, and an archiver that has found the object
before refers to it afterwards.
-/

namespace Aspm.Retention

open Reconcile (Time)

open Content Evidence

namespace Store

variable {ID Data Digest : Type}

/-! ## Runs with some of the tasks -/

/-- All items are for tasks of this kind. -/
structure Only (allowed : Task ID Digest → Bool) (q : Store ID Data Digest) : Prop where
  ledgers : ∀ run l, q.ledgers run = some l → ∀ task ∈ l.run.tasks, allowed task = true
  works : ∀ party work, q.works party = some work → allowed work.task = true

def Queues (allowed : Task ID Digest → Bool) : Action ID Data Digest → Prop
  | .queue _ tasks => ∀ task ∈ tasks, allowed task = true
  | _ => True

instance (allowed : Task ID Digest → Bool) (a : Action ID Data Digest) :
    Decidable (Queues allowed a) := by
  cases a <;> unfold Queues <;> infer_instance

theorem only_empty {allowed : Task ID Digest → Bool} {now : Time} :
    (empty now : Store ID Data Digest).Only allowed where
  ledgers _ _ stored := by cases stored
  works _ _ working := by cases working

section Only

variable {allowed : Task ID Digest → Bool} {q q' q₁ : Store ID Data Digest}
  {a : Action ID Data Digest}

theorem Only.moved (only : q.Only allowed) (moved : Moved q q₁) {run : ID}
    {l : Ledger (Task ID Digest)} (stored : q₁.ledgers run = some l) :
    ∀ task ∈ l.run.tasks, allowed task = true := by
  obtain ⟨l₀, stored₀, same⟩ := moved.tasks run l stored
  rw [same]
  exact only.ledgers run l₀ stored₀

variable [DecidableEq ID]

theorem Only.update (only : q.Only allowed) {run : ID} {l' : Ledger (Task ID Digest)}
    (tasks : ∀ task ∈ l'.run.tasks, allowed task = true) {run₀ : ID}
    {l : Ledger (Task ID Digest)}
    (stored : Function.update q.ledgers run (some l') run₀ = some l) :
    ∀ task ∈ l.run.tasks, allowed task = true := by
  by_cases here : run₀ = run
  · rw [here, Function.update_self] at stored
    rwa [← Option.some.inj stored]
  · rw [Function.update_of_ne here] at stored
    exact only.ledgers run₀ l stored

theorem Only.setWork (only : q.Only allowed) (moved : Moved q q₁) {acting : Party ID}
    {work' : Option (Work ID Data Digest)}
    (same : ∀ w, work' = some w → allowed w.task = true) {party : Party ID}
    {work : Work ID Data Digest}
    (working : Function.update q₁.works acting work' party = some work) :
    allowed work.task = true := by
  by_cases here : party = acting
  · rw [here, Function.update_self] at working
    exact same work working
  · rw [Function.update_of_ne here, moved.works] at working
    exact only.works party work working

variable [DecidableEq Data] [DecidableEq Digest] [Content Data Digest]

theorem Only.step (only : q.Only allowed) (step : q.step a = some q') (queues : Queues allowed a) :
    q'.Only allowed := by
  cases taken_of_step step with
  | rest _ works ledgers _ =>
    refine ⟨?_, ?_⟩
    · rw [ledgers]
      exact only.ledgers
    · rw [works]
      exact only.works
  | hold | grow _ => exact ⟨only.ledgers, only.works⟩
  | queue _ =>
    refine ⟨fun run l stored => only.update (fun task mem => ?_) stored, only.works⟩
    rw [Ledger.queue, Run.tasks_queue] at mem
    exact queues task mem
  | idle moved =>
    refine ⟨fun run l => only.moved moved, ?_⟩
    rw [moved.works]
    exact only.works
  | @claim _ run l l' index stored fence tasks owned =>
    have allow : ∀ task ∈ l'.run.tasks, allowed task = true := by
      rw [tasks]
      exact only.ledgers run l stored
    refine ⟨fun run₀ l₀ => only.update allow, fun party work =>
      only.setWork (.refl q) fun w same => ?_⟩
    obtain ⟨item, found, rfl⟩ := Option.map_eq_some_iff.mp same
    exact allow item.task (List.mem_map_of_mem (List.mem_of_getElem? found))
  | turn working _ moved _ =>
    refine ⟨fun run l => only.moved moved, fun party work => only.setWork moved fun w same => ?_⟩
    have known := only.works _ _ working
    rwa [← Option.some.inj same]
  | finish working _ moved =>
    refine ⟨fun run l => only.moved moved, fun party work => only.setWork moved ?_⟩
    intro w same
    cases same
  | rollback working moved left _ =>
    refine ⟨fun run l => only.moved moved, fun party work => only.setWork moved fun w same => ?_⟩
    have known := only.works _ _ working
    rwa [left w same]

end Only

/-! ## Marks -/

/-- No row is marked. -/
def Unmarked (q : Store ID Data Digest) : Prop :=
  ∀ r row, q.evidence.rows r = some row → row.expiring = false

variable [DecidableEq ID] [DecidableEq Data] [DecidableEq Digest] [Content Data Digest]
  {q q' : Store ID Data Digest} {a : Action ID Data Digest}

omit [DecidableEq ID] [DecidableEq Data] [DecidableEq Digest] in
theorem unmarked_of_grows {e e' : Evidence ID Data Digest} (grows : e.Grows e')
    (unmarked : ∀ r row, e.rows r = some row → row.expiring = false) :
    ∀ r row, e'.rows r = some row → row.expiring = false := by
  intro r row stored
  cases before : e.rows r with
  | none => exact (grows.appears r row before stored).unmarked
  | some row₀ =>
    obtain ⟨payload, same⟩ := grows.rows r row₀ before
    obtain rfl := Option.some.inj (same.symm.trans stored)
    exact unmarked r row₀ before

omit [DecidableEq Data] in
theorem unmarked_of_deed {guarded : Prop} {party : Party ID} {r : Resource ID}
    {stage : Stage ID Data Digest} {e e' : Evidence ID Data Digest}
    (deed : Deed guarded party r stage e e') (other : ∀ ref revision, stage ≠ .marking ref revision)
    (unmarked : ∀ r row, e.rows r = some row → row.expiring = false) :
    ∀ r row, e'.rows r = some row → row.expiring = false := by
  have set {row' : Row ID Data Digest} (free : row'.expiring = false) (r' : Resource ID)
      (row : Row ID Data Digest) (stored : (e.setRow r row').rows r' = some row) :
      row.expiring = false := by
    by_cases here : r' = r
    · subst here
      rwa [← Option.some.inj (rows_setRow_self.symm.trans stored)]
    · exact unmarked r' row ((rows_setRow_ne here).symm.trans stored)
  induction deed with
  | none | erase _ _ _ | lock _ => exact unmarked
  | grow grows => exact unmarked_of_grows grows unmarked
  | row stored _ _ _ _ _ _ _ marks =>
    refine set (Bool.eq_false_of_not_eq_true fun marked => ?_)
    rcases marks marked with before | ⟨ref, revision, here⟩
    · rw [unmarked r _ stored] at before
      cases before
    · exact other ref revision here
  | clear _ _ _ | archive _ _ _ _ _ => exact set rfl
  | publish _ _ _ _ ih => exact ih

/-- Where nothing expires, nothing is marked. -/
theorem Unmarked.step {guarded : Prop} {allowed : Task ID Digest → Bool} (unmarked : q.Unmarked)
    (inv : q.Inv guarded) (only : q.Only allowed) (keeps : ∀ task, allowed task = true →
      task.expires = false) (step : q.step a = some q') : q'.Unmarked := by
  cases taken_of_step step with
  | rest evidence _ _ _ =>
    unfold Unmarked
    rw [evidence]
    exact unmarked
  | hold | queue _ | claim _ _ _ _ | rollback _ _ _ _ => exact unmarked
  | idle moved | finish _ _ moved =>
    intro r row stored
    exact unmarked r row ((congrArg (fun e => e.rows r) moved.evidence).symm.trans stored)
  | grow grows => exact unmarked_of_grows grows unmarked
  | @turn party _ _ _ work _ _ _ _ working owner moved goes =>
    have sound := inv.works party work working
    have turned := Task.turned inv.evidence sound (fun _ => Erased.locks)
      (fun guard leased active => ⟨active, owner guard leased⟩) goes
    cases turned with
    | deed deed _ =>
      refine unmarked_of_deed deed (fun ref revision here => ?_) unmarked
      rw [here] at sound
      have expires := keeps work.task (only.works party work working)
      rw [sound.1] at expires
      cases expires
    | purge _ _ | commit _ _ _ => exact unmarked

/-! ## The object of archived evidence -/

/-- There is an object with the key, the digest and the size that the row has recorded. -/
def Stored (q : Store ID Data Digest) (row : Row ID Data Digest) : Prop :=
  ∃ ref data, row.stored = some ref ∧ q.evidence.objects ref.key = some data ∧
    sha256 data = ref.digest ∧ size data = ref.size

omit [DecidableEq Data] in
theorem Inv.stored {r : Resource ID} {row : Row ID Data Digest} (inv : q.Inv True)
    (found : q.evidence.rows r = some row) (archived : row.availability = .archived)
    (unmarked : row.expiring = false) : q.Stored row := by
  have formed := inv.evidence.rows r row found
  obtain ⟨ref, refers⟩ := Option.ne_none_iff_exists'.mp (formed.archived archived)
  obtain ⟨data, there⟩ := Option.ne_none_iff_exists'.mp
    (inv.evidence.kept trivial r row ref found archived unmarked refers)
  obtain ⟨data', rfl⟩ := formed.own ref refers
  obtain rfl := sha256_injective (inv.evidence.objects _ data there)
  exact ⟨_, data', refers, there, rfl, rfl⟩

/-- `archive-history`, `expire-archive` and `restore-archive`. -/
def observing : Task ID Digest → Bool
  | .archiveHistory _ | .expireArchive _ | .restoreArchive _ => true
  | _ => false

/-- `archive-history`, `archive-audit` and `delete-orphan`. -/
def archiving : Task ID Digest → Bool
  | .archiveHistory _ | .archiveAudit _ _ | .deleteOrphan _ _ _ => true
  | _ => false

section Checks

variable (runs : List ID)

def checkClearsSafely (q : Store ID Data Digest) : Action ID Data Digest → Bool
  | .turn party _ _ _ =>
    match q.works party with
    | some ⟨task, .clearing _ _⟩ =>
      (((q.evidence.rows task.resource).bind (·.stored)).all fun ref =>
        (q.evidence.objects ref.key).isSome) &&
      (q.parties runs).all fun other => other = party ||
        (q.works other).all fun work => !(q.owns other && work.stage.engaged &&
          work.task.resource = task.resource)
    | _ => true
  | _ => true

def checkRollsBackSafely (q : Store ID Data Digest) : Action ID Data Digest → Bool
  | .crash party | .fail party =>
    match q.works party with
    | some ⟨.deleteOrphan key _ _, .deleted p _⟩ =>
      (q.evidence.objects key).isSome || (q.parties runs).all fun other =>
        match q.works other with
        | some ⟨task, .published data _ publication⟩ => !(q.owns other &&
            publication = p.revision && (task.resource.object data).key = key)
        | _ => true
    | _ => true
  | _ => true

variable {runs} {guarded : Prop}

omit [DecidableEq Data] in
theorem Inv.clearsSafely (inv : q.Inv guarded) (all : ∀ run, run ∈ runs)
    (checked : q.checkClearsSafely runs a = true) : q.ClearsSafely a := by
  cases a with
  | turn party since lease wall =>
    intro task reasons outcome working
    rw [checkClearsSafely, working, Bool.and_eq_true] at checked
    refine ⟨fun row ref stored refers => ?_, fun other work acting working' owner engaged same => ?_⟩
    · have there := checked.1
      rw [stored, Option.bind_some, refers, Option.all_some] at there
      exact Option.isSome_iff_ne_none.mp there
    · have here := List.all_eq_true.mp checked.2 other (inv.mem_parties all working')
      rw [working', Option.all_some, owner, engaged, decide_eq_true same,
        decide_eq_false acting] at here
      cases here
  | _ => trivial

omit [DecidableEq Data] in
theorem Inv.rollsBackSafely (inv : q.Inv guarded) (all : ∀ run, run ∈ runs)
    (checked : q.checkRollsBackSafely runs a = true) : q.RollsBackSafely a := by
  cases a with
  | crash party | fail party =>
    intro key digest revision p outcome working gone other task data revision' working' owner same
    rw [checkRollsBackSafely, working] at checked
    dsimp only at checked
    rw [gone, Option.isSome_none, Bool.false_or] at checked
    have here := List.all_eq_true.mp checked other (inv.mem_parties all working')
    rw [working'] at here
    dsimp only at here
    rw [owner, decide_eq_true same, decide_eq_true rfl] at here
    cases here
  | _ => trivial

end Checks

/-- **Archived observations keep their object**, in every run in which marks are cleared only while
the object is there and nobody else is about to delete it. -/
theorem archived_observation_stored (now : Time) (as : List (Action ID Data Digest))
    (safe : Machine.Always step (fun q a => Queues observing a ∧ q.ClearsSafely a)
      (empty now) as) :
    Machine.Throughout step (fun q => ∀ id row, q.evidence.rows ⟨.observation, id⟩ = some row →
      row.availability = .archived → row.expiring = false → q.Stored row)
      (empty now : Store ID Data Digest) as := by
  refine safe.throughout (I := fun q => q.Inv True ∧ q.Only observing) ?_ ?_
    ⟨inv_empty True now, only_empty⟩
  · rintro q a q' ⟨inv, only⟩ ⟨queues, clears⟩ taken
    refine ⟨inv.step taken fun _ => ⟨clears, ?_⟩, only.step taken queues⟩
    -- Nobody deletes orphans.
    cases a with
    | crash party | fail party =>
      intro key digest revision p outcome working
      have known := only.works party _ working
      cases known
    | _ => trivial
  · rintro q ⟨inv, -⟩ id row found
    exact inv.stored found

/-- **Orphan cleanup does not lose evidence**, in every run in which a deletion is left uncommitted
only if nobody has found the object before. -/
theorem archived_evidence_stored (now : Time) (as : List (Action ID Data Digest))
    (safe : Machine.Always step (fun q a => Queues archiving a ∧ q.RollsBackSafely a)
      (empty now) as) :
    Machine.Throughout step (fun q => ∀ r row, q.evidence.rows r = some row →
      row.availability = .archived → q.Stored row) (empty now : Store ID Data Digest) as := by
  have keeps (task : Task ID Digest) (allowed : archiving task = true) : task.expires = false := by
    cases task <;> first | rfl | cases allowed
  refine safe.throughout (I := fun q => q.Inv True ∧ q.Only archiving ∧ q.Unmarked) ?_ ?_
    ⟨inv_empty True now, only_empty, fun _ _ found => by cases found⟩
  · rintro q a q' ⟨inv, only, unmarked⟩ ⟨queues, rolls⟩ taken
    refine ⟨inv.step taken fun _ => ⟨?_, rolls⟩, only.step taken queues, ?_⟩
    · -- Nobody clears marks.
      cases a with
      | turn party since lease wall =>
        intro task reasons outcome working
        have expires : task.expires = true := inv.works party _ working
        rw [keeps task (only.works party _ working)] at expires
        cases expires
      | _ => trivial
    · exact unmarked.step inv only keeps taken
  · rintro q ⟨inv, -, unmarked⟩ r row found archived
    exact inv.stored found archived (unmarked r row found)

end Store

/-! ### Objects that are lost -/

namespace Sample

/-- The observation of an import is archived, in the run 0. -/
def archive : List (Action (Fin 3) ℕ ℕ) :=
  [.importReport 0 10 [(0, 20)], .queue 0 [.archiveHistory 0], .claim 0 "w" 60] ++
    List.replicate 5 (turn 0 0) ++ [.finish ⟨0, 1⟩ 0]

/-- One worker is about to delete the object, when there is a hold; another one clears the mark. -/
def lostArchive : List (Action (Fin 3) ℕ ℕ) :=
  archive ++ [.queue 1 [.expireArchive 0], .queue 2 [.expireArchive 0], .claim 1 "w" 60] ++
    List.replicate 5 (turn 1 0) ++ [.createHold observation, .claim 2 "v" 60] ++
    List.replicate 4 (turn 2 0) ++ [turn 1 0]

/-- The worker itself clears the mark; then another one restores the observation. -/
def keptArchive : List (Action (Fin 3) ℕ ℕ) :=
  archive ++ [.queue 1 [.expireArchive 0], .claim 1 "w" 60] ++ List.replicate 4 (turn 1 0) ++
    [.createHold observation] ++ List.replicate 3 (turn 1 0) ++
    [.queue 2 [.restoreArchive 0], .claim 2 "v" 60] ++ List.replicate 3 (turn 2 0)

def event : Resource (Fin 3) := ⟨.event .findingDecisionEvent, 0⟩

def day : Time := 24 * 60 * 60 * 1000000

/-- An archiver has stored the detail of an event, and has crashed. -/
def leftObject : List (Action (Fin 3) ℕ ℕ) :=
  [.recordEvent .findingDecisionEvent 0 20, .queue 0 [.archiveAudit .findingDecisionEvent 0],
    .claim 0 "w" 60] ++ List.replicate 5 (turn 0 0) ++ [.crash ⟨0, 1⟩]

/-- A day later another archiver finds the object, while a worker deletes it as an orphan. -/
def foundObject (turns : ℕ) : List (Action (Fin 3) ℕ ℕ) :=
  leftObject ++ [.queue 1 [.archiveAudit .findingDecisionEvent 0],
      .queue 2 [.deleteOrphan ⟨event, 20⟩ 20 1], .claim 1 "v" 60, .claim 2 "w" 60] ++
    List.replicate turns (turn 1 day) ++ List.replicate 5 (turn 2 day)

/-- The worker crashes before it commits. -/
def lostEvidence : List (Action (Fin 3) ℕ ℕ) :=
  foundObject 4 ++ [.crash ⟨2, 1⟩, turn 1 day]

/-- The archiver has not found the object yet, and stores it again. -/
def keptEvidence : List (Action (Fin 3) ℕ ℕ) :=
  foundObject 3 ++ [.crash ⟨2, 1⟩] ++ List.replicate 4 (turn 1 day)

end Sample

namespace Store

/-- The observation is archived and not marked, and there is no object. -/
theorem cleared_mark_loses_archive :
    ∃ q row, Machine.run step (empty 0) Sample.lostArchive = some q ∧
      (∀ a ∈ Sample.lostArchive, Queues observing a) ∧
      q.evidence.rows Sample.observation = some row ∧ row.availability = .archived ∧
      row.expiring = false ∧ ¬ q.Stored row := by
  have result : ((Machine.run step (empty 0) Sample.lostArchive).bind fun q =>
      (q.evidence.rows Sample.observation).map fun row => decide
        (row.availability = .archived ∧ row.expiring = false ∧
          (row.stored.bind fun ref => q.evidence.objects ref.key) = none)) = some true := by
    decide
  obtain ⟨q, runs, result⟩ := Option.bind_eq_some_iff.mp result
  obtain ⟨row, found, checked⟩ := Option.map_eq_some_iff.mp result
  obtain ⟨archived, unmarked, gone⟩ := of_decide_eq_true checked
  refine ⟨q, row, runs, by decide, found, archived, unmarked, ?_⟩
  rintro ⟨ref, data, refers, there, -⟩
  rw [refers, Option.bind_some, there] at gone
  cases gone

/-- A mark is cleared by the worker that has set it, and the observation is restored. -/
theorem archived_observation_stored_kept :
    ((Machine.run step (empty 0) Sample.keptArchive).bind fun q =>
        (q.evidence.rows Sample.observation).map fun row => (row.availability, row.revision)) =
      some (.available, 5) ∧
    Machine.Throughout step (fun q => ∀ id row, q.evidence.rows ⟨.observation, id⟩ = some row →
      row.availability = .archived → row.expiring = false → q.Stored row)
      (empty 0) Sample.keptArchive := by
  refine ⟨by decide, archived_observation_stored 0 Sample.keptArchive ?_⟩
  have checked : Machine.Always step (fun q a =>
      (decide (Queues observing a) && q.checkClearsSafely (List.finRange 3) a) = true)
      (empty 0) Sample.keptArchive :=
    Machine.always_of_checkAlways (by decide)
  refine checked.trade (I := Inv False) (fun q a q' inv checked taken => ?_) (inv_empty False 0)
  obtain ⟨queues, clears⟩ := Bool.and_eq_true_iff.mp checked
  exact ⟨⟨of_decide_eq_true queues, inv.clearsSafely List.mem_finRange clears⟩,
    inv.step taken False.elim⟩

/-- The event is archived, and its object is the one that was deleted. -/
theorem uncommitted_deletion_loses_evidence :
    ∃ q row, Machine.run step (empty 0) Sample.lostEvidence = some q ∧
      (∀ a ∈ Sample.lostEvidence, Queues archiving a) ∧
      q.evidence.rows Sample.event = some row ∧ row.availability = .archived ∧
      ¬ q.Stored row := by
  have result : ((Machine.run step (empty 0) Sample.lostEvidence).bind fun q =>
      (q.evidence.rows Sample.event).map fun row => decide
        (row.availability = .archived ∧
          (row.stored.bind fun ref => q.evidence.objects ref.key) = none)) = some true := by
    decide
  obtain ⟨q, runs, result⟩ := Option.bind_eq_some_iff.mp result
  obtain ⟨row, found, checked⟩ := Option.map_eq_some_iff.mp result
  obtain ⟨archived, gone⟩ := of_decide_eq_true checked
  refine ⟨q, row, runs, by decide, found, archived, ?_⟩
  rintro ⟨ref, data, refers, there, -⟩
  rw [refers, Option.bind_some, there] at gone
  cases gone

/-- The deletion is not committed, but the archiver has not relied on the object. -/
theorem archived_evidence_stored_again :
    ((Machine.run step (empty 0) Sample.keptEvidence).bind fun q =>
        (q.evidence.rows Sample.event).map fun row =>
          (row.availability, q.evidence.objects ⟨Sample.event, 20⟩)) =
      some (.archived, some 20) ∧
    Machine.Throughout step (fun q => ∀ r row, q.evidence.rows r = some row →
      row.availability = .archived → q.Stored row) (empty 0) Sample.keptEvidence := by
  refine ⟨by decide, archived_evidence_stored 0 Sample.keptEvidence ?_⟩
  have checked : Machine.Always step (fun q a =>
      (decide (Queues archiving a) && q.checkRollsBackSafely (List.finRange 3) a) = true)
      (empty 0) Sample.keptEvidence :=
    Machine.always_of_checkAlways (by decide)
  refine checked.trade (I := Inv False) (fun q a q' inv checked taken => ?_) (inv_empty False 0)
  obtain ⟨queues, rolls⟩ := Bool.and_eq_true_iff.mp checked
  exact ⟨⟨of_decide_eq_true queues, inv.rollsBackSafely List.mem_finRange rolls⟩,
    inv.step taken False.elim⟩

end Store

end Aspm.Retention
