import Aspm.Lib.Machine
import Aspm.Retention.Steps

/-!
# The workers do not disturb each other

In every run each worker can rely on what its stage says (`Store.Inv`), and archived evidence has
its object, if two things do not happen (`Store.Guarded`).

* The mark on a row is cleared while another worker, of another run, has passed its last look at
  protections and is about to delete the object; or the mark is cleared when the object is already
  gone.
* A worker deletes the object of an orphan and does not come to the end of its transaction, while
  another has found that object and goes on with the publication as it was.

Whatever does not depend on these two is kept by every step, guarded or not.
-/

namespace Aspm.Retention

open Reconcile (Time)

open Content Evidence

namespace Store

variable {ID Data Digest : Type}

/-- The object of an orphan is deleted, and the transaction is still open. -/
def Erased (q : Store ID Data Digest) (key : Key ID Digest) : Prop :=
  ∃ party digest revision p outcome, q.evidence.locks key = some party ∧
    q.works party = some ⟨.deleteOrphan key digest revision, .deleted p outcome⟩

theorem Erased.locks {q : Store ID Data Digest} {key : Key ID Digest} (erased : q.Erased key) :
    q.evidence.locks key ≠ none := by
  obtain ⟨party, _, _, _, _, lock, -⟩ := erased
  rw [lock]
  exact Option.some_ne_none party

/-- A mark is cleared while the object is there, and nobody else is about to delete it. -/
def ClearsSafely (q : Store ID Data Digest) : Action ID Data Digest → Prop
  | .turn party _ _ _ => ∀ task reasons outcome,
      q.works party = some ⟨task, .clearing reasons outcome⟩ →
      (∀ row ref, q.evidence.rows task.resource = some row → row.stored = some ref →
        q.evidence.objects ref.key ≠ none) ∧
      ∀ other work, other ≠ party → q.works other = some work → q.owns other = true →
        work.stage.engaged = true → work.task.resource ≠ task.resource
  | _ => True

/-- The deletion of an orphan is left uncommitted only if nobody has found the object before. -/
def RollsBackSafely [Content Data Digest] (q : Store ID Data Digest) :
    Action ID Data Digest → Prop
  | .crash party | .fail party => ∀ key digest revision p outcome,
      q.works party = some ⟨.deleteOrphan key digest revision, .deleted p outcome⟩ →
      q.evidence.objects key = none → ∀ other task data revision',
        q.works other = some ⟨task, .published data revision' p.revision⟩ →
        q.owns other = true → (task.resource.object data).key ≠ key
  | _ => True

variable [DecidableEq ID] [DecidableEq Digest] [Content Data Digest]

structure Inv (guarded : Prop) (q : Store ID Data Digest) : Prop where
  evidence : q.evidence.Inv guarded
  works : ∀ party work, q.works party = some work →
    Sound (guarded ∧ q.owns party = true) q.Erased q.evidence party work.task work.stage
  fences : ∀ party work, q.works party = some work →
    ∃ l, q.ledgers party.run = some l ∧ party.fence ≤ l.run.fence

theorem inv_empty (guarded : Prop) (now : Time) :
    (empty now : Store ID Data Digest).Inv guarded where
  evidence := by
    refine ⟨fun r row stored => ?_, fun key data stored => ?_, fun key p stored => ?_,
      fun _ r row ref stored => ?_⟩
    all_goals cases stored
  works _ _ working := by cases working
  fences _ _ working := by cases working

section Steps

variable {guarded : Prop} {q q' q₁ : Store ID Data Digest} {party : Party ID}
  {work : Work ID Data Digest} {work' : Option (Work ID Data Digest)}

/-- A worker whose work does not change, and for whom nothing has changed that matters. -/
def Undisturbed (guarded : Prop) (q q' : Store ID Data Digest) (party : Party ID)
    (work : Work ID Data Digest) : Prop :=
  (q'.owns party = true → q.owns party = true) ∧
    Stable (guarded ∧ q'.owns party = true) q.Erased q'.Erased q.evidence q'.evidence party
      work.task.resource work.stage

/-- The workers that go on, and the one that does something. -/
theorem Inv.assemble (inv : q.Inv guarded) (evidence : q'.evidence.Inv guarded)
    (fences : ∀ run l, q.ledgers run = some l → ∃ l', q'.ledgers run = some l' ∧
      l.run.fence ≤ l'.run.fence)
    (works : ∀ other work, q'.works other = some work →
      (q.works other = some work ∧ Undisturbed guarded q q' other work) ∨
      (Sound (guarded ∧ q'.owns other = true) q'.Erased q'.evidence other work.task work.stage ∧
        ∃ l', q'.ledgers other.run = some l' ∧ other.fence ≤ l'.run.fence)) :
    q'.Inv guarded where
  evidence := evidence
  works other work working := by
    rcases works other work working with ⟨before, owns, stable⟩ | ⟨sound, -⟩
    · exact (inv.works other work before).stable stable (And.imp_right owns)
    · exact sound
  fences other work working := by
    rcases works other work working with ⟨before, -⟩ | ⟨-, fence⟩
    · obtain ⟨l, stored, le⟩ := inv.fences other work before
      obtain ⟨l', stored', le'⟩ := fences other.run l stored
      exact ⟨l', stored', le.trans le'⟩
    · exact fence

/-- Neither the evidence nor the workers have changed. -/
theorem Inv.unchanged (inv : q.Inv guarded) (evidence : q'.evidence = q.evidence)
    (works : q'.works = q.works) (owns : ∀ party, q'.owns party = true → q.owns party = true)
    (fences : ∀ run l, q.ledgers run = some l → ∃ l', q'.ledgers run = some l' ∧
      l.run.fence ≤ l'.run.fence) : q'.Inv guarded := by
  have erased : q'.Erased = q.Erased := by
    funext key
    unfold Erased
    rw [evidence, works]
  refine inv.assemble (by rw [evidence]; exact inv.evidence) fences fun other w working => ?_
  rw [works] at working
  refine .inl ⟨working, owns other, ?_⟩
  rw [erased, evidence]
  exact .of_unchanged (fun _ => id) rfl rfl rfl id

variable {e : Evidence ID Data Digest}

/-- One worker changes what it is at, and the runs are moved. -/
theorem Inv.replace (inv : q.Inv guarded) (moved : Moved q q₁) (working : q.works party = some work)
    (evidence : e.Inv guarded) (others : ∀ other w, other ≠ party → q.works other = some w →
      Stable (guarded ∧ q₁.owns other = true) q.Erased
        (Erased { q₁.setWork party work' with evidence := e }) q.evidence e other
        w.task.resource w.stage) (self : ∀ w, work' = some w → Sound (guarded ∧ q.owns party = true)
      (Erased { q₁.setWork party work' with evidence := e }) e party w.task w.stage) :
    Inv guarded { q₁.setWork party work' with evidence := e } := by
  have here : (q₁.setWork party work').works = Function.update q.works party work' := by
    rw [← moved.works]
    rfl
  refine inv.assemble evidence moved.fences fun other w working' => ?_
  change (q₁.setWork party work').works other = some w at working'
  by_cases acting : other = party
  · subst acting
    rw [here, Function.update_self] at working'
    obtain ⟨l, stored, le⟩ := inv.fences other work working
    obtain ⟨l', stored', le'⟩ := moved.fences other.run l stored
    exact .inr ⟨(self w working').mono (And.imp_right (moved.owns other)), l', stored',
      le.trans le'⟩
  · rw [here, Function.update_of_ne acting] at working'
    exact .inl ⟨working', moved.owns other, others other w acting working'⟩

omit [DecidableEq Digest] [Content Data Digest] in
/-- An open deletion stays open, if it is not that of the worker who acts. -/
theorem Erased.replace {key : Key ID Digest} (erased : q.Erased key) (moved : Moved q q₁)
    (working : q.works party = some work) (pending : ∀ digest revision p outcome,
      work ≠ ⟨.deleteOrphan key digest revision, .deleted p outcome⟩)
    (locks : ∀ other, other ≠ party → q.evidence.locks key = some other →
      e.locks key = some other) : Erased { q₁.setWork party work' with evidence := e } key := by
  obtain ⟨other, digest, revision, p, outcome, lock, deleting⟩ := erased
  have acting : other ≠ party := by
    rintro rfl
    exact pending digest revision p outcome (Option.some.inj (working.symm.trans deleting))
  refine ⟨other, digest, revision, p, outcome, locks other acting lock, ?_⟩
  change Function.update q₁.works party work' other = _
  rw [moved.works, Function.update_of_ne acting]
  exact deleting

theorem Inv.deed {stage : Stage ID Data Digest} (inv : q.Inv guarded) (moved : Moved q q₁)
    (working : q.works party = some work) (pending : ∀ p outcome, work.stage ≠ .deleted p outcome)
    (clears : guarded → ∀ reasons outcome, work.stage = .clearing reasons outcome →
      (∀ row ref, q.evidence.rows work.task.resource = some row → row.stored = some ref →
        q.evidence.objects ref.key ≠ none) ∧
      ∀ other w, other ≠ party → q.works other = some w → q.owns other = true →
        w.stage.engaged = true → w.task.resource ≠ work.task.resource)
    (deed : Deed guarded party work.task.resource work.stage q.evidence e)
    (sound : ∀ erased, Sound (guarded ∧ q.owns party = true) erased e party work.task stage) :
    Inv guarded { q₁.setWork party (some ⟨work.task, stage⟩) with evidence := e } := by
  refine inv.replace moved working ?_ (fun other w acting working' => ?_) fun w same => ?_
  · refine inv.evidence.of_deed deed fun reasons outcome row ref here active => ?_
    exact (clears active reasons outcome here).1 row ref
  · refine .of_deed deed inv.evidence (fun key erased => ?_) acting And.left
      fun reasons outcome here owner engaged => ?_
    · refine erased.replace moved working (fun digest revision p outcome same => ?_)
        fun _ _ => deed.locks
      exact pending p outcome (congrArg Work.stage same)
    · exact (clears owner.1 reasons outcome here).2 other w acting working'
        (moved.owns other owner.2) engaged
  · obtain rfl := Option.some.inj same
    exact sound _

/-- The object of an orphan is deleted. -/
theorem Inv.purge {key : Key ID Digest} {digest : Digest} {revision : ℕ}
    {p : Publication ID Digest} {outcome : String} (inv : q.Inv guarded) (moved : Moved q q₁)
    (working : q.works party = some ⟨.deleteOrphan key digest revision, .condemned p⟩) :
    Inv guarded { q₁.setWork party (some ⟨.deleteOrphan key digest revision, .deleted p outcome⟩)
      with evidence := q.evidence.setObject key none } := by
  obtain ⟨key', digest', revision', same, lock, unreferenced⟩ := inv.works party _ working
  cases same
  refine inv.replace moved working ?_ (fun other w acting working' => ?_) fun w same => ?_
  · refine inv.evidence.erase fun _ row ref stored _ _ refers same => ?_
    rw [referenced_iff.mpr ⟨row, ref, stored, refers, same⟩] at unreferenced
    cases unreferenced
  · refine .of_rows rfl id (fun {data revision publication} _ _ published => ?_) id
    refine published.imp fun backed owner current => ?_
    by_cases here : (w.task.resource.object data).key = key
    · -- The publication stays locked until its revision changes.
      refine .inr ?_
      rw [here]
      exact ⟨party, digest, _, p, outcome, lock.1, Function.update_self ..⟩
    · unfold Backed
      rw [objects_setObject_ne here]
      refine (backed owner current).imp_right fun erased => ?_
      exact erased.replace moved working (fun _ _ _ _ => nofun) fun _ _ => id
  · obtain rfl := Option.some.inj same
    exact ⟨key, digest, revision, rfl, lock, unreferenced⟩

/-- The transaction that deletes an orphan ends. -/
theorem Inv.commit {key : Key ID Digest} {digest : Digest} {revision : ℕ}
    {stage : Stage ID Data Digest} {p p' : Publication ID Digest} {outcome : Outcome}
    (inv : q.Inv guarded) (moved : Moved q q₁)
    (working : q.works party = some ⟨.deleteOrphan key digest revision, stage⟩)
    (lock : q.evidence.Locked party key p) (newer : p.revision < p'.revision) :
    Inv guarded { q₁.setWork party (some ⟨.deleteOrphan key digest revision, .done outcome⟩)
      with evidence := (q.evidence.setPublication key p').unlock party } := by
  have kind := inv.evidence.publications key p lock.2
  refine inv.replace moved working ?_ (fun other w acting working' => ?_) fun w same => ?_
  · have evidence := inv.evidence.setPublication (p := p') kind
    exact ⟨evidence.rows, evidence.objects, evidence.publications, evidence.kept⟩
  · refine Stable.trans (.setPublication (fun key' here erased => ?_) acting (fun owner lock' => ?_)
      fun p₁ stored => ?_) (.of_unchanged (fun _ => id) rfl rfl rfl fun lock =>
        ⟨locks_unlock acting lock.1, lock.2⟩)
    · refine erased.replace moved working (fun _ _ _ _ same => ?_) fun _ => locks_unlock
      cases same
      exact here rfl
    · exact Option.some.inj (lock'.symm.trans lock.1)
    · obtain rfl := Option.some.inj (lock.2.symm.trans stored)
      exact newer
  · obtain rfl := Option.some.inj same
    trivial

/-- A worker is gone, or has met an error, and its transaction is rolled back. -/
theorem Inv.rollback (inv : q.Inv guarded) (moved : Moved q q₁)
    (working : q.works party = some work) (left : ∀ w, work' = some w → w = ⟨work.task, .failed⟩)
    (safe : guarded → ∀ key digest revision p outcome,
      work = ⟨.deleteOrphan key digest revision, .deleted p outcome⟩ →
      q.evidence.objects key = none → ∀ other task data revision',
        q.works other = some ⟨task, .published data revision' p.revision⟩ →
        q.owns other = true → (task.resource.object data).key ≠ key) :
    Inv guarded { q₁.setWork party work' with evidence := q.evidence.unlock party } := by
  refine inv.replace moved working ?_ (fun other w acting working' => ?_) fun w same => ?_
  · have evidence := inv.evidence
    exact ⟨evidence.rows, evidence.objects, evidence.publications, evidence.kept⟩
  · refine .of_rows rfl id (fun {data revision publication} here _ published => ?_)
      fun lock => ⟨locks_unlock acting lock.1, lock.2⟩
    obtain ⟨p, stored, le, backed⟩ := published
    refine ⟨p, stored, le, fun same owner current => ?_⟩
    rcases backed same owner current with there | erased
    · exact .inl there
    by_cases pending : ∃ digest revision p outcome,
        work = ⟨.deleteOrphan (w.task.resource.object data).key digest revision,
          .deleted p outcome⟩
    · obtain ⟨digest, revision', p', outcome, rfl⟩ := pending
      obtain ⟨key, _, _, orphan, lock, -⟩ := inv.works party _ working
      cases orphan
      obtain rfl := Option.some.inj (stored.symm.trans lock.2)
      refine .inl fun gone => ?_
      have found : q.works other = some ⟨w.task, .published data revision p.revision⟩ := by
        rw [working', same, ← here]
      exact safe owner.1 _ digest revision' p outcome rfl gone other w.task data revision found
        (moved.owns other owner.2) rfl
    · refine .inr (erased.replace moved working (fun digest revision p outcome same => ?_)
        fun _ => locks_unlock)
      exact pending ⟨digest, revision, p, outcome, same⟩
  · rw [left w same]
    trivial

end Steps

section Run

variable [DecidableEq Data] {guarded : Prop} {q q' : Store ID Data Digest}
  {a : Action ID Data Digest}

theorem Inv.turn {party : Party ID} {since : Time} {lease : ℕ} {wall : Time}
    {work : Work ID Data Digest} {leased : Bool} {q₁ : Store ID Data Digest}
    {e : Evidence ID Data Digest} {stage : Stage ID Data Digest} (inv : q.Inv guarded)
    (working : q.works party = some work)
    (owner : work.task.guard work.stage ≠ .query → leased = true → q.owns party = true)
    (moved : Moved q q₁)
    (goes : work.task.turn q.evidence party (q.protection work.task.resource) leased wall
      work.stage = .goes e stage)
    (clears : guarded → q.ClearsSafely (.turn party since lease wall)) :
    Inv guarded { q₁.setWork party (some ⟨work.task, stage⟩) with evidence := e } := by
  have sound := inv.works party work working
  obtain ⟨task, stage₀⟩ := work
  by_cases deleted : ∃ p outcome, stage₀ = .deleted p outcome
  · obtain ⟨p, outcome, rfl⟩ := deleted
    obtain ⟨key, digest, revision, p', rfl, lock, newer, ends⟩ :=
      Task.turn_deleted (q.protection task.resource) leased wall sound
    cases goes.symm.trans ends
    exact inv.commit moved working lock newer
  · have turned := Task.turned inv.evidence sound (fun _ => Erased.locks)
      (fun guard leased active => ⟨active, owner guard leased⟩) goes
    cases turned with
    | deed deed sound =>
      refine inv.deed moved working (fun p outcome here => deleted ⟨p, outcome, here⟩)
        (fun active reasons outcome here => ?_) deed sound
      have here : stage₀ = .clearing reasons outcome := here
      exact clears active task reasons outcome (by rw [working, here])
    | purge orphan here =>
      cases orphan
      have here : stage₀ = .condemned _ := here
      cases here
      exact inv.purge moved working
    | commit orphan lock newer =>
      cases orphan
      exact inv.commit moved working lock newer

omit [DecidableEq Data] in
/-- A new item is claimed under a new fence. -/
theorem Inv.claim {run : ID} {l l' : Ledger (Task ID Digest)} {work' : Option (Work ID Data Digest)}
    (inv : q.Inv guarded) (stored : q.ledgers run = some l)
    (fence : l'.run.fence = l.run.fence + 1)
    (owned : ∀ fence, l'.owns fence = true → fence = l'.run.fence)
    (start : ∀ w, work' = some w → w.stage = .start) :
    Inv guarded ({ q with ledgers := Function.update q.ledgers run (some l') }.setWork
      ⟨run, l'.run.fence⟩ work') := by
  have fresh : q.works ⟨run, l'.run.fence⟩ = none := by
    cases working : q.works ⟨run, l'.run.fence⟩ with
    | none => rfl
    | some w =>
      obtain ⟨l₀, stored₀, le⟩ := inv.fences _ w working
      obtain rfl := Option.some.inj (stored.symm.trans stored₀)
      rw [fence] at le
      exact absurd le (Nat.not_succ_le_self _)
  have self : Function.update q.ledgers run (some l') run = some l' := Function.update_self ..
  refine inv.assemble inv.evidence (fun run₀ l₀ stored₀ => ?_) fun other w working => ?_
  · by_cases here : run₀ = run
    · subst here
      obtain rfl := Option.some.inj (stored.symm.trans stored₀)
      exact ⟨l', self, fence ▸ Nat.le_succ _⟩
    · exact ⟨l₀, (Function.update_of_ne here ..).trans stored₀, le_rfl⟩
  · change Function.update q.works ⟨run, l'.run.fence⟩ work' other = some w at working
    by_cases acting : other = ⟨run, l'.run.fence⟩
    · subst acting
      rw [Function.update_self] at working
      rw [start w working]
      exact .inr ⟨trivial, l', self, le_rfl⟩
    · rw [Function.update_of_ne acting] at working
      refine .inl ⟨working, fun owner => ?_, .of_unchanged (fun key erased => ?_) rfl rfl rfl id⟩
      · rcases owns_of_update rfl owner with before | ⟨rfl, mine⟩
        · exact before
        · exact absurd (congrArg (Party.mk other.run) (owned _ mine)) acting
      · obtain ⟨party, digest, revision, p, outcome, lock, deleting⟩ := erased
        have here : party ≠ ⟨run, l'.run.fence⟩ := by
          rintro rfl
          rw [fresh] at deleting
          cases deleting
        exact ⟨party, digest, revision, p, outcome, lock,
          (Function.update_of_ne here ..).trans deleting⟩

/-- Every step keeps the invariant; if it is guarded, then so are the two unsafe steps. -/
theorem Inv.step (inv : q.Inv guarded) (step : q.step a = some q')
    (safe : guarded → q.ClearsSafely a ∧ q.RollsBackSafely a) : q'.Inv guarded := by
  cases taken_of_step step with
  | rest evidence works ledgers _ =>
    refine inv.unchanged evidence works (fun party owned => ?_) fun run l stored => ?_
    · rwa [owns_congr ledgers] at owned
    · exact ⟨l, by rw [ledgers, stored], le_rfl⟩
  | hold => exact ⟨inv.evidence, inv.works, inv.fences⟩
  | grow grows =>
    refine inv.assemble (inv.evidence.grows grows) (fun run l stored => ⟨l, stored, le_rfl⟩)
      fun other w working => .inl ⟨working, id, grows.stable ?_ inv.evidence.publications⟩
    rintro key ⟨party, digest, revision, p, outcome, lock, deleting⟩
    exact ⟨party, digest, revision, p, outcome, by rw [grows.locks, lock], deleting⟩
  | @queue run tasks fresh =>
    refine inv.unchanged rfl rfl (fun party owned => ?_) fun run₀ l stored => ?_
    · rcases owns_of_update rfl owned with before | ⟨-, owner⟩
      · exact before
      · cases owner
    · have here : run₀ ≠ run := by
        rintro rfl
        rw [fresh] at stored
        cases stored
      exact ⟨l, (Function.update_of_ne here ..).trans stored, le_rfl⟩
  | idle moved =>
    exact inv.unchanged moved.evidence moved.works moved.owns moved.fences
  | claim stored fence tasks owned =>
    refine inv.claim stored fence owned fun w same => ?_
    obtain ⟨item, -, rfl⟩ := Option.map_eq_some_iff.mp same
    rfl
  | turn working owner moved goes => exact inv.turn working owner moved goes fun active =>
    (safe active).1
  | @finish _ party work q₁ working ended moved =>
    have same : { q₁.setWork party none with evidence := q.evidence } = q₁.setWork party none := by
      rw [moved.same]
      rfl
    rw [← same]
    refine inv.replace moved working inv.evidence (fun other w acting working' => ?_)
      fun _ same => by cases same
    refine .of_unchanged (fun key erased => ?_) rfl rfl rfl id
    refine erased.replace moved working (fun digest revision p outcome deleted => ?_) fun _ _ => id
    rw [deleted] at ended
    rcases ended with ⟨outcome, done⟩ | failed
    · cases done
    · cases failed
  | @rollback _ party work work' q₁ working moved left cause =>
    refine inv.rollback moved working left fun active key digest revision p outcome deleted => ?_
    subst deleted
    rcases cause with rfl | rfl | ⟨protection, leased, wall, gone⟩
    · exact (safe active).2 key digest revision p outcome working
    · exact (safe active).2 key digest revision p outcome working
    · -- The last turn of the transaction does not need the lease.
      have sound := inv.works party _ working
      obtain ⟨_, _, _, _, -, -, -, goes⟩ := Task.turn_deleted protection leased wall sound
      cases gone.symm.trans goes

end Run

/-! ## Runs that can be checked

Where the runs are known, so are the parties that may be at work. -/

section Parties

variable {guarded : Prop} {q : Store ID Data Digest} {party : Party ID}
  {work : Work ID Data Digest} {runs : List ID}

def parties (q : Store ID Data Digest) (runs : List ID) : List (Party ID) :=
  runs.flatMap fun run =>
    (List.range (((q.ledgers run).map (·.run.fence)).getD 0 + 1)).map (Party.mk run)

theorem Inv.mem_parties (inv : q.Inv guarded) (all : ∀ run, run ∈ runs)
    (working : q.works party = some work) : party ∈ q.parties runs := by
  obtain ⟨l, stored, le⟩ := inv.fences party work working
  refine List.mem_flatMap.mpr ⟨party.run, all party.run, List.mem_map.mpr ⟨party.fence, ?_, rfl⟩⟩
  rw [stored, List.mem_range]
  exact Nat.lt_succ_of_le le

end Parties

end Store

end Aspm.Retention
