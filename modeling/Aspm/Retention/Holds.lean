import Aspm.Retention.Invariant

/-!
# Holds and the deletion of evidence

`expireRawReport` and `expireObservationArchive` ask for holds three times, the last time right
before they call the store.  But the last look and the call are two steps, and `createHold` asks
nobody: a hold that is created in between does not stop the deletion.  There is no other gap.  A
worker that owns its run at the last stage has seen that there is no hold, and there is none as
long as none is created.
-/

namespace Aspm.Retention

open Reconcile (Time)

open Content Evidence

namespace Store

variable {ID Data Digest : Type}

/-- No worker that owns its run is about to delete evidence that is held. -/
def Spared (q : Store ID Data Digest) : Prop :=
  ∀ party task ref revision, q.works party = some ⟨task, .deleting ref revision⟩ →
    q.owns party = true → q.held task.resource = false

/-- A hold is not created between the last look of a worker and its deletion. -/
def HoldsInTime (q : Store ID Data Digest) : Action ID Data Digest → Prop
  | .createHold r => ∀ party task ref revision,
      q.works party = some ⟨task, .deleting ref revision⟩ → q.owns party = true →
      r ≠ task.resource ∧ r ∉ q.related task.resource
  | _ => True

/-- In a turn of a worker that expires evidence, no object goes whose resource is held. -/
def DeletesUnheld (q : Store ID Data Digest) (a : Action ID Data Digest)
    (q' : Store ID Data Digest) : Prop :=
  ∀ party since lease wall work, a = .turn party since lease wall → q.works party = some work →
    work.task.expires = true → ∀ key, q.evidence.objects key ≠ none →
      q'.evidence.objects key = none → q.held key.resource = false

section Held

variable {q q' : Store ID Data Digest} {r : Resource ID}

theorem held_eq_false (holds : ∀ r, q'.holds r = true → q.holds r = true)
    (related : q'.related r = q.related r) (free : q.held r = false) : q'.held r = false := by
  unfold held at free ⊢
  rw [related]
  rw [Bool.or_eq_false_iff, List.any_eq_false] at free ⊢
  refine ⟨Bool.eq_false_of_not_eq_true fun held => ?_, fun r' mem held => ?_⟩
  · rw [holds r held] at free
    exact Bool.noConfusion free.1
  · exact free.2 r' mem (holds r' held)

theorem related_eq {row row' : Row ID Data Digest} (stored : q.evidence.rows r = some row)
    (stored' : q'.evidence.rows r = some row') (same : row'.related = row.related) :
    q'.related r = q.related r := by
  unfold related
  rw [stored, stored', Option.map_some, Option.map_some, same]

/-- Where nothing protects evidence, there is no hold. -/
theorem held_of_protection (free : q.protection r = []) : q.held r = false := by
  have reasons {decision shared : Bool} {extra : String}
      (free : retentionReasons (q.held r) decision shared extra = []) : q.held r = false := by
    unfold retentionReasons at free
    simp only [List.append_eq_nil_iff] at free
    refine Bool.eq_false_of_not_eq_true fun held => ?_
    rw [if_pos held] at free
    cases free.1.1.1
  unfold protection at free
  split at free
  · exact reasons free
  · exact reasons (List.append_eq_nil_iff.mp free).1
  · exact reasons (List.append_eq_nil_iff.mp free).1

end Held

variable [DecidableEq ID] [DecidableEq Data] [DecidableEq Digest] [Content Data Digest]
  {q q' : Store ID Data Digest} {a : Action ID Data Digest}

/-- The rows of known resources keep what they are related to. -/
theorem Taken.related {guarded : Prop} {r : Resource ID} {row : Row ID Data Digest}
    (taken : Taken q a q') (inv : q.Inv guarded) (stored : q.evidence.rows r = some row) :
    ∃ row', q'.evidence.rows r = some row' ∧ row'.related = row.related := by
  cases taken with
  | rest evidence _ _ _ => exact ⟨row, by rw [evidence, stored], rfl⟩
  | grow grows =>
    obtain ⟨payload, stored'⟩ := grows.rows r row stored
    exact ⟨_, stored', rfl⟩
  | hold | queue _ | claim _ _ _ _ | rollback _ _ _ _ => exact ⟨row, stored, rfl⟩
  | idle moved | finish _ _ moved =>
    exact ⟨row, (congrArg (fun e => e.rows r) moved.evidence).trans stored, rfl⟩
  | turn working owner _ goes =>
    have turned := Task.turned inv.evidence (inv.works _ _ working) (fun _ => Erased.locks)
      (fun guard leased active => ⟨active, owner guard leased⟩) goes
    cases turned with
    | deed deed _ => exact deed.related stored
    | purge _ _ | commit _ _ _ => exact ⟨row, stored, rfl⟩

theorem Taken.holds (taken : Taken q a q') :
    (∀ r, q'.holds r = true → q.holds r = true) ∨
      ∃ r, a = .createHold r ∧ q' = { q with holds := Function.update q.holds r true } := by
  cases taken with
  | rest _ _ _ holds => exact .inl holds
  | hold => exact .inr ⟨_, rfl, rfl⟩
  | grow _ | queue _ | claim _ _ _ _ => exact .inl fun _ => id
  | idle moved | finish _ _ moved | rollback _ moved _ _ | turn _ _ moved _ =>
    exact .inl fun r held => (congrFun moved.holds r).symm.trans held

/-- What a worker has seen at its last look stays true, if holds are created in time. -/
theorem Spared.step (spared : q.Spared) (inv : q.Inv False) (step : q.step a = some q')
    (timely : q.HoldsInTime a) : q'.Spared := by
  intro party task ref revision working' owner'
  have taken := taken_of_step step
  rcases taken.works working' owner' with ⟨working, owner⟩ | start | failed | turned
  · obtain ⟨-, -, known, -⟩ := inv.works party _ working
    obtain ⟨row, stored⟩ := Option.isSome_iff_exists.mp known
    have free := spared party task ref revision working owner
    obtain ⟨row', stored', same⟩ := taken.related inv stored
    have related := related_eq stored stored' same
    rcases taken.holds with holds | ⟨r, rfl, rfl⟩
    · exact held_eq_false holds related free
    · obtain ⟨self, other⟩ := timely party task ref revision working owner
      unfold held at free ⊢
      rw [related]
      rw [Bool.or_eq_false_iff, List.any_eq_false] at free ⊢
      refine ⟨(Function.update_of_ne self.symm ..).trans free.1, fun r' mem => ?_⟩
      have here : r' ≠ r := by
        rintro rfl
        exact other mem
      change ¬ Function.update q.holds r true r' = true
      rw [Function.update_of_ne here]
      exact free.2 r' mem
  · cases start
  · cases failed
  · obtain ⟨since, lease, wall, work, leased, rfl, working, same, goes⟩ := turned
    -- Only the last look leads to the deletion.
    have expires := ((inv.step step False.elim).works party _ working').1
    obtain ⟨task', stage⟩ := work
    obtain rfl : task = task' := same
    have goes : Work.expire q.evidence task.resource (q.protection task.resource) leased wall
        stage = .goes q'.evidence (.deleting ref revision) := by
      cases task <;> first | exact goes | cases expires
    obtain ⟨free, unchanged⟩ := Work.expire_deleting goes
    have related : q'.related task.resource = q.related task.resource := by
      unfold related
      rw [unchanged]
    rcases taken.holds with holds | ⟨r, other, -⟩
    · exact held_eq_false holds related (held_of_protection free)
    · cases other

/-- A worker deletes what it has seen to be free of holds. -/
theorem Spared.deletesUnheld (spared : q.Spared) (inv : q.Inv False) (step : q.step a = some q') :
    q.DeletesUnheld a q' := by
  rintro party since lease wall work rfl working expires key there gone
  cases taken_of_step step with
  | rest evidence _ _ _ =>
    rw [evidence] at gone
    exact absurd gone there
  | grow grows => exact absurd gone (grows.objects key there)
  | idle moved | finish _ _ moved =>
    have gone := (congrArg (fun e => e.objects key) moved.evidence).symm.trans gone
    exact absurd gone there
  | claim _ _ _ _ | rollback _ _ _ _ => exact absurd gone there
  | @turn _ _ _ _ work' leased _ e stage working' owner moved goes =>
    obtain rfl := Option.some.inj (working.symm.trans working')
    have turned := Task.turned inv.evidence (inv.works party work working) (fun _ => Erased.locks)
      (fun guard leased active => ⟨active, owner guard leased⟩) goes
    obtain ⟨task, stage₀⟩ := work
    cases turned with
    | deed deed _ =>
      obtain ⟨ref, revision, here, ⟨data, rfl⟩, rfl⟩ := deed.gone there gone
      obtain rfl : stage₀ = .deleting (task.resource.object data) revision := here
      refine spared party task _ revision working (owner ?_ ?_)
      · cases task <;> nofun
      · cases task <;> first | exact (Work.withLease_goes goes).1 | cases expires
    | purge orphan _ | commit orphan _ _ =>
      cases orphan
      cases expires

def checkHoldsInTime (runs : List ID) (q : Store ID Data Digest) : Action ID Data Digest → Bool
  | .createHold r => (q.parties runs).all fun party =>
    match q.works party with
    | some ⟨task, .deleting _ _⟩ =>
      !q.owns party || decide (r ≠ task.resource ∧ r ∉ q.related task.resource)
    | _ => true
  | _ => true

omit [DecidableEq Data] in
theorem Inv.holdsInTime {runs : List ID} (inv : q.Inv False) (all : ∀ run, run ∈ runs)
    (checked : q.checkHoldsInTime runs a = true) : q.HoldsInTime a := by
  cases a with
  | createHold r =>
    intro party task ref revision working owner
    have here := List.all_eq_true.mp checked party (inv.mem_parties all working)
    rw [working, owner] at here
    exact of_decide_eq_true here
  | _ => trivial

end Store

/-! ### A hold that comes too late -/

namespace Sample

instance : Content ℕ ℕ where
  sha256 := id
  size := id
  sha256_injective := Function.injective_id

/-- One turn of the first worker of a run, at a time when its lease is live. -/
def turn (run : Fin 3) (wall : Time) : Action (Fin 3) ℕ ℕ :=
  .turn ⟨run, 1⟩ 0 60 wall

instance three_ne_zero : NeZero 3 := ⟨by decide⟩

def observation : Resource (Fin 3) := ⟨.observation, 0⟩

/-- The raw report of an import is to be deleted, and the worker takes some turns. -/
def expire (turns : ℕ) : List (Action (Fin 3) ℕ ℕ) :=
  [.importReport 0 10 [(0, 20)], .queue 0 [.expireRawReport 0], .claim 0 "w" 60] ++
    List.replicate turns (turn 0 0)

/-- There is a hold on the observation of the import before the last look of the worker. -/
def timelyHold : List (Action (Fin 3) ℕ ℕ) :=
  expire 4 ++ [.createHold observation] ++ List.replicate 3 (turn 0 0)

end Sample

namespace Store

end Store

end Aspm.Retention
