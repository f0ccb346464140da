import Aspm.Retention.Turns

/-!
# What a step does

`Taken` lists what an action of the store can do.  All that is proved of the store goes through
it: the claims of a run may change (`Moved`), the evidence may grow, a worker begins an item, takes
a turn, ends its item, or is gone with its transaction rolled back.
-/

namespace Aspm.Retention

open Reconcile (Time)

open Content Evidence

namespace Store

section Moved

variable {ID Data Digest : Type} {q q' : Store ID Data Digest}

/-- Only the runs have changed, and nobody owns one that did not. -/
structure Moved (q q' : Store ID Data Digest) : Prop where
  same : q' = { q with ledgers := q'.ledgers }
  owns : ∀ party, q'.owns party = true → q.owns party = true
  fences : ∀ run l, q.ledgers run = some l → ∃ l', q'.ledgers run = some l' ∧
    l.run.fence ≤ l'.run.fence
  tasks : ∀ run l', q'.ledgers run = some l' → ∃ l, q.ledgers run = some l ∧
    l'.run.tasks = l.run.tasks

theorem Moved.evidence (moved : Moved q q') : q'.evidence = q.evidence := by
  rw [moved.same]

theorem Moved.holds (moved : Moved q q') : q'.holds = q.holds := by
  rw [moved.same]

theorem Moved.works (moved : Moved q q') : q'.works = q.works := by
  rw [moved.same]

theorem Moved.refl (q : Store ID Data Digest) : Moved q q where
  same := rfl
  owns _ := id
  fences _ l stored := ⟨l, stored, le_rfl⟩
  tasks _ l stored := ⟨l, stored, rfl⟩

variable [DecidableEq ID]

theorem Moved.update {run : ID} {l l' : Ledger (Task ID Digest)} (stored : q.ledgers run = some l)
    (owns : ∀ fence, l'.owns fence = true → l.owns fence = true)
    (fence : l.run.fence ≤ l'.run.fence) (tasks : l'.run.tasks = l.run.tasks) :
    Moved q { q with ledgers := Function.update q.ledgers run (some l') } where
  same := rfl
  owns party owned := by
    rcases owns_of_update rfl owned with before | ⟨rfl, owner⟩
    · exact before
    · exact owns_iff.mpr ⟨l, stored, owns _ owner⟩
  fences run₀ l₀ stored₀ := by
    by_cases here : run₀ = run
    · subst here
      obtain rfl := Option.some.inj (stored.symm.trans stored₀)
      exact ⟨l', Function.update_self .., fence⟩
    · exact ⟨l₀, (Function.update_of_ne here ..).trans stored₀, le_rfl⟩
  tasks run₀ l₀ stored₀ := by
    by_cases here : run₀ = run
    · subst here
      obtain rfl := Option.some.inj ((Function.update_self run₀ (some l') q.ledgers).symm.trans
        stored₀)
      exact ⟨l, stored, tasks⟩
    · exact ⟨l₀, (Function.update_of_ne here (some l') q.ledgers).symm.trans stored₀, rfl⟩

theorem Moved.of_stepRun {run : ID} {a : Ledger.Action}
    (step : q.stepRun run a = some q') (other : ∀ now worker lease, a ≠ .claim now worker lease) :
    Moved q q' := by
  obtain ⟨l, l', stored, moved, rfl⟩ := stepRun_cases step
  have same := Ledger.same_of_step other moved
  exact .update stored (fun _ => Ledger.owns_of_step other moved) same.2.ge same.1

end Moved

variable {ID Data Digest : Type} [DecidableEq ID] [DecidableEq Data] [DecidableEq Digest]
  [Content Data Digest] {q q' : Store ID Data Digest}

inductive Taken (q : Store ID Data Digest) :
    Action ID Data Digest → Store ID Data Digest → Prop
  /-- Neither the evidence nor the workers have changed; a hold may have been released. -/
  | rest {a : Action ID Data Digest} {q' : Store ID Data Digest}
      (evidence : q'.evidence = q.evidence) (works : q'.works = q.works)
      (ledgers : q'.ledgers = q.ledgers)
      (holds : ∀ r, q'.holds r = true → q.holds r = true) : Taken q a q'
  | hold {r : Resource ID} :
      Taken q (.createHold r) { q with holds := Function.update q.holds r true }
  | grow {a : Action ID Data Digest} {e : Evidence ID Data Digest}
      (grows : q.evidence.Grows e) : Taken q a { q with evidence := e }
  | queue {run : ID} {tasks : List (Task ID Digest)} (fresh : q.ledgers run = none) :
      Taken q (.queue run tasks)
        { q with ledgers := Function.update q.ledgers run (some (.queue tasks q.now)) }
  /-- A claim that has not taken an item. -/
  | idle {a : Action ID Data Digest} {q' : Store ID Data Digest} (moved : Moved q q') :
      Taken q a q'
  | claim {a : Action ID Data Digest} {run : ID} {l l' : Ledger (Task ID Digest)} {index : ℕ}
      (stored : q.ledgers run = some l) (fence : l'.run.fence = l.run.fence + 1)
      (tasks : l'.run.tasks = l.run.tasks)
      (owned : ∀ fence, l'.owns fence = true → fence = l'.run.fence) :
      Taken q a
        ({ q with ledgers := Function.update q.ledgers run (some l') }.setWork
          ⟨run, l'.run.fence⟩ (l'.run.items[index]?.map fun (item : Item (Task ID Digest)) =>
            ⟨item.task, .start⟩))
  | turn {party : Party ID} {since : Time} {lease : ℕ} {wall : Time} {work : Work ID Data Digest}
      {leased : Bool} {q₁ : Store ID Data Digest} {e : Evidence ID Data Digest}
      {stage : Stage ID Data Digest} (working : q.works party = some work)
      (owner : work.task.guard work.stage ≠ .query → leased = true → q.owns party = true)
      (moved : Moved q q₁)
      (goes : work.task.turn q.evidence party (q.protection work.task.resource) leased wall
        work.stage = .goes e stage) :
      Taken q (.turn party since lease wall)
        { q₁.setWork party (some ⟨work.task, stage⟩) with evidence := e }
  | finish {a : Action ID Data Digest} {party : Party ID} {work : Work ID Data Digest}
      {q₁ : Store ID Data Digest} (working : q.works party = some work)
      (ended : (∃ outcome, work.stage = .done outcome) ∨ work.stage = .failed)
      (moved : Moved q q₁) : Taken q a (q₁.setWork party none)
  /-- The worker is gone, or has met an error. -/
  | rollback {a : Action ID Data Digest} {party : Party ID} {work : Work ID Data Digest}
      {work' : Option (Work ID Data Digest)} {q₁ : Store ID Data Digest}
      (working : q.works party = some work) (moved : Moved q q₁)
      (left : ∀ w, work' = some w → w = ⟨work.task, .failed⟩)
      (cause : a = .crash party ∨ a = .fail party ∨
        ∃ protection leased wall, work.task.turn q.evidence party protection leased wall
          work.stage = .givesUp) :
      Taken q a { q₁.setWork party work' with evidence := q.evidence.unlock party }

/-! ## Inversion -/

omit [DecidableEq Data] in
/-- The rows of a new import and of its observations are new. -/
theorem importReport_grows {id : ID} {report : Data} {observations : List (ID × Data)}
    (fresh : q.fresh ⟨.importRecord, id⟩ = true)
    (all : ∀ o ∈ observations, q.fresh ⟨.observation, o.1⟩ = true) :
    ∃ e, q.importReport id report observations = { q with evidence := e } ∧
      q.evidence.Grows e := by
  refine ⟨_, rfl, ?_⟩
  have fold {acc : Evidence ID Data Digest} (grows : q.evidence.Grows acc) :
      q.evidence.Grows (observations.foldl (fun e o => e.setRow ⟨.observation, o.1⟩
        { payload := some o.2
          availability := .available
          revision := 1
          expiring := false
          stored := none
          related := [⟨.importRecord, id⟩] }) acc) := by
    induction observations generalizing acc with
    | nil => exact grows
    | cons o rest ih =>
      refine ih (fun o' mem => all o' (List.mem_cons_of_mem o mem)) (grows.setRow ?_ ?_)
      · exact Option.isNone_iff_eq_none.mp (all o List.mem_cons_self)
      · exact ⟨⟨nofun, nofun, fun _ => nofun⟩, rfl, rfl, .inl rfl⟩
  refine fold (((Grows.refl q.evidence).setRow (Option.isNone_iff_eq_none.mp fresh) ?_).setObject
    rfl)
  exact ⟨⟨fun _ refers => ⟨report, (Option.some.inj refers).symm⟩, nofun, fun _ => nofun⟩, rfl,
    rfl, .inr rfl⟩

variable {party : Party ID}

omit [DecidableEq Data] [DecidableEq Digest] [Content Data Digest] in
theorem giveUp_cases (left : q.giveUp party = some q') :
    ∃ q₁, Moved q q₁ ∧ q' = { q₁.setWork party none with evidence := q.evidence.unlock party } := by
  obtain ⟨q₁, step, rfl⟩ := Option.map_eq_some_iff.mp left
  exact ⟨q₁, .of_stepRun step fun _ _ _ => nofun, rfl⟩

theorem taken_of_claim {run : ID} {worker : WorkerID} {lease : ℕ}
    (step : q.claim run worker lease = some q') : Taken q (.claim run worker lease) q' := by
  obtain ⟨l, stored, step⟩ := Option.bind_eq_some_iff.mp step
  obtain ⟨⟨run', claimed⟩, claim, result⟩ := Option.map_eq_some_iff.mp step
  obtain ⟨tasks, fence, took | ⟨other, free⟩⟩ := Run.claim_same claim
  · obtain ⟨index, rfl, fence⟩ := took
    obtain rfl := result
    refine .claim stored fence tasks fun fence owned => ?_
    obtain ⟨c, -, owner⟩ := Ledger.owns_iff.mp owned
    obtain ⟨-, -, same⟩ := Run.ownedBy_iff.mp owner
    exact same.symm
  · have moved (l' : Ledger (Task ID Digest)) (same : l'.run = run') :
        Moved q { q with ledgers := Function.update q.ledgers run (some l') } := by
      subst same
      refine .update stored (fun fence owned => ?_) fence tasks
      rw [Ledger.owns_eq_false free] at owned
      cases owned
    cases claimed with
    | item index => exact absurd rfl (other index)
    | abandoned index | none =>
      obtain rfl := result
      exact .idle (moved _ rfl)

/-- What the effect of a turn comes to, in a store where its lease has been looked at. -/
def settle (q q₁ : Store ID Data Digest) (party : Party ID) (task : Task ID Digest) :
    Effect ID Data Digest → Option (Store ID Data Digest)
  | .waits => none
  | .givesUp => q.giveUp party
  | .goes evidence stage => some { q₁.setWork party (some ⟨task, stage⟩) with evidence }

/-- Before a turn settles its effect, it has at most renewed its lease. -/
theorem settle_of_turn {since : Time} {lease : ℕ} {wall : Time}
    (step : q.turn party since lease wall = some q') :
    ∃ work leased q₁, q.works party = some work ∧ Moved q q₁ ∧
      (work.task.guard work.stage ≠ .query → leased = true → q.owns party = true) ∧
      q.settle q₁ party work.task (work.task.turn q.evidence party
        (q.protection work.task.resource) leased wall work.stage) = some q' := by
  obtain ⟨work, working, step⟩ := Option.bind_eq_some_iff.mp step
  dsimp only at step
  cases guard : work.task.guard work.stage with
  | query =>
    rw [guard] at step
    exact ⟨work, _, q, working, .refl q, fun other => absurd guard other, step⟩
  | transaction =>
    rw [guard] at step
    exact ⟨work, _, q, working, .refl q, fun _ => owns_of_leasedSince, step⟩
  | renewal =>
    rw [guard] at step
    cases renewed : q.stepRun party.run (.renew q.now party.fence lease) with
    | none =>
      rw [renewed] at step
      exact ⟨work, false, q, working, .refl q, fun _ none => (by cases none), step⟩
    | some q₁ =>
      rw [renewed] at step
      have moved : Moved q q₁ := .of_stepRun renewed fun _ _ _ same => by cases same
      exact ⟨work, _, q₁, working, moved, fun _ _ => owns_of_renew renewed, step⟩

theorem taken_of_turn {since : Time} {lease : ℕ} {wall : Time}
    (step : q.turn party since lease wall = some q') :
    Taken q (.turn party since lease wall) q' := by
  obtain ⟨work, leased, q₁, working, moved, owner, step⟩ := settle_of_turn step
  cases effect : work.task.turn q.evidence party (q.protection work.task.resource) leased wall
      work.stage with
  | waits =>
    rw [effect] at step
    cases step
  | givesUp =>
    rw [effect] at step
    obtain ⟨q₂, moved, rfl⟩ := giveUp_cases step
    exact .rollback working moved (fun _ same => by cases same) (.inr (.inr ⟨_, _, _, effect⟩))
  | goes evidence stage =>
    rw [effect] at step
    obtain rfl := Option.some.inj step
    exact .turn working owner moved effect

theorem taken_of_step {a : Action ID Data Digest} (step : q.step a = some q') : Taken q a q' := by
  cases a with
  | tick d =>
    cases step
    exact .rest rfl rfl rfl fun _ => id
  | importReport id report observations =>
    obtain ⟨accepted, result⟩ := Option.ite_none_right_eq_some.mp step
    obtain ⟨accepted, -⟩ := Bool.and_eq_true_iff.mp accepted
    obtain ⟨fresh, all⟩ := Bool.and_eq_true_iff.mp accepted
    obtain ⟨e, same, grows⟩ := importReport_grows fresh (List.all_eq_true.mp all)
    rw [← Option.some.inj result, same]
    exact .grow grows
  | recordEvent kind id detail =>
    obtain ⟨fresh, result⟩ := Option.ite_none_right_eq_some.mp step
    obtain rfl := Option.some.inj result
    refine .grow ((Grows.refl _).setRow (Option.isNone_iff_eq_none.mp fresh) ?_)
    exact ⟨⟨nofun, nofun, fun _ => nofun⟩, rfl, rfl, .inl rfl⟩
  | alterEvent kind id detail =>
    obtain ⟨row, stored, rfl⟩ := Option.map_eq_some_iff.mp step
    exact .grow (Grows.alter stored)
  | createHold r =>
    obtain ⟨-, result⟩ := Option.ite_none_right_eq_some.mp step
    obtain rfl := Option.some.inj result
    exact .hold
  | releaseHold r =>
    obtain ⟨-, result⟩ := Option.ite_none_right_eq_some.mp step
    obtain rfl := Option.some.inj result
    refine .rest rfl rfl rfl fun r' held => ?_
    by_cases here : r' = r
    · subst here
      exact absurd ((Function.update_self r' false q.holds).symm.trans held) Bool.false_ne_true
    · exact (Function.update_of_ne here false q.holds).symm.trans held
  | decide r decided | assess r assessed | engage r reasons =>
    cases step
    exact .rest rfl rfl rfl fun _ => id
  | queue run tasks =>
    obtain ⟨fresh, result⟩ := Option.ite_none_right_eq_some.mp step
    obtain rfl := Option.some.inj result
    exact .queue (Option.isNone_iff_eq_none.mp fresh)
  | claim run worker lease => exact taken_of_claim step
  | turn party since lease wall => exact taken_of_turn step
  | finish party since =>
    dsimp only [Store.step] at step
    split at step
    case h_1 task outcome working =>
      obtain ⟨-, step⟩ := Option.ite_none_right_eq_some.mp step
      obtain ⟨q₁, moved, rfl⟩ := Option.map_eq_some_iff.mp step
      exact .finish working (.inl ⟨outcome, rfl⟩) (.of_stepRun moved fun _ _ _ => nofun)
    case h_2 => cases step
  | fail party =>
    dsimp only [Store.step] at step
    split at step
    · cases step
    · cases step
    case h_3 task stage _ working =>
      cases step
      refine .rollback working (.refl q) (fun w same => ?_) (.inr (.inl rfl))
      exact (Option.some.inj same).symm
  | retry party since =>
    dsimp only [Store.step] at step
    split at step
    case h_1 task working =>
      obtain ⟨-, step⟩ := Option.ite_none_right_eq_some.mp step
      obtain ⟨q₁, moved, rfl⟩ := Option.map_eq_some_iff.mp step
      exact .finish working (.inr rfl) (.of_stepRun moved fun _ _ _ => nofun)
    case h_2 => cases step
  | crash party =>
    obtain ⟨work, working, left⟩ := Option.bind_eq_some_iff.mp step
    obtain ⟨q₁, moved, rfl⟩ := giveUp_cases left
    exact .rollback working moved (fun _ same => by cases same) (.inl rfl)

/-- What a worker is at after a step: what it was at, or the start or the end of an item, or where
its turn has led to. -/
theorem Taken.works {a : Action ID Data Digest} {work' : Work ID Data Digest} (taken : Taken q a q')
    (working' : q'.works party = some work') (owner' : q'.owns party = true) :
    (q.works party = some work' ∧ q.owns party = true) ∨ work'.stage = .start ∨
      work'.stage = .failed ∨
      ∃ since lease wall work leased, a = .turn party since lease wall ∧
        q.works party = some work ∧ work'.task = work.task ∧
        work.task.turn q.evidence party (q.protection work.task.resource) leased wall work.stage =
          .goes q'.evidence work'.stage := by
  have other {acting : Party ID} {q₁ : Store ID Data Digest} {w : Option (Work ID Data Digest)}
      (moved : Moved q q₁) (ne : party ≠ acting)
      (working' : Function.update q₁.works acting w party = some work')
      (owner' : q₁.owns party = true) : q.works party = some work' ∧ q.owns party = true := by
    rw [Function.update_of_ne ne, moved.works] at working'
    exact ⟨working', moved.owns party owner'⟩
  have self {q₁ : Store ID Data Digest} {w : Option (Work ID Data Digest)}
      (working' : Function.update q₁.works party w party = some work') : w = some work' := by
    rwa [Function.update_self] at working'
  cases taken with
  | rest _ works ledgers _ =>
    rw [works] at working'
    rw [owns_congr ledgers] at owner'
    exact .inl ⟨working', owner'⟩
  | hold | grow _ => exact .inl ⟨working', owner'⟩
  | queue _ =>
    rcases owns_of_update rfl owner' with before | ⟨-, owner⟩
    · exact .inl ⟨working', before⟩
    · cases owner
  | idle moved =>
    rw [moved.works] at working'
    exact .inl ⟨working', moved.owns party owner'⟩
  | @claim _ run l l' index stored fence tasks owned =>
    change Function.update q.works _ _ party = some work' at working'
    by_cases acting : party = ⟨run, l'.run.fence⟩
    · subst acting
      rw [Function.update_self] at working'
      obtain ⟨item, -, rfl⟩ := Option.map_eq_some_iff.mp working'
      exact .inr (.inl rfl)
    · rw [Function.update_of_ne acting] at working'
      rcases owns_of_update rfl owner' with before | ⟨rfl, mine⟩
      · exact .inl ⟨working', before⟩
      · exact absurd (congrArg (Party.mk party.run) (owned _ mine)) acting
  | @turn acting since lease wall work leased q₁ e stage working _ moved goes =>
    by_cases here : party = acting
    · subst here
      obtain rfl := Option.some.inj (self working')
      exact .inr (.inr (.inr ⟨since, lease, wall, work, leased, rfl, working, rfl, goes⟩))
    · exact .inl (other moved here working' owner')
  | @finish _ acting work q₁ working _ moved =>
    by_cases here : party = acting
    · subst here
      cases self working'
    · exact .inl (other moved here working' owner')
  | @rollback _ acting work left q₁ working moved gone _ =>
    by_cases here : party = acting
    · subst here
      rw [gone work' (self working')]
      exact .inr (.inr (.inl rfl))
    · exact .inl (other moved here working' owner')

end Store

end Aspm.Retention
