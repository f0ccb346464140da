import Aspm.Retention.Archives
import Aspm.Retention.Observation

/-!
# Restoring an observation gives back its data

The JSON value of an observation goes through the text of a `jsonb` column, an object of the
store and back.  The digest in the row names the one text that it can be, and the text names
the one value: so whoever archives, expires or restores the observation, and wherever a worker
crashes, the row has either the value that was first committed or a reference to its text.

`Trace` adds three things to the store of the workers: the column `summary`, which an update
sets together with the columns of `Row`; the observations as they were first committed; and
what was last written under the key of an object.  The last two are not part of the program.
-/

namespace Aspm.Retention

open Reconcile (Time)
open Content Evidence
open Json (Datum)

variable {revision lease : ℕ} {protection : List String} {leased : Bool} {wall : Time}

/-- The texts of values in `jsonb` columns, with the values that they are the texts of. -/
class Jsonb (Data : Type) where
  text : Datum ℚ → Data
  parse : Data → Option (Datum ℚ)
  parse_text : ∀ v : Datum ℚ, v.Canonical → parse (text v) = some v

open Jsonb

variable {ID T Data Digest : Type}

variable {task : Task ID Digest} {stage stage' : Stage ID Data Digest} {row : Row ID Data Digest}
  {key : Key ID Digest} {e e' : Evidence ID Data Digest} {party : Party ID} {run : ID}
  {report : Data} {observations : List (ID × Observation T)} {o : Observation T}

def observation (id : ID) : Resource ID := ⟨.observation, id⟩

section Rows

variable [DecidableEq ID] [DecidableEq Digest] [Content Data Digest]

/-! ## What a turn does to the rows -/

/-- The item has ended with another row. -/
def Stage.rewritten : Stage ID Data Digest → Bool
  | .done outcome => outcome.state = .succeeded && outcome.outcome ∈ ["archived", "restored"]
  | _ => false

/-- **The rows after a turn.**  A row is archived with the data of the stage, is restored with
the data of the stage, or keeps its data and its reference without becoming available or
archived. -/
inductive RowChange (task : Task ID Digest) (stage stage' : Stage ID Data Digest)
    (rows rows' : Resource ID → Option (Row ID Data Digest)) : Prop
  | same (same : rows' = rows)
      (other : stage'.rewritten = true → ∃ key digest revision,
        task = .deleteOrphan key digest revision)
  | archived {row : Row ID Data Digest} {data : Data} {revision publication : ℕ}
      (here : stage = .published data revision publication)
      (archives : ∀ id, task.resource = observation id → task = .archiveHistory id)
      (stored : rows task.resource = some row)
      (changed : rows' = Function.update rows task.resource
        (some (Work.archivedRow task.resource row data)))
      (done : stage' = .done ⟨.succeeded, "archived", []⟩)
  | restored {row row' : Row ID Data Digest} {data : Data} {revision : ℕ}
      (here : stage = .restoring data revision)
      (restores : ∀ id, task.resource = observation id → task = .restoreArchive id)
      (stored : rows task.resource = some row)
      (changed : rows' = Function.update rows task.resource (some row'))
      (payload : row'.payload = some data) (refers : row'.stored = row.stored)
      (available : row'.availability = .available)
      (done : stage' = .done ⟨.succeeded, "restored", []⟩)
  | kept {row row' : Row ID Data Digest} (stored : rows task.resource = some row)
      (changed : rows' = Function.update rows task.resource (some row'))
      (payload : row'.payload = row.payload) (refers : row'.stored = row.stored)
      (availability : row'.availability = row.availability ∨
        row'.availability ≠ .available ∧ row'.availability ≠ .archived)
      (other : stage'.rewritten = false)

omit [DecidableEq Digest] in
theorem RowChange.unchanged {rows : Resource ID → Option (Row ID Data Digest)}
    (other : stage'.rewritten = false) : RowChange task stage stage' rows rows :=
  .same rfl (absurd · (Bool.eq_false_iff.mp other))

omit [DecidableEq Digest] in
/-- At most the row of the task has changed, and it has not gone. -/
theorem RowChange.cases_rows {rows rows' : Resource ID → Option (Row ID Data Digest)}
    (change : RowChange task stage stage' rows rows') :
    rows' = rows ∨ ∃ row, rows' = Function.update rows task.resource (some row) := by
  cases change with
  | same same _ => exact .inl same
  | archived _ _ _ changed _ => exact .inr ⟨_, changed⟩
  | restored _ _ _ changed _ _ _ _ => exact .inr ⟨_, changed⟩
  | kept _ changed _ _ _ _ => exact .inr ⟨_, changed⟩

namespace Work

theorem rowChange_archive [DecidableEq Data]
    (archives : ∀ id, task.resource = observation id → task = .archiveHistory id)
    (goes : archive e task.resource protection leased wall stage = .goes e' stage') :
    RowChange task stage stage' e.rows e'.rows := by
  have finished {data : Data} {publication : ℕ} {state : PublicationState}
      {e₁ : Evidence ID Data Digest} {next : Stage ID Data Digest}
      (goes : finishing e₁ wall (task.resource.object data).key publication state next =
        .goes e' stage') : e'.rows = e₁.rows ∧ stage' = next := by
    obtain ⟨same, -, p, p', -, -, -, rfl⟩ := finishing_goes goes
    exact ⟨rfl, same⟩
  have same {outcome : Outcome} {data : Data} {publication : ℕ} {state : PublicationState}
      (goes : finishing e wall (task.resource.object data).key publication state (.done outcome) =
        .goes e' stage') (other : outcome.state = .guarded) :
      RowChange task stage stage' e.rows e'.rows := by
    obtain ⟨rows, rfl⟩ := finished goes
    refine .same rows fun rewritten => ?_
    rw [Stage.rewritten, other] at rewritten
    cases rewritten
  cases stage with
  | published data revision publication =>
    obtain ⟨-, goes⟩ := withLease_goes goes
    split at goes
    · unfold referenceHistory at goes
      dsimp only at goes
      split at goes
      · cases goes
        exact .unchanged rfl
      case h_2 row stored =>
        split at goes
        · exact same goes rfl
        · split at goes
          · exact same goes rfl
          · exact .archived rfl archives stored (finished goes).1 (finished goes).2
    · unfold reference at goes
      dsimp only at goes
      split at goes
      · exact same goes rfl
      · split at goes
        case h_1 row stored =>
          split at goes
          · exact .archived rfl archives stored (finished goes).1 (finished goes).2
          · cases goes
        case h_2 => cases goes
  | absent data revision =>
    obtain ⟨-, goes⟩ := withLease_goes goes
    unfold beginArchivePublication at goes
    dsimp only at goes
    split at goes <;> cases goes
    exact .unchanged rfl
  | publishing data revision publication =>
    obtain ⟨-, goes⟩ := withLease_goes goes
    cases goes
    exact .unchanged rfl
  | start | inspected _ _ | unprotected _ _ | existing _ _ _ =>
    dsimp only [archive] at goes
    repeat' split at goes
    all_goals cases goes
    all_goals exact .unchanged rfl
  | _ => cases goes

omit [DecidableEq Digest] in
/-- Evidence that is marked, or given up, keeps what the row says. -/
theorem rowChange_lost {state : OutcomeState} {expiring : Bool}
    (stored : e.rows task.resource = some row) (other : stage'.rewritten = false) :
    RowChange task stage stage' e.rows (e.setRow task.resource
      { row with
        availability := state.availability, revision := revision, expiring := expiring }).rows :=
  .kept stored rfl rfl rfl (.inr (by cases state <;> exact ⟨nofun, nofun⟩)) other

theorem rowChange_expire
    (goes : expire e task.resource protection leased wall stage = .goes e' stage') :
    RowChange task stage stage' e.rows e'.rows := by
  cases stage with
  | unreadable revision state =>
    obtain ⟨-, goes⟩ := withLease_goes goes
    have other : Stage.rewritten
        (.done ⟨state, state.name, []⟩ : Stage ID Data Digest) = false := by
      cases state <;> rfl
    unfold markAvailability at goes
    dsimp only at goes
    split at goes
    case h_1 row stored =>
      split at goes
      · cases goes
        exact rowChange_lost stored other
      · split at goes <;> cases goes
        exact .unchanged other
    case h_2 =>
      split at goes <;> cases goes
      exact .unchanged other
  | marking ref revision =>
    obtain ⟨-, goes⟩ := withLease_goes goes
    unfold markExpiring at goes
    split at goes
    · cases goes
      exact .unchanged rfl
    · split at goes
      case h_1 row stored =>
        split at goes <;> cases goes
        exact .kept stored rfl rfl rfl (.inl rfl) rfl
      case h_2 => cases goes
  | clearing reasons outcome =>
    obtain ⟨-, goes⟩ := withLease_goes goes
    unfold clearTransition at goes
    dsimp only at goes
    split at goes
    case h_1 row stored =>
      split at goes <;> cases goes
      · exact .kept stored rfl rfl rfl (.inl rfl) rfl
      · exact .unchanged rfl
    case h_2 =>
      cases goes
      exact .unchanged rfl
  | expiring ref revision =>
    obtain ⟨-, goes⟩ := withLease_goes goes
    unfold markExpired at goes
    split at goes
    case h_1 row stored =>
      split at goes
      · dsimp only at goes
        have retired (e₁ : Evidence ID Data Digest) :
            (e₁.retirePublication ref.key wall).rows = e₁.rows := by
          unfold retirePublication
          repeat' split
          all_goals rfl
        repeat' split at goes
        all_goals cases goes
        · exact .kept stored rfl rfl rfl (.inr ⟨nofun, nofun⟩) rfl
        · exact .kept stored (retired _) rfl rfl (.inr ⟨nofun, nofun⟩) rfl
      · cases goes
    case h_2 => cases goes
  | deleting ref revision =>
    obtain ⟨-, goes⟩ := withLease_goes goes
    cases goes
    exact .unchanged rfl
  | start | seen _ _ _ | verifying _ _ | rechecking _ _ | locating _ _ _ _ =>
    dsimp only [expire, withLease] at goes
    repeat' split at goes
    all_goals cases goes
    all_goals exact .unchanged rfl
  | _ => cases goes

theorem rowChange_restore
    (restores : ∀ id, task.resource = observation id → task = .restoreArchive id)
    (goes : restore e task.resource leased stage = .goes e' stage') :
    RowChange task stage stage' e.rows e'.rows := by
  cases stage with
  | forsaken revision state =>
    obtain ⟨-, goes⟩ := withLease_goes goes
    have other : Stage.rewritten
        (.done ⟨state, state.name, []⟩ : Stage ID Data Digest) = false := by
      cases state <;> rfl
    split at goes
    case h_1 row stored =>
      split at goes <;> cases goes
      · exact rowChange_lost stored other
      · exact .unchanged other
    case h_2 =>
      cases goes
      exact .unchanged other
  | restoring data revision =>
    obtain ⟨-, goes⟩ := withLease_goes goes
    split at goes
    case h_1 row stored =>
      split at goes <;> cases goes
      exact .restored rfl restores stored rfl rfl rfl rfl rfl
    case h_2 => cases goes
  | start | fetching _ _ =>
    dsimp only [restore, withLease] at goes
    repeat' split at goes
    all_goals cases goes
    all_goals exact .unchanged rfl
  | _ => cases goes

theorem rowChange_deleteOrphan {digest : Digest} (orphan : task = .deleteOrphan key digest revision)
    (goes : deleteOrphan e leased wall party key digest revision stage = .goes e' stage') :
    RowChange task stage stage' e.rows e'.rows := by
  refine .same ?_ fun _ => ⟨key, digest, revision, orphan⟩
  have finished {publication : ℕ} {state : PublicationState} {e₁ : Evidence ID Data Digest}
      (finish : e.finishArchivePublication key publication state wall = some e₁) :
      (e₁.unlock party).rows = e.rows := by
    obtain ⟨p, -, -, rfl⟩ := finishArchivePublication_some finish
    rfl
  cases stage with
  | locked p | deleted p outcome =>
    dsimp only [deleteOrphan] at goes
    repeat' split at goes
    all_goals cases goes
    all_goals first | rfl | exact finished ‹_›
  | start | locking | unreferenced p | condemned p =>
    dsimp only [deleteOrphan, withLease] at goes
    repeat' split at goes
    all_goals cases goes
    all_goals rfl
  | _ => cases goes

end Work

theorem Task.rowChange [DecidableEq Data]
    (goes : task.turn e party protection leased wall stage = .goes e' stage') :
    RowChange task stage stage' e.rows e'.rows := by
  cases task with
  | archiveHistory id => exact Work.rowChange_archive (fun _ same => by cases same; rfl) goes
  | archiveAudit kind id => exact Work.rowChange_archive (fun _ same => by cases same) goes
  | expireRawReport id | expireArchive id => exact Work.rowChange_expire goes
  | restoreArchive id => exact Work.rowChange_restore (fun _ same => by cases same; rfl) goes
  | deleteOrphan key digest revision => exact Work.rowChange_deleteOrphan rfl goes

end Rows

/-! ## Steps, seen from the observations -/

namespace Store

variable [DecidableEq ID] [DecidableEq Digest]

/-- Nothing that matters to the observations. -/
structure Quiet (q q' : Store ID Data Digest) : Prop where
  rows : ∀ id, q'.evidence.rows (observation id) = q.evidence.rows (observation id)
  objects : q'.evidence.objects = q.evidence.objects
  works : ∀ party work, q'.works party = some work → q.works party = some work ∨
    work.stage = .start ∨ work.stage = .failed

variable {q q' : Store ID Data Digest}

omit [DecidableEq Digest] in
theorem quiet_of_works {work' : Option (Work ID Data Digest)}
    (rows : ∀ id, q'.evidence.rows (observation id) = q.evidence.rows (observation id))
    (objects : q'.evidence.objects = q.evidence.objects)
    (works : q'.works = Function.update q.works party work')
    (left : ∀ work, work' = some work → work.stage = .start ∨ work.stage = .failed) :
    Quiet q q' := by
  refine ⟨rows, objects, fun other work working => ?_⟩
  rw [works] at working
  by_cases acting : other = party
  · rw [acting, Function.update_self] at working
    exact .inr (left work working)
  · rw [Function.update_of_ne acting] at working
    exact .inl working

omit [DecidableEq ID] [DecidableEq Digest] in
theorem quiet_of_eq
    (rows : ∀ id, q'.evidence.rows (observation id) = q.evidence.rows (observation id))
    (objects : q'.evidence.objects = q.evidence.objects) (works : q'.works = q.works) :
    Quiet q q' :=
  ⟨rows, objects, fun _ _ working => .inl (works ▸ working)⟩

section

omit [DecidableEq Digest]

theorem quiet_of_claim {worker : WorkerID} (step : q.claim run worker lease = some q') :
    Quiet q q' := by
  obtain ⟨l, stored, step⟩ := Option.bind_eq_some_iff.mp step
  obtain ⟨⟨run', claimed⟩, claim, result⟩ := Option.map_eq_some_iff.mp step
  cases claimed with
  | item index =>
    obtain rfl := result
    refine quiet_of_works (fun _ => rfl) rfl rfl fun work same => ?_
    obtain ⟨item, -, rfl⟩ := Option.map_eq_some_iff.mp same
    exact .inl rfl
  | abandoned index | none =>
    obtain rfl := result
    exact quiet_of_eq (fun _ => rfl) rfl rfl

theorem quiet_of_giveUp (left : q.giveUp party = some q') : Quiet q q' := by
  obtain ⟨q₁, moved, rfl⟩ := giveUp_cases left
  have works : (q₁.setWork party none).works = Function.update q.works party none := by
    rw [← moved.works]
    rfl
  refine quiet_of_works (fun _ => rfl) rfl works fun work same => ?_
  cases same

theorem quiet_of_ended {a : Ledger.Action}
    (step : (q.stepRun run a).map (fun q' => q'.setWork party none) = some q')
    (other : ∀ now worker lease, a ≠ .claim now worker lease) : Quiet q q' := by
  obtain ⟨q₁, stepped, rfl⟩ := Option.map_eq_some_iff.mp step
  have moved : Moved q q₁ := .of_stepRun stepped other
  have works : (q₁.setWork party none).works = Function.update q.works party none := by
    rw [← moved.works]
    rfl
  refine quiet_of_works (fun id => ?_) ?_ works fun work same => ?_
  · exact congrArg (fun e => e.rows (observation id)) moved.evidence
  · exact congrArg Evidence.objects moved.evidence
  · cases same

end

variable [DecidableEq Data] [Content Data Digest]

/-- A worker takes a turn. -/
def Turns (q q' : Store ID Data Digest) (party : Party ID) : Prop :=
  ∃ work leased wall stage, q.works party = some work ∧
    work.task.turn q.evidence party (q.protection work.task.resource) leased wall work.stage =
      .goes q'.evidence stage ∧
    q'.works = Function.update q.works party (some ⟨work.task, stage⟩)

theorem turns_of_turn {since : Time} (step : q.turn party since lease wall = some q') :
    Quiet q q' ∨ q.Turns q' party := by
  obtain ⟨work, leased, q₁, working, moved, -, step⟩ := settle_of_turn step
  cases effect : work.task.turn q.evidence party (q.protection work.task.resource) leased wall
      work.stage with
  | waits =>
    rw [effect] at step
    cases step
  | givesUp =>
    rw [effect] at step
    exact .inl (quiet_of_giveUp step)
  | goes evidence stage =>
    rw [effect] at step
    obtain rfl := Option.some.inj step
    refine .inr ⟨work, leased, wall, _, working, effect, ?_⟩
    show Function.update q₁.works party _ = _
    rw [moved.works]

/-- A step that is no import is a turn, or does not matter to the observations. -/
theorem quiet_or_turns {a : Action ID Data Digest} (step : q.step a = some q')
    (other : ∀ id report observations, a ≠ .importReport id report observations) :
    Quiet q q' ∨ ∃ party since lease wall, a = .turn party since lease wall ∧
      q.Turns q' party := by
  have apart {kind : EventKind} {event : ID} {row : Row ID Data Digest} (id : ID) :
      (q.evidence.setRow ⟨.event kind, event⟩ row).rows (observation id) =
        q.evidence.rows (observation id) := rows_setRow_ne nofun
  cases a with
  | tick d | decide r decided | assess r assessed | engage r reasons =>
    cases step
    exact .inl (quiet_of_eq (fun _ => rfl) rfl rfl)
  | importReport id report observations => exact absurd rfl (other id report observations)
  | recordEvent kind event detail =>
    obtain ⟨-, result⟩ := Option.ite_none_right_eq_some.mp step
    obtain rfl := Option.some.inj result
    exact .inl (quiet_of_eq apart rfl rfl)
  | alterEvent kind event detail =>
    obtain ⟨row, -, rfl⟩ := Option.map_eq_some_iff.mp step
    exact .inl (quiet_of_eq apart rfl rfl)
  | createHold r =>
    obtain ⟨-, result⟩ := Option.ite_none_right_eq_some.mp step
    obtain rfl := Option.some.inj result
    exact .inl (quiet_of_eq (fun _ => rfl) rfl rfl)
  | releaseHold r =>
    obtain ⟨-, result⟩ := Option.ite_none_right_eq_some.mp step
    obtain rfl := Option.some.inj result
    exact .inl (quiet_of_eq (fun _ => rfl) rfl rfl)
  | queue run tasks =>
    obtain ⟨-, result⟩ := Option.ite_none_right_eq_some.mp step
    obtain rfl := Option.some.inj result
    exact .inl (quiet_of_eq (fun _ => rfl) rfl rfl)
  | claim run worker lease => exact .inl (quiet_of_claim step)
  | turn party since lease wall =>
    exact (turns_of_turn step).imp_right fun turns => ⟨party, since, lease, wall, rfl, turns⟩
  | finish party since =>
    dsimp only [Store.step] at step
    split at step
    · obtain ⟨-, step⟩ := Option.ite_none_right_eq_some.mp step
      exact .inl (quiet_of_ended step fun _ _ _ => nofun)
    · cases step
  | fail party =>
    dsimp only [Store.step] at step
    split at step
    · cases step
    · cases step
    · cases step
      refine .inl (quiet_of_works (fun _ => rfl) rfl rfl fun work same => ?_)
      obtain rfl := Option.some.inj same
      exact .inr rfl
  | retry party since =>
    dsimp only [Store.step] at step
    split at step
    · obtain ⟨-, step⟩ := Option.ite_none_right_eq_some.mp step
      exact .inl (quiet_of_ended step fun _ _ _ => nofun)
    · cases step
  | crash party =>
    obtain ⟨work, -, left⟩ := Option.bind_eq_some_iff.mp step
    exact .inl (quiet_of_giveUp left)

end Store

/-! ## The observations along a run -/

structure Trace (ID T Data Digest : Type) where
  store : Store ID Data Digest
  /-- The column `summary` of the observations. -/
  summaries : ID → Option (Datum ℚ)
  /-- The observations as they were first committed, -/
  first : ID → Option (Observation T)
  /-- and what was last written under a key. -/
  written : Key ID Digest → Option Data

namespace Trace

/-- An import brings observations; all the rest is as in `Retention.Action`. -/
inductive Action (ID T Data Digest : Type) where
  | importReport (id : ID) (report : Data) (observations : List (ID × Observation T))
  | other (a : Retention.Action ID Data Digest)

section Step

variable [Timestamp T] [Jsonb Data]

def Action.base : Action ID T Data Digest → Retention.Action ID Data Digest
  | .importReport id report observations =>
    .importReport id report (observations.map fun o => (o.1, text o.2.json))
  | .other a => a

variable (T) in
/-- `compactObservation`, on the text of a column. -/
def compactText (data : Data) : Option (Datum ℚ) := (parse data).bind (compactObservation T)

variable [DecidableEq ID] [DecidableEq Data] [DecidableEq Digest] [Content Data Digest]

/-- Steps that are not taken. A worker that cannot make a summary reports an error instead of
going on; the observations of an import have no availability of their own yet. -/
def stuck (s : Trace ID T Data Digest) : Action ID T Data Digest → Bool
  | .importReport _ _ observations => observations.any fun o => !o.2.evidenceAvailability.isEmpty
  | .other (.turn party _ _ _) =>
    match s.store.works party with
    | some ⟨.archiveHistory id, .inspected data _⟩ =>
      s.store.protection (observation id) = [] && (compactText T data).isNone
    | _ => false
  | .other (.importReport _ _ _) => true
  | _ => false

/-- The column `summary`, which is set by the updates that archive and restore. -/
def summariesAfter (s : Trace ID T Data Digest) (q : Store ID Data Digest) :
    Action ID T Data Digest → ID → Option (Datum ℚ)
  | .other (.turn party _ _ _) =>
    if ((q.works party).map (·.stage.rewritten)) = some true then
      match s.store.works party with
      | some ⟨.archiveHistory id, .published data _ _⟩ =>
        Function.update s.summaries id (compactText T data)
      | some ⟨.restoreArchive id, .restoring _ _⟩ => Function.update s.summaries id none
      | _ => s.summaries
    else s.summaries
  | _ => s.summaries

def firstAfter (s : Trace ID T Data Digest) : Action ID T Data Digest → ID → Option (Observation T)
  | .importReport _ _ observations => fun id => (observations.lookup id).or (s.first id)
  | .other _ => s.first

/-- The next state, with what is written recorded. -/
def next (s : Trace ID T Data Digest) (q : Store ID Data Digest)
    (summaries : ID → Option (Datum ℚ)) (first : ID → Option (Observation T)) :
    Trace ID T Data Digest where
  store := q
  summaries := summaries
  first := first
  written := fun key => (q.evidence.objects key).or (s.written key)

def step (s : Trace ID T Data Digest) (a : Action ID T Data Digest) :
    Option (Trace ID T Data Digest) :=
  if s.stuck a then none
  else (s.store.step a.base).map fun q => s.next q (s.summariesAfter q a) (s.firstAfter a)

def empty (now : Time) : Trace ID T Data Digest where
  store := .empty now
  summaries := fun _ => none
  first := fun _ => none
  written := fun _ => none

def Reachable (s : Trace ID T Data Digest) : Prop :=
  Machine.Reachable step (fun s => ∃ now, s = empty now) s

end Step

/-! ## The invariant -/

section Invariant

variable [Timestamp T] [Jsonb Data] [DecidableEq ID] [DecidableEq Digest] [Content Data Digest]

/-- The row of an observation that was first committed as `o`. -/
structure RowFits (s : Trace ID T Data Digest) (id : ID) (o : Observation T)
    (row : Row ID Data Digest) : Prop where
  available : row.availability = .available → row.payload = some (text o.json)
  stored : ∀ ref, row.stored = some ref →
    ref = (observation id).object (text o.json : Data) ∧ s.written ref.key = some (text o.json)
  archived : row.availability = .archived → s.summaries id = some o.compact.json

/-- What a worker has in hand of the observation `id`. -/
def StageFits (s : Trace ID T Data Digest) (id : ID) : Stage ID Data Digest → Prop
  | .inspected data _ | .absent data _ | .publishing data _ _ | .restoring data _ =>
    ∃ o, s.first id = some o ∧ data = text o.json
  | .published data _ _ => ∃ o, s.first id = some o ∧ data = text o.json ∧
      s.written ((observation id).object data).key = some data
  | .fetching ref _ => ∃ o, s.first id = some o ∧
      ref = (observation id).object (text o.json : Data)
  -- only the history looks for objects that are there already
  | .unprotected _ _ | .existing _ _ _ => False
  | _ => True

structure Inv (s : Trace ID T Data Digest) : Prop where
  store : s.store.Inv False
  written : ∀ key data, s.written key = some data → key.digest = sha256 data
  current : ∀ key data, s.store.evidence.objects key = some data → s.written key = some data
  rows : ∀ id row, s.store.evidence.rows (observation id) = some row →
    ∃ o, s.first id = some o ∧ s.RowFits id o row
  known : ∀ id, s.store.evidence.rows (observation id) = none → s.first id = none
  blank : ∀ id o, s.first id = some o → o.evidenceAvailability = []
  works : ∀ party work id, s.store.works party = some work →
    work.task.resource = observation id → s.StageFits id work.stage

variable {s s' : Trace ID T Data Digest} {id : ID}
omit [DecidableEq ID] [DecidableEq Digest] in
theorem RowFits.mono (fits : s.RowFits id o row)
    (written : ∀ key data, s.written key = some data → s'.written key = some data)
    (summaries : s'.summaries id = s.summaries id) : s'.RowFits id o row where
  available := fits.available
  stored := fun ref refers => (fits.stored ref refers).imp_right (written ref.key _)
  archived := fun archived => summaries.trans (fits.archived archived)

omit [DecidableEq ID] [DecidableEq Digest] in
theorem StageFits.mono (fits : s.StageFits id stage)
    (first : ∀ o, s.first id = some o → s'.first id = some o)
    (written : ∀ key data, s.written key = some data → s'.written key = some data) :
    s'.StageFits id stage := by
  cases stage with
  | inspected _ _ | absent _ _ | publishing _ _ _ | restoring _ _ | fetching _ _ =>
    obtain ⟨o, known, same⟩ := fits
    exact ⟨o, first o known, same⟩
  | published _ _ _ =>
    obtain ⟨o, known, same, wrote⟩ := fits
    exact ⟨o, first o known, same, written _ _ wrote⟩
  | unprotected _ _ | existing _ _ _ => exact fits
  | _ => trivial

section Turn

theorem Inv.stage_of_archive [DecidableEq Data] (inv : s.Inv)
    (goes : Work.archive s.store.evidence (observation id) protection leased wall stage =
      .goes e' stage')
    (fits : s.StageFits id stage) (first : ∀ o, s.first id = some o → s'.first id = some o)
    (current : ∀ key data, e'.objects key = some data → s'.written key = some data) :
    s'.StageFits id stage' := by
  have known {data : Data} (fits : ∃ o, s.first id = some o ∧ data = text o.json) :
      ∃ o, s'.first id = some o ∧ data = text o.json :=
    fits.imp fun o => And.imp_left (first o)
  cases stage with
  | start =>
    dsimp only [Work.archive] at goes
    split at goes
    · cases goes
      trivial
    case h_2 row stored =>
      obtain ⟨o, committed, row_fits⟩ := inv.rows id row stored
      split at goes <;> cases goes
      case h_2 data available payload =>
        have same := row_fits.available available
        rw [payload] at same
        exact known ⟨o, committed, Option.some.inj same⟩
      all_goals trivial
  | inspected data revision =>
    dsimp only [Work.archive] at goes
    split at goes
    · cases goes
      trivial
    · split at goes
      case isTrue history => cases history
      case isFalse =>
        cases goes
        exact known fits
  | absent data revision =>
    obtain ⟨-, goes⟩ := Work.withLease_goes goes
    unfold Work.beginArchivePublication at goes
    dsimp only at goes
    split at goes <;> cases goes
    exact known fits
  | publishing data revision publication =>
    obtain ⟨-, goes⟩ := Work.withLease_goes goes
    cases goes
    obtain ⟨o, committed, same⟩ := known fits
    exact ⟨o, committed, same, current _ _ objects_setObject_self⟩
  | published data revision publication =>
    obtain ⟨-, goes⟩ := Work.withLease_goes goes
    split at goes
    case isTrue history => cases history
    case isFalse =>
      unfold Work.reference at goes
      dsimp only at goes
      split at goes
      · rw [(Work.finishing_goes goes).1]
        trivial
      · split at goes
        · split at goes
          · rw [(Work.finishing_goes goes).1]
            trivial
          · cases goes
        · cases goes
  | unprotected _ _ | existing _ _ _ => exact fits.elim
  | _ => cases goes

theorem Inv.stage_of_restore (inv : s.Inv)
    (goes : Work.restore s.store.evidence (observation id) leased stage = .goes e' stage')
    (fits : s.StageFits id stage) (first : ∀ o, s.first id = some o → s'.first id = some o) :
    s'.StageFits id stage' := by
  cases stage with
  | start =>
    dsimp only [Work.restore] at goes
    split at goes
    · cases goes
      trivial
    case h_2 row ref found =>
      obtain ⟨row', stored, refers⟩ := Option.bind_eq_some_iff.mp found
      obtain ⟨ref', refers, same⟩ := Option.map_eq_some_iff.mp refers
      cases same
      obtain ⟨o, committed, row_fits⟩ := inv.rows id row stored
      split at goes
      · cases goes
        trivial
      · split at goes <;> cases goes
        · trivial
        · exact ⟨o, first o committed, (row_fits.stored ref refers).1⟩
  | fetching ref revision =>
    obtain ⟨-, goes⟩ := Work.withLease_goes goes
    obtain ⟨o, committed, same⟩ := fits
    split at goes <;> cases goes
    case h_1 data found =>
      -- the digest of the row tells the text
      have there := Work.objects_of_read found
      have digest := inv.store.evidence.objects _ _ there
      rw [same] at digest
      exact ⟨o, first o committed, (sha256_injective digest).symm⟩
    all_goals trivial
  | forsaken revision state | restoring data revision =>
    dsimp only [Work.restore, Work.withLease] at goes
    repeat' split at goes
    all_goals cases goes
    all_goals trivial
  | _ => cases goes

theorem stage_of_expire {r : Resource ID}
    (goes : Work.expire e r protection leased wall stage = .goes e' stage') :
    s'.StageFits id stage' := by
  cases stage <;>
    dsimp only [Work.expire, Work.withLease, Work.markAvailability, Work.markExpiring,
      Work.clearTransition, Work.markExpired] at goes <;>
    repeat' split at goes
  all_goals cases goes
  all_goals trivial

theorem stage_of_deleteOrphan {digest : Digest}
    (goes : Work.deleteOrphan e leased wall party key digest revision stage = .goes e' stage') :
    s'.StageFits id stage' := by
  cases stage <;> dsimp only [Work.deleteOrphan, Work.withLease] at goes <;>
    repeat' split at goes
  all_goals cases goes
  all_goals trivial

/-- What the worker has in hand after its turn. -/
theorem Inv.stage_of_turn [DecidableEq Data] (inv : s.Inv)
    (goes : task.turn s.store.evidence party protection leased wall stage = .goes e' stage')
    (about : task.resource = observation id) (fits : s.StageFits id stage)
    (first : ∀ o, s.first id = some o → s'.first id = some o)
    (current : ∀ key data, e'.objects key = some data → s'.written key = some data) :
    s'.StageFits id stage' := by
  cases task with
  | archiveHistory id' =>
    cases about
    exact inv.stage_of_archive goes fits first current
  | restoreArchive id' =>
    cases about
    exact inv.stage_of_restore goes fits first
  | expireArchive id' => exact stage_of_expire goes
  | deleteOrphan key digest revision => exact stage_of_deleteOrphan goes
  | expireRawReport _ | archiveAudit _ _ => cases about

end Turn

/-! ## Steps keep the invariant -/

variable [DecidableEq Data] {q : Store ID Data Digest}

omit [DecidableEq Data] in
theorem compactText_json (o : Observation T) :
    compactText T (text o.json : Data) = some o.compact.json := by
  rw [compactText, parse_text _ o.canonical_json, Option.bind_some, o.compactObservation_json]

omit [DecidableEq Data] in
theorem Inv.writes (inv : s.Inv) (base : q.Inv False) {data : Data}
    (wrote : s.written key = some data) :
    (q.evidence.objects key).or (s.written key) = some data := by
  cases there : q.evidence.objects key with
  | none => exact wrote
  | some other =>
    have same := (inv.written key data wrote).symm.trans (base.evidence.objects key other there)
    rw [Option.some_or, sha256_injective same]

variable {since : Time} {work : Work ID Data Digest}

omit [DecidableEq Digest] [Content Data Digest] [DecidableEq Data] in
/-- A turn that leaves the rows alone leaves the summaries alone. -/
theorem summariesAfter_of_turn (working : s.store.works party = some work)
    (turned : q.works party = some ⟨work.task, stage⟩)
    (other : stage.rewritten = true → ∃ key digest revision,
      work.task = .deleteOrphan key digest revision) :
    s.summariesAfter q (.other (.turn party since lease wall)) = s.summaries := by
  rw [summariesAfter, turned, working]
  split
  case isTrue rewritten =>
    obtain ⟨key, digest, revision, orphan⟩ := other (Option.some.inj rewritten)
    obtain ⟨task, stage₀⟩ := work
    obtain rfl : task = _ := orphan
    rfl
  case isFalse => rfl

omit [DecidableEq Digest] [Content Data Digest] [DecidableEq Data] in
theorem summariesAfter_ne (working : s.store.works party = some work)
    (ne : observation id ≠ work.task.resource) :
    s.summariesAfter q (.other (.turn party since lease wall)) id = s.summaries id := by
  rw [summariesAfter, working]
  split
  case isTrue =>
    obtain ⟨task, stage⟩ := work
    cases task with
    | archiveHistory id' | restoreArchive id' =>
      have differs : id ≠ id' := fun same => ne (congrArg observation same)
      cases stage <;> first | rfl | exact Function.update_of_ne differs _ _
    | _ => rfl
  case isFalse => rfl

variable {a : Action ID T Data Digest}

omit [DecidableEq Digest] [Content Data Digest] [DecidableEq Data] in
theorem summariesAfter_of_quiet (quiet : s.store.Quiet q) : s.summariesAfter q a = s.summaries := by
  cases a with
  | importReport _ _ _ => rfl
  | other a =>
    cases a with
    | turn party since lease wall =>
      rw [summariesAfter]
      split
      case isTrue rewritten =>
        obtain ⟨work, working, rewritten⟩ := Option.map_eq_some_iff.mp rewritten
        rcases quiet.works party work working with before | start | failed
        · rw [before]
          obtain ⟨task, stage⟩ := work
          cases task <;> cases stage <;> first | rfl | cases rewritten
        · rw [start] at rewritten
          cases rewritten
        · rw [failed] at rewritten
          cases rewritten
      case isFalse => rfl
    | _ => rfl

section Assemble

variable {summaries : ID → Option (Datum ℚ)} {first : ID → Option (Observation T)}

omit [DecidableEq Data] in
/-- The invariant after a step, from what the step has done to rows and workers. -/
theorem Inv.assemble (inv : s.Inv) (base : q.Inv False)
    (grows : ∀ id o, s.first id = some o → first id = some o)
    (rows : ∀ id row, q.evidence.rows (observation id) = some row →
      ∃ o, first id = some o ∧ (s.next q summaries first).RowFits id o row)
    (known : ∀ id, q.evidence.rows (observation id) = none → first id = none)
    (blank : ∀ id o, first id = some o → o.evidenceAvailability = [])
    (works : ∀ party work id, q.works party = some work → work.task.resource = observation id →
      s.store.works party = some work ∨ (s.next q summaries first).StageFits id work.stage) :
    (s.next q summaries first).Inv where
  store := base
  written := fun key data wrote => by
    rcases Option.or_eq_some_iff.mp wrote with there | ⟨-, before⟩
    · exact base.evidence.objects key data there
    · exact inv.written key data before
  current := fun key data there => Option.or_eq_some_iff.mpr (.inl there)
  rows := rows
  known := known
  blank := blank
  works := fun party work id working about => by
    rcases works party work id working about with before | fits
    · exact (inv.works party work id before about).mono (grows id) fun _ _ => inv.writes base
    · exact fits

omit [DecidableEq Data] in
/-- A row that has not changed. -/
theorem Inv.row_unchanged (inv : s.Inv) (base : q.Inv False)
    (stored : s.store.evidence.rows (observation id) = some row)
    (same : summaries id = s.summaries id) :
    ∃ o, s.first id = some o ∧ (s.next q summaries s.first).RowFits id o row := by
  obtain ⟨o, committed, fits⟩ := inv.rows id row stored
  exact ⟨o, committed, fits.mono (fun _ _ => inv.writes base) same⟩

end Assemble

/-- The row of a new observation of the import `run`. -/
def newRow (run : ID) (o : Observation T) : Row ID Data Digest where
  payload := some (text o.json)
  availability := .available
  revision := 1
  expiring := false
  stored := none
  related := [⟨.importRecord, run⟩]

omit [DecidableEq Data] in
/-- The rows of the observations of an import are new. -/
theorem rows_importReport (distinct : (observations.map Prod.fst).Nodup) (id : ID) :
    (q.importReport run report
        (observations.map fun o => (o.1, text o.2.json))).evidence.rows (observation id) =
      ((observations.lookup id).map (newRow run)).or (q.evidence.rows (observation id)) := by
  have fold (e : Evidence ID Data Digest) : (observations.foldl (fun e o =>
        e.setRow (observation o.1) (newRow run o.2)) e).rows (observation id) =
      ((observations.lookup id).map (newRow run)).or (e.rows (observation id)) := by
    induction observations generalizing e with
    | nil => rfl
    | cons o rest ih =>
      obtain ⟨absent, distinct⟩ := List.nodup_cons.mp distinct
      rw [List.foldl_cons, ih distinct, List.lookup_cons]
      by_cases here : id = o.1
      · have once : rest.lookup id = none := by
          rw [List.lookup_eq_none_iff]
          rintro other among
          rw [here, bne_iff_ne]
          rintro same
          exact absent (same ▸ List.mem_map_of_mem among)
        rw [once, here, beq_self_eq_true, rows_setRow_self]
        rfl
      · have differs : observation id ≠ observation o.1 :=
          fun same => here (Resource.mk.inj same).2
        rw [beq_false_of_ne here, rows_setRow_ne differs]
  rw [Store.importReport, List.foldl_map]
  exact fold _

section Import

/-- The observations of an import are new, and no two have one id. -/
theorem accepted_import
    (stepped : s.store.step (Action.importReport run report observations).base = some q) :
    q = s.store.importReport run report (observations.map fun o => (o.1, text o.2.json)) ∧
      (observations.map Prod.fst).Nodup ∧
      ∀ id o, (id, o) ∈ observations → s.store.evidence.rows (observation id) = none := by
  obtain ⟨accepted, result⟩ := Option.ite_none_right_eq_some.mp stepped
  obtain ⟨accepted, distinct⟩ := Bool.and_eq_true_iff.mp accepted
  have fresh := List.all_eq_true.mp (Bool.and_eq_true_iff.mp accepted).2
  have distinct := of_decide_eq_true distinct
  rw [List.map_map] at distinct
  refine ⟨(Option.some.inj result).symm, distinct, fun id o listed => ?_⟩
  have among : (id, (text o.json : Data)) ∈ observations.map fun o => (o.1, text o.2.json) :=
    List.mem_map_of_mem listed
  exact Option.isNone_iff_eq_none.mp (fresh _ among)

/-- An import brings no observation that is known. -/
theorem Inv.unknown (inv : s.Inv)
    (stepped : s.store.step (Action.importReport run report observations).base = some q)
    (listed : observations.lookup id = some o) : (id, o) ∈ observations ∧ s.first id = none := by
  obtain ⟨before, after, split, -⟩ := List.lookup_eq_some_iff.mp listed
  have mem : (id, o) ∈ observations := by
    rw [split]
    exact List.mem_append_right before List.mem_cons_self
  exact ⟨mem, inv.known id ((accepted_import stepped).2.2 id o mem)⟩

/-- What was first committed stays what it is. -/
theorem Inv.first_of_step (inv : s.Inv) {a : Action ID T Data Digest}
    (stepped : s.store.step a.base = some q) (committed : s.first id = some o) :
    s.firstAfter a id = some o := by
  cases a with
  | other a => exact committed
  | importReport run report observations =>
    show (observations.lookup id).or (s.first id) = some o
    cases listed : observations.lookup id with
    | none => exact committed
    | some other => exact nomatch (inv.unknown stepped listed).2.symm.trans committed

theorem Inv.import (inv : s.Inv)
    (taken : s.step (.importReport run report observations) = some s') : s'.Inv := by
  obtain ⟨free, taken⟩ := Option.ite_none_left_eq_some.mp taken
  obtain ⟨q, stepped, rfl⟩ := Option.map_eq_some_iff.mp taken
  have base : q.Inv False := inv.store.step stepped False.elim
  obtain ⟨result, distinct, -⟩ := accepted_import stepped
  refine inv.assemble base (fun id o => inv.first_of_step stepped) (fun id row stored => ?_)
    (fun id absent => ?_) (fun id o committed => ?_) fun party work id working about => .inl ?_
  · show ∃ o, (observations.lookup id).or (s.first id) = some o ∧ _
    rw [result, rows_importReport distinct] at stored
    cases listed : observations.lookup id with
    | none =>
      rw [listed] at stored
      obtain ⟨o, committed, fits⟩ := inv.rows id row stored
      exact ⟨o, committed, fits.mono (fun _ _ => inv.writes base) rfl⟩
    | some o =>
      rw [listed] at stored
      obtain rfl := Option.some.inj stored
      exact ⟨o, rfl, fun _ => rfl, nofun, nofun⟩
  · show (observations.lookup id).or (s.first id) = none
    rw [result, rows_importReport distinct, Option.or_eq_none_iff, Option.map_eq_none_iff] at absent
    rw [absent.1, inv.known id absent.2]
    rfl
  · rcases Option.or_eq_some_iff.mp committed with listed | ⟨-, before⟩
    · have blank := List.any_eq_false.mp (Bool.eq_false_iff.mpr free) _
        (inv.unknown stepped listed).1
      exact List.isEmpty_iff.mp (by simpa using blank)
    · exact inv.blank id o before
  · rw [result] at working
    exact working

end Import

omit [DecidableEq Data] in
/-- Nothing has changed but what is written, and the workers are where they were, or begin or
fail. -/
theorem Inv.quiet (inv : s.Inv) {a : Retention.Action ID Data Digest} (base : q.Inv False)
    (quiet : s.store.Quiet q) :
    (s.next q (s.summariesAfter q (.other a)) s.first).Inv := by
  rw [summariesAfter_of_quiet quiet]
  refine inv.assemble base (fun _ _ => id) (fun id row stored => ?_) (fun id absent => ?_)
    inv.blank fun party work id working about => ?_
  · exact inv.row_unchanged base (quiet.rows id ▸ stored) rfl
  · exact inv.known id (quiet.rows id ▸ absent)
  · rcases quiet.works party work working with before | start | failed
    · exact .inl before
    · right
      rw [start]
      trivial
    · right
      rw [failed]
      trivial

omit [DecidableEq Data] in
/-- The row of the observation that a worker has taken a turn at. -/
theorem Inv.row_turned (inv : s.Inv) (base : q.Inv False)
    (working : s.store.works party = some work) (turned : q.works party = some ⟨work.task, stage⟩)
    (change : RowChange work.task work.stage stage s.store.evidence.rows q.evidence.rows)
    (about : work.task.resource = observation id)
    (stored : q.evidence.rows (observation id) = some row) :
    ∃ o, s.first id = some o ∧
      (s.next q (s.summariesAfter q (.other (.turn party since lease wall))) s.first).RowFits
        id o row := by
  have fits := inv.works party work id working about
  have updated {row' : Row ID Data Digest} (changed : q.evidence.rows =
      Function.update s.store.evidence.rows work.task.resource (some row')) : row = row' := by
    rw [changed, about, Function.update_self] at stored
    exact (Option.some.inj stored).symm
  cases change with
  | same same other =>
    rw [summariesAfter_of_turn working turned other]
    exact inv.row_unchanged base (same ▸ stored) rfl
  | kept before changed payload refers availability other =>
    obtain rfl := updated changed
    rw [about] at before
    obtain ⟨o, committed, old⟩ := inv.rows id _ before
    rw [summariesAfter_of_turn working turned fun yes => absurd yes (Bool.eq_false_iff.mp other)]
    refine ⟨o, committed, fun available => ?_, fun ref here => ?_, fun archived => ?_⟩
    · rw [payload]
      refine old.available ?_
      rcases availability with same | ⟨lost, -⟩
      · rw [← same, available]
      · exact absurd available lost
    · exact (old.stored ref (refers ▸ here)).imp_right fun wrote => inv.writes base wrote
    · refine old.archived ?_
      rcases availability with same | ⟨-, lost⟩
      · rw [← same, archived]
      · exact absurd archived lost
  | @archived old data revision publication here archives before changed done =>
    obtain rfl := updated changed
    obtain ⟨task, stage₀⟩ := work
    obtain rfl : stage₀ = _ := here
    obtain rfl : task = _ := archives id about
    obtain ⟨o, committed, same, wrote⟩ := fits
    refine ⟨o, committed, nofun, fun ref refers => ?_, fun _ => ?_⟩
    · obtain rfl := Option.some.inj refers
      rw [← same]
      exact ⟨rfl, inv.writes base wrote⟩
    · show s.summariesAfter q (.other (.turn party since lease wall)) id = _
      rw [summariesAfter, turned, working, done]
      show Function.update s.summaries id (compactText T data) id = _
      rw [Function.update_self, same, compactText_json]
  | @restored old row' data revision here restores before changed payload refers available done =>
    obtain rfl := updated changed
    obtain ⟨task, stage₀⟩ := work
    obtain rfl : stage₀ = _ := here
    obtain ⟨o, committed, same⟩ := fits
    rw [about] at before
    obtain ⟨o', committed', old⟩ := inv.rows id _ before
    obtain rfl := Option.some.inj (committed.symm.trans committed')
    refine ⟨o, committed, fun _ => ?_, fun ref there => ?_, fun archived => ?_⟩
    · rw [payload, same]
    · exact (old.stored ref (refers ▸ there)).imp_right fun wrote => inv.writes base wrote
    · rw [available] at archived
      cases archived

theorem Inv.turn (inv : s.Inv) (base : q.Inv False) (turns : s.store.Turns q party) :
    (s.next q (s.summariesAfter q (.other (.turn party since lease wall))) s.first).Inv := by
  obtain ⟨work, leased, clock, stage, working, goes, works⟩ := turns
  have turned : q.works party = some ⟨work.task, stage⟩ := by
    rw [works, Function.update_self]
  have change := Task.rowChange goes
  refine inv.assemble base (fun _ _ committed => committed) (fun id row stored => ?_)
    (fun id absent => inv.known id ?_) inv.blank fun other work' id working' about => ?_
  · by_cases about : observation id = work.task.resource
    · exact inv.row_turned base working turned change about.symm stored
    · refine inv.row_unchanged base ?_ (summariesAfter_ne working about)
      rcases change.cases_rows with same | ⟨row', changed⟩
      · rwa [same] at stored
      · rwa [changed, Function.update_of_ne about] at stored
  · rcases change.cases_rows with same | ⟨row', changed⟩
    · rwa [same] at absent
    · by_cases about : observation id = work.task.resource
      · rw [changed, about, Function.update_self] at absent
        cases absent
      · rwa [changed, Function.update_of_ne about] at absent
  · by_cases here : other = party
    · subst here
      obtain rfl := Option.some.inj (turned.symm.trans working')
      refine .inr (inv.stage_of_turn goes about (inv.works other work id working about)
        (fun _ committed => committed) fun key data there => ?_)
      exact Option.or_eq_some_iff.mpr (.inl there)
    · rw [works, Function.update_of_ne here] at working'
      exact .inl working'

/-- A step that is no import changes no row, or is a turn. -/
theorem step_other {a : Retention.Action ID Data Digest} (taken : s.step (.other a) = some s') :
    ∃ q, s.store.step a = some q ∧
      s' = s.next q (s.summariesAfter q (.other a)) s.first ∧
      (s.store.Quiet q ∨ ∃ party since lease wall, a = .turn party since lease wall ∧
        s.store.Turns q party) := by
  obtain ⟨free, taken⟩ := Option.ite_none_left_eq_some.mp taken
  obtain ⟨q, stepped, rfl⟩ := Option.map_eq_some_iff.mp taken
  have other : ∀ id report observations, a ≠ .importReport id report observations := by
    rintro id report observations rfl
    exact free rfl
  exact ⟨q, stepped, rfl, Store.quiet_or_turns stepped other⟩

theorem Inv.step (inv : s.Inv) (taken : s.step a = some s') : s'.Inv := by
  cases a with
  | importReport run report observations => exact inv.import taken
  | other a =>
    obtain ⟨q, stepped, rfl, quiet | ⟨party, _, _, _, rfl, turns⟩⟩ := step_other taken
    · exact inv.quiet (inv.store.step stepped False.elim) quiet
    · exact inv.turn (inv.store.step stepped False.elim) turns

omit [DecidableEq Data] in
theorem inv_empty (now : Time) : (empty now : Trace ID T Data Digest).Inv where
  store := Store.inv_empty False now
  written := nofun
  current := nofun
  rows := nofun
  known := fun _ _ => rfl
  blank := nofun
  works := fun _ _ _ working => by cases working

theorem Reachable.inv (reachable : Reachable s) : s.Inv := by
  refine Machine.Reachable.invariant ?_ (fun _ _ _ inv taken => Inv.step inv taken) reachable
  rintro _ ⟨now, rfl⟩
  exact inv_empty now

/-! ## What is there and what comes back -/

/-- An item of the observation `id` that has put its data back. -/
def restoredItem (id : ID) : Work ID Data Digest :=
  ⟨.restoreArchive id, .done ⟨.succeeded, "restored", []⟩⟩

/-- An item ends `restored` when it has made the observation available. -/
theorem available_of_restored (taken : s.step a = some s')
    (before : s.store.works party ≠ some (restoredItem id))
    (ends : s'.store.works party = some (restoredItem id)) :
    ∃ row, s'.store.evidence.rows (observation id) = some row ∧
      row.availability = .available := by
  cases a with
  | importReport run report observations =>
    obtain ⟨-, taken⟩ := Option.ite_none_left_eq_some.mp taken
    obtain ⟨q, stepped, rfl⟩ := Option.map_eq_some_iff.mp taken
    obtain ⟨rfl, -⟩ := accepted_import stepped
    exact absurd ends before
  | other a =>
    obtain ⟨q, -, rfl, quiet | ⟨turning, _, _, _, rfl, turns⟩⟩ := step_other taken
    · rcases quiet.works party _ ends with same | start | failed
      · exact absurd same before
      · cases start
      · cases failed
    · obtain ⟨work, leased, wall, stage, working, goes, works⟩ := turns
      by_cases here : party = turning
      · subst here
        rw [next, works, Function.update_self] at ends
        obtain ⟨restores, rfl⟩ := Work.mk.inj (Option.some.inj ends)
        have about : work.task.resource = observation id := congrArg Task.resource restores
        cases Task.rowChange goes with
        | same _ other =>
          obtain ⟨key, digest, revision, orphan⟩ := other rfl
          exact nomatch restores.symm.trans orphan
        | archived _ archives _ _ _ => exact nomatch restores.symm.trans (archives id about)
        | restored _ _ _ changed _ _ available _ =>
          refine ⟨_, ?_, available⟩
          rw [next, changed, about, Function.update_self]
        | kept _ _ _ _ _ other => cases other
      · rw [next, works, Function.update_of_ne here] at ends
        exact absurd ends before

theorem Inv.committed_step (inv : s.Inv) (taken : s.step a = some s')
    (committed : s.first id = some o) : s'.first id = some o := by
  obtain ⟨-, taken⟩ := Option.ite_none_left_eq_some.mp taken
  obtain ⟨q, stepped, rfl⟩ := Option.map_eq_some_iff.mp taken
  exact inv.first_of_step stepped committed

theorem Inv.committed_run (inv : s.Inv) {actions : List (Action ID T Data Digest)}
    (runs : Machine.run Trace.step s actions = some s') (committed : s.first id = some o) :
    s'.Inv ∧ s'.first id = some o :=
  Machine.run_invariant (P := fun s => s.Inv ∧ s.first id = some o)
    (fun _ _ _ both taken => ⟨both.1.step taken, both.1.committed_step taken both.2⟩)
    ⟨inv, committed⟩ runs

/-- An import commits what it brings. -/
theorem committed_import (taken : s.step (.importReport run report observations) = some s')
    (brought : (id, o) ∈ observations) : s'.first id = some o := by
  obtain ⟨-, taken⟩ := Option.ite_none_left_eq_some.mp taken
  obtain ⟨q, stepped, rfl⟩ := Option.map_eq_some_iff.mp taken
  obtain ⟨-, distinct, -⟩ := accepted_import stepped
  obtain ⟨before, after, split⟩ := List.append_of_mem brought
  have listed : observations.lookup id = some o := by
    refine List.lookup_eq_some_iff.mpr ⟨before, after, split, fun p earlier => ?_⟩
    rw [split, List.map_append] at distinct
    have apart := (List.nodup_append.mp distinct).2.2 p.1 (List.mem_map_of_mem earlier) id
      List.mem_cons_self
    exact bne_iff_ne.mpr apart.symm
  show (observations.lookup id).or (s.first id) = some o
  rw [listed, Option.some_or]

/-- **An observation comes back as it was.**  After any run from the import that brought the
observation `o`, with whatever items in whatever order and with crashes anywhere: an available
observation has the value of `o`; an archived one refers to an object that was written with
the text of that value, and its summary is `o` without impact, remediation and unmapped
members; and an item that ends `restored` has put the value of `o` back. -/
theorem restored_as_committed {t : Trace ID T Data Digest} (reachable : Reachable s) {run : ID}
    {report : Data} {observations : List (ID × Observation T)}
    (imported : s.step (.importReport run report observations) = some s') {o : Observation T}
    (brought : (id, o) ∈ observations) {actions : List (Action ID T Data Digest)}
    (runs : Machine.run step s' actions = some t) :
    (∃ row, t.store.evidence.rows (observation id) = some row ∧
      (row.availability = .available → row.payload.bind parse = some o.json) ∧
      (row.availability = .archived →
        (∃ ref data, row.stored = some ref ∧ ref = (observation id).object data ∧
          t.written ref.key = some data ∧ parse data = some o.json) ∧
        t.summaries id =
          some { o with impact := [], remediation := [], unmapped := some [] }.json)) ∧
    ∀ a party t', t.step a = some t' → t.store.works party ≠ some (restoredItem id) →
      t'.store.works party = some (restoredItem id) →
      ∃ row, t'.store.evidence.rows (observation id) = some row ∧
        row.availability = .available ∧ row.payload.bind parse = some o.json := by
  obtain ⟨inv, committed⟩ :=
    (reachable.inv.step imported).committed_run runs (committed_import imported brought)
  have parses : parse (text o.json : Data) = some o.json := parse_text _ o.canonical_json
  -- whoever finds a row finds the one of `o`
  have fits_of {t : Trace ID T Data Digest} (inv : t.Inv) (committed : t.first id = some o)
      {row : Row ID Data Digest} (stored : t.store.evidence.rows (observation id) = some row) :
      t.RowFits id o row := by
    obtain ⟨o', committed', fits⟩ := inv.rows id row stored
    obtain rfl := Option.some.inj (committed.symm.trans committed')
    exact fits
  refine ⟨?_, fun a party t' taken before ends => ?_⟩
  · cases stored : t.store.evidence.rows (observation id) with
    | none => exact nomatch (inv.known id stored).symm.trans committed
    | some row =>
      have fits := fits_of inv committed stored
      refine ⟨row, rfl, fun available => ?_, fun archived => ⟨?_, ?_⟩⟩
      · rw [fits.available available, Option.bind_some, parses]
      · obtain ⟨ref, refers⟩ := Option.ne_none_iff_exists'.mp
          ((inv.store.evidence.rows _ _ stored).archived archived)
        obtain ⟨same, wrote⟩ := fits.stored ref refers
        exact ⟨ref, _, refers, same, wrote, parses⟩
      · rw [fits.archived archived, Observation.compact, ← inv.blank id o committed]
  · obtain ⟨row, stored, available⟩ := available_of_restored taken before ends
    have fits := fits_of (inv.step taken) (inv.committed_step taken committed) stored
    exact ⟨row, stored, available, by rw [fits.available available, Option.bind_some, parses]⟩

end Invariant

end Trace

namespace Sample

/-- Values that are their own text and their own digest. -/
instance : Content (Datum ℚ) (Datum ℚ) where
  sha256 := id
  size _ := 1
  sha256_injective := Function.injective_id

instance : Jsonb (Datum ℚ) where
  text := id
  parse := some
  parse_text _ _ := rfl

instance : Timestamp Json.Text where
  format := id
  parse := some
  parse_format _ := rfl

def leak : Observation Json.Text where
  id := ['o']
  runID := ['r']
  sourceID := ['s']
  scanID := []
  scope := ⟨[], [], ['m']⟩
  sourceScanAt := some ['t']
  sourceFindingID := ['f']
  sourceSeverity := ['h']
  normalizedSeverity := ['h']
  sourceLocation := ⟨['u'], 7⟩
  impact := ['i']
  remediation := []
  unmapped := some [(['k'], .number 2)]
  evidenceDigest := ['d']
  evidenceAvailability := []
  changeKind := ['n']
  changeReasons := none

/-- The observation is archived by one worker and fetched by another, which has one turn left. -/
def archivedAndFetched : List (Action (Fin 3) (Datum ℚ) (Datum ℚ)) :=
  [.queue 0 [.archiveHistory 0], .claim 0 "w" 60] ++ List.replicate 5 (.turn ⟨0, 1⟩ 0 60 0) ++
    [.finish ⟨0, 1⟩ 0, .queue 1 [.restoreArchive 0], .claim 1 "v" 60] ++
    List.replicate 2 (.turn ⟨1, 1⟩ 0 60 0)

end Sample

namespace Trace

theorem restored_as_committed_leak :
    ∃ s t t' : Trace (Fin 3) Json.Text (Datum ℚ) (Datum ℚ),
      (empty 0).step (.importReport 0 (.bool true) [(0, Sample.leak)]) = some s ∧
      Machine.run step s (Sample.archivedAndFetched.map .other) = some t ∧
      t.step (.other (.turn ⟨1, 1⟩ 0 60 0)) = some t' ∧
      t.summaries 0 = some { Sample.leak with impact := [], unmapped := some [] }.json ∧
      ∃ row, t'.store.evidence.rows (observation 0) = some row ∧
        row.availability = .available ∧ row.payload.bind parse = some Sample.leak.json := by
  have result : (((empty 0).step (.importReport 0 (.bool true) [(0, Sample.leak)])).bind fun s =>
      (Machine.run step s (Sample.archivedAndFetched.map .other)).bind fun t =>
        (t.step (.other (.turn ⟨1, 1⟩ 0 60 0))).map fun t' =>
          decide ((t.store.evidence.rows (observation 0)).map (·.availability) = some .archived ∧
            t.store.works ⟨1, 1⟩ ≠ some (restoredItem 0) ∧
            t'.store.works ⟨1, 1⟩ = some (restoredItem 0))) = some true := by
    decide
  obtain ⟨s, imported, result⟩ := Option.bind_eq_some_iff.mp result
  obtain ⟨t, runs, result⟩ := Option.bind_eq_some_iff.mp result
  obtain ⟨t', taken, checked⟩ := Option.map_eq_some_iff.mp result
  obtain ⟨archived, before, ends⟩ := of_decide_eq_true checked
  have start : Reachable (empty 0 : Trace (Fin 3) Json.Text (Datum ℚ) (Datum ℚ)) :=
    ⟨empty 0, [], ⟨0, rfl⟩, rfl⟩
  obtain ⟨⟨row, stored, -, summary⟩, restored⟩ :=
    restored_as_committed start imported List.mem_cons_self runs
  rw [stored, Option.map_some, Option.some.injEq] at archived
  exact ⟨s, t, t', imported, runs, taken, (summary archived).2,
    restored _ _ t' taken before ends⟩

end Trace

end Aspm.Retention
