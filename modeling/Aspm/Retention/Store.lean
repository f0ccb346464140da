import Aspm.Retention.Termination
import Aspm.Retention.Evidence

/-!
# Retention workers beside each other

Any number of retention runs, with any number of workers, holds that are created and released,
and decisions that come and go.  An action is one turn of one worker, or one statement of
somebody else.

A worker that crashes leaves its claim behind, and the lock of its open transaction is released.
A worker that meets an error may record it and let go of its item (`fail`, `retry`); a worker that
has lost its lease gives up without a record, which is the same as a crash for everybody else.

`since` is the instant at which a transaction has looked at the lease.  It holds the row of the
run from then on, so it may end after the lease has.
-/

namespace Aspm.Retention

open Reconcile (Time)

variable {ID Data Digest : Type}

/-- An item that a worker has claimed, and how far it has come. -/
structure Work (ID Data Digest : Type) where
  task : Task ID Digest
  stage : Stage ID Data Digest
deriving DecidableEq

structure Store (ID Data Digest : Type) where
  /-- The clock of the database. -/
  now : Time
  evidence : Evidence ID Data Digest
  /-- The resources with a hold that is not released; a unique index allows one for each. -/
  holds : Resource ID → Bool
  /-- The observations whose finding has an owner, a decision, notes or a correlation, -/
  decided : Resource ID → Bool
  /-- and those that an assessment refers to. -/
  assessed : Resource ID → Bool
  /-- What else protects an event: `active-correlation`, `current-policy-revision`,
  `pending-policy-evaluation` or `active-delivery`. -/
  engaged : Resource ID → List String
  ledgers : ID → Option (Ledger (Task ID Digest))
  works : Party ID → Option (Work ID Data Digest)

inductive Action (ID Data Digest : Type) where
  | tick (d : ℕ)
  /-- An import with its raw report and its observations. -/
  | importReport (id : ID) (report : Data) (observations : List (ID × Data))
  | recordEvent (kind : EventKind) (id : ID) (detail : Data)
  /-- The columns of an event change that are part of its detail. -/
  | alterEvent (kind : EventKind) (id : ID) (detail : Data)
  | createHold (r : Resource ID)
  | releaseHold (r : Resource ID)
  | decide (r : Resource ID) (decided : Bool)
  | assess (r : Resource ID) (assessed : Bool)
  | engage (r : Resource ID) (reasons : List String)
  | queue (run : ID) (tasks : List (Task ID Digest))
  | claim (run : ID) (worker : WorkerID) (lease : ℕ)
  | turn (party : Party ID) (since : Time) (lease : ℕ) (wall : Time)
  | finish (party : Party ID) (since : Time)
  | fail (party : Party ID)
  | retry (party : Party ID) (since : Time)
  | crash (party : Party ID)
deriving DecidableEq

/-- `retentionReasons`. -/
def retentionReasons (hold decision shared : Bool) (extra : String) : List String :=
  (if hold then ["legal-hold"] else []) ++
  (if decision then ["active-decision"] else []) ++
  (if shared then ["shared-observation-references"] else []) ++
  (if extra ≠ "" then [extra] else [])

namespace Store

section Reads

variable [DecidableEq ID]

def related (q : Store ID Data Digest) (r : Resource ID) : List (Resource ID) :=
  ((q.evidence.rows r).map (·.related)).getD []

/-- There is a hold on the resource, on the import of an observation, or on an observation of an
import. -/
def held (q : Store ID Data Digest) (r : Resource ID) : Bool :=
  q.holds r || (q.related r).any q.holds

/-- `importProtection`, `observationProtection`, `auditProtection` and `historyProtection`. -/
def protection (q : Store ID Data Digest) (r : Resource ID) : List String :=
  match r.kind with
  | .importRecord =>
    retentionReasons (q.held r) ((q.related r).any q.decided) (1 < (q.related r).length)
      (if (q.related r).any q.assessed then "assessment-reference" else "")
  | .observation =>
    retentionReasons (q.held r) (q.decided r) false "" ++
      (if q.assessed r then ["assessment-reference"] else [])
  | .event _ => retentionReasons (q.held r) false false "" ++ q.engaged r

/-- The claim that the party holds, and its run. -/
def claimOf (q : Store ID Data Digest) (party : Party ID) : Option (Run (Task ID Digest) × Claim) :=
  (q.ledgers party.run).bind fun l => (l.claims party.fence).map (l.run, ·)

/-- Nobody has claimed the run since: the fence of the party is the current one. -/
def owns (q : Store ID Data Digest) (party : Party ID) : Bool :=
  (q.claimOf party).any fun (run, c) => run.ownedBy c.worker party.fence

/-- `lockRetentionRun`, at the beginning of a transaction. -/
def leasedSince (q : Store ID Data Digest) (party : Party ID) (since : Time) : Bool :=
  since ≤ q.now && (q.claimOf party).any fun (run, c) => run.active since c.worker party.fence

end Reads

section Writes

variable [DecidableEq ID] [DecidableEq Digest]

/-- A step of the run that the party belongs to. -/
def stepRun (q : Store ID Data Digest) (run : ID) (a : Ledger.Action) :
    Option (Store ID Data Digest) :=
  (q.ledgers run).bind fun l =>
    (l.step a).map fun l' => { q with ledgers := Function.update q.ledgers run (some l') }

def setWork (q : Store ID Data Digest) (party : Party ID) (work : Option (Work ID Data Digest)) :
    Store ID Data Digest :=
  { q with works := Function.update q.works party work }

/-- The worker is gone, and so is its transaction. -/
def giveUp (q : Store ID Data Digest) (party : Party ID) : Option (Store ID Data Digest) :=
  (q.stepRun party.run (.drop party.fence)).map fun q' =>
    { q'.setWork party none with evidence := q.evidence.unlock party }

/-- `claimRetentionItem`; an item that it returns is worked on from its start. -/
def claim (q : Store ID Data Digest) (run : ID) (worker : WorkerID) (lease : ℕ) :
    Option (Store ID Data Digest) :=
  (q.ledgers run).bind fun l =>
    (l.run.claim q.now worker lease).map fun (run', claimed) =>
      let q' := { q with
        ledgers := Function.update q.ledgers run (some (l.record worker run' claimed)) }
      match claimed with
      | .item index =>
        q'.setWork ⟨run, run'.fence⟩ (run'.items[index]?.map fun item => ⟨item.task, .start⟩)
      | _ => q'

/-- The row of a new import, and those of its observations. -/
def importReport [Content Data Digest] (q : Store ID Data Digest) (id : ID) (report : Data)
    (observations : List (ID × Data)) : Store ID Data Digest :=
  let r : Resource ID := ⟨.importRecord, id⟩
  let ref := r.object report
  let imported := (q.evidence.setRow r
    { payload := none
      availability := .available
      revision := 1
      expiring := false
      stored := some ref
      related := observations.map fun o => ⟨.observation, o.1⟩ }).setObject ref.key (some report)
  { q with
    evidence := observations.foldl (fun e o => e.setRow ⟨.observation, o.1⟩
      { payload := some o.2
        availability := .available
        revision := 1
        expiring := false
        stored := none
        related := [r] }) imported }

/-- A resource that is not known yet. -/
def fresh (q : Store ID Data Digest) (r : Resource ID) : Bool :=
  (q.evidence.rows r).isNone

end Writes

variable [DecidableEq ID] [DecidableEq Data] [DecidableEq Digest] [Content Data Digest]

/-- One turn of a worker, with its lease looked at or renewed as the turn needs it. -/
def turn (q : Store ID Data Digest) (party : Party ID) (since : Time) (lease : ℕ) (wall : Time) :
    Option (Store ID Data Digest) :=
  (q.works party).bind fun work =>
    let renewed := q.stepRun party.run (.renew q.now party.fence lease)
    let (q', leased) := match work.task.guard work.stage with
      | .query => (q, true)
      | .renewal => (renewed.getD q, renewed.isSome)
      | .transaction => (q, q.leasedSince party since)
    match work.task.turn q.evidence party (q.protection work.task.resource) leased wall
        work.stage with
    | .waits => none
    | .givesUp => q.giveUp party
    | .goes evidence stage =>
      some { q'.setWork party (some ⟨work.task, stage⟩) with evidence }

def step (q : Store ID Data Digest) : Action ID Data Digest → Option (Store ID Data Digest)
  | .tick d => some { q with now := q.now + d }
  | .importReport id report observations =>
    if q.fresh ⟨.importRecord, id⟩ && (observations.all fun o => q.fresh ⟨.observation, o.1⟩) &&
        decide (observations.map Prod.fst).Nodup then
      some (q.importReport id report observations)
    else none
  | .recordEvent kind id detail =>
    let row : Row ID Data Digest := ⟨some detail, .available, 1, false, none, []⟩
    if q.fresh ⟨.event kind, id⟩ then
      some { q with evidence := q.evidence.setRow ⟨.event kind, id⟩ row }
    else none
  | .alterEvent kind id detail =>
    (q.evidence.rows ⟨.event kind, id⟩).map fun row =>
      let altered := { row with payload := row.payload.map fun _ => detail }
      { q with evidence := q.evidence.setRow ⟨.event kind, id⟩ altered }
  | .createHold r =>
    if !q.fresh r && !q.holds r then
      some { q with holds := Function.update q.holds r true }
    else none
  | .releaseHold r =>
    if q.holds r then some { q with holds := Function.update q.holds r false } else none
  | .decide r decided => some { q with decided := Function.update q.decided r decided }
  | .assess r assessed => some { q with assessed := Function.update q.assessed r assessed }
  | .engage r reasons => some { q with engaged := Function.update q.engaged r reasons }
  | .queue run tasks =>
    if (q.ledgers run).isNone then
      some { q with ledgers := Function.update q.ledgers run (some (.queue tasks q.now)) }
    else none
  | .claim run worker lease => q.claim run worker lease
  | .turn party since lease wall => q.turn party since lease wall
  | .finish party since =>
    match q.works party with
    | some ⟨_, .done outcome⟩ =>
      if since ≤ q.now then
        (q.stepRun party.run (.finish since party.fence outcome)).map
          fun q' => q'.setWork party none
      else none
    | _ => none
  | .fail party =>
    match q.works party with
    | none | some ⟨_, .done _⟩ => none
    | some ⟨task, _⟩ => some
        { q.setWork party (some ⟨task, .failed⟩) with evidence := q.evidence.unlock party }
  | .retry party since =>
    match q.works party with
    | some ⟨_, .failed⟩ =>
      if since ≤ q.now then
        (q.stepRun party.run (.retry since party.fence)).map fun q' => q'.setWork party none
      else none
    | _ => none
  | .crash party => (q.works party).bind fun _ => q.giveUp party

def empty (now : Time) : Store ID Data Digest where
  now
  evidence := ⟨fun _ => none, fun _ => none, fun _ => none, fun _ => none⟩
  holds := fun _ => false
  decided := fun _ => false
  assessed := fun _ => false
  engaged := fun _ => []
  ledgers := fun _ => none
  works := fun _ => none

end Store

end Aspm.Retention
