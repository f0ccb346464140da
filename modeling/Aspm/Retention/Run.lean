import Mathlib
import Aspm.Reconcile.Model

/-!
# Retention runs

A retention run is a list of items that one worker at a time works through in the order of their
ordinals.  This module is the part of the worker that deals with the run itself:
`claimRetentionItem`, `lockRetentionRun`, `renewRetentionLease`, `finishRetentionItem`,
`retryRetentionItem`, `advanceRetentionRunTx` and `finalizeRetentionRunTx`, each as a function of
the row of the run and the rows of its items.  What an item asks for is the parameter `Task`.

Two counters of attempts are kept.  The one of an item counts its claims.  The one of the run
counts the claims since an attempt was last recorded, as a result or as an error, and a run that
was claimed `retentionAttempts` times without any record is *exhausted*: the item in hand is
given up.
-/

namespace Aspm.Retention

open Reconcile (Time)

abbrev WorkerID := String

def retentionAttempts : ℕ := 3

/-- `guarded` is the state that the source calls `protected`. -/
inductive ItemState where
  | queued
  | processing
  | succeeded
  | guarded
  | missing
  | corrupt
  | failed
deriving DecidableEq

namespace ItemState

/-- `state IN ('queued','processing')`. -/
def unfinished : ItemState → Bool
  | .queued | .processing => true
  | _ => false

/-- `state IN ('missing','corrupt','failed')`. -/
def failure : ItemState → Bool
  | .missing | .corrupt | .failed => true
  | _ => false

end ItemState

/-- The state of a run, with the owner and the end of its lease as long as it has one.
`partially` is the state that the source calls `partial`. -/
inductive RunState where
  | queued
  | processing (worker : WorkerID) (leaseUntil : Time)
  | succeeded
  | partially
  | failed
deriving DecidableEq

def RunState.terminal : RunState → Bool
  | .queued | .processing _ _ => false
  | _ => true

structure Failure where
  code : String
  message : String
deriving DecidableEq

/-- The states that the work on an item can end with, if it does not end with an error. -/
inductive OutcomeState where
  | succeeded
  | guarded
  | missing
  | corrupt
deriving DecidableEq

def OutcomeState.itemState : OutcomeState → ItemState
  | .succeeded => .succeeded
  | .guarded => .guarded
  | .missing => .missing
  | .corrupt => .corrupt

/-- `retentionOutcome`. -/
structure Outcome where
  state : OutcomeState
  outcome : String
  reasons : List String
deriving DecidableEq

/-- A row of `retention_run_items`. -/
structure Item (Task : Type) where
  task : Task
  state : ItemState
  attempts : ℕ
  reasons : List String
  outcome : String
  failure : Option Failure
deriving DecidableEq

/-- A row of `retention_runs`, with its items by their ordinals. -/
structure Run (Task : Type) where
  items : List (Item Task)
  state : RunState
  fence : ℕ
  attempts : ℕ
  availableAt : Time
  failure : Option Failure
deriving DecidableEq

def attemptLimit : Failure where
  code := "attempt-limit"
  message := "Retention item ownership was repeatedly abandoned"

def actionFailed : Failure where
  code := "retention-action-failed"
  message := "Retention action could not complete within its permitted attempts"

def actionRetried : Failure where
  code := "retention-action-failed"
  message := "Retention action will be retried"

variable {Task : Type}

def Item.queue (task : Task) : Item Task := ⟨task, .queued, 0, [], "", none⟩

namespace Run

/-- A run as it is queued. -/
def queue (tasks : List Task) (now : Time) : Run Task :=
  ⟨tasks.map Item.queue, .queued, 0, 0, now, none⟩

def leaseExpired (run : Run Task) (now : Time) : Bool :=
  match run.state with
  | .processing _ leaseUntil => leaseUntil ≤ now
  | _ => false

/-- The run is in the hands of this worker, under this fence. -/
def ownedBy (run : Run Task) (worker : WorkerID) (fence : ℕ) : Bool :=
  match run.state with
  | .processing owner _ => owner = worker && run.fence = fence
  | _ => false

/-- `lockRetentionRun`: the worker owns the run, and its lease is live. -/
def active (run : Run Task) (now : Time) (worker : WorkerID) (fence : ℕ) : Bool :=
  run.ownedBy worker fence && !run.leaseExpired now

/-- `renewRetentionLease`. -/
def renew (run : Run Task) (now : Time) (worker : WorkerID) (fence lease : ℕ) :
    Option (Run Task) :=
  if run.active now worker fence then
    some { run with state := .processing worker (now + lease) }
  else none

/-- The first item that is not finished. -/
def unfinishedIndex (run : Run Task) : Option ℕ :=
  run.items.findIdx? fun item => item.state.unfinished

/-- `finalizeRetentionRunTx`. -/
def finalize (run : Run Task) (worker : WorkerID) (fence : ℕ) : Option (Run Task) :=
  if run.ownedBy worker fence then
    some { run with
      state := if run.items.any (·.state.failure) then .partially else .succeeded
      failure := none }
  else none

/-- `advanceRetentionRunTx`. -/
def advance (run : Run Task) (now : Time) (worker : WorkerID) (fence : ℕ) : Option (Run Task) :=
  if run.items.any (·.state.unfinished) then
    if run.ownedBy worker fence then
      some { run with state := .queued, availableAt := now, attempts := 0 }
    else none
  else run.finalize worker fence

/-! ## Claims -/

/-- What a call of `claimRetentionItem` has done with the run. -/
inductive Claimed where
  /-- The item is to be processed. -/
  | item (index : ℕ)
  /-- The item was given up. -/
  | abandoned (index : ℕ)
  /-- There was no item left. -/
  | none
deriving DecidableEq

/-- Claimed too often, and by nobody now. -/
def exhausted (run : Run Task) (now : Time) : Bool :=
  retentionAttempts ≤ run.attempts && (run.state = .queued || run.leaseExpired now)

def claimable (run : Run Task) (now : Time) : Bool :=
  run.attempts < retentionAttempts &&
    ((run.state = .queued && run.availableAt ≤ now) || run.leaseExpired now)

/-- The worker becomes the owner of the run, under a new fence. -/
def seize (run : Run Task) (now : Time) (worker : WorkerID) (lease : ℕ) : Run Task :=
  { run with state := .processing worker (now + lease), fence := run.fence + 1 }

/-- The item in hand of an exhausted run is given up. -/
def abandon (run : Run Task) (now : Time) (worker : WorkerID) (lease : ℕ) :
    Option (Run Task × Claimed) :=
  match run.unfinishedIndex with
  | none => some ({ run with state := .failed, failure := some attemptLimit }, .none)
  | some index =>
    let given : Run Task :=
      { run.seize now worker lease with
        items := run.items.modify index fun item =>
          { item with
            state := .failed
            attempts := max item.attempts retentionAttempts
            failure := some attemptLimit } }
    (given.advance now worker given.fence).map (·, .abandoned index)

/-- The first unfinished item of a claimable run is taken to process. -/
def take (run : Run Task) (now : Time) (worker : WorkerID) (lease : ℕ) :
    Option (Run Task × Claimed) :=
  let taken : Run Task :=
    { run.seize now worker lease with attempts := run.attempts + 1, failure := none }
  match run.unfinishedIndex with
  | none => (taken.finalize worker taken.fence).map (·, .none)
  | some index => some
      ({ taken with
        items := run.items.modify index fun item =>
          { item with
            state := .processing
            attempts := item.attempts + 1
            failure := none } }, .item index)

/-- `claimRetentionItem`, for the run that it has selected. -/
def claim (run : Run Task) (now : Time) (worker : WorkerID) (lease : ℕ) :
    Option (Run Task × Claimed) :=
  if run.exhausted now then run.abandon now worker lease
  else if run.claimable now then run.take now worker lease
  else none

/-! ## Results -/

/-- An `UPDATE` of an item that is `processing`. -/
def updateProcessing (run : Run Task) (index : ℕ) (set : Item Task → Item Task) :
    Option (Run Task) :=
  if run.items[index]?.any fun item => item.state = .processing then
    some { run with items := run.items.modify index set }
  else none

/-- `finishRetentionItem`. -/
def finish (run : Run Task) (now : Time) (worker : WorkerID) (fence index : ℕ)
    (outcome : Outcome) : Option (Run Task) :=
  if run.active now worker fence then
    (run.updateProcessing index fun item =>
      { item with
        state := outcome.state.itemState
        reasons := outcome.reasons
        outcome := outcome.outcome
        failure := none }).bind fun run => run.advance now worker fence
  else none

/-- `retryRetentionItem`.  `attempts` are those that the worker has counted when it claimed. -/
def retry (run : Run Task) (now : Time) (worker : WorkerID) (fence index attempts : ℕ) :
    Option (Run Task) :=
  if run.active now worker fence then
    if retentionAttempts ≤ attempts then
      ((run.updateProcessing index fun item =>
        { item with state := .failed, failure := some actionFailed }).getD run).advance
          now worker fence
    else
      let queued := (run.updateProcessing index fun item =>
        { item with state := .queued, failure := some actionRetried }).getD run
      some { queued with state := .queued, availableAt := now + 1000000, attempts := 0 }
  else none

end Run

end Aspm.Retention
