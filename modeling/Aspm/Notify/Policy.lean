import Aspm.Lib.Json
import Aspm.Reconcile.Model
import Aspm.Delivery.Connection

/-!
# Notification policies and what they look at

Revisions of notification policies, and the finding change events they are matched against.  A
revision carries the epoch that its transaction took from the workspace, and an event the epoch
that its import had read.
-/

namespace Aspm.Notify

open Json (Text byteLength)
open Reconcile (Time)
open Delivery (Profile)

/-! ## Texts -/

/-- `unicode.IsSpace`. -/
def isSpace (c : Char) : Bool :=
  c ∈ ['\t', '\n', Char.ofNat 11, Char.ofNat 12, '\r', ' ', Char.ofNat 0x85, Char.ofNat 0xA0,
    Char.ofNat 0x1680, Char.ofNat 0x2028, Char.ofNat 0x2029, Char.ofNat 0x202F,
    Char.ofNat 0x205F, Char.ofNat 0x3000] ||
    (Char.ofNat 0x2000 ≤ c && c ≤ Char.ofNat 0x200A)

def validText (value : Text) (limit : ℕ) : Bool :=
  value.any (fun c => !isSpace c) && byteLength value ≤ limit && !value.contains (Char.ofNat 0)

def hexChar (c : Char) : Bool := ('0' ≤ c && c ≤ '9') || ('a' ≤ c && c ≤ 'f')

def validID (id : Text) : Bool := id.length = 32 && id.all hexChar

/-- The identifiers that `newID` makes. -/
abbrev ID := { id : Text // validID id = true }

/-! ## Policies -/

inductive Severity where
  | critical
  | high
  | medium
  | low
  | info
deriving DecidableEq

inductive ChangeKind where
  | new
  | changed
  | reopened
deriving DecidableEq

/-- A row of `notification_policy_revisions`. -/
structure Revision where
  policyID : ID
  name : Text
  connectionID : ID
  connectionProfile : Profile
  connectionRevision : ℕ
  enabled : Bool
  changeKinds : List ChangeKind
  minimumSeverity : Severity
  revision : ℕ
  epoch : ℕ
  actorID : Text
deriving DecidableEq

inductive EventState where
  | pending
  | processing
  | evaluated
deriving DecidableEq

/-- A row of `finding_change_events`. -/
structure ChangeEvent where
  findingID : ID
  policyEpoch : ℕ
  title : Text
  severity : Severity
  assetName : Text
  changeKind : ChangeKind
  changeRevision : ℕ
  changeAt : Time
  state : EventState
  workerID : Option Delivery.WorkerID
  fence : ℕ
  leaseUntil : Option Time
deriving DecidableEq

structure Change where
  id : ID
  findingID : ID
  title : Text
  severity : Severity
  assetName : Text
  changeKind : ChangeKind
  changeRevision : ℕ
  changeAt : Time
deriving DecidableEq

/-- The row that `reconcile` inserts for a change. -/
def Change.event (epoch : ℕ) (change : Change) : ChangeEvent where
  findingID := change.findingID
  policyEpoch := epoch
  title := change.title
  severity := change.severity
  assetName := change.assetName
  changeKind := change.changeKind
  changeRevision := change.changeRevision
  changeAt := change.changeAt
  state := .pending
  workerID := none
  fence := 0
  leaseUntil := none

end Aspm.Notify
