import Aspm.Lib.Strings

/-!
# Bounded requests

`boundedHTTP` and `httpBudget.do`: what the connectors' requests share.  A request is sent only
while the budget has one left, and its answer is refused when it redirects, is too long, fails or
breaks off.
-/

namespace Aspm.Connectors

open Json (Text byteLength)
open Strings

/-- The codes of `connectorError`. -/
inductive ErrorCode where
  | uncertain
  | scope
  | auth
  | rateLimited
  | requiredFields
  | limit
  | protocol
  | unsupported
  | canceled
  | deadlineExceeded
  | unavailable
deriving DecidableEq

/-- Limits as `normalizedLimits` leaves them. -/
structure Limits where
  requests : ℕ
  pages : ℕ
  pageSize : ℕ
  bytes : ℕ
  requests_pos : 0 < requests
  requests_le : requests ≤ 128
  pages_pos : 0 < pages
  pages_le : pages ≤ 64
  pageSize_pos : 0 < pageSize
  pageSize_le : pageSize ≤ 100
  bytes_pos : 0 < bytes
  bytes_le : bytes ≤ 33554432

/-- A limit that is not given has a default. -/
def orDefault (given otherwise : ℕ) : ℕ := if given = 0 then otherwise else given

theorem orDefault_pos (given : ℕ) {otherwise : ℕ} (pos : 0 < otherwise) :
    0 < orDefault given otherwise := by
  unfold orDefault
  split <;> omega

theorem orDefault_le {given otherwise bound : ℕ} (le : given ≤ bound) (le' : otherwise ≤ bound) :
    orDefault given otherwise ≤ bound := by
  unfold orDefault
  split <;> omega

def normalizedLimits (requests pages pageSize bytes : ℤ) : Except ErrorCode Limits :=
  if accepted : (0 ≤ requests ∧ 0 ≤ pages ∧ 0 ≤ pageSize ∧ 0 ≤ bytes) ∧
      requests ≤ 128 ∧ pages ≤ 64 ∧ pageSize ≤ 100 ∧ bytes ≤ 33554432 then
    .ok {
      requests := orDefault requests.toNat 32
      pages := orDefault pages.toNat 8
      pageSize := orDefault pageSize.toNat 50
      bytes := orDefault bytes.toNat 8388608
      requests_pos := orDefault_pos _ (by decide)
      requests_le := orDefault_le (by omega) (by decide)
      pages_pos := orDefault_pos _ (by decide)
      pages_le := orDefault_le (by omega) (by decide)
      pageSize_pos := orDefault_pos _ (by decide)
      pageSize_le := orDefault_le (by omega) (by decide)
      bytes_pos := orDefault_pos _ (by decide)
      bytes_le := orDefault_le (by omega) (by decide) }
  else .error .limit

def textID (t : Text) (maximum : ℕ) : Bool :=
  t ≠ [] && byteLength t ≤ maximum && trimSpace t = t && !(t.any isControl)

def isDigit (c : Char) : Bool := '0' ≤ c && c ≤ '9'

/-- `^[1-9][0-9]{0,19}$` -/
def numericID (t : Text) : Bool := wordOf (fun c => '1' ≤ c && c ≤ '9') isDigit t && t.length ≤ 20

/-! ## One request -/

/-- An answer, with its body as `β`; `cause` is what `statusCause` makes of the status and of the
body's own error code. -/
structure Answer (β : Type) where
  status : ℕ
  length : ℕ
  complete : Bool
  cause : ErrorCode
  body : β

/-- What happens at the time of a request. -/
inductive Exchange (β : Type) where
  /-- The context has ended. -/
  | ended (cause : ErrorCode)
  /-- The client fails. -/
  | failed (cause : ErrorCode)
  | answered (answer : Answer β)

variable {β : Type}

/-- The code of `errors.Join(cause, ErrLimit)`: the first that `connectorError` asks for. -/
def ErrorCode.joinLimit : ErrorCode → ErrorCode
  | .uncertain => .uncertain
  | .scope => .scope
  | .auth => .auth
  | .rateLimited => .rateLimited
  | .requiredFields => .requiredFields
  | _ => .limit

/-- The end of `do`, once there is an answer. -/
def Answer.read (limits : Limits) (answer : Answer β) : Except ErrorCode β :=
  if 300 ≤ answer.status ∧ answer.status < 400 then .error .scope
  else if limits.bytes < answer.length then
    .error (if 400 ≤ answer.status then answer.cause.joinLimit else .limit)
  else if answer.status < 200 ∨ 300 ≤ answer.status then .error answer.cause
  else if !answer.complete then .error .unavailable
  else .ok answer.body

/-- `do`, and the number of requests after it. -/
def sendRequest (limits : Limits) (requests : ℕ) : Exchange β → Except ErrorCode β × ℕ
  | .ended cause => (.error cause, requests)
  | .failed cause =>
    if limits.requests ≤ requests then (.error .limit, requests) else (.error cause, requests + 1)
  | .answered answer =>
    if limits.requests ≤ requests then (.error .limit, requests)
    else (answer.read limits, requests + 1)

theorem sendRequest_requests (limits : Limits) (requests : ℕ) (exchange : Exchange β) :
    (sendRequest limits requests exchange).2 ≤ requests + 1 ∧
      (requests ≤ limits.requests → (sendRequest limits requests exchange).2 ≤ limits.requests) := by
  by_cases spent : limits.requests ≤ requests
  · cases exchange <;> simp [sendRequest, spent]
  · cases exchange <;> simp [sendRequest, spent] <;> omega

/-- An answer that `do` accepts. -/
structure Answer.Arrives (limits : Limits) (answer : Answer β) : Prop where
  success : 200 ≤ answer.status ∧ answer.status < 300
  fits : answer.length ≤ limits.bytes
  complete : answer.complete = true

theorem Answer.Arrives.read_eq {limits : Limits} {answer : Answer β}
    (arrives : answer.Arrives limits) : answer.read limits = .ok answer.body := by
  obtain ⟨⟨above, below⟩, fits, complete⟩ := arrives
  rw [Answer.read, if_neg (by omega), if_neg (by omega), if_neg (by omega), complete]
  rfl

theorem sendRequest_answered {limits : Limits} {requests : ℕ} {answer : Answer β}
    (arrives : answer.Arrives limits) (left : requests < limits.requests) :
    sendRequest limits requests (.answered answer) = (.ok answer.body, requests + 1) := by
  rw [sendRequest, if_neg (by omega), arrives.read_eq]

end Aspm.Connectors
