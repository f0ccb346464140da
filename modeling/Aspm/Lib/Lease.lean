import Mathlib

/-!
# Fenced leases

The life of one piece of work in a queue with leases, with everything but its
phase, its fence and its number of attempts forgotten.  Work waits, is held by a
worker under a lease, or is settled.  Every claim takes a new fence, so a worker
whose lease ran out can be told from its successor.

A queue refines this automaton when each of its steps moves each of its rows by a
`Step`, which includes standing still.  The facts below then hold of its rows.
-/

namespace Lease

inductive Phase where
  | waiting
  | held
  | settled
deriving DecidableEq

/-- The state of one piece of work. -/
structure Work where
  phase : Phase
  fence : ℕ
  attempts : ℕ
deriving DecidableEq

/-- One move, with at most `limit` attempts. -/
inductive Step (limit : ℕ) : Work → Work → Prop
  | stay (w : Work) : Step limit w w
  | claim {w : Work} (unsettled : w.phase ≠ .settled) (room : w.attempts < limit) :
      Step limit w ⟨.held, w.fence + 1, w.attempts + 1⟩
  | requeue {w : Work} (held : w.phase = .held) : Step limit w ⟨.waiting, w.fence, w.attempts⟩
  | settle {w : Work} (unsettled : w.phase ≠ .settled) {fence : ℕ} (le : w.fence ≤ fence) :
      Step limit w ⟨.settled, fence, w.attempts⟩

variable {limit : ℕ} {w w' : Work}

theorem Step.fence_le (step : Step limit w w') : w.fence ≤ w'.fence := by
  cases step with
  | stay => exact le_rfl
  | claim => exact Nat.le_succ _
  | requeue => exact le_rfl
  | settle _ le => exact le

theorem Step.attempts_le (step : Step limit w w') (bounded : w.attempts ≤ limit) :
    w'.attempts ≤ limit := by
  cases step with
  | stay => exact bounded
  | claim _ room => exact room
  | requeue => exact bounded
  | settle => exact bounded

end Lease
