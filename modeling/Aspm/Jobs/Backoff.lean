import Aspm.Lib.Nullable
import Aspm.Lib.RowTable
import Aspm.Lib.Machine
import Aspm.Imports.Queue

/-!
# The delay in machine integers

A `time.Duration` is a 64-bit integer.  The loop of `Fail` doubles the delay while it is less than
the maximum, and takes the lesser of the two after it has doubled: by then the product may have
wrapped around.

The delay is the one of `retryDelayAfter` as long as no delay that is doubled is 2 ^ 62 or more
(`Fits`), which leaves room for the next one.  `Open` does not ask for that.
-/

namespace Aspm.Jobs

open Reconcile (Time)

/-- The delays that `Open` admits, in nanoseconds. -/
structure Delays where
  retryDelay : Int64
  maxRetryDelay : Int64
  positive : 0 < retryDelay
  ordered : retryDelay ≤ maxRetryDelay

namespace Delays

variable (d : Delays)

/-- The loop of `Fail`, `n` rounds before its bound. -/
def double : ℕ → Int64 → Int64
  | 0, delay => delay
  | n + 1, delay =>
    if delay < d.maxRetryDelay then double n (min (delay * 2) d.maxRetryDelay) else delay

/-- The delay after a failed attempt. -/
def delayAfter (attempt : ℕ) : Int64 := d.double (attempt - 1) d.retryDelay

/-- No product is out of range: a delay is doubled only if it is less than the maximum. -/
def Fits : Prop := ∀ k : ℕ, d.retryDelay.toInt * 2 ^ k < d.maxRetryDelay.toInt →
  d.retryDelay.toInt * 2 ^ k < 2 ^ 62

theorem zero_lt_retryDelay : 0 < d.retryDelay.toInt := Int64.lt_iff_toInt_lt.mp d.positive

theorem retryDelay_le : d.retryDelay.toInt ≤ d.maxRetryDelay.toInt :=
  Int64.le_iff_toInt_le.mp d.ordered

theorem toInt_min (a b : Int64) : (min a b).toInt = min a.toInt b.toInt := by
  show (if a ≤ b then a else b).toInt = _
  split
  case isTrue below => rw [min_eq_left (Int64.le_iff_toInt_le.mp below)]
  case isFalse above =>
    rw [Int64.le_iff_toInt_le, not_le] at above
    rw [min_eq_right above.le]

/-- A delay in range can be doubled. -/
theorem toInt_mul_two {delay : Int64} (positive : 0 < delay.toInt) (small : delay.toInt < 2 ^ 62) :
    (delay * 2).toInt = delay.toInt * 2 := by
  have two : (2 : Int64).toInt = 2 := rfl
  rw [Int64.toInt_mul, two]
  exact Int.bmod_eq_of_le (by omega) (by omega)

variable {d}

/-- The rounds of the loop, from the delay of `k` rounds before. -/
theorem toInt_double (fits : d.Fits) (n k : ℕ) {delay : Int64}
    (before : delay.toInt = min (d.retryDelay.toInt * 2 ^ k) d.maxRetryDelay.toInt) :
    (d.double n delay).toInt =
      min (d.retryDelay.toInt * 2 ^ (k + n)) d.maxRetryDelay.toInt := by
  have positive := d.zero_lt_retryDelay
  induction n generalizing k delay with
  | zero => exact before
  | succ n ih =>
    have grows : d.retryDelay.toInt * 2 ^ k ≤ d.retryDelay.toInt * 2 ^ (k + (n + 1)) :=
      Int.mul_le_mul_of_nonneg_left (pow_le_pow_right₀ one_le_two (Nat.le_add_right k _))
        positive.le
    rw [double]
    split
    case isTrue less =>
      rw [Int64.lt_iff_toInt_lt, before, min_lt_iff] at less
      have less := less.resolve_right (lt_irrefl _)
      rw [min_eq_left less.le] at before
      have doubled : (delay * 2).toInt = d.retryDelay.toInt * 2 ^ (k + 1) := by
        have power : 0 < (2 : ℤ) ^ k := by positivity
        rw [toInt_mul_two (before ▸ Int.mul_pos positive power) (before ▸ fits k less), before,
          pow_succ, mul_assoc]
      rw [ih (k + 1) (by rw [toInt_min, doubled]), Nat.add_right_comm, Nat.add_assoc k n 1]
    case isFalse enough =>
      -- the maximum is reached, and stays
      rw [Int64.lt_iff_toInt_lt, not_lt, before] at enough
      have reached : d.maxRetryDelay.toInt ≤ d.retryDelay.toInt * 2 ^ k :=
        enough.trans (min_le_left _ _)
      rw [before, min_eq_right reached, min_eq_right (reached.trans grows)]

theorem toInt_delayAfter (fits : d.Fits) (attempt : ℕ) : (d.delayAfter attempt).toInt =
    min (d.retryDelay.toInt * 2 ^ (attempt - 1)) d.maxRetryDelay.toInt := by
  have start : d.retryDelay.toInt = min (d.retryDelay.toInt * 2 ^ 0) d.maxRetryDelay.toInt := by
    rw [pow_zero, mul_one, min_eq_left d.retryDelay_le]
  rw [delayAfter, toInt_double fits _ 0 start, Nat.zero_add]

/-- The delays of the service: a second, and at most half a minute. -/
def service : Delays := ⟨1000000000, 30000000000, by decide, by decide⟩

/-- Half of the range, and all of it. -/
def widest : Delays := ⟨4611686018427387904, 9223372036854775807, by decide, by decide⟩

end Delays

end Aspm.Jobs
