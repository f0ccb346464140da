import Aspm.Lib.Machine
import Aspm.Retention.Run

/-!
# Retention runs terminate

Any number of workers at one run.  A worker claims, and then finishes its item, records an error,
or does neither: it crashes, is shut down or loses its lease, and all that remains of it is the
claim in the row of the run.  The state of the machine is the run with the claims that workers
hold, by the fences under which they hold them, and with a record of the claims made so far.

The counter of the run is set back by every recorded error, so it bounds nothing by itself.  But
an error is recorded for another attempt only as long as the item has been claimed fewer than
`retentionAttempts` times.  So the item is at most two claims ahead of the run (`Phase`), and as
the run counts to three at most, the item is claimed at most five times.
-/

namespace Aspm.Retention

open Reconcile (Time)

variable {claimed : Claimed} {worker : WorkerID} {k : ℕ}

variable {Task : Type}

variable {item : Item Task} {set : Item Task → Item Task} {run' : Run Task}

/-- What a worker remembers of its claim. -/
structure Claim where
  worker : WorkerID
  index : ℕ
  attempts : ℕ
deriving DecidableEq

structure Ledger (Task : Type) where
  run : Run Task
  /-- The claims that are held, by their fences. -/
  claims : ℕ → Option Claim
  /-- The items claimed so far, one entry for each claim. -/
  claimed : List ℕ
  /-- The items that were given up because the run was exhausted. -/
  abandoned : List ℕ

namespace Ledger

inductive Action where
  | claim (now : Time) (worker : WorkerID) (lease : ℕ)
  | renew (now : Time) (fence lease : ℕ)
  | finish (now : Time) (fence : ℕ) (outcome : Outcome)
  | retry (now : Time) (fence : ℕ)
  /-- The worker crashes, is shut down or notices that it has lost its lease. -/
  | drop (fence : ℕ)
deriving DecidableEq

def queue (tasks : List Task) (now : Time) : Ledger Task :=
  ⟨.queue tasks now, fun _ => none, [], []⟩

/-- The worker is done with the claim, whatever has become of the run. -/
def release (l : Ledger Task) (fence : ℕ) (run : Option (Run Task)) : Ledger Task :=
  { l with run := run.getD l.run, claims := Function.update l.claims fence none }

def record (l : Ledger Task) (worker : WorkerID) (run : Run Task) : Run.Claimed → Ledger Task
  | .item index =>
    { l with
      run
      claims := Function.update l.claims run.fence
        (some ⟨worker, index, (run.items[index]?.map (·.attempts)).getD 0⟩)
      claimed := l.claimed ++ [index] }
  | .abandoned index => { l with run, abandoned := l.abandoned ++ [index] }
  | .none => { l with run }

def step (l : Ledger Task) : Action → Option (Ledger Task)
  | .claim now worker lease =>
    (l.run.claim now worker lease).map fun (run, claimed) => l.record worker run claimed
  | .renew now fence lease =>
    (l.claims fence).bind fun c =>
      (l.run.renew now c.worker fence lease).map fun run => { l with run }
  | .finish now fence outcome =>
    (l.claims fence).map fun c =>
      l.release fence (l.run.finish now c.worker fence c.index outcome)
  | .retry now fence =>
    (l.claims fence).map fun c =>
      l.release fence (l.run.retry now c.worker fence c.index c.attempts)
  | .drop fence => (l.claims fence).map fun _ => l.release fence none

end Ledger

/-! ## Items in the order of their ordinals -/

/-- The first `k` items are finished, and those behind the next one are untouched. -/
structure Shape (items : List (Item Task)) (k : ℕ) : Prop where
  bound : k ≤ items.length
  finished : ∀ i item, items[i]? = some item → i < k → item.state.unfinished = false
  current : ∀ item, items[k]? = some item → item.state.unfinished = true
  untouched : ∀ i item, items[i]? = some item → k < i → item.state = .queued ∧ item.attempts = 0

namespace Shape

variable {items : List (Item Task)}

theorem unfinished_iff (shape : Shape items k) {i : ℕ} (stored : items[i]? = some item) :
    item.state.unfinished = true ↔ k ≤ i := by
  constructor
  · intro unfinished
    by_contra before
    rw [shape.finished i item stored (not_le.mp before)] at unfinished
    cases unfinished
  · intro le
    rcases le.eq_or_lt with rfl | behind
    · exact shape.current item stored
    · rw [(shape.untouched i item stored behind).1]
      rfl

/-- There is work left just if the items do not end here. -/
theorem any_unfinished (shape : Shape items k) :
    items.any (·.state.unfinished) = decide (k < items.length) := by
  rw [Bool.eq_iff_iff, List.any_eq_true, decide_eq_true_eq]
  constructor
  · rintro ⟨item, mem, unfinished⟩
    obtain ⟨i, stored⟩ := List.getElem?_of_mem mem
    have bound := (List.getElem?_eq_some_iff.mp stored).1
    exact ((shape.unfinished_iff stored).mp unfinished).trans_lt bound
  · intro bound
    exact ⟨items[k], List.getElem_mem bound, shape.current _ (List.getElem?_eq_getElem bound)⟩

theorem findIdx (shape : Shape items k) :
    items.findIdx? (fun item => item.state.unfinished) =
      if k < items.length then some k else none := by
  split
  case isTrue bound =>
    rw [List.findIdx?_eq_some_iff_getElem]
    refine ⟨bound, shape.current _ (List.getElem?_eq_getElem bound), fun i before => ?_⟩
    rw [shape.finished i _ (List.getElem?_eq_getElem (before.trans bound)) before]
    exact Bool.false_ne_true
  case isFalse bound =>
    rw [List.findIdx?_eq_none_iff]
    intro item mem
    obtain ⟨i, stored⟩ := List.getElem?_of_mem mem
    have inside := (List.getElem?_eq_some_iff.mp stored).1
    exact shape.finished i item stored (inside.trans_le (not_lt.mp bound))

/-- The current item changes, and is not finished yet. -/
theorem modify (shape : Shape items k) (keeps : ∀ item, (set item).state.unfinished = true) :
    Shape (items.modify k set) k where
  bound := by simpa using shape.bound
  finished i item stored before := by
    rw [List.getElem?_modify_ne _ _ before.ne'] at stored
    exact shape.finished i item stored before
  current item stored := by
    rw [List.getElem?_modify_eq] at stored
    obtain ⟨old, -, rfl⟩ := Option.map_eq_some_iff.mp stored
    exact keeps old
  untouched i item stored behind := by
    rw [List.getElem?_modify_ne _ _ behind.ne] at stored
    exact shape.untouched i item stored behind

/-- The current item is finished, and the next one is current. -/
theorem settle (shape : Shape items k) (bound : k < items.length)
    (ends : ∀ item, (set item).state.unfinished = false) :
    Shape (items.modify k set) (k + 1) where
  bound := by simpa using bound
  finished i item stored before := by
    rcases (Nat.lt_succ_iff.mp before).eq_or_lt with rfl | before
    · rw [List.getElem?_modify_eq] at stored
      obtain ⟨old, -, rfl⟩ := Option.map_eq_some_iff.mp stored
      exact ends old
    · rw [List.getElem?_modify_ne _ _ before.ne'] at stored
      exact shape.finished i item stored before
  current item stored := by
    rw [List.getElem?_modify_ne _ _ (Nat.succ_ne_self k).symm] at stored
    rw [(shape.untouched (k + 1) item stored (Nat.lt_succ_self k)).1]
    rfl
  untouched i item stored behind := by
    have behind : k < i := (Nat.lt_succ_self k).trans behind
    rw [List.getElem?_modify_ne _ _ behind.ne] at stored
    exact shape.untouched i item stored behind

end Shape

/-! ## The two counters -/

/-- How the state of the run, its counter and the item in hand belong together. -/
def Phase (run : Run Task) (k : ℕ) : Prop :=
  match run.state with
  | .queued => run.attempts = 0 ∧ (k < run.items.length ∨ run.items = []) ∧
      ∀ item, run.items[k]? = some item → item.attempts < retentionAttempts
  | .processing _ _ => run.attempts ≤ retentionAttempts ∧
      ∃ item, run.items[k]? = some item ∧ item.state = .processing ∧
        item.attempts < run.attempts + retentionAttempts
  | .succeeded => k = run.items.length ∧ run.items.any (·.state.failure) = false
  | .partially => k = run.items.length ∧ run.items.any (·.state.failure) = true
  | .failed => False

namespace Run

variable {run : Run Task} {now : Time} {fence lease : ℕ}

theorem ownedBy_iff : run.ownedBy worker fence = true ↔
    ∃ leaseUntil, run.state = .processing worker leaseUntil ∧ run.fence = fence := by
  unfold ownedBy
  split
  case h_1 owner leaseUntil state =>
    rw [Bool.and_eq_true, decide_eq_true_eq, decide_eq_true_eq, state]
    constructor
    · rintro ⟨rfl, same⟩
      exact ⟨leaseUntil, rfl, same⟩
    · rintro ⟨_, ⟨⟩, same⟩
      exact ⟨rfl, same⟩
  case h_2 other =>
    refine iff_of_false Bool.false_ne_true ?_
    rintro ⟨leaseUntil, state, -⟩
    exact other worker leaseUntil state

theorem ownedBy_of_active (active : run.active now worker fence = true) :
    run.ownedBy worker fence = true :=
  (Bool.and_eq_true_iff.mp active).1

/-- The run is let go of at its item `k`: there is nobody who owns it. -/
structure Released (run run' : Run Task) (k : ℕ) : Prop where
  items : run'.items = run.items
  phase : Phase run' k
  free : ∀ worker fence, run'.ownedBy worker fence = false

theorem finalize_released (owned : run.ownedBy worker fence = true)
    (ends : k = run.items.length) :
    ∃ run', run.finalize worker fence = some run' ∧ Released run run' k := by
  refine ⟨_, if_pos owned, rfl, ?_, ?_⟩
  · unfold Phase
    dsimp only
    by_cases failures : run.items.any (·.state.failure) = true
    · rw [if_pos failures]
      exact ⟨ends, failures⟩
    · rw [if_neg failures]
      exact ⟨ends, Bool.eq_false_of_not_eq_true failures⟩
  · intro worker fence
    refine Bool.eq_false_of_not_eq_true fun owned => ?_
    obtain ⟨leaseUntil, state, -⟩ := ownedBy_iff.mp owned
    dsimp only at state
    split at state <;> cases state

/-- After an item is settled the run waits for the next claim, or is over. -/
theorem advance_released (owned : run.ownedBy worker fence = true) (shape : Shape run.items k)
    (fresh : ∀ item, run.items[k]? = some item → item.attempts = 0) :
    ∃ run', run.advance now worker fence = some run' ∧ Released run run' k := by
  unfold advance
  rw [shape.any_unfinished]
  by_cases bound : k < run.items.length
  · rw [decide_eq_true bound, if_pos rfl, if_pos owned]
    refine ⟨_, rfl, rfl, ⟨rfl, .inl bound, fun item stored => ?_⟩, fun _ _ => rfl⟩
    rw [fresh item stored]
    exact Nat.succ_pos 2
  · rw [decide_eq_false bound, if_neg Bool.false_ne_true]
    exact finalize_released owned (le_antisymm shape.bound (not_lt.mp bound))

/-- The item in hand is settled. -/
theorem settle_released (now : Time) (owned : run.ownedBy worker fence = true)
    (shape : Shape run.items k) (bound : k < run.items.length)
    (ends : ∀ item, (set item).state.unfinished = false) :
    ∃ run', advance { run with items := run.items.modify k set } now worker fence = some run' ∧
      Released { run with items := run.items.modify k set } run' (k + 1) := by
  refine advance_released owned (shape.settle bound ends) fun item stored => ?_
  rw [List.getElem?_modify_ne _ _ (Nat.succ_ne_self k).symm] at stored
  exact (shape.untouched (k + 1) item stored (Nat.lt_succ_self k)).2

/-- Whoever owns the run has its item in hand. -/
theorem current_of_ownedBy (phase : Phase run k) (owned : run.ownedBy worker fence = true) :
    ∃ item, run.items[k]? = some item ∧ item.state = .processing := by
  obtain ⟨leaseUntil, state, -⟩ := ownedBy_iff.mp owned
  rw [Phase, state] at phase
  obtain ⟨-, item, stored, processing, -⟩ := phase
  exact ⟨item, stored, processing⟩

theorem updateProcessing_current (phase : Phase run k) (owned : run.ownedBy worker fence = true)
    (set : Item Task → Item Task) :
    run.updateProcessing k set = some { run with items := run.items.modify k set } := by
  obtain ⟨item, stored, processing⟩ := current_of_ownedBy phase owned
  rw [updateProcessing, if_pos]
  rw [stored, Option.any_some, decide_eq_true processing]

theorem lt_length_of_getElem {i : ℕ} (stored : run.items[i]? = some item) : i < run.items.length :=
  (List.getElem?_eq_some_iff.mp stored).1

end Run

/-! ## What a step does to the run -/

/-- The run goes on at the item `k`, or its item is settled. -/
inductive Move (run : Run Task) (k : ℕ) (run' : Run Task) : ℕ → Prop
  /-- The items stay as they are, and so does what is in hand. -/
  | keep (items : run'.items = run.items) (phase : Phase run' k)
      (owned : ∀ worker fence, run'.ownedBy worker fence = true →
        run.ownedBy worker fence = true) : Move run k run' k
  /-- The item in hand waits for another attempt. -/
  | requeue {set : Item Task → Item Task} (items : run'.items = run.items.modify k set)
      (same : ∀ item, (set item).attempts = item.attempts)
      (open_ : ∀ item, (set item).state.unfinished = true) (phase : Phase run' k)
      (free : ∀ worker fence, run'.ownedBy worker fence = false) : Move run k run' k
  /-- The item in hand is finished. -/
  | settle {set : Item Task → Item Task} (bound : k < run.items.length)
      (items : run'.items = run.items.modify k set)
      (ends : ∀ item, (set item).state.unfinished = false) (phase : Phase run' (k + 1))
      (free : ∀ worker fence, run'.ownedBy worker fence = false) : Move run k run' (k + 1)

namespace Run

variable {run : Run Task} {now : Time} {fence lease : ℕ}

theorem move_of_released (bound : k < run.items.length)
    (ends : ∀ item, (set item).state.unfinished = false)
    (released : Released { run with items := run.items.modify k set } run' (k + 1)) :
    Move run k run' (k + 1) :=
  .settle bound released.items ends released.phase released.free

theorem move_renew (phase : Phase run k) (renewed : run.renew now worker fence lease = some run') :
    Move run k run' k := by
  obtain ⟨active, result⟩ := Option.ite_none_right_eq_some.mp renewed
  obtain rfl := Option.some.inj result
  obtain ⟨leaseUntil, state, rfl⟩ := ownedBy_iff.mp (ownedBy_of_active active)
  refine .keep rfl ?_ fun worker' fence' owned => ?_
  · rw [Phase, state] at phase
    exact phase
  · obtain ⟨_, same, fence⟩ := ownedBy_iff.mp owned
    obtain ⟨rfl, -⟩ := RunState.processing.inj same
    exact ownedBy_iff.mpr ⟨leaseUntil, state, fence⟩

theorem move_finish {outcome : Outcome} (shape : Shape run.items k) (phase : Phase run k)
    (finished : run.finish now worker fence k outcome = some run') : Move run k run' (k + 1) := by
  obtain ⟨active, finished⟩ := Option.ite_none_right_eq_some.mp finished
  have owned := ownedBy_of_active active
  obtain ⟨item, stored, -⟩ := current_of_ownedBy phase owned
  have bound := lt_length_of_getElem stored
  rw [updateProcessing_current phase owned, Option.bind_some] at finished
  have ends : ∀ item : Item Task,
      ItemState.unfinished ({ item with
        state := outcome.state.itemState
        reasons := outcome.reasons
        outcome := outcome.outcome
        failure := none } : Item Task).state = false := by
    intro item
    cases state : outcome.state <;> rfl
  obtain ⟨_, advanced, released⟩ := settle_released now owned shape bound ends
  obtain rfl := Option.some.inj (finished.symm.trans advanced)
  exact move_of_released bound ends released

/-- An error is recorded: the item fails, or waits for another attempt. -/
theorem move_retry (shape : Shape run.items k) (phase : Phase run k)
    (stored : run.items[k]? = some item)
    (retried : run.retry now worker fence k item.attempts = some run') :
    ∃ k', Move run k run' k' := by
  obtain ⟨active, retried⟩ := Option.ite_none_right_eq_some.mp retried
  have owned := ownedBy_of_active active
  have bound := lt_length_of_getElem stored
  by_cases limit : retentionAttempts ≤ item.attempts
  · rw [if_pos limit, updateProcessing_current phase owned, Option.getD_some] at retried
    obtain ⟨_, advanced, released⟩ :=
      settle_released now owned shape bound fun item : Item Task =>
        show ItemState.unfinished ({ item with
          state := .failed, failure := some actionFailed } : Item Task).state = false from rfl
    obtain rfl := Option.some.inj (retried.symm.trans advanced)
    exact ⟨k + 1, move_of_released bound (fun _ => rfl) released⟩
  · rw [if_neg limit, updateProcessing_current phase owned, Option.getD_some] at retried
    obtain rfl := Option.some.inj retried
    refine ⟨k, .requeue rfl (fun _ => rfl) (fun _ => rfl) ⟨rfl, .inl ?_, ?_⟩ fun _ _ => rfl⟩
    · simpa using bound
    · intro item' stored'
      rw [List.getElem?_modify_eq, stored] at stored'
      obtain rfl := Option.some.inj stored'
      exact not_le.mp limit

/-- The item in hand is claimed once more. -/
structure Took (run : Run Task) (k : ℕ) (worker : WorkerID) (run' : Run Task) : Prop where
  bound : k < run.items.length
  items : ∃ set : Item Task → Item Task, run'.items = run.items.modify k set ∧
    ∀ item, (set item).attempts = item.attempts + 1 ∧ (set item).state.unfinished = true
  phase : Phase run' k
  processing : ∃ leaseUntil, run'.state = .processing worker leaseUntil
  owned : ∀ worker' fence, run'.ownedBy worker' fence = true → fence = run'.fence

theorem leaseExpired_iff : run.leaseExpired now = true ↔
    ∃ owner leaseUntil, run.state = .processing owner leaseUntil ∧ leaseUntil ≤ now := by
  unfold leaseExpired
  split
  case h_1 owner leaseUntil state => simp [state]
  case h_2 other =>
    refine iff_of_false Bool.false_ne_true ?_
    rintro ⟨owner, leaseUntil, state, -⟩
    exact other owner leaseUntil state

/-- A run that may be claimed has an item to claim, unless it has no items at all. -/
theorem attempts_of_claimable (phase : Phase run k) (claimable : run.claimable now = true) :
    (k < run.items.length ∨ run.items = []) ∧
      ∀ item, run.items[k]? = some item → item.attempts < run.attempts + retentionAttempts := by
  simp only [Run.claimable, Bool.and_eq_true, Bool.or_eq_true, decide_eq_true_eq] at claimable
  rcases claimable.2 with ⟨state, -⟩ | expired
  · rw [Phase, state] at phase
    obtain ⟨-, bound, limit⟩ := phase
    exact ⟨bound, fun item stored => (limit item stored).trans_le (Nat.le_add_left _ _)⟩
  · obtain ⟨owner, leaseUntil, state, -⟩ := leaseExpired_iff.mp expired
    rw [Phase, state] at phase
    obtain ⟨-, item, stored, -, limit⟩ := phase
    refine ⟨.inl (lt_length_of_getElem stored), fun item' stored' => ?_⟩
    obtain rfl := Option.some.inj (stored.symm.trans stored')
    exact limit

theorem take_cases (shape : Shape run.items k) (phase : Phase run k)
    (claimable : run.claimable now = true)
    (taken : run.take now worker lease = some (run', claimed)) :
    (claimed = .item k ∧ Took run k worker run') ∨ (claimed = .none ∧ Move run k run' k) := by
  obtain ⟨bound, limit⟩ := attempts_of_claimable phase claimable
  have attempts : run.attempts < retentionAttempts := by
    simp only [Run.claimable, Bool.and_eq_true, decide_eq_true_eq] at claimable
    exact claimable.1
  unfold take unfinishedIndex at taken
  rw [shape.findIdx] at taken
  rcases bound with bound | empty
  · rw [if_pos bound] at taken
    obtain ⟨rfl, rfl⟩ := Prod.mk.inj (Option.some.inj taken)
    refine .inl ⟨rfl, bound, ⟨_, rfl, fun item => ⟨rfl, rfl⟩⟩, ⟨attempts, ?_⟩, ⟨_, rfl⟩, ?_⟩
    · have stored := List.getElem?_eq_getElem bound
      refine ⟨_, (List.getElem?_modify_eq _ _ _).trans (congrArg _ stored), rfl, ?_⟩
      have before := limit _ stored
      show _ + 1 < run.attempts + 1 + retentionAttempts
      omega
    · intro worker' fence owned
      obtain ⟨_, -, same⟩ := ownedBy_iff.mp owned
      exact same.symm
  · have ends : k = run.items.length := by
      have bound := shape.bound
      rw [empty, List.length_nil, Nat.le_zero] at bound
      rw [bound, empty, List.length_nil]
    rw [if_neg ends.not_lt] at taken
    obtain ⟨_, finalized, result⟩ := Option.map_eq_some_iff.mp taken
    obtain ⟨rfl, rfl⟩ := Prod.mk.inj result
    have owned : ({ run.seize now worker lease with
        attempts := run.attempts + 1, failure := none } : Run Task).ownedBy worker
          (run.fence + 1) = true := ownedBy_iff.mpr ⟨_, rfl, rfl⟩
    obtain ⟨_, finalized', released⟩ := finalize_released owned ends
    obtain rfl := Option.some.inj (finalized.symm.trans finalized')
    refine .inr ⟨rfl, .keep released.items released.phase fun worker' fence owned => ?_⟩
    rw [released.free] at owned
    cases owned

/-- An exhausted run has an item in hand, which is given up. -/
theorem abandon_cases (shape : Shape run.items k) (phase : Phase run k)
    (exhausted : run.exhausted now = true)
    (abandoned : run.abandon now worker lease = some (run', claimed)) :
    claimed = .abandoned k ∧ Move run k run' (k + 1) := by
  simp only [Run.exhausted, Bool.and_eq_true, Bool.or_eq_true, decide_eq_true_eq] at exhausted
  have bound : k < run.items.length := by
    rcases exhausted.2 with state | expired
    · -- a queued run has not been claimed since its last record
      rw [Phase, state] at phase
      rw [phase.1] at exhausted
      exact absurd exhausted.1 (by decide)
    · obtain ⟨owner, leaseUntil, state, -⟩ := leaseExpired_iff.mp expired
      rw [Phase, state] at phase
      obtain ⟨-, item, stored, -⟩ := phase
      exact lt_length_of_getElem stored
  unfold abandon unfinishedIndex at abandoned
  rw [shape.findIdx, if_pos bound] at abandoned
  obtain ⟨_, advanced, result⟩ := Option.map_eq_some_iff.mp abandoned
  obtain ⟨rfl, rfl⟩ := Prod.mk.inj result
  have owned : (run.seize now worker lease).ownedBy worker (run.fence + 1) = true :=
    ownedBy_iff.mpr ⟨_, rfl, rfl⟩
  have shape : Shape (run.seize now worker lease).items k := shape
  obtain ⟨_, advanced', released⟩ := settle_released now owned shape bound
    fun item : Item Task =>
      show ItemState.unfinished ({ item with
        state := .failed
        attempts := max item.attempts retentionAttempts
        failure := some attemptLimit } : Item Task).state = false from rfl
  obtain rfl := Option.some.inj (advanced.symm.trans advanced')
  exact ⟨rfl, .settle bound released.items (fun _ => rfl) released.phase released.free⟩

theorem claim_cases (shape : Shape run.items k) (phase : Phase run k)
    (claims : run.claim now worker lease = some (run', claimed)) :
    (claimed = .item k ∧ Took run k worker run') ∨
      (claimed = .abandoned k ∧ Move run k run' (k + 1)) ∨
      (claimed = .none ∧ Move run k run' k) := by
  unfold claim at claims
  split at claims
  case isTrue exhausted => exact .inr (.inl (abandon_cases shape phase exhausted claims))
  case isFalse =>
    obtain ⟨claimable, taken⟩ := Option.ite_none_right_eq_some.mp claims
    exact (take_cases shape phase claimable taken).imp_right .inr

theorem finalize_isSome (owned : run.ownedBy worker fence = true) :
    (run.finalize worker fence).isSome = true := by
  rw [finalize, if_pos owned]
  rfl

theorem advance_isSome (owned : run.ownedBy worker fence = true) :
    (run.advance now worker fence).isSome = true := by
  unfold advance
  rw [if_pos owned]
  split
  · rfl
  · exact finalize_isSome owned

/-- **Nothing is stuck**: a run that is not over can be claimed from some time on. -/
theorem claim_isSome (phase : Phase run k) (going : run.state.terminal = false) :
    ∃ time, ∀ now ≥ time, ∀ worker lease, (run.claim now worker lease).isSome = true := by
  have abandons : ∀ now worker lease, (run.abandon now worker lease).isSome = true := by
    intro now worker lease
    unfold abandon
    split
    · rfl
    · rw [Option.isSome_map]
      exact advance_isSome (ownedBy_iff.mpr ⟨_, rfl, rfl⟩)
  have takes : ∀ now worker lease, (run.take now worker lease).isSome = true := by
    intro now worker lease
    unfold take
    split
    · rw [Option.isSome_map]
      exact finalize_isSome (ownedBy_iff.mpr ⟨_, rfl, rfl⟩)
    · rfl
  have claims : ∀ now worker lease,
      (run.exhausted now = true ∨ run.claimable now = true) →
        (run.claim now worker lease).isSome = true := by
    intro now worker lease ready
    unfold claim
    split
    case isTrue => exact abandons now worker lease
    case isFalse fresh =>
      rw [if_pos (ready.resolve_left fresh)]
      exact takes now worker lease
  cases state : run.state with
  | queued =>
    rw [Phase, state] at phase
    refine ⟨run.availableAt, fun now later worker lease => claims now worker lease (.inr ?_)⟩
    simp [claimable, state, phase.1, retentionAttempts, later.le]
  | processing owner leaseUntil =>
    refine ⟨leaseUntil, fun now later worker lease => claims now worker lease ?_⟩
    have expired : run.leaseExpired now = true :=
      leaseExpired_iff.mpr ⟨owner, leaseUntil, state, later⟩
    rcases le_or_gt retentionAttempts run.attempts with limit | room
    · exact .inl (by simp [exhausted, limit, expired])
    · exact .inr (by simp [claimable, room, expired])
  | succeeded => simp [state, RunState.terminal] at going
  | partially => simp [state, RunState.terminal] at going
  | failed => simp [state, RunState.terminal] at going

end Run

/-! ## The invariant -/

namespace Ledger

/-- The items before `k` are settled, and the one in hand has been claimed as often as it
counts. -/
structure Inv (n : ℕ) (l : Ledger Task) (k : ℕ) : Prop where
  length : l.run.items.length = n
  shape : Shape l.run.items k
  phase : Phase l.run k
  held : ∀ fence c, l.claims fence = some c → l.run.ownedBy c.worker fence = true →
    c.index = k ∧ ∃ item, l.run.items[k]? = some item ∧ c.attempts = item.attempts
  limit : ∀ i, l.claimed.count i ≤ 5
  counted : ∀ i, k ≤ i → l.claimed.count i = (l.run.items[i]?.map (·.attempts)).getD 0
  once : ∀ i, l.abandoned.count i ≤ 1
  later : ∀ i, k ≤ i → l.abandoned.count i = 0

variable {n k' : ℕ} {l l' : Ledger Task} {a : Action}

theorem inv_queue (tasks : List Task) (now : Time) : Inv tasks.length (queue tasks now) 0 := by
  have stored : ∀ (i : ℕ) (item : Item Task), (tasks.map Item.queue)[i]? = some item →
      item.state = .queued ∧ item.attempts = 0 := by
    intro i item found
    rw [List.getElem?_map] at found
    obtain ⟨task, -, rfl⟩ := Option.map_eq_some_iff.mp found
    exact ⟨rfl, rfl⟩
  constructor
  · exact List.length_map _
  · refine ⟨Nat.zero_le _, fun i item _ before => absurd before (Nat.not_lt_zero i), ?_, ?_⟩
    · intro item found
      rw [(stored 0 item found).1]
      rfl
    · intro i item found _
      exact stored i item found
  · refine ⟨rfl, ?_, ?_⟩
    · rcases tasks with _ | ⟨task, tasks⟩
      · exact .inr rfl
      · exact .inl (Nat.succ_pos _)
    · intro item found
      rw [(stored 0 item found).2]
      exact Nat.succ_pos 2
  · intro fence c held
    cases held
  · intro i
    exact Nat.zero_le 5
  · intro i _
    show 0 = (((tasks.map Item.queue)[i]?).map (·.attempts)).getD 0
    cases found : (tasks.map Item.queue)[i]? with
    | none => rfl
    | some item => exact (stored i item found).2.symm
  · intro i
    exact Nat.zero_le 1
  · intro i _
    rfl

/-- A step that leaves the counts of claims as they are. -/
theorem Inv.move (inv : Inv n l k) (move : Move l.run k run' k') {claims : ℕ → Option Claim}
    (fewer : ∀ fence c, claims fence = some c → l.claims fence = some c) :
    Inv n { l with run := run', claims } k' := by
  cases move with
  | keep items phase owned =>
    refine ⟨items ▸ inv.length, items ▸ inv.shape, phase, ?_, inv.limit, ?_, inv.once,
      inv.later⟩
    · intro fence c held own
      obtain ⟨index, item, stored, attempts⟩ :=
        inv.held fence c (fewer fence c held) (owned c.worker fence own)
      exact ⟨index, item, items ▸ stored, attempts⟩
    · intro i le
      show _ = (run'.items[i]?.map (·.attempts)).getD 0
      rw [items]
      exact inv.counted i le
  | @requeue set items same unfinished phase free =>
    refine ⟨?_, items ▸ inv.shape.modify unfinished, phase, ?_, inv.limit, ?_, inv.once,
      inv.later⟩
    · show run'.items.length = n
      rw [items, List.length_modify, inv.length]
    · intro fence c _ own
      rw [free] at own
      cases own
    · intro i le
      show _ = (run'.items[i]?.map (·.attempts)).getD 0
      rw [inv.counted i le, items, List.getElem?_modify]
      cases l.run.items[i]? with
      | none => rfl
      | some item =>
        show item.attempts = (if k = i then set item else item).attempts
        split
        · exact (same item).symm
        · rfl
  | @settle set bound items ends phase free =>
    refine ⟨?_, items ▸ inv.shape.settle bound ends, phase, ?_, inv.limit, ?_, inv.once, ?_⟩
    · show run'.items.length = n
      rw [items, List.length_modify, inv.length]
    · intro fence c _ own
      rw [free] at own
      cases own
    · intro i le
      show _ = (run'.items[i]?.map (·.attempts)).getD 0
      rw [inv.counted i ((Nat.le_succ k).trans le), items, List.getElem?_modify_ne _ _
        (Nat.lt_of_succ_le le).ne]
    · intro i le
      exact inv.later i ((Nat.le_succ k).trans le)

/-- The item in hand is claimed once more.  It has been claimed at most four times before,
since the run has been claimed at most twice since the last record. -/
theorem Inv.take (inv : Inv n l k) (took : l.run.Took k worker run') :
    Inv n (l.record worker run' (.item k)) k := by
  obtain ⟨set, items, attempts⟩ := took.items
  obtain ⟨item, stored⟩ : ∃ item, l.run.items[k]? = some item :=
    ⟨_, List.getElem?_eq_getElem took.bound⟩
  have current : run'.items[k]? = some (set item) := by
    rw [items, List.getElem?_modify_eq, stored]
    rfl
  have count : (l.claimed ++ [k]).count k = item.attempts + 1 := by
    have counted := inv.counted k le_rfl
    rw [stored] at counted
    rw [List.count_append, counted, List.count_singleton_self]
    rfl
  have others : ∀ i, i ≠ k → (l.claimed ++ [k]).count i = l.claimed.count i := by
    intro i other
    rw [List.count_append, List.count_singleton, beq_false_of_ne other.symm,
      if_neg Bool.false_ne_true, Nat.add_zero]
  have limit : item.attempts + 1 ≤ 5 := by
    have phase := took.phase
    obtain ⟨leaseUntil, state⟩ := took.processing
    rw [Phase, state] at phase
    obtain ⟨bound, item', stored', -, lt⟩ := phase
    obtain rfl := Option.some.inj (current.symm.trans stored')
    rw [(attempts _).1] at lt
    unfold retentionAttempts at bound lt
    omega
  refine ⟨?_, items ▸ inv.shape.modify fun item => (attempts item).2, took.phase, ?_, ?_, ?_,
    inv.once, inv.later⟩
  · show run'.items.length = n
    rw [items, List.length_modify, inv.length]
  · intro fence c held own
    obtain rfl := took.owned c.worker fence own
    simp only [Ledger.record, Function.update_self, Option.some.injEq] at held
    subst held
    exact ⟨rfl, _, current, by rw [current]; rfl⟩
  · intro i
    show (l.claimed ++ [k]).count i ≤ 5
    by_cases same : i = k
    · rw [same, count]
      exact limit
    · rw [others i same]
      exact inv.limit i
  · intro i le
    show (l.claimed ++ [k]).count i = (run'.items[i]?.map (·.attempts)).getD 0
    by_cases same : i = k
    · rw [same, count, current, Option.map_some, Option.getD_some, (attempts _).1]
    · rw [others i same, inv.counted i le, items, List.getElem?_modify_ne _ _ (Ne.symm same)]

/-- The item in hand is given up. -/
theorem Inv.abandon (inv : Inv n l k) (move : Move l.run k run' (k + 1)) :
    Inv n (l.record worker run' (.abandoned k)) (k + 1) := by
  have moved := inv.move move fun _ _ held => held
  refine { moved with once := fun i => ?_, later := fun i le => ?_ }
  · show (l.abandoned ++ [k]).count i ≤ 1
    rw [List.count_append]
    by_cases same : i = k
    · rw [same, inv.later k le_rfl, List.count_singleton_self]
    · rw [List.count_singleton, beq_false_of_ne (Ne.symm same), if_neg Bool.false_ne_true]
      exact inv.once i
  · show (l.abandoned ++ [k]).count i = 0
    have apart : k ≠ i := (Nat.lt_of_succ_le le).ne
    rw [List.count_append, inv.later i ((Nat.le_succ k).trans le), List.count_singleton,
      beq_false_of_ne apart, if_neg Bool.false_ne_true]

/-- A claim that is let go of can only make the claims fewer. -/
theorem update_fewer {claims : ℕ → Option Claim} (fence : ℕ) :
    ∀ fence' c, Function.update claims fence none fence' = some c → claims fence' = some c := by
  intro fence' c held
  by_cases same : fence' = fence
  · rw [same, Function.update_self] at held
    cases held
  · rwa [Function.update_of_ne same] at held

/-- Nothing but the claim changes. -/
theorem Inv.release (inv : Inv n l k) (fence : ℕ) : Inv n (l.release fence none) k :=
  inv.move (.keep rfl inv.phase fun _ _ owned => owned) (update_fewer fence)

/-- **What one step does**: the items before `k'` are settled when it is over, and of the rows of
items none but that of `k` has changed. -/
theorem Inv.step (inv : Inv n l k) (taken : l.step a = some l') :
    ∃ k', Inv n l' k' ∧ (l'.run = l.run ∨ ∀ i, i ≠ k → l'.run.items[i]? = l.run.items[i]?) := by
  have others : ∀ {run' k'}, Move l.run k run' k' →
      ∀ i, i ≠ k → run'.items[i]? = l.run.items[i]? := by
    rintro run' k' (⟨items, -, -⟩ | ⟨items, -, -, -, -⟩ | ⟨-, items, -, -, -⟩) i other
    · rw [items]
    · rw [items, List.getElem?_modify_ne _ _ (Ne.symm other)]
    · rw [items, List.getElem?_modify_ne _ _ (Ne.symm other)]
  cases a with
  | claim now worker lease =>
    obtain ⟨⟨run', claimed⟩, claims, rfl⟩ := Option.map_eq_some_iff.mp taken
    rcases Run.claim_cases inv.shape inv.phase claims with
      ⟨rfl, took⟩ | ⟨rfl, move⟩ | ⟨rfl, move⟩
    · refine ⟨k, inv.take took, .inr fun i other => ?_⟩
      obtain ⟨set, items, -⟩ := took.items
      show run'.items[i]? = _
      rw [items, List.getElem?_modify_ne _ _ (Ne.symm other)]
    · exact ⟨k + 1, inv.abandon move, .inr (others move)⟩
    · exact ⟨k, inv.move move fun _ _ held => held, .inr (others move)⟩
  | renew now fence lease =>
    obtain ⟨c, -, renewed⟩ := Option.bind_eq_some_iff.mp taken
    obtain ⟨run', granted, rfl⟩ := Option.map_eq_some_iff.mp renewed
    have move := Run.move_renew inv.phase granted
    exact ⟨k, inv.move move fun _ _ held => held, .inr (others move)⟩
  | finish now fence outcome =>
    obtain ⟨c, held, rfl⟩ := Option.map_eq_some_iff.mp taken
    cases finished : l.run.finish now c.worker fence c.index outcome with
    | none => exact ⟨k, inv.release fence, .inl rfl⟩
    | some run' =>
      have active := (Option.ite_none_right_eq_some.mp finished).1
      obtain ⟨index, -⟩ := inv.held fence c held (Run.ownedBy_of_active active)
      rw [index] at finished
      have move := Run.move_finish inv.shape inv.phase finished
      exact ⟨k + 1, inv.move move (update_fewer fence), .inr (others move)⟩
  | retry now fence =>
    obtain ⟨c, held, rfl⟩ := Option.map_eq_some_iff.mp taken
    cases retried : l.run.retry now c.worker fence c.index c.attempts with
    | none => exact ⟨k, inv.release fence, .inl rfl⟩
    | some run' =>
      have active := (Option.ite_none_right_eq_some.mp retried).1
      obtain ⟨index, item, stored, attempts⟩ :=
        inv.held fence c held (Run.ownedBy_of_active active)
      rw [index, attempts] at retried
      obtain ⟨k', move⟩ := Run.move_retry inv.shape inv.phase stored retried
      exact ⟨k', inv.move move (update_fewer fence), .inr (others move)⟩
  | drop fence =>
    obtain ⟨c, -, rfl⟩ := Option.map_eq_some_iff.mp taken
    exact ⟨k, inv.release fence, .inl rfl⟩

/-! ## What a run comes to -/

/-- A run is over just if there is no item left, unless it has no items at all. -/
theorem Inv.terminal_iff (inv : Inv n l k) (items : n ≠ 0) :
    l.run.state.terminal = true ↔ k = n := by
  have phase := inv.phase
  unfold Phase at phase
  cases state : l.run.state with
  | queued =>
    rw [state] at phase
    refine iff_of_false Bool.false_ne_true (Nat.ne_of_lt ?_)
    rcases phase.2.1 with bound | empty
    · exact inv.length ▸ bound
    · exact absurd (by rw [← inv.length, empty, List.length_nil]) items
  | processing owner leaseUntil =>
    rw [state] at phase
    obtain ⟨-, item, stored, -⟩ := phase
    have bound := Run.lt_length_of_getElem stored
    exact iff_of_false Bool.false_ne_true (inv.length ▸ bound).ne
  | succeeded =>
    rw [state] at phase
    exact iff_of_true rfl (phase.1.trans inv.length)
  | partially =>
    rw [state] at phase
    exact iff_of_true rfl (phase.1.trans inv.length)
  | failed =>
    rw [state] at phase
    exact phase.elim

theorem Inv.ends_of_terminal (inv : Inv n l k) (ended : l.run.state.terminal = true) : k = n := by
  rcases Nat.eq_zero_or_pos n with rfl | items
  · exact Nat.le_zero.mp (inv.length ▸ inv.shape.bound)
  · exact (inv.terminal_iff items.ne').mp ended

/-- A run that is over is not claimed any more, and nobody owns it. -/
theorem terminal_step (ended : l.run.state.terminal = true)
    (taken : l.step a = some l') : l'.run = l.run := by
  have free : ∀ worker fence, l.run.ownedBy worker fence = false := by
    intro worker fence
    refine Bool.eq_false_of_not_eq_true fun owned => ?_
    obtain ⟨leaseUntil, state, -⟩ := Run.ownedBy_iff.mp owned
    rw [state] at ended
    cases ended
  have lapsed : ∀ now, l.run.leaseExpired now = false := by
    intro now
    refine Bool.eq_false_of_not_eq_true fun expired => ?_
    obtain ⟨owner, leaseUntil, state, -⟩ := Run.leaseExpired_iff.mp expired
    rw [state] at ended
    cases ended
  have queued : l.run.state ≠ .queued := by
    intro state
    rw [state] at ended
    cases ended
  cases a with
  | claim now worker lease =>
    obtain ⟨result, claims, -⟩ := Option.map_eq_some_iff.mp taken
    simp [Run.claim, Run.exhausted, Run.claimable, lapsed, queued] at claims
  | renew now fence lease =>
    obtain ⟨c, -, renewed⟩ := Option.bind_eq_some_iff.mp taken
    simp [Run.renew, Run.active, free] at renewed
  | finish now fence outcome =>
    obtain ⟨c, -, rfl⟩ := Option.map_eq_some_iff.mp taken
    simp [Ledger.release, Run.finish, Run.active, free]
  | retry now fence =>
    obtain ⟨c, -, rfl⟩ := Option.map_eq_some_iff.mp taken
    simp [Ledger.release, Run.retry, Run.active, free]
  | drop fence =>
    obtain ⟨c, -, rfl⟩ := Option.map_eq_some_iff.mp taken
    rfl

/-- Each item of a list over `0`, …, `n - 1` counted. -/
theorem length_eq_sum_count {indices : List ℕ} (inside : ∀ i, n ≤ i → indices.count i = 0) :
    indices.length = ∑ i ∈ Finset.range n, indices.count i := by
  rw [← List.sum_toFinset_count_eq_length]
  refine Finset.sum_subset ?_ ?_
  · intro i mem
    rw [Finset.mem_range]
    by_contra outside
    exact List.count_eq_zero.mp (inside i (not_lt.mp outside)) (List.mem_toFinset.mp mem)
  · intro i _ absent
    exact List.count_eq_zero.mpr fun mem => absent (List.mem_toFinset.mpr mem)

/-- The bounds on the work at a run of `n` items, and what it comes to. -/
structure Bounded (n : ℕ) (l : Ledger Task) : Prop where
  /-- No item is claimed more than five times, -/
  item : ∀ i, l.claimed.count i ≤ 5
  claims : l.claimed.length ≤ 5 * n
  /-- and none is given up more than once. -/
  settlements : l.abandoned.length ≤ n
  /-- When all these claims have been made, the run is over. -/
  ended : n ≠ 0 → 5 * n + n ≤ l.claimed.length + l.abandoned.length →
    l.run.state.terminal = true
  /-- A run that is not over has an item left, unless it never had any, -/
  unfinished : l.run.state.terminal = false → n ≠ 0 →
    ∃ item ∈ l.run.items, item.state.unfinished = true
  /-- and can be claimed from some time on. -/
  progress : l.run.state.terminal = false →
    ∃ time, ∀ now ≥ time, ∀ worker lease, (l.run.claim now worker lease).isSome = true
  finished : l.run.state.terminal = true → ∀ item ∈ l.run.items, item.state.unfinished = false
  /-- Items are settled in the order of their ordinals. -/
  order : ∀ (i j : ℕ) (item item' : Item Task), i < j → l.run.items[i]? = some item →
    l.run.items[j]? = some item' → item'.state.unfinished = false →
      item.state.unfinished = false
  succeeded : l.run.state = .succeeded ↔ l.run.state.terminal = true ∧
    ∀ item ∈ l.run.items, item.state.failure = false
  partially : l.run.state = .partially ↔ l.run.state.terminal = true ∧
    ∃ item ∈ l.run.items, item.state.failure = true

theorem Inv.claimed_outside (inv : Inv n l k) : ∀ i, n ≤ i → l.claimed.count i = 0 := by
  intro i outside
  have bound : k ≤ i := (inv.length ▸ inv.shape.bound).trans outside
  rw [inv.counted i bound, List.getElem?_eq_none (inv.length.le.trans outside)]
  rfl

theorem Inv.abandoned_outside (inv : Inv n l k) : ∀ i, n ≤ i → l.abandoned.count i = 0 := by
  intro i outside
  exact inv.later i ((inv.length ▸ inv.shape.bound).trans outside)

/-- As long as an item is left, there is a claim left. -/
theorem Inv.claims_lt (inv : Inv n l k) (bound : k < n) :
    l.claimed.length + l.abandoned.length < 5 * n + n := by
  rw [length_eq_sum_count inv.claimed_outside, length_eq_sum_count inv.abandoned_outside,
    ← Finset.sum_add_distrib]
  have each : ∀ i ∈ Finset.range n, l.claimed.count i + l.abandoned.count i ≤ 6 :=
    fun i _ => add_le_add (inv.limit i) (inv.once i)
  have less : l.claimed.count k + l.abandoned.count k < 6 := by
    rw [inv.later k le_rfl]
    exact Nat.lt_succ_of_le (inv.limit k)
  calc ∑ i ∈ Finset.range n, (l.claimed.count i + l.abandoned.count i)
      < ∑ _i ∈ Finset.range n, 6 := Finset.sum_lt_sum each ⟨k, Finset.mem_range.mpr bound, less⟩
    _ = 5 * n + n := by
        rw [Finset.sum_const, Finset.card_range, smul_eq_mul]
        ring

theorem Inv.failures_succeeded (inv : Inv n l k) : l.run.state = .succeeded ↔
    l.run.state.terminal = true ∧ l.run.items.any (·.state.failure) = false := by
  have phase := inv.phase
  unfold Phase at phase
  cases state : l.run.state <;> simp_all [RunState.terminal]

theorem Inv.failures_partially (inv : Inv n l k) : l.run.state = .partially ↔
    l.run.state.terminal = true ∧ l.run.items.any (·.state.failure) = true := by
  have phase := inv.phase
  unfold Phase at phase
  cases state : l.run.state <;> simp_all [RunState.terminal]

theorem Inv.bounded (inv : Inv n l k) : l.Bounded n := by
  have sum_le : ∀ (indices : List ℕ) (c : ℕ), (∀ i, n ≤ i → indices.count i = 0) →
      (∀ i, indices.count i ≤ c) → indices.length ≤ c * n := by
    intro indices c outside each
    rw [length_eq_sum_count outside]
    refine (Finset.sum_le_card_nsmul _ _ c fun i _ => each i).trans ?_
    rw [Finset.card_range, smul_eq_mul, mul_comm]
  have left : ∀ item ∈ l.run.items, ∃ i, l.run.items[i]? = some item ∧ i < n := by
    intro item mem
    obtain ⟨i, stored⟩ := List.getElem?_of_mem mem
    exact ⟨i, stored, inv.length ▸ Run.lt_length_of_getElem stored⟩
  constructor
  · exact inv.limit
  · exact sum_le l.claimed 5 inv.claimed_outside inv.limit
  · simpa using sum_le l.abandoned 1 inv.abandoned_outside inv.once
  · intro items enough
    rw [inv.terminal_iff items]
    refine le_antisymm (inv.length ▸ inv.shape.bound) (not_lt.mp fun bound => ?_)
    exact absurd enough (inv.claims_lt bound).not_ge
  · intro going items
    have bound : k < n := by
      refine lt_of_le_of_ne (inv.length ▸ inv.shape.bound) fun ends => ?_
      rw [(inv.terminal_iff items).mpr ends] at going
      cases going
    have stored := List.getElem?_eq_getElem (inv.length ▸ bound)
    exact ⟨_, List.mem_of_getElem? stored, inv.shape.current _ stored⟩
  · exact Run.claim_isSome inv.phase
  · intro ended item mem
    obtain ⟨i, stored, bound⟩ := left item mem
    exact inv.shape.finished i item stored (inv.ends_of_terminal ended ▸ bound)
  · intro i j item item' before stored stored' finished
    refine Bool.eq_false_of_not_eq_true fun unfinished => ?_
    have le := (inv.shape.unfinished_iff stored).mp unfinished
    rw [(inv.shape.unfinished_iff stored').mpr (le.trans before.le)] at finished
    cases finished
  · rw [inv.failures_succeeded]
    refine and_congr_right fun _ => ?_
    rw [List.any_eq_false]
    exact forall₂_congr fun _ _ => iff_of_eq (Bool.not_eq_true _)
  · rw [inv.failures_partially, List.any_eq_true]

/-- **Every retention run terminates with bounded work.**  However the workers of a run succeed,
fail, crash or lose their leases, no item is claimed more than five times, the items are settled
in the order of their ordinals, and what is terminal stays as it is. -/
theorem retentionRun_terminates (tasks : List Task) (start : Time) (as : List Action)
    (runs : Machine.run step (queue tasks start) as = some l) :
    l.Bounded tasks.length ∧ ∀ bs l', Machine.run step l bs = some l' →
      (∀ (i : ℕ) item, l.run.items[i]? = some item → item.state.unfinished = false →
        l'.run.items[i]? = some item) ∧
      (l.run.state.terminal = true → l'.run = l.run) := by
  have keeps : ∀ (l : Ledger Task) (a : Action) (l' : Ledger Task),
      (∃ k, Inv tasks.length l k) → step l a = some l' → ∃ k, Inv tasks.length l' k := by
    rintro l a l' ⟨k, inv⟩ taken
    obtain ⟨k', inv', -⟩ := inv.step taken
    exact ⟨k', inv'⟩
  obtain ⟨k, inv⟩ := Machine.run_invariant keeps ⟨0, inv_queue tasks start⟩ runs
  refine ⟨inv.bounded, fun bs l' more => ⟨fun i item stored finished => ?_, fun ended => ?_⟩⟩
  · -- a finished item is not the one in hand, and no other row changes
    refine (Machine.run_invariant (P := fun m : Ledger Task =>
      (∃ k, Inv tasks.length m k) ∧ m.run.items[i]? = some item) ?_ ⟨⟨k, inv⟩, stored⟩ more).2
    rintro m a m' ⟨⟨k, inv⟩, stored⟩ taken
    obtain ⟨k', inv', same | others⟩ := inv.step taken
    · exact ⟨⟨k', inv'⟩, same ▸ stored⟩
    · refine ⟨⟨k', inv'⟩, (others i ?_).trans stored⟩
      rintro rfl
      rw [inv.shape.current item stored] at finished
      cases finished
  · refine (Machine.run_invariant (P := fun m : Ledger Task =>
      (∃ k, Inv tasks.length m k) ∧ m.run = l.run) ?_ ⟨⟨k, inv⟩, rfl⟩ more).2
    rintro m a m' ⟨⟨k, inv⟩, same⟩ taken
    exact ⟨keeps m a m' ⟨k, inv⟩ taken, (terminal_step (same ▸ ended) taken).trans same⟩

end Ledger

/-! ### A run of two items -/

namespace Sample

def outcome : Outcome where
  state := .succeeded
  outcome := "archived"
  reasons := []

/-- The first item is claimed five times: its worker crashes, the next one records an error, and
three more crash.  It is given up, and the second item succeeds. -/
def exhausting : List Ledger.Action :=
  [.claim 0 "a" 10, .drop 1, .claim 10 "b" 10, .retry 11 2, .claim 2000000 "a" 10, .drop 3,
    .claim 2000010 "a" 10, .drop 4, .claim 2000020 "a" 10, .drop 5, .claim 2000030 "b" 10,
    .claim 2000031 "b" 10, .renew 2000032 7 10, .finish 2000033 7 outcome]

end Sample

namespace Ledger

theorem retentionRun_terminates_exhausting :
    ∃ l : Ledger String, Machine.run step (queue ["first", "second"] 0) Sample.exhausting =
      some l ∧ l.claimed.count 0 = 5 ∧ l.abandoned = [0] ∧ l.run.state = .partially ∧
        l.Bounded 2 := by
  have result : (Machine.run step (queue ["first", "second"] 0) Sample.exhausting).map
      (fun l => (l.claimed.count 0, l.abandoned, l.run.state)) = some (5, [0], .partially) := by
    decide
  obtain ⟨l, runs, values⟩ := Option.map_eq_some_iff.mp result
  simp only [Prod.mk.injEq] at values
  exact ⟨l, runs, values.1, values.2.1, values.2.2,
    (retentionRun_terminates ["first", "second"] 0 Sample.exhausting runs).1⟩

end Ledger

end Aspm.Retention
