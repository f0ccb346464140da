import Mathlib

/-!
# Machines and their runs

A machine is a step function `step : σ → α → Option σ`: an action either is not
enabled, or leads to the next state.  Interleavings of any number of parties are
lists of actions, so a statement about every interleaving is one about every run.

`Reachable.invariant` turns a property kept by single steps into one of all
reachable states, and `run_invariant` carries a property from any state to the end
of every run that leaves it.
-/

namespace Machine

universe u v

variable {σ : Type u} {α : Type v} (step : σ → α → Option σ)

/-- The state after a list of actions, if all of them are enabled in turn. -/
def run : σ → List α → Option σ
  | s, [] => some s
  | s, a :: as => (step s a).bind fun s' => run s' as

variable {s s' : σ} {a : α} {as : List α}

theorem run_cons_eq_some :
    run step s (a :: as) = some s' ↔ ∃ m, step s a = some m ∧ run step m as = some s' := by
  rw [run, Option.bind_eq_some_iff]

theorem run_append (s : σ) (as bs : List α) :
    run step s (as ++ bs) = (run step s as).bind fun m => run step m bs := by
  induction as generalizing s with
  | nil => rfl
  | cons a as ih => simp only [List.cons_append, run, Option.bind_assoc, ih]

/-- A run whose end was checked. -/
theorem exists_run_of_any {p : σ → Bool} (checked : (run step s as).any p = true) :
    ∃ s', run step s as = some s' ∧ p s' = true := by
  cases runs : run step s as with
  | none =>
    rw [runs] at checked
    cases checked
  | some s' =>
    rw [runs] at checked
    exact ⟨s', rfl, checked⟩

/-- Some run from an initial state leads here. -/
def Reachable (init : σ → Prop) (s : σ) : Prop :=
  ∃ s₀ as, init s₀ ∧ run step s₀ as = some s

variable {step}
variable {P : σ → Prop}

/-- What every step keeps, every run keeps. -/
theorem run_invariant (keeps : ∀ s a s', P s → step s a = some s' → P s') (holds : P s)
    (runs : run step s as = some s') : P s' := by
  induction as generalizing s with
  | nil =>
    obtain rfl := Option.some.inj runs
    exact holds
  | cons a as ih =>
    obtain ⟨m, first, rest⟩ := (run_cons_eq_some step).mp runs
    exact ih (keeps s a m holds first) rest

/-- **The invariant rule.** -/
theorem Reachable.invariant {init : σ → Prop} (start : ∀ s, init s → P s)
    (keeps : ∀ s a s', P s → step s a = some s' → P s') (reachable : Reachable step init s) :
    P s := by
  obtain ⟨s₀, as, first, runs⟩ := reachable
  exact run_invariant keeps (start s₀ first) runs

/-- What a run reaches from a reachable state is reachable. -/
theorem Reachable.run {init : σ → Prop} (reachable : Reachable step init s)
    (runs : Machine.run step s as = some s') : Reachable step init s' := by
  obtain ⟨s₀, before, first, runs₀⟩ := reachable
  exact ⟨s₀, before ++ as, first, by rw [run_append, runs₀, Option.bind_some, runs]⟩

/-! ## Repeating one action -/

variable (step)

/-- The action, repeated, leads from one state to another. -/
def Leads (a : α) (s s' : σ) : Prop := ∃ n, run step s (List.replicate n a) = some s'

variable {step}

theorem Leads.refl (a : α) (s : σ) : Leads step a s s := ⟨0, rfl⟩

theorem Leads.cons {m : σ} (taken : step s a = some m) (rest : Leads step a m s') :
    Leads step a s s' := by
  obtain ⟨n, runs⟩ := rest
  exact ⟨n + 1, (run_cons_eq_some step).mpr ⟨m, taken, runs⟩⟩

theorem Leads.trans {m : σ} (first : Leads step a s m) (rest : Leads step a m s') :
    Leads step a s s' := by
  obtain ⟨k, runs⟩ := first
  obtain ⟨n, runs'⟩ := rest
  refine ⟨k + n, ?_⟩
  rw [List.replicate_add, run_append, runs]
  exact runs'

/-! ## Runs that meet a condition at every step -/

variable (step)

/-- The property holds in every state that the run reaches. -/
def Throughout (P : σ → Prop) : σ → List α → Prop
  | s, [] => P s
  | s, a :: as => P s ∧ ∀ s', step s a = some s' → Throughout P s' as

/-- Every step that the run takes meets the condition. -/
def Always (ok : σ → α → Prop) : σ → List α → Prop
  | _, [] => True
  | s, a :: as => ∀ s', step s a = some s' → ok s a ∧ Always ok s' as

variable {step}

theorem Throughout.start (holds : Throughout step P s as) : P s := by
  cases as with
  | nil => exact holds
  | cons a as => exact holds.1

variable {I : σ → Prop} {ok : σ → α → Prop}

/-- **When a condition is exact.**  If steps that meet the condition keep the property, and
steps that do not meet it break it, then the property holds throughout a run just if every
step of the run meets the condition. -/
theorem throughout_iff_always (keeps : ∀ s a s', I s → step s a = some s' → I s')
    (sufficient : ∀ s a s', I s → P s → ok s a → step s a = some s' → P s')
    (necessary : ∀ s a s', I s → step s a = some s' → P s' → ok s a) (inv : I s) (start : P s)
    (as : List α) : Throughout step P s as ↔ Always step ok s as := by
  induction as generalizing s with
  | nil => exact ⟨fun _ => trivial, fun _ => start⟩
  | cons a as ih =>
    constructor
    · rintro ⟨-, rest⟩ s' taken
      have next := rest s' taken
      have inv' := keeps s a s' inv taken
      exact ⟨necessary s a s' inv taken next.start, (ih inv' next.start).mp next⟩
    · intro always
      refine ⟨start, fun s' taken => ?_⟩
      obtain ⟨met, rest⟩ := always s' taken
      exact (ih (keeps s a s' inv taken) (sufficient s a s' inv start met taken)).mpr rest

/-- Where an invariant holds, a condition on the steps of a run may be traded for another. -/
theorem Always.trade {ok' : σ → α → Prop}
    (keeps : ∀ s a s', I s → ok s a → step s a = some s' → ok' s a ∧ I s') (inv : I s)
    (always : Always step ok s as) : Always step ok' s as := by
  induction as generalizing s with
  | nil => trivial
  | cons a as ih =>
    intro s' taken
    obtain ⟨met, rest⟩ := always s' taken
    obtain ⟨met', inv'⟩ := keeps s a s' inv met taken
    exact ⟨met', ih inv' rest⟩

/-- What the steps that meet a condition keep holds throughout the runs that meet it. -/
theorem Always.throughout (keeps : ∀ s a s', I s → ok s a → step s a = some s' → I s')
    (holds : ∀ s, I s → P s) (inv : I s) (always : Always step ok s as) :
    Throughout step P s as := by
  induction as generalizing s with
  | nil => exact holds s inv
  | cons a as ih =>
    refine ⟨holds s inv, fun s' taken => ?_⟩
    obtain ⟨met, rest⟩ := always s' taken
    exact ih (keeps s a s' inv met taken) rest

/-- What the steps that meet a condition keep holds at the end of a run that meets it. -/
theorem Always.run_invariant (keeps : ∀ s a s', I s → ok s a → step s a = some s' → I s')
    (inv : I s) (always : Always step ok s as) (runs : run step s as = some s') : I s' := by
  induction as generalizing s with
  | nil =>
    obtain rfl := Option.some.inj runs
    exact inv
  | cons a as ih =>
    obtain ⟨m, first, rest⟩ := (run_cons_eq_some step).mp runs
    obtain ⟨met, always⟩ := always m first
    exact ih (keeps s a m inv met first) always rest

/-- The beginning of a run meets the condition. -/
theorem Always.take (as : List α) {bs : List α} (always : Always step ok s (as ++ bs)) :
    Always step ok s as := by
  induction as generalizing s with
  | nil => trivial
  | cons a as ih =>
    intro s' taken
    obtain ⟨met, rest⟩ := always s' taken
    exact ⟨met, ih rest⟩

/-- A step in the middle of a run meets the condition. -/
theorem Always.at {ok : σ → α → Prop} {s m m' : σ} {as : List α} (bs : List α) {a : α}
    (always : Always step ok s (as ++ a :: bs)) (runs : run step s as = some m)
    (taken : step m a = some m') : ok m a := by
  induction as generalizing s with
  | nil =>
    obtain rfl := Option.some.inj runs
    exact (always m' taken).1
  | cons b as ih =>
    obtain ⟨n, first, rest⟩ := (run_cons_eq_some step).mp runs
    exact ih (always n first).2 rest

/-- A condition that the actions of a run meet in every state is met. -/
theorem always_of_mem (met : ∀ a ∈ as, ∀ s, ok s a) (s : σ) : Always step ok s as := by
  induction as generalizing s with
  | nil => trivial
  | cons a as ih =>
    exact fun s' _ => ⟨met a List.mem_cons_self s,
      ih (fun b mem => met b (List.mem_cons_of_mem _ mem)) s'⟩

/-- Every condition on the steps that an invariant implies is met throughout. -/
theorem always_of_inv (keeps : ∀ s a s', I s → step s a = some s' → ok s a ∧ I s') (inv : I s)
    (as : List α) : Always step ok s as := by
  induction as generalizing s with
  | nil => trivial
  | cons a as ih =>
    intro s' taken
    obtain ⟨met, inv'⟩ := keeps s a s' inv taken
    exact ⟨met, ih inv'⟩

variable (step)

/-- `Always` for a decidable condition, by running the machine. -/
def checkAlways (ok : σ → α → Bool) : σ → List α → Bool
  | _, [] => true
  | s, a :: as => (step s a).all fun s' => ok s a && checkAlways ok s' as

variable {step}

theorem always_of_checkAlways {ok : σ → α → Bool} (checked : checkAlways step ok s as = true) :
    Always step (fun s a => ok s a = true) s as := by
  induction as generalizing s with
  | nil => trivial
  | cons a as ih =>
    intro s' taken
    rw [checkAlways, taken, Option.all_some, Bool.and_eq_true] at checked
    exact ⟨checked.1, ih checked.2⟩

end Machine
