import Mathlib

/-!
# Computations that may fail

The few rules with which a computation in `Except` is taken apart: what its success says about
each of its steps.
-/

namespace Fallible

universe u v w

variable {ε : Type u} {α : Type v} {β : Type v}

/-- Go on if the condition holds. -/
def check (error : ε) (condition : Bool) : Except ε PUnit.{v + 1} :=
  if condition then .ok ⟨⟩ else .error error

@[simp] theorem check_eq_ok {error : ε} {condition : Bool} {u : PUnit} :
    check error condition = .ok u ↔ condition = true := by
  cases condition <;> simp [check]

/-- Go on if there is no failure. -/
def absent : Option ε → Except ε PUnit.{v + 1}
  | none => .ok ⟨⟩
  | some error => .error error

@[simp] theorem absent_eq_ok {failure : Option ε} {u : PUnit} :
    absent failure = .ok u ↔ failure = none := by
  cases failure <;> simp [absent]

/-- Go on with the value, if there is one. -/
def present (error : ε) : Option α → Except ε α
  | some a => .ok a
  | none => .error error

@[simp] theorem present_eq_ok {error : ε} {a? : Option α} {a : α} :
    present error a? = .ok a ↔ a? = some a := by
  cases a? <;> simp [present]

theorem bind_eq_ok {x : Except ε α} {f : α → Except ε β} {b : β} :
    x >>= f = .ok b ↔ ∃ a, x = .ok a ∧ f a = .ok b := by
  cases x with
  | error e => simp [bind, Except.bind]
  | ok a => simp [bind, Except.bind]

theorem map_eq_ok {x : Except ε α} {f : α → β} {b : β} :
    x.map f = .ok b ↔ ∃ a, x = .ok a ∧ f a = b := by
  cases x <;> simp [Except.map]

theorem mapError_eq_ok {x : Except ε α} {f : ε → ε'} {a : α} :
    x.mapError f = .ok a ↔ x = .ok a := by
  cases x <;> simp [Except.mapError]

theorem pure_eq_ok {a b : α} : (pure a : Except ε α) = .ok b ↔ a = b := by
  simp [pure, Except.pure]

/-! ## Loops -/

variable {γ : Type w}

/-- The results for the items, until one fails. -/
def forEach (f : γ → Except ε β) : List γ → Except ε (List β)
  | [] => .ok []
  | a :: rest => do
    let b ← f a
    let bs ← forEach f rest
    pure (b :: bs)

variable {as : List γ}

theorem forEach_eq_ok {f : γ → Except ε β} {bs : List β} :
    forEach f as = .ok bs ↔ List.Forall₂ (fun a b => f a = .ok b) as bs := by
  induction as generalizing bs with
  | nil => simp [forEach, eq_comm]
  | cons a as ih =>
    simp only [forEach, bind_eq_ok, pure_eq_ok, ih, List.forall₂_cons_left_iff]
    constructor
    · rintro ⟨b, here, bs, there, rfl⟩
      exact ⟨b, bs, here, there, rfl⟩
    · rintro ⟨b, bs, here, there, rfl⟩
      exact ⟨b, here, bs, there, rfl⟩

/-- Every round of a loop that succeeds succeeds. -/
theorem foldlM_rounds {σ : Type v} {step : σ → γ → Except ε σ} {s s' : σ}
    (ok : as.foldlM step s = .ok s') {a : γ} (mem : a ∈ as) :
    ∃ before after, step before a = .ok after := by
  induction as generalizing s with
  | nil => cases mem
  | cons b as ih =>
    rw [List.foldlM_cons, bind_eq_ok] at ok
    obtain ⟨next, here, there⟩ := ok
    rcases List.mem_cons.mp mem with rfl | mem
    · exact ⟨s, next, here⟩
    · exact ih there mem

/-- What every round keeps, the loop keeps. -/
theorem foldlM_invariant {σ : Type v} {step : σ → γ → Except ε σ} {I : σ → Prop}
    (keeps : ∀ a ∈ as, ∀ before after, I before → step before a = .ok after → I after) {s s' : σ}
    (start : I s) (ok : as.foldlM step s = .ok s') : I s' := by
  induction as generalizing s with
  | nil =>
    rw [List.foldlM_nil, pure_eq_ok] at ok
    exact ok ▸ start
  | cons a as ih =>
    rw [List.foldlM_cons, bind_eq_ok] at ok
    obtain ⟨next, here, there⟩ := ok
    exact ih (fun b mem => keeps b (List.mem_cons_of_mem _ mem))
      (keeps a List.mem_cons_self s next start here) there

/-- **A loop that appends**: when each round appends one result for each of its entries, so
does the loop for the entries of all rounds. -/
theorem foldlM_append {δ : Type*} {step : List β → γ → Except ε (List β)} {entries : γ → List δ}
    {R : δ → β → Prop} (appends : ∀ found a result, step found a = .ok result →
      ∃ new, result = found ++ new ∧ List.Forall₂ R (entries a) new) {found result : List β}
    (ok : as.foldlM step found = .ok result) :
    ∃ new, result = found ++ new ∧ List.Forall₂ R (as.flatMap entries) new := by
  induction as generalizing found with
  | nil =>
    rw [List.foldlM_nil, pure_eq_ok] at ok
    exact ⟨[], by rw [ok, List.append_nil], .nil⟩
  | cons a as ih =>
    rw [List.foldlM_cons, bind_eq_ok] at ok
    obtain ⟨next, here, there⟩ := ok
    obtain ⟨new, rfl, related⟩ := appends found a next here
    obtain ⟨others, rfl, rest⟩ := ih there
    refine ⟨new ++ others, List.append_assoc _ _ _, ?_⟩
    rw [List.flatMap_cons]
    exact List.rel_append related rest

/-- **A loop over entries of a map** that changes each entry by itself: it succeeds just if
every entry does, each one as it was before the loop. -/
theorem foldlM_update {κ : Type v} [DecidableEq κ] {change : κ → β → Except ε β}
    {ks : List κ} (nodup : ks.Nodup) {s s' : κ → β} :
    ks.foldlM (fun s k => (change k (s k)).map (Function.update s k)) s = .ok s' ↔
      (∀ k ∈ ks, change k (s k) = .ok (s' k)) ∧ ∀ k, k ∉ ks → s' k = s k := by
  induction ks generalizing s with
  | nil =>
    simp only [List.foldlM_nil, pure_eq_ok, List.not_mem_nil, false_imp_iff, implies_true,
      true_and, not_false_iff, forall_const]
    exact ⟨fun same k => same ▸ rfl, fun same => (funext same).symm⟩
  | cons k ks ih =>
    obtain ⟨apart, nodup⟩ := List.nodup_cons.mp nodup
    rw [List.foldlM_cons, bind_eq_ok]
    simp only [ih nodup, map_eq_ok]
    constructor
    · rintro ⟨_, ⟨b, here, rfl⟩, there, others⟩
      have first : s' k = b := by rw [others k apart, Function.update_self]
      refine ⟨?_, ?_⟩
      · intro j mem
        rcases List.mem_cons.mp mem with rfl | mem
        · rw [here, first]
        · have other : j ≠ k := fun same => apart (same ▸ mem)
          rw [← there j mem, Function.update_of_ne other]
      · intro j outside
        rw [List.mem_cons, not_or] at outside
        rw [others j outside.2, Function.update_of_ne outside.1]
    · rintro ⟨inside, others⟩
      refine ⟨_, ⟨s' k, inside k List.mem_cons_self, rfl⟩, ?_, ?_⟩
      · intro j mem
        have other : j ≠ k := fun same => apart (same ▸ mem)
        rw [Function.update_of_ne other]
        exact inside j (List.mem_cons_of_mem _ mem)
      · intro j outside
        by_cases same : j = k
        · rw [same, Function.update_self]
        · rw [Function.update_of_ne same]
          exact others j fun mem => (List.mem_cons.mp mem).elim same outside

end Fallible
