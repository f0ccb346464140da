import Mathlib

/-!
# Programs that may return early

A program over a state that ends with a value or returns from the middle, and the rules for
triples: `Triple pre x post early` says that, from a state with `pre`, the program `x` ends with a
value and a state that satisfy `post`, or returns early with something that satisfies `early`.
-/

namespace EarlyReturn

universe u

variable {ε σ α β : Type u}

abbrev Program (ε σ α : Type u) := StateT σ (Except ε) α

/-- Return, with something that may depend on the state. -/
def leave (f : σ → ε) : Program ε σ α := fun s => .error (f s)

def read (f : σ → α) : Program ε σ α := fun s => .ok (f s, s)

def update (f : σ → σ) : Program ε σ PUnit := fun s => .ok (⟨⟩, f s)

def Triple (pre : σ → Prop) (x : Program ε σ α) (post : α → σ → Prop) (early : ε → Prop) : Prop :=
  ∀ s, pre s → (∀ a s', x s = .ok (a, s') → post a s') ∧ ∀ e, x s = .error e → early e

variable {pre pre' : σ → Prop} {post post' : α → σ → Prop} {early early' : ε → Prop}
  {x : Program ε σ α}

namespace Triple

theorem pure {a : α} (holds : ∀ s, pre s → post a s) :
    Triple pre (Pure.pure a : Program ε σ α) post early := by
  intro s start
  refine ⟨fun b s' ended => ?_, nofun⟩
  obtain ⟨rfl, rfl⟩ := Prod.mk.inj (Except.ok.inj ended)
  exact holds s start

theorem bind {mid : α → σ → Prop} {f : α → Program ε σ β} {post : β → σ → Prop}
    (first : Triple pre x mid early) (second : ∀ a, Triple (mid a) (f a) post early) :
    Triple pre (x >>= f) post early := by
  intro s start
  obtain ⟨ends, returns⟩ := first s start
  change (∀ b s', (x s >>= fun p => f p.1 p.2) = .ok (b, s') → _) ∧
    ∀ e, (x s >>= fun p => f p.1 p.2) = .error e → _
  cases shape : x s with
  | error e =>
    refine ⟨nofun, fun e' returned => ?_⟩
    obtain rfl : e = e' := Except.error.inj returned
    exact returns e shape
  | ok p =>
    obtain ⟨a, s'⟩ := p
    exact second a s' (ends a s' shape)

theorem weaken (triple : Triple pre x post early) (before : ∀ s, pre' s → pre s)
    (after : ∀ a s, post a s → post' a s) : Triple pre' x post' early := by
  intro s start
  obtain ⟨ends, returns⟩ := triple s (before s start)
  exact ⟨fun a s' ended => after a s' (ends a s' ended), returns⟩

theorem of_pre (triple : Triple pre x post early) (before : ∀ s, pre' s → pre s) :
    Triple pre' x post early := triple.weaken before fun _ _ => id

/-- What is true of some value before. -/
theorem exists_pre {γ : Sort*} {pre : γ → σ → Prop} (each : ∀ c, Triple (pre c) x post early) :
    Triple (fun s => ∃ c, pre c s) x post early := fun s ⟨c, start⟩ => each c s start

/-- A fact that does not depend on the state. -/
theorem and_pre {fact : Prop} (given : fact → Triple pre x post early) :
    Triple (fun s => fact ∧ pre s) x post early := fun s ⟨holds, start⟩ => given holds s start

theorem leave {f : σ → ε} (holds : ∀ s, pre s → early (f s)) :
    Triple pre (EarlyReturn.leave f : Program ε σ α) post early := by
  intro s start
  refine ⟨nofun, fun e returned => ?_⟩
  obtain rfl := Except.error.inj returned
  exact holds s start

theorem read {f : σ → α} (holds : ∀ s, pre s → post (f s) s) :
    Triple pre (EarlyReturn.read f : Program ε σ α) post early := by
  intro s start
  refine ⟨fun a s' ended => ?_, nofun⟩
  obtain ⟨rfl, rfl⟩ := Prod.mk.inj (Except.ok.inj ended)
  exact holds s start

theorem update {f : σ → σ} {post : PUnit → σ → Prop} (holds : ∀ s, pre s → post ⟨⟩ (f s)) :
    Triple pre (EarlyReturn.update f : Program ε σ PUnit) post early := by
  intro s start
  refine ⟨fun a s' ended => ?_, nofun⟩
  obtain ⟨rfl, rfl⟩ := Prod.mk.inj (Except.ok.inj ended)
  exact holds s start

theorem ite {c : Prop} [Decidable c] {y : Program ε σ α}
    (positive : c → Triple pre x post early) (negative : ¬ c → Triple pre y post early) :
    Triple pre (if c then x else y) post early := by
  split
  · next holds => exact positive holds
  · next fails => exact negative fails

end Triple

end EarlyReturn
