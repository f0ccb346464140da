import Mathlib

/-!
# Nullable columns and three-valued conditions

A nullable column is an `Option`.  A comparison with a null operand is neither
true nor false, and a `WHERE` or `CASE WHEN` condition takes its branch only
when it *is* true.  `Truth` is the three-valued result of a condition and
`Truth.holds` is the reading a condition gets at the end.

Conditions built from `AND` and `OR` alone read compositionally
(`holds_and`, `holds_or`), so the model can write each condition with the
operators of its SQL text while the proofs see ordinary propositions.

`greatest` is the maximum that ignores nulls, and `greatestOf` folds it over a
list; `greatestOf_eq_some_iff` says that the fold is the maximum of the values
that are there.  `Reaches` is the order in which a column only advances: it may be set
and it may grow, but it is never lost.
-/

namespace Nullable

universe u

/-- The value of an SQL condition. -/
inductive Truth where
  | true
  | false
  | unknown
deriving DecidableEq

namespace Truth

/-- A condition that cannot be null. -/
def ofBool : Bool → Truth
  | .true => .true
  | .false => .false

/-- SQL `AND`: one false operand decides. -/
def and : Truth → Truth → Truth
  | .false, _ => .false
  | _, .false => .false
  | .true, .true => .true
  | _, _ => .unknown

/-- SQL `OR`: one true operand decides. -/
def or : Truth → Truth → Truth
  | .true, _ => .true
  | _, .true => .true
  | .false, .false => .false
  | _, _ => .unknown

/-- A branch is taken only when its condition is true; `unknown` does not take it. -/
def holds : Truth → Bool
  | .true => Bool.true
  | _ => Bool.false

@[simp] theorem holds_ofBool (b : Bool) : (ofBool b).holds = b := by
  cases b <;> rfl

@[simp] theorem holds_and (a b : Truth) : (a.and b).holds = (a.holds && b.holds) := by
  cases a <;> cases b <;> rfl

@[simp] theorem holds_or (a b : Truth) : (a.or b).holds = (a.holds || b.holds) := by
  cases a <;> cases b <;> rfl

end Truth

section Comparison

variable {α : Type u}

/-- `a IS NULL`. -/
def isNull (a : Option α) : Truth := Truth.ofBool a.isNone

/-- `a IS NOT NULL`. -/
def isNotNull (a : Option α) : Truth := Truth.ofBool a.isSome

@[simp] theorem holds_isNull (a : Option α) : (isNull a).holds = a.isNone :=
  Truth.holds_ofBool _

@[simp] theorem holds_isNotNull (a : Option α) : (isNotNull a).holds = a.isSome :=
  Truth.holds_ofBool _

variable [LinearOrder α]

/-- `a < b`, null as soon as one side is. -/
def lt : Option α → Option α → Truth
  | some x, some y => Truth.ofBool (decide (x < y))
  | _, _ => Truth.unknown

/-- `a <= b`, null as soon as one side is. -/
def le : Option α → Option α → Truth
  | some x, some y => Truth.ofBool (decide (x ≤ y))
  | _, _ => Truth.unknown

@[simp] theorem holds_lt_some (x y : α) : (lt (some x) (some y)).holds = decide (x < y) :=
  Truth.holds_ofBool _

@[simp] theorem holds_le_some (x y : α) : (le (some x) (some y)).holds = decide (x ≤ y) :=
  Truth.holds_ofBool _

@[simp] theorem holds_lt_none_left (b : Option α) : (lt none b).holds = false := rfl

@[simp] theorem holds_lt_none_right (a : Option α) : (lt a none).holds = false := by
  cases a <;> rfl

@[simp] theorem holds_le_none_left (b : Option α) : (le none b).holds = false := rfl

@[simp] theorem holds_le_none_right (a : Option α) : (le a none).holds = false := by
  cases a <;> rfl

/-! ## Greatest values -/

/-- The greater of two values, a null operand being ignored. -/
def greatest : Option α → Option α → Option α
  | none, b => b
  | a, none => a
  | some x, some y => some (max x y)

@[simp] theorem greatest_none_left (b : Option α) : greatest none b = b := by
  cases b <;> rfl

@[simp] theorem greatest_none_right (a : Option α) : greatest a none = a := by
  cases a <;> rfl

@[simp] theorem greatest_some (x y : α) : greatest (some x) (some y) = some (max x y) := rfl

@[simp] theorem greatest_greatest_self (a b : Option α) :
    greatest (greatest a b) b = greatest a b := by
  cases a <;> cases b <;> simp

variable {m : α}

theorem greatest_le {a b : Option α} (ha : ∀ x ∈ a, x ≤ m) (hb : ∀ x ∈ b, x ≤ m) :
    ∀ x ∈ greatest a b, x ≤ m := by
  cases a <;> cases b <;> simp_all

theorem greatest_eq_none_iff {a b : Option α} : greatest a b = none ↔ a = none ∧ b = none := by
  cases a <;> cases b <;> simp

theorem le_of_greatest_le {a b : Option α} (h : ∀ x ∈ greatest a b, x ≤ m) : ∀ x ∈ a, x ≤ m := by
  cases a <;> cases b <;> simp_all

/-- The greatest value of a list of columns, null when all are. -/
def greatestOf (l : List (Option α)) : Option α := l.foldl greatest none

@[simp] theorem greatestOf_nil : greatestOf ([] : List (Option α)) = none := rfl

theorem greatestOf_concat (l : List (Option α)) (a : Option α) :
    greatestOf (l ++ [a]) = greatest (greatestOf l) a := by
  simp only [greatestOf, List.foldl_append, List.foldl_cons, List.foldl_nil]

variable {l : List (Option α)}

theorem le_greatestOf {x : α} (mem : some x ∈ l) : ∃ m, greatestOf l = some m ∧ x ≤ m := by
  induction l using List.reverseRecOn with
  | nil => cases mem
  | append_singleton l a ih =>
    rw [greatestOf_concat]
    rcases List.mem_append.mp mem with old | new
    · obtain ⟨m, hm, hle⟩ := ih old
      rw [hm]
      cases a with
      | none => exact ⟨m, rfl, hle⟩
      | some y => exact ⟨max m y, rfl, le_max_of_le_left hle⟩
    · rw [← List.mem_singleton.mp new]
      cases greatestOf l with
      | none => exact ⟨x, rfl, le_rfl⟩
      | some m => exact ⟨max m x, rfl, le_max_right m x⟩

theorem greatestOf_mem (h : greatestOf l = some m) : some m ∈ l := by
  induction l using List.reverseRecOn generalizing m with
  | nil => cases h
  | append_singleton l a ih =>
    rw [greatestOf_concat] at h
    rw [List.mem_append, List.mem_singleton]
    cases a with
    | none =>
      rw [greatest_none_right] at h
      exact .inl (ih h)
    | some y =>
      cases hl : greatestOf l with
      | none =>
        rw [hl, greatest_none_left] at h
        exact .inr h.symm
      | some x =>
        rw [hl, greatest_some] at h
        rcases max_choice x y with left | right
        · exact .inl (ih (by rw [hl, ← h, left]))
        · exact .inr (by rw [← h, right])

/-- **`greatestOf` is the maximum** of the values that are not null. -/
theorem greatestOf_eq_some_iff : greatestOf l = some m ↔ IsGreatest {x | some x ∈ l} m := by
  constructor
  · intro h
    refine ⟨greatestOf_mem h, fun x mem => ?_⟩
    obtain ⟨m', hm', hle⟩ := le_greatestOf mem
    rw [h, Option.some.injEq] at hm'
    exact hm' ▸ hle
  · rintro ⟨mem, bound⟩
    obtain ⟨m', hm', hle⟩ := le_greatestOf mem
    rw [hm', le_antisymm (bound (greatestOf_mem hm')) hle]

end Comparison

/-- A value that is present stays present and does not decrease. -/
def Reaches {α : Type*} [LE α] (a b : Option α) : Prop := ∀ x ∈ a, ∃ y ∈ b, x ≤ y

theorem Reaches.refl {α : Type*} [Preorder α] (a : Option α) : Reaches a a :=
  fun x mem => ⟨x, mem, le_rfl⟩

theorem Reaches.trans {α : Type*} [Preorder α] {a b c : Option α} (ab : Reaches a b)
    (bc : Reaches b c) : Reaches a c := by
  intro x mem
  obtain ⟨y, mem, xy⟩ := ab x mem
  obtain ⟨z, mem, yz⟩ := bc y mem
  exact ⟨z, mem, xy.trans yz⟩

theorem reaches_greatest {α : Type*} [LinearOrder α] (a b : Option α) :
    Reaches a (greatest a b) := by
  rintro x ⟨rfl⟩
  cases b with
  | none => exact ⟨x, by simp, le_rfl⟩
  | some y => exact ⟨max x y, by simp, le_max_left x y⟩

theorem reaches_some {α : Type*} [LE α] {a : Option α} {y : α} (bound : ∀ x ∈ a, x ≤ y) :
    Reaches a (some y) :=
  fun x mem => ⟨y, rfl, bound x mem⟩

end Nullable
