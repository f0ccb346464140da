import Aspm.Lib.Nullable

/-!
# Queries

`SELECT` over tables that are lists of rows: conditions are three-valued, a row is selected when
its condition is true, and a left join keeps a row that has no match.
-/

namespace Query

open Nullable (Truth)

universe u v w

variable {α : Type u} {β : Type v} {κ : Type w}

/-- A condition on columns that are not null. -/
def test (p : Prop) [Decidable p] : Truth := .ofBool (decide p)

@[simp] theorem holds_test (p : Prop) [Decidable p] : (test p).holds = decide p :=
  Truth.holds_ofBool _

/-- `WHERE condition`. -/
def restrict (condition : α → Truth) (rows : List α) : List α :=
  rows.filter fun r => (condition r).holds

/-- `NOT EXISTS (SELECT … WHERE condition)`, which is never null. -/
def noRow (condition : α → Truth) (rows : List α) : Truth :=
  .ofBool (!rows.any fun r => (condition r).holds)

/-- `a = b`, null as soon as one side is. -/
def eq [DecidableEq κ] : Option κ → Option κ → Truth
  | some x, some y => .ofBool (x = y)
  | _, _ => .unknown

/-- `JOIN r ON on`. -/
def join (on : α → β → Truth) (l : List α) (r : List β) : List (α × β) :=
  l.flatMap fun a => (restrict (on a) r).map (a, ·)

/-- The matches of one row in a left join. -/
def matched : List β → List (Option β)
  | [] => [none]
  | bs => bs.map some

/-- `LEFT JOIN LATERAL`, the matches of every row being given. -/
def leftLateral (lateral : α → List β) (l : List α) : List (α × Option β) :=
  l.flatMap fun a => (matched (lateral a)).map (a, ·)

/-- `LEFT JOIN r ON on`. -/
def leftJoin (on : α → β → Truth) (l : List α) (r : List β) : List (α × Option β) :=
  leftLateral (fun a => restrict (on a) r) l

/-- `ORDER BY key`. -/
def orderBy [LinearOrder κ] (key : α → κ) (rows : List α) : List α :=
  rows.mergeSort fun a b => decide (key a ≤ key b)

/-! ## Rows -/

theorem mem_restrict {p : α → Truth} {rows : List α} {r : α} :
    r ∈ restrict p rows ↔ r ∈ rows ∧ (p r).holds = true :=
  List.mem_filter

/-! ## Distinct keys -/

/-- No two rows have one key. -/
def Unique (key : α → κ) (rows : List α) : Prop := (rows.map key).Nodup

/-- A row is known by its key. -/
theorem Unique.eq_of_key {key : α → κ} {rows : List α} (unique : Unique key rows) {a b : α}
    (left : a ∈ rows) (right : b ∈ rows) (same : key a = key b) : a = b :=
  List.inj_on_of_nodup_map unique left right same

theorem mem_join {on : α → β → Truth} {l : List α} {r : List β} {row : α × β} :
    row ∈ join on l r ↔ row.1 ∈ l ∧ row.2 ∈ r ∧ (on row.1 row.2).holds = true := by
  obtain ⟨a, b⟩ := row
  simp [join, mem_restrict]

/-- A left join adds no rows of the left table. -/
theorem fst_mem_of_leftLateral {lateral : α → List β} {l : List α} {row : α × Option β}
    (mem : row ∈ leftLateral lateral l) : row.1 ∈ l := by
  obtain ⟨a, among, paired⟩ := List.mem_flatMap.mp mem
  obtain ⟨b, -, rfl⟩ := List.mem_map.mp paired
  exact among

/-- A left join loses no rows of the left table. -/
theorem exists_mem_leftLateral (lateral : α → List β) {l : List α} {a : α} (mem : a ∈ l) :
    ∃ b, (a, b) ∈ leftLateral lateral l := by
  cases found : lateral a with
  | nil =>
    refine ⟨none, List.mem_flatMap.mpr ⟨a, mem, ?_⟩⟩
    rw [found]
    exact List.mem_singleton_self _
  | cons b rest =>
    refine ⟨some b, List.mem_flatMap.mpr ⟨a, mem, ?_⟩⟩
    rw [found]
    exact List.mem_cons_self

end Query
