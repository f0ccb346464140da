import Mathlib

/-!
# Histories

A history is a list with the newest entry first.  `Everywhere P` says of each entry that it
stood in the relation `P` to the history before it.  A step that adds an entry has to show `P`
for this entry only.
-/

namespace History

universe u

variable {α : Type u} {P : α → List α → Prop}

/-- Each entry is related to the entries before it. -/
def Everywhere (P : α → List α → Prop) (log : List α) : Prop :=
  ∀ newer e older, log = newer ++ e :: older → P e older

theorem everywhere_nil : Everywhere P [] := by
  intro newer e older split
  simp at split

theorem everywhere_cons {e : α} {log : List α} :
    Everywhere P (e :: log) ↔ P e log ∧ Everywhere P log := by
  constructor
  · intro all
    refine ⟨all [] e log rfl, fun newer f older split => all (e :: newer) f older ?_⟩
    rw [split, List.cons_append]
  · rintro ⟨head, tail⟩ newer f older split
    cases newer with
    | nil =>
      cases split
      exact head
    | cons g newer =>
      cases split
      exact tail newer f older rfl

end History
