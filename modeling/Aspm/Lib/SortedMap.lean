import Mathlib

/-!
# Maps as sorted lists

A finite map with ordered keys is the list of its entries, in strictly increasing order of
the keys.  Two such lists with the same entries are equal (`ext`), so a statement about maps
may be made about lists, and proved key by key through `get`.
-/

namespace SortedMap

universe u v

variable {κ : Type u} {α : Type v} [LinearOrder κ]

def get (k : κ) : List (κ × α) → Option α
  | [] => none
  | (k', v) :: rest => if k = k' then some v else get k rest

def put (k : κ) (v : α) : List (κ × α) → List (κ × α)
  | [] => [(k, v)]
  | (k', v') :: rest =>
    if k < k' then (k, v) :: (k', v') :: rest
    else if k = k' then (k, v) :: rest
    else (k', v') :: put k v rest

def remove (k : κ) (m : List (κ × α)) : List (κ × α) := m.filter fun entry => entry.1 ≠ k

/-- The keys are removed one after the other. -/
def removeAll (ks : List κ) (m : List (κ × α)) : List (κ × α) :=
  ks.foldl (fun m k => remove k m) m

/-- The keys increase strictly. -/
def Sorted (m : List (κ × α)) : Prop := m.Pairwise fun a b => a.1 < b.1

variable {m : List (κ × α)}

theorem sorted_cons {entry : κ × α} :
    Sorted (entry :: m) ↔ (∀ other ∈ m, entry.1 < other.1) ∧ Sorted m :=
  List.pairwise_cons

/-! ## Lookups -/

@[simp] theorem get_nil (k : κ) : get k ([] : List (κ × α)) = none := rfl

theorem get_cons (k : κ) (entry : κ × α) (m : List (κ × α)) :
    get k (entry :: m) = if k = entry.1 then some entry.2 else get k m := rfl

variable {k : κ} {v : α}

theorem mem_of_get (found : get k m = some v) : (k, v) ∈ m := by
  induction m with
  | nil => cases found
  | cons entry m ih =>
    rw [get_cons] at found
    split_ifs at found with same
    · obtain rfl := Option.some.inj found
      rw [same]
      exact List.mem_cons_self
    · exact List.mem_cons_of_mem _ (ih found)

theorem get_eq_none : get k m = none ↔ ∀ entry ∈ m, entry.1 ≠ k := by
  induction m with
  | nil => simp
  | cons entry m ih =>
    rw [get_cons]
    split_ifs with same
    · simp [same]
    · simp [ih, Ne.symm same]

/-- Under a sorted list, an entry is what its key is looked up to. -/
theorem get_of_mem (sorted : Sorted m) (mem : (k, v) ∈ m) : get k m = some v := by
  induction m with
  | nil => cases mem
  | cons entry m ih =>
    obtain ⟨below, sorted⟩ := sorted_cons.mp sorted
    rw [get_cons]
    rcases List.mem_cons.mp mem with rfl | later
    · rw [if_pos rfl]
    · rw [if_neg (below _ later).ne', ih sorted later]

theorem get_put (k k' : κ) (v : α) (m : List (κ × α)) :
    get k (put k' v m) = if k = k' then some v else get k m := by
  induction m with
  | nil => rfl
  | cons entry m ih =>
    simp only [put]
    by_cases before : k' < entry.1
    · rw [if_pos before, get_cons]
    · rw [if_neg before]
      by_cases same : k' = entry.1
      · rw [if_pos same, get_cons, get_cons, same]
        split_ifs <;> rfl
      · rw [if_neg same, get_cons, get_cons, ih]
        split_ifs with own at_
        · exact absurd (at_.symm.trans own) same
        · rfl
        · rfl
        · rfl

theorem get_remove (k k' : κ) (m : List (κ × α)) :
    get k (remove k' m) = if k = k' then none else get k m := by
  induction m with
  | nil => simp [remove]
  | cons entry m ih =>
    unfold remove at ih ⊢
    by_cases dropped : entry.1 = k'
    · rw [List.filter_cons_of_neg (by simpa using dropped), ih, get_cons]
      split_ifs with at_ own
      · rfl
      · exact absurd (own.trans dropped) at_
      · rfl
    · rw [List.filter_cons_of_pos (by simpa using dropped), get_cons, ih, get_cons]
      split_ifs with own at_
      · exact absurd (own.symm.trans at_) dropped
      · rfl
      · rfl
      · rfl

theorem get_removeAll (k : κ) (ks : List κ) (m : List (κ × α)) :
    get k (removeAll ks m) = if k ∈ ks then none else get k m := by
  induction ks generalizing m with
  | nil => rfl
  | cons k' ks ih =>
    rw [removeAll, List.foldl_cons, ← removeAll, ih, get_remove]
    by_cases first : k = k'
    · simp [first]
    · simp [first]

/-! ## Order -/

theorem mem_of_mem_removeAll {ks : List κ} {entry : κ × α} (mem : entry ∈ removeAll ks m) :
    entry ∈ m := by
  induction ks generalizing m with
  | nil => exact mem
  | cons k ks ih => exact List.mem_of_mem_filter (ih mem)

theorem mem_put {entry : κ × α} (mem : entry ∈ put k v m) : entry = (k, v) ∨ entry ∈ m := by
  induction m with
  | nil => exact .inl (List.mem_singleton.mp mem)
  | cons head m ih =>
    simp only [put] at mem
    split_ifs at mem with before same
    · exact (List.mem_cons.mp mem).imp_right id
    · exact (List.mem_cons.mp mem).imp_right (List.mem_cons_of_mem _)
    · rcases List.mem_cons.mp mem with rfl | later
      · exact .inr List.mem_cons_self
      · exact (ih later).imp_right (List.mem_cons_of_mem _)

/-- A key after all others goes to the end. -/
theorem put_of_lt (after : ∀ entry ∈ m, entry.1 < k) : put k v m = m ++ [(k, v)] := by
  induction m with
  | nil => rfl
  | cons entry m ih =>
    have first := after entry List.mem_cons_self
    rw [put, if_neg first.not_gt, if_neg first.ne']
    exact congrArg (entry :: ·) (ih fun other mem => after other (List.mem_cons_of_mem entry mem))

theorem sorted_put (sorted : Sorted m) (k : κ) (v : α) : Sorted (put k v m) := by
  induction m with
  | nil => exact List.pairwise_singleton _ _
  | cons head m ih =>
    obtain ⟨below, rest⟩ := sorted_cons.mp sorted
    simp only [put]
    split_ifs with before same
    · refine sorted_cons.mpr ⟨fun other mem => ?_, sorted⟩
      rcases List.mem_cons.mp mem with rfl | later
      · exact before
      · exact before.trans (below other later)
    · exact sorted_cons.mpr ⟨fun other mem => same ▸ below other mem, rest⟩
    · refine sorted_cons.mpr ⟨fun other mem => ?_, ih rest⟩
      rcases mem_put mem with rfl | later
      · exact lt_of_le_of_ne (not_lt.mp before) (Ne.symm same)
      · exact below other later

theorem sorted_remove (sorted : Sorted m) (k : κ) : Sorted (remove k m) :=
  List.Pairwise.filter _ sorted

theorem sorted_removeAll (sorted : Sorted m) (ks : List κ) : Sorted (removeAll ks m) := by
  induction ks generalizing m with
  | nil => exact sorted
  | cons k ks ih => exact ih (sorted_remove sorted k)

/-- **Extensionality.** -/
theorem ext {m' : List (κ × α)} (sorted : Sorted m) (sorted' : Sorted m')
    (same : ∀ k, get k m = get k m') : m = m' := by
  have antisymm : ∀ a b : κ × α, a.1 < b.1 → b.1 < a.1 → a = b :=
    fun a b ab ba => absurd (ab.trans ba) (lt_irrefl _)
  have nodup : ∀ {l : List (κ × α)}, Sorted l → l.Nodup :=
    fun sorted => sorted.imp fun ab same => absurd (same ▸ ab) (lt_irrefl _)
  refine List.Perm.eq_of_pairwise (fun a b _ _ => antisymm a b) sorted sorted' ?_
  refine (List.perm_ext_iff_of_nodup (nodup sorted) (nodup sorted')).mpr fun entry => ?_
  constructor
  · exact fun mem => mem_of_get ((same entry.1).symm.trans (get_of_mem sorted mem))
  · exact fun mem => mem_of_get ((same entry.1).trans (get_of_mem sorted' mem))

end SortedMap
