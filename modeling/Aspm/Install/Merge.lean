import Aspm.Lib.JsonDatum

/-!
# Merging a configuration into defaults

`merge` of the installer: the supplied object is written into the defaults key by key, and
into nested objects recursively.  An object that names another kind replaces the default, and
an external service drops the fields of a managed one first.

`merge` is keyed: what becomes of a key depends on the two values under it alone
(`get_mergeFields`).  A value that was merged into a default is absorbed by that default
(`mergeValue_absorbed`), and so is a whole object (`mergeFields_twice`).

A comparison of two interface values that are both objects or both arrays does not return.
The only comparison of this kind is the one of two values under `kind`; `scalarKinds` says
of the defaults that it cannot happen.
-/

namespace Aspm.Resolve

open Json SortedMap

section Merge

variable {ν : Type} [DecidableEq ν]

/-- `a != b` for two interface values; no result if the comparison panics. -/
def differs : Datum ν → Datum ν → Option Bool
  | .object _, .object _ => none
  | .array _, .array _ => none
  | a, b => some (a ≠ b)

def kindKey : Text := "kind".toList

def modeKey : Text := "mode".toList

/-- The fields of a managed service that an external one does not have. -/
def managedFields : List Text := ["volumeName".toList, "image".toList, "seaweedfs".toList]

/-- The object takes the place of the default altogether: it names a kind, and another one. -/
def replaces (object existing : Fields ν) : Option Bool :=
  match get kindKey object with
  | none => some false
  | some kind => differs ((get kindKey existing).getD .null) kind

def isExternal (object : Fields ν) : Bool :=
  get modeKey object = some (.string "external".toList)

/-- What is left of a default when the object says that the service is external. -/
def keptDefaults (object existing : Fields ν) : Fields ν :=
  if isExternal object then removeAll managedFields existing else existing

mutual

/-- What `merge` stores under a key, from the supplied value and the one that is there. -/
def mergeValue : Datum ν → Option (Datum ν) → Option (Datum ν)
  | .object object, some (.object existing) =>
    match replaces object existing with
    | none => none
    | some true => some (.object object)
    | some false => (mergeFields object (keptDefaults object existing)).map .object
  | value, _ => some value

/-- `merge(base, supplied)`, with the supplied object first. -/
def mergeFields : Fields ν → Fields ν → Option (Fields ν)
  | [], base => some base
  | (key, value) :: rest, base =>
    (mergeValue value (get key base)).bind fun merged => mergeFields rest (put key merged base)

end

/-! ### Key by key -/

theorem mergeValue_none (v : Datum ν) : mergeValue v none = some v := by
  cases v <;> rfl

variable {supplied base merged : Fields ν}

/-- A merge leaves under each key what `mergeValue` makes of the two values there. -/
theorem get_mergeFields (sorted : Sorted supplied)
    (merges : mergeFields supplied base = some merged) (k : Text) :
    match get k supplied with
    | none => get k merged = get k base
    | some v => ∃ w, mergeValue v (get k base) = some w ∧ get k merged = some w := by
  induction supplied generalizing base with
  | nil =>
    obtain rfl := Option.some.inj merges
    rfl
  | cons entry rest ih =>
    obtain ⟨key, value⟩ := entry
    obtain ⟨below, sorted⟩ := sorted_cons.mp sorted
    obtain ⟨w, first, others⟩ := Option.bind_eq_some_iff.mp merges
    have next := ih sorted others
    by_cases same : k = key
    · subst same
      have once : get k rest = none := get_eq_none.mpr fun other mem => (below other mem).ne'
      rw [get_cons, if_pos rfl]
      rw [once] at next
      refine ⟨w, first, ?_⟩
      rw [next, get_put, if_pos rfl]
    · rw [get_cons, if_neg same]
      simpa only [get_put, if_neg same] using next

/-- If every value merges, so does the object. -/
theorem mergeFields_isSome (sorted : Sorted supplied)
    (each : ∀ k v, get k supplied = some v → ∃ w, mergeValue v (get k base) = some w) :
    ∃ merged, mergeFields supplied base = some merged := by
  induction supplied generalizing base with
  | nil => exact ⟨base, rfl⟩
  | cons entry rest ih =>
    obtain ⟨key, value⟩ := entry
    obtain ⟨below, sorted⟩ := sorted_cons.mp sorted
    obtain ⟨w, first⟩ := each key value (by rw [get_cons, if_pos rfl])
    obtain ⟨merged, others⟩ : ∃ merged, mergeFields rest (put key w base) = some merged := by
      refine ih sorted fun k v found => ?_
      have other : k ≠ key := (below _ (mem_of_get found)).ne'
      rw [get_put, if_neg other]
      exact each k v (by rw [get_cons, if_neg other, found])
    exact ⟨merged, by rw [mergeFields, first, Option.bind_some, others]⟩

theorem sorted_mergeFields (sorted : Sorted base)
    (merges : mergeFields supplied base = some merged) : Sorted merged := by
  induction supplied generalizing base with
  | nil =>
    obtain rfl := Option.some.inj merges
    exact sorted
  | cons entry rest ih =>
    obtain ⟨w, -, others⟩ := Option.bind_eq_some_iff.mp merges
    exact ih (sorted_put sorted _ _) others

/-- **Absorption, key by key.**  An object is absorbed by a base that has no other keys and
absorbs its values. -/
theorem mergeFields_absorbed {m : Fields ν} (sortedBase : Sorted base) (sorted : Sorted m)
    (keys : ∀ k, get k m = none → get k base = none)
    (values : ∀ k v, get k m = some v → mergeValue v (get k base) = some v) :
    mergeFields m base = some m := by
  obtain ⟨merged, merges⟩ := mergeFields_isSome sorted fun k v found => ⟨v, values k v found⟩
  rw [merges, Option.some.injEq]
  refine ext (sorted_mergeFields sortedBase merges) sorted fun k => ?_
  have at_ := get_mergeFields sorted merges k
  cases found : get k m with
  | none =>
    rw [found] at at_
    exact at_.trans (keys k found)
  | some v =>
    rw [found] at at_
    obtain ⟨w, same, stored⟩ := at_
    rw [values k v found, Option.some.injEq] at same
    rw [stored, same]

/-! ### Defaults that can be compared -/

/-- Neither an object nor an array. -/
def isScalar : Datum ν → Bool
  | .object _ => false
  | .array _ => false
  | _ => true

mutual

/-- Wherever a merge compares a kind with the one of this value, it is a scalar. -/
def scalarKinds : Datum ν → Bool
  | .object fields => (get kindKey fields).all isScalar && scalarKindsIn fields
  | _ => true

def scalarKindsIn : Fields ν → Bool
  | [] => true
  | (_, v) :: rest => scalarKinds v && scalarKindsIn rest

end

variable {v : Datum ν}

omit [DecidableEq ν] in
theorem scalarKinds_of_get {fields : Fields ν} (scalar : scalarKindsIn fields = true) {k : Text}
    (found : get k fields = some v) : scalarKinds v = true := by
  induction fields with
  | nil => cases found
  | cons entry rest ih =>
    simp only [scalarKindsIn, Bool.and_eq_true] at scalar
    rw [get_cons] at found
    split_ifs at found
    · exact Option.some.inj found ▸ scalar.1
    · exact ih scalar.2 found

theorem differs_self (scalar : isScalar v = true) : differs v v = some false := by
  cases v with
  | object fields => cases scalar
  | array items => cases scalar
  | null => simp [differs]
  | bool b => simp [differs]
  | number n => simp [differs]
  | string t => simp [differs]

/-- A comparison that finds no difference was one of equal scalars. -/
theorem eq_of_differs {a b : Datum ν} (same : differs a b = some false) :
    a = b ∧ isScalar b = true := by
  unfold differs at same
  split at same
  · cases same
  · cases same
  · next noObjects noArrays =>
      obtain rfl : a = b := by simpa using same
      refine ⟨rfl, ?_⟩
      cases a with
      | object fields => exact (noObjects fields fields rfl rfl).elim
      | array items => exact (noArrays items items rfl rfl).elim
      | null => rfl
      | bool b => rfl
      | number n => rfl
      | string t => rfl

theorem mergeValue_scalar (scalar : isScalar v = true) (existing : Option (Datum ν)) :
    mergeValue v existing = some v := by
  cases v with
  | object fields => cases scalar
  | array items => rfl
  | null => rfl
  | bool b => rfl
  | number n => rfl
  | string t => rfl

/-- A comparison with a scalar returns. -/
theorem differs_isSome {a : Datum ν} (scalar : isScalar a = true) (b : Datum ν) :
    ∃ result, differs a b = some result := by
  cases a with
  | object fields => cases scalar
  | array items => cases scalar
  | null => exact ⟨_, rfl⟩
  | bool b => exact ⟨_, rfl⟩
  | number n => exact ⟨_, rfl⟩
  | string t => exact ⟨_, rfl⟩

variable {existing : Fields ν}

theorem replaces_isSome (scalar : (get kindKey existing).all isScalar = true) (object : Fields ν) :
    ∃ result, replaces object existing = some result := by
  unfold replaces
  cases get kindKey object with
  | none => exact ⟨false, rfl⟩
  | some kind =>
    refine differs_isSome ?_ kind
    cases found : get kindKey existing with
    | none => rfl
    | some kind => simpa [found] using scalar

/-! ### What an external service drops -/

theorem get_keptDefaults (object existing : Fields ν) (k : Text) :
    get k (keptDefaults object existing) =
      if isExternal object = true ∧ k ∈ managedFields then none else get k existing := by
  unfold keptDefaults
  cases isExternal object with
  | true => simp [get_removeAll]
  | false => simp

theorem sorted_keptDefaults (object : Fields ν) (sorted : Sorted existing) :
    Sorted (keptDefaults object existing) := by
  unfold keptDefaults
  split_ifs
  · exact sorted_removeAll sorted _
  · exact sorted

theorem get_kind_keptDefaults (object existing : Fields ν) :
    get kindKey (keptDefaults object existing) = get kindKey existing := by
  have named : kindKey ∉ managedFields := by decide
  simp [get_keptDefaults, named]

/-! ### Absorption -/

variable {object : Fields ν}

/-- The fields of a default that a merge with `object` would drop, and one with what it
leaves would not. -/
theorem get_keptDefaults_of_merged (sorted : Sorted object)
    (merges : mergeFields object (keptDefaults object existing) = some merged) (k : Text) :
    get k (keptDefaults merged existing) = none ∨
      get k (keptDefaults merged existing) = get k (keptDefaults object existing) := by
  rw [get_keptDefaults merged, get_keptDefaults object]
  by_cases external : isExternal object = true
  · -- the mode is a scalar, so it is the mode of the result as well
    have mode := get_mergeFields sorted merges modeKey
    rw [of_decide_eq_true external] at mode
    obtain ⟨w, same, stored⟩ := mode
    rw [mergeValue_scalar rfl, Option.some.injEq] at same
    have external' : isExternal merged = true := decide_eq_true (same ▸ stored)
    rw [external, external']
    exact .inr rfl
  · have whole : ¬ (isExternal object = true ∧ k ∈ managedFields) := fun both => external both.1
    simp only [if_neg whole]
    split_ifs
    · exact .inl rfl
    · exact .inr rfl

/-- A default with comparable kinds absorbs itself. -/
theorem mergeValue_self (canonical : v.Canonical) (scalar : scalarKinds v = true) :
    mergeValue v (some v) = some v := by
  induction v using Datum.ind with
  | null => rfl
  | bool b => rfl
  | number n => rfl
  | string t => rfl
  | array items _ => rfl
  | object fields each =>
    have canonical := canonical_object.mp canonical
    simp only [scalarKinds, Bool.and_eq_true] at scalar
    have same : replaces fields fields = some false := by
      unfold replaces
      cases found : get kindKey fields with
      | none => rfl
      | some kind => exact differs_self (by simpa [found] using scalar.1)
    have absorbed : mergeFields fields (keptDefaults fields fields) = some fields := by
      refine mergeFields_absorbed (sorted_keptDefaults _ canonical.sorted) canonical.sorted ?_ ?_
      · intro k missing
        rw [get_keptDefaults, missing, ite_self]
      · intro k v found
        rw [get_keptDefaults, found]
        split_ifs
        · exact mergeValue_none v
        · exact each (k, v) (mem_of_get found) (canonical.values k v found)
            (scalarKinds_of_get scalar.2 found)
    rw [mergeValue, same]
    simp only [absorbed, Option.map_some]

/-- The kind of a merged object is the one of the default. -/
theorem replaces_merged (sorted : Sorted object)
    (scalar : (get kindKey existing).all isScalar = true)
    (kept : replaces object existing = some false)
    (merges : mergeFields object (keptDefaults object existing) = some merged) :
    replaces merged existing = some false := by
  have stored := get_mergeFields sorted merges kindKey
  rw [get_kind_keptDefaults] at stored
  unfold replaces at kept ⊢
  cases named : get kindKey object with
  | none =>
    rw [named] at stored
    rw [stored]
    cases found : get kindKey existing with
    | none => rfl
    | some kind => exact differs_self (by simpa [found] using scalar)
  | some kind =>
    rw [named] at stored kept
    obtain ⟨w, same, stored⟩ := stored
    rw [mergeValue_scalar (eq_of_differs kept).2, Option.some.injEq] at same
    rw [stored, ← same]
    exact kept

theorem get_of_keptDefaults {k : Text} (found : get k (keptDefaults object existing) = some v) :
    get k existing = some v := by
  rw [get_keptDefaults] at found
  split_ifs at found
  exact found

/-- The values of a default are canonical and have comparable kinds. -/
def Comparable (fields : Fields ν) : Prop :=
  ∀ k e, get k fields = some e → e.Canonical ∧ scalarKinds e = true

/-- **A merged object is absorbed** by the base, or by one with fewer keys, if its values are
absorbed by the values there. -/
theorem mergeFields_merged {base' : Fields ν} (sorted : Sorted supplied) (sortedBase : Sorted base)
    (sortedBase' : Sorted base') (default : Comparable base)
    (fewer : ∀ k, get k base' = none ∨ get k base' = get k base)
    (merges : mergeFields supplied base = some merged)
    (each : ∀ k v w, get k supplied = some v → mergeValue v (get k base) = some w →
      mergeValue w (get k base) = some w) : mergeFields merged base' = some merged := by
  refine mergeFields_absorbed sortedBase' (sorted_mergeFields sortedBase merges)
    (fun k missing => ?_) (fun k v found => ?_)
  · have stored := get_mergeFields sorted merges k
    rcases fewer k with dropped | kept
    · exact dropped
    · rw [kept]
      cases present : get k supplied with
      | none =>
        rw [present] at stored
        exact stored.symm.trans missing
      | some u =>
        rw [present] at stored
        obtain ⟨w, -, stored⟩ := stored
        cases missing.symm.trans stored
  · have stored := get_mergeFields sorted merges k
    rcases fewer k with dropped | kept
    · rw [dropped]
      exact mergeValue_none v
    · rw [kept]
      cases present : get k supplied with
      | none =>
        rw [present] at stored
        have before := stored.symm.trans found
        rw [before]
        exact mergeValue_self (default k v before).1 (default k v before).2
      | some u =>
        rw [present] at stored
        obtain ⟨w, value, stored⟩ := stored
        obtain rfl := Option.some.inj (stored.symm.trans found)
        exact each k u w present value

omit [DecidableEq ν] in
theorem comparable_of_canonical {fields : Fields ν} (canonical : Fields.Canonical fields)
    (scalar : scalarKindsIn fields = true) : Comparable fields :=
  fun k e found => ⟨canonical.values k e found, scalarKinds_of_get scalar found⟩

theorem Comparable.keptDefaults (default : Comparable existing) (object : Fields ν) :
    Comparable (keptDefaults object existing) :=
  fun k e found => default k e (get_of_keptDefaults found)

/-- **What a merge stores is absorbed** by the value that it was merged into. -/
theorem mergeValue_absorbed {existing : Option (Datum ν)} {w : Datum ν} (canonical : v.Canonical)
    (default : ∀ e, existing = some e → e.Canonical ∧ scalarKinds e = true)
    (merges : mergeValue v existing = some w) : mergeValue w existing = some w := by
  induction v using Datum.ind generalizing existing w with
  | null => obtain rfl := Option.some.inj merges; rfl
  | bool b => obtain rfl := Option.some.inj merges; rfl
  | number n => obtain rfl := Option.some.inj merges; rfl
  | string t => obtain rfl := Option.some.inj merges; rfl
  | array items _ => obtain rfl := Option.some.inj merges; rfl
  | object object each =>
    have canonical := canonical_object.mp canonical
    rcases existing with _ | existing
    · rw [mergeValue_none, Option.some.injEq] at merges
      rw [← merges, mergeValue_none]
    · cases existing with
      | object existing =>
        obtain ⟨canonicalDefault, scalar⟩ := default _ rfl
        have canonicalDefault := canonical_object.mp canonicalDefault
        simp only [scalarKinds, Bool.and_eq_true] at scalar
        obtain ⟨replaced, compared⟩ := replaces_isSome scalar.1 object
        rw [mergeValue, compared] at merges
        cases replaced with
        | true =>
          obtain rfl := Option.some.inj merges
          rw [mergeValue, compared]
        | false =>
          obtain ⟨merged, fields, rfl⟩ := Option.map_eq_some_iff.mp merges
          have again := replaces_merged canonical.sorted scalar.1 compared fields
          have default' := (comparable_of_canonical canonicalDefault scalar.2).keptDefaults
            object
          have absorbed := mergeFields_merged canonical.sorted
            (sorted_keptDefaults object canonicalDefault.sorted)
            (sorted_keptDefaults merged canonicalDefault.sorted) default'
            (get_keptDefaults_of_merged canonical.sorted fields) fields
            fun k v w found value => each (k, v) (mem_of_get found)
              (canonical.values k v found) (fun e inBase => default' k e inBase) value
          rw [mergeValue, again]
          simp only [absorbed, Option.map_some]
      | null => obtain rfl := Option.some.inj merges; rfl
      | bool b => obtain rfl := Option.some.inj merges; rfl
      | number n => obtain rfl := Option.some.inj merges; rfl
      | string t => obtain rfl := Option.some.inj merges; rfl
      | array items => obtain rfl := Option.some.inj merges; rfl

/-- Defaults with comparable kinds let every merge return. -/
theorem mergeValue_isSome {existing : Option (Datum ν)} (canonical : v.Canonical)
    (default : ∀ e, existing = some e → scalarKinds e = true) :
    ∃ w, mergeValue v existing = some w := by
  induction v using Datum.ind generalizing existing with
  | null => exact ⟨_, rfl⟩
  | bool b => exact ⟨_, rfl⟩
  | number n => exact ⟨_, rfl⟩
  | string t => exact ⟨_, rfl⟩
  | array items _ => exact ⟨_, rfl⟩
  | object object each =>
    have canonical := canonical_object.mp canonical
    rcases existing with _ | existing
    · exact ⟨_, mergeValue_none _⟩
    · cases existing with
      | object existing =>
        have scalar := default _ rfl
        simp only [scalarKinds, Bool.and_eq_true] at scalar
        obtain ⟨replaced, compared⟩ := replaces_isSome scalar.1 object
        rw [mergeValue, compared]
        cases replaced with
        | true => exact ⟨_, rfl⟩
        | false =>
          obtain ⟨merged, merges⟩ : ∃ merged,
              mergeFields object (keptDefaults object existing) = some merged := by
            refine mergeFields_isSome canonical.sorted fun k v found => ?_
            refine each (k, v) (mem_of_get found) (canonical.values k v found) fun e inBase => ?_
            exact scalarKinds_of_get scalar.2 (get_of_keptDefaults inBase)
          exact ⟨.object merged, by simp only [merges, Option.map_some]⟩
      | null => exact ⟨_, rfl⟩
      | bool b => exact ⟨_, rfl⟩
      | number n => exact ⟨_, rfl⟩
      | string t => exact ⟨_, rfl⟩
      | array items => exact ⟨_, rfl⟩

/-- **Merging again changes nothing.**  If the nested objects of the defaults have scalar
kinds, every object merges into them, and the result is absorbed. -/
theorem mergeFields_twice {defaults : Fields ν} (canonical : Fields.Canonical defaults)
    (scalar : scalarKindsIn defaults = true) (canonical' : Fields.Canonical supplied) :
    ∃ merged, mergeFields supplied defaults = some merged ∧
      mergeFields merged defaults = some merged := by
  have default := comparable_of_canonical canonical scalar
  obtain ⟨merged, merges⟩ : ∃ merged, mergeFields supplied defaults = some merged := by
    refine mergeFields_isSome canonical'.sorted fun k v found => ?_
    exact mergeValue_isSome (canonical'.values k v found) fun e inBase => (default k e inBase).2
  refine ⟨merged, merges, mergeFields_merged canonical'.sorted canonical.sorted canonical.sorted
    default (fun _ => .inr rfl) merges fun k v w found value => ?_⟩
  exact mergeValue_absorbed (canonical'.values k v found) (fun e inBase => default k e inBase) value

/-- Merging keeps objects maps. -/
theorem canonical_mergeFields (canonical : Fields.Canonical base)
    (each : ∀ k v base w, get k supplied = some v →
      (∀ e, base = some e → e.Canonical) → mergeValue v base = some w → w.Canonical)
    (sorted : Sorted supplied) (merges : mergeFields supplied base = some merged) :
    Fields.Canonical merged := by
  refine ⟨sorted_mergeFields canonical.sorted merges, fun k w found => ?_⟩
  have stored := get_mergeFields sorted merges k
  cases present : get k supplied with
  | none =>
    rw [present] at stored
    exact canonical.values k w (stored.symm.trans found)
  | some v =>
    rw [present] at stored
    obtain ⟨w', value, stored⟩ := stored
    obtain rfl := Option.some.inj (stored.symm.trans found)
    exact each k v _ w' present (fun e inBase => canonical.values k e inBase) value

theorem canonical_mergeValue {existing : Option (Datum ν)} {w : Datum ν} (canonical : v.Canonical)
    (default : ∀ e, existing = some e → e.Canonical) (merges : mergeValue v existing = some w) :
    w.Canonical := by
  induction v using Datum.ind generalizing existing w with
  | null => obtain rfl := Option.some.inj merges; trivial
  | bool b => obtain rfl := Option.some.inj merges; trivial
  | number n => obtain rfl := Option.some.inj merges; trivial
  | string t => obtain rfl := Option.some.inj merges; trivial
  | array items _ => obtain rfl := Option.some.inj merges; exact canonical
  | object object each =>
    unfold mergeValue at merges
    split at merges
    · next object' existing heq =>
        obtain rfl := Datum.object.inj heq
        split at merges
        · cases merges
        · obtain rfl := Option.some.inj merges
          exact canonical
        · obtain ⟨merged, fields, rfl⟩ := Option.map_eq_some_iff.mp merges
          have canonical' := canonical_object.mp canonical
          refine canonical_object.mpr (canonical_mergeFields ?_ ?_ canonical'.sorted fields)
          · have base := canonical_object.mp (default _ rfl)
            unfold keptDefaults
            split_ifs
            · exact base.removeAll _
            · exact base
          · intro k v base w found base' value
            exact each (k, v) (mem_of_get found) (canonical'.values k v found) base' value
    · obtain rfl := Option.some.inj merges
      exact canonical

/-- An object merges to an object, and what it holds stays there unless it is null. -/
theorem mergeValue_object {existing : Option (Datum ν)} {w : Datum ν} (sorted : Sorted object)
    (merges : mergeValue (.object object) existing = some w) :
    ∃ merged, w = .object merged ∧ ∀ k v, get k object = some v → v ≠ .null →
      ∃ v', get k merged = some v' ∧ v' ≠ .null := by
  unfold mergeValue at merges
  split at merges
  · next object' existing heq =>
      obtain rfl := Datum.object.inj heq
      split at merges
      · cases merges
      · obtain rfl := Option.some.inj merges
        exact ⟨object, rfl, fun k v found present => ⟨v, found, present⟩⟩
      · obtain ⟨merged, fields, rfl⟩ := Option.map_eq_some_iff.mp merges
        refine ⟨merged, rfl, fun k v found present => ?_⟩
        have stored := get_mergeFields sorted fields k
        rw [found] at stored
        obtain ⟨v', value, stored⟩ := stored
        refine ⟨v', stored, ?_⟩
        rintro rfl
        -- only `null` merges to `null`
        unfold mergeValue at value
        split at value
        · split at value
          · cases value
          · cases value
          · obtain ⟨_, -, impossible⟩ := Option.map_eq_some_iff.mp value
            cases impossible
        · exact present (Option.some.inj value)
  · obtain rfl := Option.some.inj merges
    exact ⟨object, rfl, fun k v found present => ⟨v, found, present⟩⟩

end Merge

end Aspm.Resolve
