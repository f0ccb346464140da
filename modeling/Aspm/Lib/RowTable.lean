import Mathlib

/-!
# A table under row locks

One table of a database at isolation level *read committed*.  A row has its
committed version, and possibly a lock with the version its owner has written and
not committed.  Others read the committed version, and wait or pass on while the
row is locked.

A statement that waited for a lock does not look again when the owner left the row
as it was: it keeps the verdict that it reached before the wait, and the time that
it read then.  `unchangedSince` is the exact freedom this gives: a condition may have
been evaluated at any instant since which the row has not changed.

`Staged R` says that every uncommitted version stands in the relation `R` of its
owner to the committed one, and `Moves R` that every row stayed or moved by `R`.
Locked rows do not change under their owner, so what `R` promised when a version was
written still holds when it commits: one table operation after the other keeps
`Staged R`, and a commit moves rows by the `R` of its transaction alone.
-/

namespace RowTable

universe u v w

/-- Keys that a linear order compares. -/
scoped instance lawfulBEq_of_linearOrder {K : Type u} [LinearOrder K] : LawfulBEq K := instLawfulBEq

/-- A row lock: who holds it, and the version written under it. -/
structure Lock (V : Type v) (X : Type w) where
  owner : X
  version : Option V
deriving DecidableEq

structure Table (K : Type u) (V : Type v) (X : Type w) where
  /-- The clock of the database. -/
  now : ℤ
  rows : K → Option V
  changedAt : K → ℤ
  locks : K → Option (Lock V X)

variable {K : Type u} {V : Type v} {X : Type w} [DecidableEq K] [DecidableEq X]

variable {k j : K} {row : V} {selected : List K}

namespace Table

/-- The row has been as it is at least since the instant `time`. -/
def unchangedSince (t : Table K V X) (k : K) (time : ℤ) : Bool :=
  t.changedAt k ≤ time && time ≤ t.now

/-- The row as the transaction `x` sees it. -/
def visible (t : Table K V X) (x : X) (k : K) : Option V :=
  match t.locks k with
  | some ⟨owner, some version⟩ => if owner = x then some version else t.rows k
  | _ => t.rows k

/-- Nobody but the transaction `x` holds the row. -/
def freeFor (t : Table K V X) (x : X) (k : K) : Bool :=
  (t.locks k).all fun l => l.owner = x

def tick (t : Table K V X) (d : ℕ) : Table K V X :=
  { t with now := t.now + d }

/-- A committed `INSERT`. -/
def insert (t : Table K V X) (k : K) (v : V) : Table K V X :=
  { t with
    rows := Function.update t.rows k (some v)
    changedAt := Function.update t.changedAt k t.now }

/-- A committed `UPDATE` of the rows in `selected`. -/
def update (t : Table K V X) (selected : List K) (set : V → V) : Table K V X :=
  { t with
    rows := fun k => if k ∈ selected then (t.rows k).map set else t.rows k
    changedAt := fun k => if k ∈ selected then t.now else t.changedAt k }

/-- `FOR UPDATE`, once the row is free. -/
def lock (t : Table K V X) (x : X) (k : K) : Table K V X :=
  { t with locks := Function.update t.locks k (some ⟨x, none⟩) }

/-- An uncommitted `UPDATE`: the new version stays with the lock. -/
def stage (t : Table K V X) (x : X) (k : K) (v : V) : Table K V X :=
  { t with locks := Function.update t.locks k (some ⟨x, some v⟩) }

/-- The end of the transaction `x`, with its versions installed. -/
def commit (t : Table K V X) (x : X) : Table K V X :=
  { t with
    rows := t.visible x
    changedAt := fun k =>
      match t.locks k with
      | some ⟨owner, some _⟩ => if owner = x then t.now else t.changedAt k
      | _ => t.changedAt k
    locks := fun k => (t.locks k).filter fun l => l.owner ≠ x }

/-- The end of the transaction `x`, with its versions dropped. -/
def abort (t : Table K V X) (x : X) : Table K V X :=
  { t with locks := fun k => (t.locks k).filter fun l => l.owner ≠ x }

omit [DecidableEq K] [DecidableEq X] in
theorem unchangedSince_iff {t : Table K V X} {time : ℤ} :
    t.unchangedSince k time = true ↔ t.changedAt k ≤ time ∧ time ≤ t.now := by
  simp [unchangedSince]

section Fields

variable (t : Table K V X) (x : X) (k : K) (v : V)

omit [DecidableEq K] [DecidableEq X] in
@[simp] theorem rows_tick (d : ℕ) : (t.tick d).rows = t.rows := rfl

omit [DecidableEq K] [DecidableEq X] in
@[simp] theorem locks_tick (d : ℕ) : (t.tick d).locks = t.locks := rfl

section

omit [DecidableEq X]

@[simp] theorem rows_insert : (t.insert k v).rows = Function.update t.rows k (some v) := rfl

@[simp] theorem locks_insert : (t.insert k v).locks = t.locks := rfl

@[simp] theorem locks_update (selected : List K) (set : V → V) :
    (t.update selected set).locks = t.locks := rfl

theorem rows_update (selected : List K) (set : V → V) :
    (t.update selected set).rows k =
      if k ∈ selected then (t.rows k).map set else t.rows k := rfl

@[simp] theorem rows_lock : (t.lock x k).rows = t.rows := rfl

@[simp] theorem locks_lock :
    (t.lock x k).locks = Function.update t.locks k (some ⟨x, none⟩) := rfl

@[simp] theorem rows_stage : (t.stage x k v).rows = t.rows := rfl

@[simp] theorem locks_stage :
    (t.stage x k v).locks = Function.update t.locks k (some ⟨x, some v⟩) := rfl

end

omit [DecidableEq K] in
@[simp] theorem rows_commit : (t.commit x).rows = t.visible x := rfl

omit [DecidableEq K] in
@[simp] theorem rows_abort : (t.abort x).rows = t.rows := rfl

end Fields

/-! ## What holds of every operation -/

/-- Every uncommitted version stands in the relation `R` to the committed one. -/
def Staged (R : K → X → V → V → Prop) (t : Table K V X) : Prop :=
  ∀ k owner version, t.locks k = some ⟨owner, some version⟩ →
    ∃ row, t.rows k = some row ∧ R k owner row version

/-- No row disappears, and every row stays or moves by `R`. -/
def Moves (R : K → V → V → Prop) (t t' : Table K V X) : Prop :=
  ∀ k row, t.rows k = some row → ∃ row', t'.rows k = some row' ∧ Relation.ReflGen (R k) row row'

variable {R : K → X → V → V → Prop} {M : K → V → V → Prop} {t t' : Table K V X}

section

omit [DecidableEq K] [DecidableEq X]

theorem Moves.of_rows_eq (same : t'.rows = t.rows) : Moves M t t' :=
  fun _ row stored => ⟨row, same ▸ stored, .refl⟩

theorem Moves.mono {M' : K → V → V → Prop} (moves : Moves M t t')
    (weaker : ∀ k v w, M k v w → M' k v w) : Moves M' t t' := by
  intro k row stored
  obtain ⟨row', stored', related⟩ := moves k row stored
  exact ⟨row', stored', related.mono (weaker k)⟩

/-- Rows that `M` does not move stay. -/
theorem Moves.frozen (moves : Moves M t t') (stored : t.rows k = some row)
    (stuck : ∀ row', ¬ M k row row') : t'.rows k = some row := by
  obtain ⟨row', stored', related⟩ := moves k row stored
  rcases related with _ | moved
  · exact stored'
  · exact absurd moved (stuck row')

theorem Staged.tick (staged : Staged R t) (d : ℕ) : Staged R (t.tick d) := staged

end

section

omit [DecidableEq X]

theorem Staged.insert (staged : Staged R t) (v : V) (fresh : t.rows k = none) :
    Staged R (t.insert k v) := by
  intro j owner version locked
  obtain ⟨row, stored, related⟩ := staged j owner version locked
  have other : j ≠ k := by
    rintro rfl
    rw [fresh] at stored
    cases stored
  exact ⟨row, by rw [rows_insert, Function.update_of_ne other, stored], related⟩

theorem moves_insert (v : V) (fresh : t.rows k = none) : Moves M t (t.insert k v) := by
  intro j row stored
  have other : j ≠ k := by
    rintro rfl
    rw [fresh] at stored
    cases stored
  exact ⟨row, by rw [rows_insert, Function.update_of_ne other, stored], .refl⟩

theorem Staged.update (staged : Staged R t) (set : V → V)
    (free : ∀ k ∈ selected, t.locks k = none) : Staged R (t.update selected set) := by
  intro j owner version locked
  obtain ⟨row, stored, related⟩ := staged j owner version locked
  have other : j ∉ selected := by
    intro mem
    rw [locks_update, free j mem] at locked
    cases locked
  exact ⟨row, by rw [rows_update, if_neg other, stored], related⟩

theorem moves_update {set : V → V}
    (related : ∀ k ∈ selected, ∀ row, t.rows k = some row → M k row (set row)) :
    Moves M t (t.update selected set) := by
  intro j row stored
  by_cases mem : j ∈ selected
  · exact ⟨set row, by rw [rows_update, if_pos mem, stored, Option.map_some],
      .single (related j mem row stored)⟩
  · exact ⟨row, by rw [rows_update, if_neg mem, stored], .refl⟩

end

omit [DecidableEq K] [DecidableEq X] in
/-- Where no row was added, every row of the new table comes from one of the old. -/
theorem Moves.backward (moves : Moves M t t') (none_added : ∀ k, t.rows k = none → t'.rows k = none)
    {row' : V} (stored : t'.rows k = some row') :
    ∃ row, t.rows k = some row ∧ Relation.ReflGen (M k) row row' := by
  cases before : t.rows k with
  | none =>
    rw [none_added k before] at stored
    cases stored
  | some row =>
    obtain ⟨row'', stored', related⟩ := moves k row before
    obtain rfl := Option.some.inj (stored.symm.trans stored')
    exact ⟨row, rfl, related⟩

omit [DecidableEq X] in
theorem rows_update_none (selected : List K) (set : V → V) (absent : t.rows k = none) :
    (t.update selected set).rows k = none := by
  rw [rows_update, absent]
  simp

omit [DecidableEq X] in
theorem Staged.lock (staged : Staged R t) (x : X) (k : K) : Staged R (t.lock x k) := by
  intro j owner version locked
  by_cases same : j = k
  · subst same
    simp at locked
  · rw [locks_lock, Function.update_of_ne same] at locked
    exact staged j owner version locked

omit [DecidableEq X] in
theorem Staged.stage (staged : Staged R t) (x : X) {v : V} (stored : t.rows k = some row)
    (related : R k x row v) : Staged R (t.stage x k v) := by
  intro j owner version locked
  by_cases same : j = k
  · subst same
    simp only [locks_stage, Function.update_self, Option.some.injEq, Lock.mk.injEq] at locked
    obtain ⟨rfl, rfl⟩ := locked
    exact ⟨row, stored, related⟩
  · rw [locks_stage, Function.update_of_ne same] at locked
    exact staged j owner version locked

section

omit [DecidableEq K]

theorem Staged.abort (staged : Staged R t) (x : X) : Staged R (t.abort x) :=
  fun k owner version locked =>
    staged k owner version (Option.filter_eq_some_iff.mp locked).1

/-- A lock that survives a commit belongs to another transaction, and its row stayed. -/
theorem locks_commit {x : X} {l : Lock V X} (locked : (t.commit x).locks k = some l) :
    t.locks k = some l ∧ l.owner ≠ x ∧ (t.commit x).rows k = t.rows k := by
  obtain ⟨before, other⟩ := Option.filter_eq_some_iff.mp locked
  have other : l.owner ≠ x := by simpa using other
  refine ⟨before, other, ?_⟩
  obtain ⟨owner, version⟩ := l
  cases version with
  | none => simp only [Table.commit, Table.visible, before]
  | some version => simp only [Table.commit, Table.visible, before, if_neg other]

theorem Staged.commit (staged : Staged R t) (x : X) : Staged R (t.commit x) := by
  intro k owner version locked
  obtain ⟨before, -, same⟩ := locks_commit locked
  obtain ⟨row, stored, related⟩ := staged k owner version before
  exact ⟨row, same.trans stored, related⟩

/-- What a transaction sees of a row is the committed version or one related to it. -/
theorem Staged.visible (staged : Staged R t) (x : X) (stored : t.rows k = some row) :
    ∃ row', t.visible x k = some row' ∧ Relation.ReflGen (R k x) row row' := by
  unfold Table.visible
  split
  case h_1 owner version locked =>
    obtain ⟨row', stored', related⟩ := staged k owner version locked
    obtain rfl := Option.some.inj (stored.symm.trans stored')
    split
    case isTrue same => exact ⟨version, rfl, .single (same ▸ related)⟩
    case isFalse => exact ⟨row, stored, .refl⟩
  case h_2 => exact ⟨row, stored, .refl⟩

theorem Staged.moves_commit (staged : Staged R t) (x : X) :
    Moves (fun k => R k x) t (t.commit x) :=
  fun _ _ stored => staged.visible x stored

theorem Staged.rows_commit_none (staged : Staged R t) (x : X) (absent : t.rows k = none) :
    (t.commit x).rows k = none := by
  rw [rows_commit]
  unfold Table.visible
  split
  case h_1 owner version locked =>
    obtain ⟨row, stored, -⟩ := staged k owner version locked
    rw [absent] at stored
    cases stored
  case h_2 => exact absent

end

omit [DecidableEq K] [DecidableEq X] in
theorem Staged.mono {R' : K → X → V → V → Prop} (staged : Staged R t)
    (weaker : ∀ k x v w, R k x v w → R' k x v w) : Staged R' t := by
  intro k owner version locked
  obtain ⟨row, stored, related⟩ := staged k owner version locked
  exact ⟨row, stored, weaker k owner row version related⟩

/-! ## What holds of every row -/

/-- Every committed row has the property. -/
def All (P : V → Prop) (t : Table K V X) : Prop := ∀ k row, t.rows k = some row → P row

variable {P : V → Prop}

omit [DecidableEq X] in
theorem All.insert (all : All P t) {v : V} (new : P v) : All P (t.insert k v) := by
  intro j row stored
  rw [rows_insert] at stored
  by_cases same : j = k
  · subst same
    rw [Function.update_self] at stored
    exact Option.some.inj stored ▸ new
  · rw [Function.update_of_ne same] at stored
    exact all j row stored

omit [DecidableEq X] in
theorem All.update (all : All P t) {set : V → V} (keeps : ∀ row, P row → P (set row)) :
    All P (t.update selected set) := by
  intro j row' stored
  rw [rows_update] at stored
  split at stored
  · obtain ⟨row, before, rfl⟩ := Option.map_eq_some_iff.mp stored
    exact keeps row (all j row before)
  · exact all j row' stored

omit [DecidableEq K] in
theorem All.commit (all : All P t) (staged : Staged R t)
    (keeps : ∀ k x v w, R k x v w → P v → P w) (x : X) : All P (t.commit x) := by
  intro k row' stored
  rw [rows_commit] at stored
  unfold Table.visible at stored
  split at stored
  case h_1 owner version locked =>
    obtain ⟨row, before, related⟩ := staged k owner version locked
    split at stored
    · obtain rfl := Option.some.inj stored
      exact keeps k owner row version related (all k row before)
    · exact all k row' stored
  case h_2 => exact all k row' stored

/-! ## What a transaction holds

A locked row stays as it is, lock and all, under everything that others do. -/

/-- The transaction `x` has locked the row `k`, which has been `row` since the instant
`since`, and has written `version`. -/
structure Holds (t : Table K V X) (x : X) (k : K) (version : Option V) (row : V) (since : ℤ) :
    Prop where
  locked : t.locks k = some ⟨x, version⟩
  stored : t.rows k = some row
  since : t.changedAt k = since

variable {x y : X} {version : Option V} {since : ℤ}

omit [DecidableEq K] [DecidableEq X] in
theorem Holds.tick (holds : Holds t x k version row since) (d : ℕ) :
    Holds (t.tick d) x k version row since :=
  ⟨holds.locked, holds.stored, holds.since⟩

section

omit [DecidableEq X]

theorem Holds.insert (holds : Holds t x k version row since) (fresh : t.rows j = none) (v : V) :
    Holds (t.insert j v) x k version row since := by
  have other : k ≠ j := by
    rintro rfl
    exact nomatch fresh.symm.trans holds.stored
  refine ⟨holds.locked, ?_, ?_⟩
  · rw [rows_insert, Function.update_of_ne other, holds.stored]
  · simp only [Table.insert, Function.update_of_ne other, holds.since]

theorem Holds.update (holds : Holds t x k version row since) (set : V → V)
    (free : ∀ j ∈ selected, t.locks j = none) :
    Holds (t.update selected set) x k version row since := by
  have other : k ∉ selected := fun mem => nomatch (free k mem).symm.trans holds.locked
  refine ⟨holds.locked, ?_, ?_⟩
  · rw [rows_update, if_neg other, holds.stored]
  · simp only [Table.update, if_neg other, holds.since]

theorem Holds.lock (holds : Holds t x k version row since) (free : t.locks j = none) :
    Holds (t.lock y j) x k version row since := by
  have other : k ≠ j := by
    rintro rfl
    exact nomatch free.symm.trans holds.locked
  exact ⟨by rw [locks_lock, Function.update_of_ne other, holds.locked], holds.stored, holds.since⟩

theorem Holds.stage_of_ne (holds : Holds t x k version row since) (apart : k ≠ j) (v : V) :
    Holds (t.stage y j v) x k version row since :=
  ⟨by rw [locks_stage, Function.update_of_ne apart, holds.locked], holds.stored, holds.since⟩

end

theorem Holds.stage (holds : Holds t x k version row since) (free : t.freeFor y j = true)
    (other : y ≠ x) (v : V) : Holds (t.stage y j v) x k version row since := by
  have apart : k ≠ j := by
    rintro rfl
    rw [freeFor, holds.locked] at free
    exact other (by simpa using free.symm : x = y).symm
  exact holds.stage_of_ne apart v

omit [DecidableEq X] in
/-- A transaction may write what it holds. -/
theorem Holds.stage_own (holds : Holds t x k version row since) (v : V) :
    Holds (t.stage x k v) x k (some v) row since :=
  ⟨Function.update_self _ _ _, holds.stored, holds.since⟩

section

omit [DecidableEq K]

theorem Holds.abort (holds : Holds t x k version row since) (other : y ≠ x) :
    Holds (t.abort y) x k version row since := by
  refine ⟨?_, holds.stored, holds.since⟩
  have kept : decide (x ≠ y) = true := decide_eq_true other.symm
  simp only [Table.abort, holds.locked, Option.filter_some, kept, if_true]

theorem Holds.commit (holds : Holds t x k version row since) (other : y ≠ x) :
    Holds (t.commit y) x k version row since := by
  have locked : (t.commit y).locks k = some ⟨x, version⟩ := (holds.abort other).locked
  refine ⟨locked, (locks_commit locked).2.2.trans holds.stored, ?_⟩
  cases version with
  | none => simp only [Table.commit, holds.locked, holds.since]
  | some v => simp only [Table.commit, holds.locked, if_neg other.symm, holds.since]

theorem freeFor_of_none (free : t.locks k = none) : t.freeFor x k = true := by
  rw [freeFor, free, Option.all_none]

theorem Holds.visible (holds : Holds t x k version row since) :
    t.visible x k = some (version.getD row) := by
  cases version with
  | none => simp [Table.visible, holds.locked, holds.stored]
  | some v => simp [Table.visible, holds.locked]

/-- What a transaction wrote is what its commit installs. -/
theorem Holds.rows_commit (holds : Holds t x k version row since) :
    (t.commit x).rows k = some (version.getD row) :=
  holds.visible

end

/-! ## What a party may do

The rules above for every operation in turn, as one relation between tables: a party only
touches rows that nobody else holds, and changes what they say only by `M`. -/

/-- The transaction `x`, or a statement that commits by itself, takes one table to the other. -/
inductive Act (M : V → V → Prop) : Option X → Table K V X → Table K V X → Prop
  | refl {party : Option X} {t : Table K V X} : Act M party t t
  | insert {t : Table K V X} {k : K} {v : V} (fresh : t.rows k = none) :
      Act M none t (t.insert k v)
  | update {t : Table K V X} {selected : List K} {set : V → V}
      (free : ∀ k ∈ selected, t.locks k = none) (related : ∀ row, M row (set row)) :
      Act M none t (t.update selected set)
  | lock {t : Table K V X} {x : X} {k : K} (free : t.locks k = none) :
      Act M (some x) t (t.lock x k)
  | stage {t : Table K V X} {x : X} {k : K} {row v : V} (free : t.freeFor x k = true)
      (stored : t.rows k = some row) (related : M row v) : Act M (some x) t (t.stage x k v)
  | commit {t : Table K V X} {x : X} : Act M (some x) t (t.commit x)
  | abort {t : Table K V X} {x : X} : Act M (some x) t (t.abort x)
  | trans {party : Option X} {t t' t'' : Table K V X} (first : Act M party t t')
      (second : Act M party t' t'') : Act M party t t''

variable {S : V → V → Prop} {party : Option X}

/-- What one transaction holds, the others leave alone. -/
theorem Act.holds (act : Act S party t t') (other : party ≠ some x)
    (holds : Holds t x k version row since) : Holds t' x k version row since := by
  induction act with
  | refl => exact holds
  | insert fresh => exact holds.insert fresh _
  | update free _ => exact holds.update _ free
  | lock free => exact holds.lock free
  | stage free _ _ => exact holds.stage free (fun same => other (congrArg some same)) _
  | commit => exact holds.commit fun same => other (congrArg some same)
  | abort => exact holds.abort fun same => other (congrArg some same)
  | trans _ _ first second => exact second other (first other holds)

theorem Act.staged (act : Act S party t t') (staged : Staged (fun _ _ => S) t) :
    Staged (fun _ _ => S) t' := by
  induction act with
  | refl => exact staged
  | insert fresh => exact staged.insert _ fresh
  | update free _ => exact staged.update _ free
  | lock => exact staged.lock _ _
  | stage _ stored related => exact staged.stage _ stored related
  | commit => exact staged.commit _
  | abort => exact staged.abort _
  | trans _ _ first second => exact second (first staged)

/-- Rows stay, and only change by `S`. -/
theorem Act.rows (act : Act S party t t') (refl : ∀ v, S v v)
    (trans : ∀ u v w, S u v → S v w → S u w) (staged : Staged (fun _ _ => S) t)
    (stored : t.rows k = some row) : ∃ row', t'.rows k = some row' ∧ S row row' := by
  have single : ∀ v w, Relation.ReflGen S v w → S v w := by
    rintro v w (_ | related)
    · exact refl v
    · exact related
  induction act generalizing row with
  | refl => exact ⟨row, stored, refl row⟩
  | insert fresh =>
    obtain ⟨row', stored', related⟩ := moves_insert (M := fun _ => S) _ fresh k row stored
    exact ⟨row', stored', single _ _ related⟩
  | update _ related =>
    obtain ⟨row', stored', related⟩ :=
      moves_update (M := fun _ => S) (fun _ _ row _ => related row) k row stored
    exact ⟨row', stored', single _ _ related⟩
  | lock => exact ⟨row, stored, refl row⟩
  | stage => exact ⟨row, stored, refl row⟩
  | commit =>
    obtain ⟨row', stored', related⟩ := staged.visible _ stored
    exact ⟨row', stored', single _ _ related⟩
  | abort => exact ⟨row, stored, refl row⟩
  | trans first _ ih ih' =>
    obtain ⟨middle, stored', related⟩ := ih staged stored
    obtain ⟨row', stored'', related'⟩ := ih' (first.staged staged) stored'
    exact ⟨row', stored'', trans _ _ _ related related'⟩

/-- What holds of every row and passes along `S` holds after what a transaction does, since
only others insert. -/
theorem Act.all (act : Act S (some x) t t') (keeps : ∀ v w, S v w → P v → P w)
    (staged : Staged (fun _ _ => S) t) (all : All P t) : All P t' := by
  generalize party : some x = y at act
  induction act with
  | refl => exact all
  | insert => cases party
  | update => cases party
  | lock => exact all
  | stage => exact all
  | commit => exact all.commit staged (fun _ _ v w => keeps v w) _
  | abort => exact all
  | trans first _ ih ih' => exact ih' (first.staged staged) (ih staged all party) party

/-! ## Several rows in one transaction -/

/-- Uncommitted updates of several rows. -/
def stageAll (t : Table K V X) (x : X) (ks : List K) (new : K → V) : Table K V X :=
  { t with locks := fun k => if k ∈ ks then some ⟨x, some (new k)⟩ else t.locks k }

omit [DecidableEq X] in
@[simp] theorem stageAll_nil (t : Table K V X) (x : X) (new : K → V) :
    t.stageAll x [] new = t := by
  simp [stageAll]

omit [DecidableEq X] in
/-- One row after the other is all of them. -/
theorem stageAll_stage (t : Table K V X) (x : X) (k : K) (ks : List K) (new : K → V) :
    (t.stage x k (new k)).stageAll x ks new = t.stageAll x (k :: ks) new := by
  have locks : (fun j => if j ∈ ks then some (⟨x, some (new j)⟩ : Lock V X)
      else (t.stage x k (new k)).locks j) =
        fun j => if j ∈ k :: ks then some ⟨x, some (new j)⟩ else t.locks j := by
    funext j
    by_cases first : j = k
    · subst first
      simp
    · simp [first]
  unfold stageAll
  rw [locks]
  rfl

/-- The commit installs all of them together. -/
theorem rows_commit_stageAll (t : Table K V X) (x : X) (ks : List K) (new : K → V)
    (others : ∀ k l, k ∉ ks → t.locks k = some l → l.owner ≠ x) (k : K) :
    ((t.stageAll x ks new).commit x).rows k = if k ∈ ks then some (new k) else t.rows k := by
  rw [rows_commit]
  unfold visible stageAll
  by_cases mem : k ∈ ks
  · simp [mem]
  · simp only [mem, if_false]
    split
    case h_1 owner version locked => rw [if_neg (others k _ mem locked)]
    case h_2 => rfl

end Table

end RowTable
