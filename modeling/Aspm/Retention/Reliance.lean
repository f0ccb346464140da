import Aspm.Retention.Ownership

/-!
# What a worker relies on

Between two turns of a worker anybody may write.  `Sound` says, stage by stage, what the worker
still knows of the rows, of the objects and of the publications: a row may have changed since the
worker has read it, but then its revision has grown (`Snapshot`), and the same goes for a
publication (`Issued`).

`Deed` lists the writes of one turn.  A turn does one of these and leaves the worker with what its
next stage relies on (`Retention.Turns`), and no deed takes from another worker what that one
relies on (`Stable.of_deed`), with one exception.  A worker that is about to delete an object, or
will as soon as it has looked at protections once more, relies on the mark on the row, and
`clearTransition` removes the mark whoever has set it.

The deletion of an orphan is not among the deeds: an archiver may rely on the object, and what it
has left is that the publication stays locked until its revision has changed (`Erased` in
`Retention.Invariant`).
-/

namespace Aspm.Retention

open Reconcile (Time)

open Content

variable {ID Data Digest : Type}

variable {r r' : Resource ID} {row row' : Row ID Data Digest} {party other : Party ID}
  {key : Key ID Digest} {e e' : Evidence ID Data Digest}

/-! ## Rows -/

/-- The row is marked, or has expired: its object may go. -/
def Row.Doomed (row : Row ID Data Digest) : Prop :=
  row.expiring = true ∨ row.availability = .expired

section WellFormed

variable [Content Data Digest]

/-- The reference is to an object of this resource. -/
def Resource.Owns (Data : Type) {Digest : Type} [Content Data Digest] (r : Resource ID)
    (ref : Ref ID Digest) : Prop :=
  ∃ data : Data, ref = r.object data

structure Row.WellFormed (r : Resource ID) (row : Row ID Data Digest) : Prop where
  own : ∀ ref, row.stored = some ref → r.Owns Data ref
  archived : row.availability = .archived → row.stored ≠ none
  marked : r.kind ≠ .importRecord → row.expiring = true → row.availability = .archived

end WellFormed

/-- A row that is doomed is not available, except for that of an import. -/
theorem Row.WellFormed.not_doomed [Content Data Digest] (formed : row.WellFormed r)
    (kind : r.kind ≠ .importRecord) (available : row.availability = .available) : ¬ row.Doomed := by
  rintro (expiring | expired)
  · have archived := formed.marked kind expiring
    rw [available] at archived
    cases archived
  · rw [available] at expired
    cases expired

/-- The evidence is there. -/
def present (availability : Availability) (_expiring : Bool) : Prop :=
  availability = .available

/-- The object is not to go. -/
def idle (availability : Availability) (expiring : Bool) : Prop :=
  expiring = false ∧ availability ≠ .expired

namespace Evidence

variable (e : Evidence ID Data Digest)

/-- The row was read at this revision, and said `P`. -/
def Snapshot (r : Resource ID) (revision : ℕ) (P : Availability → Bool → Prop) : Prop :=
  ∃ row, e.rows r = some row ∧ revision ≤ row.revision ∧
    (row.revision = revision → P row.availability row.expiring)

def Doomed (r : Resource ID) : Prop :=
  ∃ row, e.rows r = some row ∧ row.Doomed

/-- The publication was seen at this revision, and `P` holds unless it has changed since. -/
def Issued (key : Key ID Digest) (publication : ℕ) (P : Prop) : Prop :=
  ∃ p, e.publications key = some p ∧ publication ≤ p.revision ∧ (p.revision = publication → P)

/-- The last transaction of an archiver would accept the row. -/
def Current (r : Resource ID) (revision : ℕ) : Prop :=
  ∃ row, e.rows r = some row ∧ row.availability = .available ∧
    (r.kind.isHistory = false → row.revision = revision)

/-- The publication is locked by the transaction of the party. -/
def Locked (party : Party ID) (key : Key ID Digest) (p : Publication ID Digest) : Prop :=
  e.locks key = some party ∧ e.publications key = some p

end Evidence

/-! ## Stages -/

/-- The worker will delete the object, if nothing protects it. -/
def Stage.engaged : Stage ID Data Digest → Bool
  | .seen _ _ true | .rechecking _ _ | .deleting _ _ => true
  | _ => false

def Task.expires : Task ID Digest → Bool
  | .expireRawReport _ | .expireArchive _ => true
  | _ => false

variable [DecidableEq ID] [DecidableEq Digest] [Content Data Digest]

section Sound

variable (bound : Prop) (erased : Key ID Digest → Prop) (e : Evidence ID Data Digest)
  (r : Resource ID)

def Archiving (revision : ℕ) : Prop :=
  r.kind ≠ .importRecord ∧ e.Snapshot r revision present

/-- The object is there, or its deletion is not committed yet. -/
def Backed (data : Data) : Prop :=
  e.objects (r.object data).key ≠ none ∨ erased (r.object data).key

/-- The object of the publication is there when the last transaction of the archiver looks. -/
def Published (data : Data) (revision publication : ℕ) : Prop :=
  e.Issued (r.object data).key publication
    (bound → e.Current r revision → Backed erased e r data)

def Expiring (ref : Ref ID Digest) (revision : ℕ) : Prop :=
  r.Owns Data ref ∧ e.Snapshot r revision idle

def Engaged (ref : Ref ID Digest) : Prop :=
  r.Owns Data ref ∧ (e.rows r).isSome ∧ (bound → e.Doomed r)

/-- What is known at a stage.  Some of it is known only of a party that owns its run (`bound`). -/
def Sound (party : Party ID) (task : Task ID Digest) : Stage ID Data Digest → Prop
  | .inspected _ revision | .unprotected _ revision | .absent _ revision =>
    Archiving e task.resource revision
  | .existing data revision publication | .publishing data revision publication =>
    Archiving e task.resource revision ∧
      e.Issued (task.resource.object data).key publication True
  | .published data revision publication =>
    Archiving e task.resource revision ∧
      Published bound erased e task.resource data revision publication
  | .seen ref revision false | .verifying ref revision | .marking ref revision =>
    task.expires = true ∧ Expiring e task.resource ref revision
  | .seen ref _ true | .rechecking ref _ | .deleting ref _ =>
    task.expires = true ∧ Engaged bound e task.resource ref
  | .clearing _ _ => task.expires = true
  | .unreadable revision _ | .fetching _ revision | .forsaken revision _ | .restoring _ revision =>
    e.Snapshot task.resource revision idle
  | .locked p => ∃ key digest revision, task = .deleteOrphan key digest revision ∧
      e.Locked party key p
  | .unreferenced p | .condemned p | .deleted p _ =>
    ∃ key digest revision, task = .deleteOrphan key digest revision ∧
      e.Locked party key p ∧ e.referenced key = false
  | _ => True

end Sound

/-! ## Stability -/

namespace Evidence

section Writes

variable {key' : Key ID Digest} {object : Option Data} {p : Publication ID Digest}

omit [DecidableEq Digest] [Content Data Digest] in
theorem rows_setRow_self : (e.setRow r row).rows r = some row :=
  Function.update_self ..

omit [DecidableEq Digest] [Content Data Digest] in
theorem rows_setRow_ne (ne : r' ≠ r) : (e.setRow r row).rows r' = e.rows r' :=
  Function.update_of_ne ne ..

section

omit [Content Data Digest]

theorem objects_setObject_self : (e.setObject key object).objects key = object :=
  Function.update_self ..

theorem objects_setObject_ne (ne : key' ≠ key) :
    (e.setObject key object).objects key' = e.objects key' :=
  Function.update_of_ne ne ..

theorem publications_setPublication_self :
    (e.setPublication key p).publications key = some p :=
  Function.update_self ..

theorem publications_setPublication_ne (ne : key' ≠ key) :
    (e.setPublication key p).publications key' = e.publications key' :=
  Function.update_of_ne ne ..

end

omit [DecidableEq Digest] [Content Data Digest] in
theorem locks_unlock (ne : other ≠ party) (lock : e.locks key = some other) :
    (e.unlock party).locks key = some other := by
  change (e.locks key).filter _ = some other
  rw [lock, Option.filter_some, if_pos (decide_eq_true ne)]

end Writes

variable {publication revision : ℕ} {P P' : Prop}

omit [DecidableEq ID] [DecidableEq Digest] [Content Data Digest] in
theorem Issued.imp (issued : e.Issued key publication P) (imp : P → P') :
    e.Issued key publication P' := by
  obtain ⟨p, stored, le, holds⟩ := issued
  exact ⟨p, stored, le, fun same => imp (holds same)⟩

omit [DecidableEq ID] [DecidableEq Digest] [Content Data Digest] in
theorem Issued.congr (same : e'.publications = e.publications)
    (issued : e.Issued key publication P) : e'.Issued key publication P := by
  unfold Issued
  rw [same]
  exact issued

omit [Content Data Digest] in
theorem referenced_iff : e.referenced key = true ↔
    ∃ row ref, e.rows key.resource = some row ∧ row.stored = some ref ∧ ref.key = key := by
  unfold referenced
  simp only [Option.any_eq_true, decide_eq_true_eq]
  constructor
  · rintro ⟨row, stored, ref, refers, same⟩
    exact ⟨row, ref, stored, refers, same⟩
  · rintro ⟨row, ref, stored, refers, same⟩
    exact ⟨row, stored, ref, refers, same⟩

omit [Content Data Digest] in
theorem referenced_eq_false_of
    (refers : ∀ row' ref, e'.rows key.resource = some row' → row'.stored = some ref →
      ref.key = key → ∃ row, e.rows key.resource = some row ∧ row.stored = some ref)
    (unreferenced : e.referenced key = false) : e'.referenced key = false := by
  refine Bool.eq_false_of_not_eq_true fun referenced => ?_
  obtain ⟨row', ref, stored, refers', same⟩ := referenced_iff.mp referenced
  obtain ⟨row, stored, before⟩ := refers row' ref stored refers' same
  rw [referenced_iff.mpr ⟨row, ref, stored, before, same⟩] at unreferenced
  cases unreferenced

end Evidence

/-- A worker at a stage of an item for `r` keeps what it relies on, when the evidence changes. -/
structure Stable (bound : Prop) (erased erased' : Key ID Digest → Prop)
    (e e' : Evidence ID Data Digest) (party : Party ID) (r : Resource ID)
    (stage : Stage ID Data Digest) : Prop where
  snapshot : ∀ {revision P}, e.Snapshot r revision P → e'.Snapshot r revision P
  doomed : bound → stage.engaged = true → e.Doomed r → e'.Doomed r
  issued : ∀ {key publication}, e.Issued key publication True → e'.Issued key publication True
  published : ∀ {data revision publication}, stage = .published data revision publication →
    Archiving e r revision → Published bound erased e r data revision publication →
    Published bound erased' e' r data revision publication
  locked : ∀ {key p}, e.Locked party key p → e'.Locked party key p
  unreferenced : ∀ {key p}, e.Locked party key p → e.referenced key = false →
    e'.referenced key = false

section Stability

open Evidence

variable {bound bound' : Prop} {erased erased' erased₁ : Key ID Digest → Prop}
  {e₁ : Evidence ID Data Digest} {stage : Stage ID Data Digest}

theorem Archiving.stable {revision : ℕ}
    (stable : Stable bound erased erased' e e' party r stage)
    (archiving : Archiving e r revision) : Archiving e' r revision :=
  ⟨archiving.1, stable.snapshot archiving.2⟩

theorem Stable.trans (first : Stable bound erased erased₁ e e₁ party r stage)
    (second : Stable bound erased₁ erased' e₁ e' party r stage) :
    Stable bound erased erased' e e' party r stage where
  snapshot := second.snapshot ∘ first.snapshot
  doomed owner active := second.doomed owner active ∘ first.doomed owner active
  issued := second.issued ∘ first.issued
  published here archiving := second.published here (archiving.stable first) ∘
    first.published here archiving
  locked := second.locked ∘ first.locked
  unreferenced lock := second.unreferenced (first.locked lock) ∘ first.unreferenced lock

theorem Sound.stable {task : Task ID Digest}
    (stable : Stable bound' erased erased' e e' party task.resource stage)
    (owner : bound' → bound) (sound : Sound bound erased e party task stage) :
    Sound bound' erased' e' party task stage := by
  have locked {p : Publication ID Digest}
      (sound : ∃ key digest revision, task = .deleteOrphan key digest revision ∧
        e.Locked party key p ∧ e.referenced key = false) :
      ∃ key digest revision, task = .deleteOrphan key digest revision ∧
        e'.Locked party key p ∧ e'.referenced key = false := by
    obtain ⟨key, digest, revision, same, lock, unreferenced⟩ := sound
    exact ⟨key, digest, revision, same, stable.locked lock, stable.unreferenced lock unreferenced⟩
  have known (known : (e.rows task.resource).isSome) : (e'.rows task.resource).isSome := by
    obtain ⟨row, stored⟩ := Option.isSome_iff_exists.mp known
    have seen : e.Snapshot task.resource row.revision fun _ _ => True :=
      ⟨row, stored, le_rfl, fun _ => trivial⟩
    obtain ⟨row', stored', -⟩ := stable.snapshot seen
    exact Option.isSome_of_eq_some stored'
  have engaged {ref : Ref ID Digest} (active : stage.engaged = true)
      (sound : task.expires = true ∧ Engaged bound e task.resource ref) :
      task.expires = true ∧ Engaged bound' e' task.resource ref := by
    obtain ⟨expires, own, here, doomed⟩ := sound
    exact ⟨expires, own, known here, fun owns => stable.doomed owns active (doomed (owner owns))⟩
  cases stage with
  | inspected _ _ | unprotected _ _ | absent _ _ => exact Archiving.stable stable sound
  | existing _ _ _ | publishing _ _ _ =>
    exact ⟨sound.1.stable stable, stable.issued sound.2⟩
  | published data revision publication =>
    have published := sound.2.imp fun backed owns => backed (owner owns)
    exact ⟨sound.1.stable stable, stable.published rfl sound.1 published⟩
  | seen ref revision expiring =>
    cases expiring with
    | false => exact ⟨sound.1, sound.2.1, stable.snapshot sound.2.2⟩
    | true => exact engaged rfl sound
  | verifying _ _ | marking _ _ => exact ⟨sound.1, sound.2.1, stable.snapshot sound.2.2⟩
  | rechecking _ _ | deleting _ _ => exact engaged rfl sound
  | unreadable _ _ | fetching _ _ | forsaken _ _ | restoring _ _ => exact stable.snapshot sound
  | clearing _ _ => exact sound
  | locked p =>
    obtain ⟨key, digest, revision, same, lock⟩ := sound
    exact ⟨key, digest, revision, same, stable.locked lock⟩
  | unreferenced _ | condemned _ | deleted _ _ => exact locked sound
  | start | locating _ _ _ _ | expiring _ _ | locking | done _ | failed => trivial

/-- The rows do not change. -/
theorem Stable.of_rows (rows : e'.rows = e.rows)
    (issued : ∀ {key publication}, e.Issued key publication True → e'.Issued key publication True)
    (published : ∀ {data revision publication}, stage = .published data revision publication →
      Archiving e r revision → e.Issued (r.object data).key publication
        (bound → e.Current r revision → Backed erased e r data) →
      e'.Issued (r.object data).key publication
        (bound → e.Current r revision → Backed erased' e' r data))
    (locked : ∀ {key p}, e.Locked party key p → e'.Locked party key p) :
    Stable bound erased erased' e e' party r stage where
  snapshot seen := by
    unfold Evidence.Snapshot
    rw [rows]
    exact seen
  doomed _ _ doomed := by
    unfold Evidence.Doomed
    rw [rows]
    exact doomed
  issued := issued
  published {data revision publication} here archiving before := by
    have same : e'.Current r revision ↔ e.Current r revision := by
      unfold Evidence.Current
      rw [rows]
    exact (published here archiving before).imp fun backed owns current =>
      backed owns (same.mp current)
  locked := locked
  unreferenced _ unreferenced := by
    unfold Evidence.referenced
    rw [rows]
    exact unreferenced

/-- Nothing changes but locks. -/
theorem Stable.of_unchanged (mono : ∀ key, erased key → erased' key) (rows : e'.rows = e.rows)
    (objects : e'.objects = e.objects) (publications : e'.publications = e.publications)
    (locked : ∀ {key p}, e.Locked party key p → e'.Locked party key p) :
    Stable bound erased erased' e e' party r stage := by
  refine .of_rows rows (Issued.congr publications) (fun _ _ before => ?_) locked
  refine (Issued.congr publications before).imp fun backed owns current => ?_
  unfold Backed
  rw [objects]
  exact (backed owns current).imp_right (mono _)

/-- Less is known of a party that has lost its run. -/
theorem Sound.mono {task : Task ID Digest} (owner : bound' → bound)
    (sound : Sound bound erased e party task stage) : Sound bound' erased e party task stage :=
  sound.stable (.of_unchanged (fun _ => id) rfl rfl rfl id) owner

/-- A row is written, and gets a new revision. -/
theorem Stable.setRow (mono : ∀ key, erased key → erased' key) (stored : e.rows r = some row)
    (newer : row.revision < row'.revision)
    (unavailable : row'.availability = .available → r.kind.isHistory = false)
    (refers : ∀ ref, row'.stored = some ref →
      row.stored = some ref ∨ e.locks ref.key = none)
    (doomed : bound → stage.engaged = true → r' = r → row.Doomed → row'.Doomed) :
    Stable bound erased erased' e (e.setRow r row') party r' stage where
  snapshot {revision P} seen := by
    obtain ⟨row₀, stored₀, le, holds⟩ := seen
    by_cases here : r' = r
    · subst here
      obtain rfl := Option.some.inj (stored.symm.trans stored₀)
      have behind := le.trans_lt newer
      exact ⟨row', rows_setRow_self, behind.le, fun same => absurd same behind.ne'⟩
    · exact ⟨row₀, (rows_setRow_ne here).trans stored₀, le, holds⟩
  doomed owns active := by
    rintro ⟨row₀, stored₀, bad⟩
    by_cases here : r' = r
    · subst here
      obtain rfl := Option.some.inj (stored.symm.trans stored₀)
      exact ⟨row', rows_setRow_self, doomed owns active rfl bad⟩
    · exact ⟨row₀, (rows_setRow_ne here).trans stored₀, bad⟩
  issued issued := issued
  published _ archiving before := by
    refine before.imp fun backed owns current => ?_
    refine (backed owns ?_).imp_right (mono _)
    obtain ⟨row₀, stored₀, available, same⟩ := current
    by_cases here : r' = r
    · -- A row that becomes available again has a new revision, and the archiver knows an old one.
      subst here
      obtain rfl := Option.some.inj (rows_setRow_self.symm.trans stored₀)
      obtain ⟨-, row₁, stored₁, le, -⟩ := archiving
      obtain rfl := Option.some.inj (stored.symm.trans stored₁)
      exact absurd (same (unavailable available)) (le.trans_lt newer).ne'
    · exact ⟨row₀, (rows_setRow_ne here).symm.trans stored₀, available, same⟩
  locked lock := lock
  unreferenced {key p} lock := by
    refine referenced_eq_false_of fun row₀ ref stored₀ refers₀ same => ?_
    by_cases here : key.resource = r
    · subst here
      obtain rfl := Option.some.inj (rows_setRow_self.symm.trans stored₀)
      rcases refers ref refers₀ with before | free
      · exact ⟨row, stored, before⟩
      · rw [same, lock.1] at free
        cases free
    · exact ⟨row₀, (rows_setRow_ne here).symm.trans stored₀, refers₀⟩

omit [Content Data Digest] in
/-- What was known of a publication is forgotten with its new revision. -/
theorem Evidence.Issued.setPublication {key' : Key ID Digest} {p' : Publication ID Digest}
    {publication : ℕ} {P P' : Prop}
    (newer : ∀ p, e.publications key = some p → p.revision < p'.revision)
    (keeps : key' ≠ key → P → P') (issued : e.Issued key' publication P) :
    (e.setPublication key p').Issued key' publication P' := by
  obtain ⟨p, stored, le, holds⟩ := issued
  by_cases here : key' = key
  · subst here
    have behind := le.trans_lt (newer p stored)
    exact ⟨p', publications_setPublication_self, behind.le, fun same => absurd same behind.ne'⟩
  · refine ⟨p, ?_, le, fun same => keeps here (holds same)⟩
    exact (publications_setPublication_ne here).trans stored

/-- A publication is written that no other party has locked, and gets a new revision. -/
theorem Stable.setPublication {p' : Publication ID Digest}
    (mono : ∀ key', key' ≠ key → erased key' → erased' key') (ne : other ≠ party)
    (free : ∀ owner, e.locks key = some owner → owner = party)
    (newer : ∀ p, e.publications key = some p → p.revision < p'.revision) :
    Stable bound erased erased' e (e.setPublication key p') other r stage := by
  refine .of_rows rfl (Issued.setPublication newer fun _ => id) (fun _ _ => ?_) ?_
  · refine Issued.setPublication newer fun here backed owns current => ?_
    exact (backed owns current).imp_right (mono _ here)
  · rintro key' p ⟨lock, stored⟩
    have here : key' ≠ key := by
      rintro rfl
      exact ne (free other lock)
    exact ⟨lock, (publications_setPublication_ne here).trans stored⟩

end Stability

/-! ## Deeds -/

/-- A row as it is inserted. -/
structure Row.New (r : Resource ID) (row : Row ID Data Digest) : Prop where
  formed : row.WellFormed r
  available : row.availability = .available
  unmarked : row.expiring = false
  stored : row.stored = none ∨ r.kind = .importRecord

/-- Rows are inserted, payloads change and objects are put. -/
structure Evidence.Grows (e e' : Evidence ID Data Digest) : Prop where
  rows : ∀ r row, e.rows r = some row → ∃ payload, e'.rows r = some { row with payload }
  appears : ∀ r row, e.rows r = none → e'.rows r = some row → row.New r
  objects : ∀ key, e.objects key ≠ none → e'.objects key ≠ none
  digests : ∀ key data, e'.objects key = some data →
    e.objects key = some data ∨ key.digest = sha256 data
  publications : e'.publications = e.publications
  locks : e'.locks = e.locks

section Grows

open Evidence

omit [DecidableEq ID] [DecidableEq Digest] in
theorem Evidence.Grows.refl (e : Evidence ID Data Digest) : e.Grows e where
  rows _ row stored := ⟨row.payload, stored⟩
  appears _ _ absent stored := by
    rw [absent] at stored
    cases stored
  objects _ := id
  digests _ _ := .inl
  publications := rfl
  locks := rfl

theorem Evidence.Grows.setObject {data : Data} (grows : e.Grows e')
    (digest : key.digest = sha256 data) : e.Grows (e'.setObject key (some data)) where
  rows := grows.rows
  appears := grows.appears
  objects key' there := by
    by_cases here : key' = key
    · rw [here, objects_setObject_self]
      exact Option.some_ne_none data
    · rw [objects_setObject_ne here]
      exact grows.objects key' there
  digests key' data' stored := by
    by_cases here : key' = key
    · rw [here, objects_setObject_self] at stored
      rw [here, ← Option.some.inj stored]
      exact .inr digest
    · rw [objects_setObject_ne here] at stored
      exact grows.digests key' data' stored
  publications := grows.publications
  locks := grows.locks

omit [DecidableEq Digest] in
theorem Evidence.Grows.setRow (grows : e.Grows e') (fresh : e.rows r = none) (new : row.New r) :
    e.Grows (e'.setRow r row) where
  rows r' row' stored := by
    have here : r' ≠ r := by
      rintro rfl
      rw [fresh] at stored
      cases stored
    rw [rows_setRow_ne here]
    exact grows.rows r' row' stored
  appears r' row' absent stored := by
    by_cases here : r' = r
    · subst here
      obtain rfl := Option.some.inj (rows_setRow_self.symm.trans stored)
      exact new
    · exact grows.appears r' row' absent ((rows_setRow_ne here).symm.trans stored)
  objects := grows.objects
  digests := grows.digests
  publications := grows.publications
  locks := grows.locks

omit [DecidableEq Digest] in
theorem Evidence.Grows.alter {payload : Option Data} (stored : e.rows r = some row) :
    e.Grows (e.setRow r { row with payload }) where
  rows r' row' stored' := by
    by_cases here : r' = r
    · subst here
      obtain rfl := Option.some.inj (stored.symm.trans stored')
      exact ⟨payload, rows_setRow_self⟩
    · exact ⟨row'.payload, (rows_setRow_ne here).trans stored'⟩
  appears r' row' absent stored' := by
    have here : r' ≠ r := by
      rintro rfl
      rw [stored] at absent
      cases absent
    rw [rows_setRow_ne here, absent] at stored'
    cases stored'
  objects _ := id
  digests _ _ := .inl
  publications := rfl
  locks := rfl

end Grows

/-- What a worker at `stage` of an item for `r` may write. -/
inductive Deed (guarded : Prop) (party : Party ID) (r : Resource ID) (stage : Stage ID Data Digest)
    (e : Evidence ID Data Digest) : Evidence ID Data Digest → Prop
  | none : Deed guarded party r stage e e
  | grow {e' : Evidence ID Data Digest} (grows : e.Grows e') : Deed guarded party r stage e e'
  /-- The row changes, and keeps its reference. -/
  | row {row row' : Row ID Data Digest} (stored : e.rows r = some row)
      (newer : row.revision < row'.revision) (formed : row'.WellFormed r)
      (refers : row'.stored = row.stored) (related : row'.related = row.related)
      (unavailable : row'.availability = .available → r.kind.isHistory = false)
      (doomed : row.Doomed → row'.Doomed)
      (marked : row'.availability = .archived → row'.expiring = true)
      (marks : row'.expiring = true →
        row.expiring = true ∨ ∃ ref revision, stage = .marking ref revision) :
      Deed guarded party r stage e (e.setRow r row')
  | clear {reasons : List String} {outcome : String} {row : Row ID Data Digest}
      (here : stage = .clearing reasons outcome) (kind : r.kind.isHistory = false)
      (stored : e.rows r = some row) :
      Deed guarded party r stage e
        (e.setRow r { row with expiring := false, revision := row.revision + 1 })
  | archive {row : Row ID Data Digest} {data : Data} (kind : r.kind ≠ .importRecord)
      (stored : e.rows r = some row) (available : row.availability = .available)
      (free : e.locks (r.object data).key = .none)
      (backed : guarded → e.objects (r.object data).key ≠ .none) :
      Deed guarded party r stage e (e.setRow r (Work.archivedRow r row data))
  | publish {e₁ : Evidence ID Data Digest} {key : Key ID Digest} {p : Publication ID Digest}
      (deed : Deed guarded party r stage e e₁) (kind : key.resource.kind ≠ .importRecord)
      (free : e₁.locks key = .none)
      (newer : ∀ p₁, e₁.publications key = some p₁ → p₁.revision < p.revision) :
      Deed guarded party r stage e (e₁.setPublication key p)
  | erase {ref : Ref ID Digest} {revision : ℕ} (here : stage = .deleting ref revision)
      (own : r.Owns Data ref) (doomed : guarded → e.Doomed r) :
      Deed guarded party r stage e (e.setObject ref.key .none)
  | lock {key : Key ID Digest} (free : e.locks key = .none) :
      Deed guarded party r stage e (e.setLock key party)

/-- Archived evidence has its object. -/
def Evidence.Kept (e : Evidence ID Data Digest) : Prop :=
  ∀ r row ref, e.rows r = some row → row.availability = .archived → row.expiring = false →
    row.stored = some ref → e.objects ref.key ≠ none

/-- What holds of the evidence whatever the workers are at. -/
structure Evidence.Inv (guarded : Prop) (e : Evidence ID Data Digest) : Prop where
  rows : ∀ r row, e.rows r = some row → row.WellFormed r
  objects : ∀ key data, e.objects key = some data → key.digest = sha256 data
  publications : ∀ key p, e.publications key = some p → key.resource.kind ≠ .importRecord
  kept : guarded → e.Kept

section Deeds

open Evidence

variable {guarded bound : Prop} {erased erased' : Key ID Digest → Prop}
  {stage stage' : Stage ID Data Digest}

theorem Evidence.Grows.stable (grows : e.Grows e') (mono : ∀ key, erased key → erased' key)
    (publications : ∀ key p, e.publications key = some p → key.resource.kind ≠ .importRecord) :
    Stable bound erased erased' e e' party r stage where
  snapshot {revision P} seen := by
    obtain ⟨row, stored, le, holds⟩ := seen
    obtain ⟨payload, stored'⟩ := grows.rows r row stored
    exact ⟨_, stored', le, holds⟩
  doomed _ _ := by
    rintro ⟨row, stored, bad⟩
    obtain ⟨payload, stored'⟩ := grows.rows r row stored
    exact ⟨_, stored', bad⟩
  issued := Issued.congr grows.publications
  published {data revision publication} _ archiving before := by
    refine (Issued.congr grows.publications before).imp fun backed owns current => ?_
    refine (backed owns ?_).imp (grows.objects _) (mono _)
    obtain ⟨row', stored', available, same⟩ := current
    obtain ⟨-, row, stored, -⟩ := archiving
    obtain ⟨payload, stored''⟩ := grows.rows r row stored
    obtain rfl := Option.some.inj (stored''.symm.trans stored')
    exact ⟨row, stored, available, same⟩
  locked lock := by
    unfold Locked
    rw [grows.publications, grows.locks]
    exact lock
  unreferenced {key p} lock := by
    refine referenced_eq_false_of fun row' ref stored' refers _ => ?_
    cases stored : e.rows key.resource with
    | some row =>
      obtain ⟨payload, stored''⟩ := grows.rows _ row stored
      obtain rfl := Option.some.inj (stored''.symm.trans stored')
      exact ⟨row, rfl, refers⟩
    | none =>
      rcases (grows.appears _ row' stored stored').stored with empty | kind
      · rw [empty] at refers
        cases refers
      · exact absurd kind (publications key p lock.2)

/-- No deed disturbs another worker, unless it clears the mark that the other relies on. -/
theorem Stable.of_deed (deed : Deed guarded party r stage e e') (inv : e.Inv guarded)
    (mono : ∀ key, erased key → erased' key) (ne : other ≠ party) (owner : bound → guarded)
    (spared : ∀ reasons outcome, stage = .clearing reasons outcome → bound →
      stage'.engaged = true → r' ≠ r) :
    Stable bound erased erased' e e' other r' stage' := by
  induction deed with
  | none => exact .of_unchanged mono rfl rfl rfl id
  | grow grows => exact grows.stable mono inv.publications
  | row stored newer _ refers _ unavailable doomed _ _ =>
    refine .setRow mono stored newer unavailable (fun ref refers' => ?_) fun _ _ _ => doomed
    exact .inl (refers.symm.trans refers')
  | clear here kind stored =>
    refine .setRow mono stored (Nat.lt_succ_self _) (fun _ => kind) (fun ref refers => .inl refers)
      fun owns active same => ?_
    exact absurd same (spared _ _ here owns active)
  | @archive row data kind stored available free backed =>
    refine .setRow mono stored (Nat.lt_succ_self _) nofun (fun ref refers => ?_) ?_
    · obtain rfl := Option.some.inj refers
      exact .inr free
    · intro _ _ _ doomed
      exact absurd doomed ((inv.rows r row stored).not_doomed kind available)
  | @publish e₁ key p deed kind free newer stable =>
    refine stable.trans (.setPublication (fun _ _ => id) ne (fun owner lock => ?_) newer)
    rw [free] at lock
    cases lock
  | erase _ own doomed =>
    refine .of_rows rfl id (fun {data revision publication} _ archiving before => ?_) id
    refine before.imp fun backed owns current => ?_
    obtain ⟨data', rfl⟩ := own
    -- An archiver of the same resource knows its row to be available.
    have here : (r'.object data).key ≠ (r.object data').key := by
      intro same
      obtain rfl : r' = r := congrArg Key.resource same
      obtain ⟨row, stored, available, -⟩ := current
      obtain ⟨row₀, stored₀, bad⟩ := doomed (owner owns)
      obtain rfl := Option.some.inj (stored.symm.trans stored₀)
      exact (inv.rows r' row stored).not_doomed archiving.1 available bad
    unfold Backed
    rw [objects_setObject_ne here]
    exact (backed owns current).imp_right (mono _)
  | @lock key free =>
    refine .of_unchanged mono rfl rfl rfl fun {key' p} lock => ?_
    have here : key' ≠ key := by
      rintro rfl
      rw [lock.1] at free
      cases free
    exact ⟨(Function.update_of_ne here ..).trans lock.1, lock.2⟩

omit [DecidableEq Digest] [Content Data Digest] in
theorem Evidence.related_setRow {row₀ : Row ID Data Digest} (stored : e.rows r' = some row)
    (stored₀ : e.rows r = some row₀) (same : row'.related = row₀.related) :
    ∃ row₁, (e.setRow r row').rows r' = some row₁ ∧ row₁.related = row.related := by
  by_cases here : r' = r
  · subst here
    obtain rfl := Option.some.inj (stored.symm.trans stored₀)
    exact ⟨row', rows_setRow_self, same⟩
  · exact ⟨row, (rows_setRow_ne here).trans stored, rfl⟩

/-- The rows of a resource keep what it is related to. -/
theorem Deed.related (deed : Deed guarded party r stage e e') (stored : e.rows r' = some row) :
    ∃ row', e'.rows r' = some row' ∧ row'.related = row.related := by
  induction deed with
  | none | erase _ _ _ | lock _ => exact ⟨row, stored, rfl⟩
  | grow grows =>
    obtain ⟨payload, stored'⟩ := grows.rows r' row stored
    exact ⟨_, stored', rfl⟩
  | row stored₀ _ _ _ same _ _ _ _ => exact related_setRow stored stored₀ same
  | clear _ _ stored₀ | archive _ stored₀ _ _ _ => exact related_setRow stored stored₀ rfl
  | publish _ _ _ _ ih => exact ih

omit [DecidableEq Digest] in
theorem Evidence.Inv.setRow (inv : e.Inv guarded) (formed : row'.WellFormed r)
    (kept : guarded → row'.availability = .archived → row'.expiring = false →
      ∀ ref, row'.stored = some ref → e.objects ref.key ≠ none) :
    (e.setRow r row').Inv guarded where
  rows r' row stored := by
    by_cases here : r' = r
    · subst here
      obtain rfl := Option.some.inj (rows_setRow_self.symm.trans stored)
      exact formed
    · exact inv.rows r' row ((rows_setRow_ne here).symm.trans stored)
  objects := inv.objects
  publications := inv.publications
  kept active r' row ref stored archived idle refers := by
    by_cases here : r' = r
    · subst here
      obtain rfl := Option.some.inj (rows_setRow_self.symm.trans stored)
      exact kept active archived idle ref refers
    · have stored := (rows_setRow_ne here).symm.trans stored
      exact inv.kept active r' row ref stored archived idle refers

/-- An object goes only if the worker is about to delete it. -/
theorem Deed.gone (deed : Deed guarded party r stage e e') (there : e.objects key ≠ .none)
    (gone : e'.objects key = .none) :
    ∃ ref revision, stage = .deleting ref revision ∧ r.Owns Data ref ∧ key = ref.key := by
  induction deed with
  | none | lock _ | row _ _ _ _ _ _ _ _ _ | clear _ _ _ | archive _ _ _ _ _ =>
    exact absurd gone there
  | grow grows => exact absurd gone (grows.objects key there)
  | publish _ _ _ _ ih => exact ih gone
  | @erase ref revision here own _ =>
    by_cases same : key = ref.key
    · exact ⟨ref, revision, here, own, same⟩
    · rw [objects_setObject_ne same] at gone
      exact absurd gone there

/-- Nobody else's lock is taken away. -/
theorem Deed.locks (deed : Deed guarded party r stage e e') (lock : e.locks key = some other) :
    e'.locks key = some other := by
  induction deed with
  | none | erase _ _ _ | row _ _ _ _ _ _ _ _ _ | clear _ _ _ | archive _ _ _ _ _ => exact lock
  | grow grows => rwa [grows.locks]
  | publish _ _ _ _ ih => exact ih
  | @lock key' free =>
    have here : key ≠ key' := by
      rintro rfl
      rw [free] at lock
      cases lock
    exact (Function.update_of_ne here ..).trans lock

theorem Evidence.Inv.setPublication {p : Publication ID Digest} (inv : e.Inv guarded)
    (kind : key.resource.kind ≠ .importRecord) :
    (e.setPublication key p).Inv guarded where
  rows := inv.rows
  objects := inv.objects
  publications key' p' stored := by
    by_cases here : key' = key
    · rw [here]
      exact kind
    · exact inv.publications key' p' ((publications_setPublication_ne here).symm.trans stored)
  kept := inv.kept

/-- An object may go that no archived row refers to. -/
theorem Evidence.Inv.erase (inv : e.Inv guarded)
    (spare : guarded → ∀ row ref, e.rows key.resource = some row → row.availability = .archived →
      row.expiring = false → row.stored = some ref → ref.key ≠ key) :
    (e.setObject key none).Inv guarded where
  rows := inv.rows
  objects key' data stored := by
    by_cases here : key' = key
    · rw [here, objects_setObject_self] at stored
      cases stored
    · exact inv.objects key' data ((objects_setObject_ne here).symm.trans stored)
  publications := inv.publications
  kept active r row ref stored archived idle refers := by
    have here : ref.key ≠ key := by
      intro same
      obtain ⟨data, rfl⟩ := (inv.rows r row stored).own ref refers
      rw [← same] at spare
      exact spare active row _ stored archived idle refers rfl
    rw [objects_setObject_ne here]
    exact inv.kept active r row ref stored archived idle refers

omit [DecidableEq ID] [DecidableEq Digest] in
theorem Evidence.Inv.grows (inv : e.Inv guarded) (grows : e.Grows e') : e'.Inv guarded := by
  have known {r : Resource ID} {row' : Row ID Data Digest} (stored' : e'.rows r = some row') :
      (∃ row payload, e.rows r = some row ∧ row' = { row with payload }) ∨ row'.New r := by
    cases stored : e.rows r with
    | none => exact .inr (grows.appears r row' stored stored')
    | some row =>
      obtain ⟨payload, same⟩ := grows.rows r row stored
      exact .inl ⟨row, payload, rfl, Option.some.inj (stored'.symm.trans same)⟩
  constructor
  · intro r row' stored'
    rcases known stored' with ⟨row, payload, stored, rfl⟩ | new
    · have formed := inv.rows r row stored
      exact ⟨formed.own, formed.archived, formed.marked⟩
    · exact new.formed
  · intro key data stored
    rcases grows.digests key data stored with before | same
    · exact inv.objects key data before
    · exact same
  · rw [grows.publications]
    exact inv.publications
  · intro active r row' ref stored' archived idle refers
    rcases known stored' with ⟨row, payload, stored, rfl⟩ | new
    · exact grows.objects _ (inv.kept active r row ref stored archived idle refers)
    · rw [new.available] at archived
      cases archived

/-- The evidence stays well formed, and archived evidence keeps its object. -/
theorem Evidence.Inv.of_deed (inv : e.Inv guarded) (deed : Deed guarded party r stage e e')
    (there : ∀ reasons outcome row ref, stage = .clearing reasons outcome → guarded →
      e.rows r = some row → row.stored = some ref → e.objects ref.key ≠ none) :
    e'.Inv guarded := by
  induction deed with
  | none => exact inv
  | lock _ => exact ⟨inv.rows, inv.objects, inv.publications, inv.kept⟩
  | grow grows => exact inv.grows grows
  | row stored newer formed refers _ _ _ marked _ =>
    refine inv.setRow formed fun _ archived idle => ?_
    rw [marked archived] at idle
    cases idle
  | clear here kind stored =>
    have formed := inv.rows r _ stored
    refine inv.setRow ⟨formed.own, formed.archived, fun _ => nofun⟩ fun active _ _ ref refers => ?_
    exact there _ _ _ ref here active stored refers
  | archive kind stored available free backed =>
    refine inv.setRow ⟨?_, fun _ => nofun, fun _ => nofun⟩ fun active _ _ ref refers => ?_
    · intro ref refers
      exact ⟨_, (Option.some.inj refers).symm⟩
    · obtain rfl := Option.some.inj refers
      exact backed active
  | publish deed kind free newer ih => exact ih.setPublication kind
  | erase _ own doomed =>
    obtain ⟨data, rfl⟩ := own
    refine inv.erase fun active row ref stored archived idle _ _ => ?_
    obtain ⟨row', stored', bad⟩ := doomed active
    obtain rfl := Option.some.inj (stored.symm.trans stored')
    rcases bad with expiring | expired
    · rw [idle] at expiring
      cases expiring
    · rw [archived] at expired
      cases expired

end Deeds

end Aspm.Retention
