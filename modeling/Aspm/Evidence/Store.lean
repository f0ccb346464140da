import Aspm.Evidence.Reader
import Aspm.Lib.Fallible

/-!
# The evidence bucket

`Put` stores what it read under a key that names the workspace, the object and the digest, and
returns a reference to it.  `PrepareReadiness` creates a probe where nothing is stored yet.  `Open`
takes a reference that a caller brings back.

The keys carry the argument.  A workspace has no slash in it, so a key lies in the scope of one
workspace only (`workspaces_isolated`); and a key ends with a digest, whose length is fixed, so
whatever is written there later has the digest of the reference (`references_open`).
-/

namespace Aspm.EvidenceReader

open Json (Text byteLength)
open Strings (split)
open Fallible

def validPart (t : Text) : Bool := safeSegment t && t ≠ ['.'] && t ≠ ['.', '.']

def validPrefix (t : Text) : Bool :=
  t ≠ [] && t.getLast? = some '/' && t.head? ≠ some '/' && (split '/' t.dropLast).all validPart

/-- An opened store, with SHA-256 in hexadecimal digits. -/
structure Store extends Config where
  valid : validPrefix keyPrefix = true
  hexDigest : List UInt8 → Text
  pattern : ∀ bytes, digestPattern (sumText hexDigest bytes) = true

/-- The objects of the bucket.  `stored` records what `Put` wrote for which workspace, and
`returned` the references it returned for which bytes; nothing reads them. -/
structure Bucket where
  objects : Text → Option (List UInt8)
  stored : List (Text × Text × List UInt8)
  returned : List (List UInt8 × Ref)

/-- What comes of `PutObject`.  The object may be stored and the answer lost. -/
inductive Publication where
  | done
  | lost (e : Error)
  | refused (e : Error)
deriving DecidableEq

/-- A call of `Put`, and what it meets: failures of the temporary file, and the answers of the
service.  The input is its bytes and the error it ends with, if that is not `io.EOF`. -/
structure Upload where
  workspace : Text
  objectID : Text
  input : Option (List UInt8 × Option Error)
  size : ℤ
  creating : Option Error
  rewinding : Option Error
  publication : Publication
  head : Except Error ℤ
  cleanup : Option Error

/-- `Put` up to its temporary file. -/
def Upload.accept (u : Upload) : Except Error (List UInt8 × Option Error) := do
  check .invalid (safeSegment u.workspace && safeSegment u.objectID && 0 ≤ u.size &&
    u.size ≤ 8589934592)
  let input ← present .invalid u.input
  absent (u.creating.map .wrapped)
  return input

/-- The copy to the temporary file.  It stops after one byte more than declared, and so before an
error that comes later. -/
def Upload.stage (u : Upload) (input : List UInt8 × Option Error) : Except Error (List UInt8) := do
  let data := input.1.take (u.size.toNat + 1)
  absent (if input.1.length ≤ u.size.toNat then input.2.map .wrapped else none)
  check (.wrapped .integrity) (data.length = u.size)
  absent (u.rewinding.map .wrapped)
  return data

def readinessMarker : List UInt8 :=
  "ASPM scoped readiness probe v1\n".toList.map fun c => UInt8.ofNat c.toNat

variable (store : Store)

def Store.key (workspace objectID : Text) (data : List UInt8) : Text :=
  store.keyPrefix ++ (workspace ++ '/' :: (objectID ++ '/' :: store.hexDigest data))

def Store.ref (workspace objectID : Text) (data : List UInt8) : Ref where
  workspaceID := workspace
  bucket := store.bucket
  key := store.key workspace objectID data
  sha256 := sumText store.hexDigest data
  sizeBytes := data.length

namespace Bucket

def empty : Bucket := ⟨fun _ => none, [], []⟩

def write (b : Bucket) (w o : Text) (data : List UInt8) : Bucket :=
  { b with
    objects := Function.update b.objects (store.key w o data) (some data)
    stored := (w, store.key w o data, data) :: b.stored }

theorem objects_write (b : Bucket) (w o : Text) (data : List UInt8) :
    (b.write store w o data).objects =
      Function.update b.objects (store.key w o data) (some data) := rfl

/-- `Put` once the input is in its file. -/
def publish (b : Bucket) (u : Upload) (data : List UInt8) : Except Error Ref × Bucket :=
  let written := b.write store u.workspace u.objectID data
  match u.publication, u.head with
  | .refused e, _ => (.error (.wrapped e), b)
  | .lost e, _ => (.error (.wrapped e), written)
  | .done, .error e => (.error (.wrapped e), written)
  | .done, .ok length =>
    if length ≠ u.size then (.error .integrity, written)
    else (.ok { store.ref u.workspace u.objectID data with sizeBytes := u.size }, written)

/-- The end of `Put`: the temporary file is removed, and an error takes the reference back. -/
def finish (data : List UInt8) (cleanup : Option Error) :
    Except Error Ref × Bucket → Except Error Ref × Bucket
  | (.error e, b) => (.error ((join (some e) cleanup).getD e), b)
  | (.ok ref, b) =>
    match cleanup with
    | some e => (.error (.wrapped e), b)
    | none => (.ok ref, { b with returned := (data, ref) :: b.returned })

def put (b : Bucket) (u : Upload) : Except Error Ref × Bucket :=
  match u.accept with
  | .error e => (.error e, b)
  | .ok input =>
    match u.stage input with
    | .error e => finish [] u.cleanup (.error e, b)
    | .ok data => finish data u.cleanup (b.publish store u data)

/-- `PrepareReadiness` up to its own reading of the probe.  The object is created only if there is
none (`If-None-Match`), and if the service gets to it. -/
def prepareReadiness (b : Bucket) (key : Text) (served : Bool) : Bucket :=
  if byteLength key ≤ 1024 && store.keyPrefix.length < key.length &&
      store.keyPrefix.isPrefixOf key && (split '/' key).all validPart && served &&
      (b.objects key).isNone then
    { b with objects := Function.update b.objects key (some readinessMarker) }
  else b

inductive Action where
  | put (u : Upload)
  | prepareReadiness (key : Text) (served : Bool)

def apply (b : Bucket) : Action → Bucket
  | .put u => (b.put store u).2
  | .prepareReadiness key served => b.prepareReadiness store key served

/-- The bucket after any calls, of which many may fail. -/
def after (actions : List Action) : Bucket := actions.foldl (apply store) empty

end Bucket

/-! ## Keys -/

/-- What a segment of a key is like, to `Open`. -/
structure Segment (t : Text) : Prop where
  slash : '/' ∉ t
  backslash : '\\' ∉ t
  dot : t.head? ≠ some '.'

theorem segment_of_safe {t : Text} (safe : safeSegment t = true) : Segment t := by
  cases t with
  | nil => cases safe
  | cons c rest =>
    simp only [safeSegment, Bool.and_eq_true, List.all_eq_true] at safe
    obtain ⟨⟨first, -⟩, others⟩ := safe
    have free : ∀ d, isAlphanumeric d = false → d ∉ ['.', '_', '-'] → d ∉ c :: rest := by
      rintro d other outside (_ | ⟨_, mem⟩)
      · exact Bool.false_ne_true (other.symm.trans first)
      · simpa [other, outside] using others d mem
    refine ⟨free '/' (by decide) (by decide), free '\\' (by decide) (by decide), ?_⟩
    rintro ⟨⟩
    exact absurd first (by decide)

/-- In a path of segments nothing starts with a dot, and there is no backslash. -/
theorem path_of_segments {parts : List Text} (each : ∀ part ∈ parts, Segment part) :
    '\\' ∉ Strings.join '/' parts ∧
      ('/' :: Strings.join '/' parts).IsChain (fun a b => a = '/' → b ≠ '.') := by
  induction parts with
  | nil => exact ⟨List.not_mem_nil, List.isChain_singleton _⟩
  | cons a parts ih =>
    obtain ⟨slash, backslash, dot⟩ := each a List.mem_cons_self
    have chain : ('/' :: a).IsChain (fun a b => a = '/' → b ≠ '.') := by
      refine List.isChain_cons.mpr ⟨fun c first _ same => dot (same ▸ first), ?_⟩
      refine (List.pairwise_iff_forall_sublist.mpr fun sub same => ?_).isChain
      exact absurd (same ▸ sub.subset List.mem_cons_self) slash
    cases parts with
    | nil => simpa [Strings.join] using ⟨backslash, chain⟩
    | cons b parts =>
      obtain ⟨backslash', chain'⟩ := ih fun part mem => each part (List.mem_cons_of_mem _ mem)
      have both := chain.append chain' (by rintro x - _ ⟨⟩ -; decide)
      rw [Strings.join] at backslash' both ⊢
      rw [List.intercalate_cons_cons]
      exact ⟨by simp [backslash, backslash'], by simpa using both⟩

namespace Store

theorem hexDigest_pattern (data : List UInt8) :
    (store.hexDigest data).length = 64 ∧ Segment (store.hexDigest data) := by
  have pattern := store.pattern data
  have after : (sumText store.hexDigest data).drop 7 = store.hexDigest data := rfl
  simp only [digestPattern, after, Bool.and_eq_true, decide_eq_true_eq, List.all_eq_true] at pattern
  obtain ⟨⟨-, length⟩, hex⟩ := pattern
  exact ⟨length, fun mem => absurd (hex _ mem) (by decide),
    fun mem => absurd (hex _ mem) (by decide),
    fun first => absurd (hex _ (List.mem_of_mem_head? first)) (by decide)⟩

variable {store} {w o w' o' : Text} {data data' : List UInt8}

/-- A key is a path of segments. -/
theorem key_eq_join (data : List UInt8) (workspace : safeSegment w = true)
    (object : safeSegment o = true) :
    ∃ parts, (∀ part ∈ parts, Segment part) ∧ store.key w o data = Strings.join '/' parts := by
  have valid := store.valid
  simp only [validPrefix, validPart, Bool.and_eq_true, decide_eq_true_eq, List.all_eq_true] at valid
  obtain ⟨⟨⟨-, last⟩, -⟩, parts⟩ := valid
  refine ⟨split '/' store.keyPrefix.dropLast ++ [w, o, store.hexDigest data],
    fun part mem => ?_, ?_⟩
  · rcases List.mem_append.mp mem with first | last
    · exact segment_of_safe (parts part first).1.1
    · simp only [List.mem_cons, List.not_mem_nil, or_false] at last
      rcases last with rfl | rfl | rfl
      · exact segment_of_safe workspace
      · exact segment_of_safe object
      · exact (store.hexDigest_pattern data).2
  rw [split, Strings.join_append (List.splitOn_ne_nil _ _) (by simp), Strings.join,
    List.intercalate_splitOn, List.append_cons, List.dropLast_append_getLast? _ last]
  simp [key, Strings.join]

theorem hexDigest_eq_of_key (same : store.key w o data = store.key w' o' data') :
    store.hexDigest data = store.hexDigest data' := by
  have split : ∀ w o data, store.key w o data =
      (store.keyPrefix ++ (w ++ '/' :: (o ++ ['/']))) ++ store.hexDigest data := by simp [key]
  rw [split, split] at same
  exact (List.append_inj' same (by
    rw [(store.hexDigest_pattern data).1, (store.hexDigest_pattern data').1])).2

/-- A key is in the scope of its own workspace alone. -/
theorem workspace_eq_of_prefix (safe : safeSegment w = true) (safe' : safeSegment w' = true)
    (scope : store.keyPrefix ++ w' ++ ['/'] <+: store.key w o data) : w' = w := by
  obtain ⟨rest, same⟩ := scope
  rw [key, List.append_assoc, List.append_assoc, List.append_cancel_left_eq,
    List.singleton_append] at same
  have cut := congrArg (Strings.cut '/') same
  rw [Strings.cut_append_cons (segment_of_safe safe').slash,
    Strings.cut_append_cons (segment_of_safe safe).slash] at cut
  exact (Prod.mk.inj (Option.some.inj cut)).1

/-- `Open` accepts the references of `Put`. -/
theorem openRef_ref {β : Type} (body : Body β) (source : β) (workspace : safeSegment w = true)
    (object : safeSegment o = true) :
    openRef body store.toConfig w (store.ref w o data) (.ok (data.length, source)) =
      .ok (.opened (store.ref w o data) source) := by
  obtain ⟨parts, each, path⟩ := key_eq_join data workspace object
  obtain ⟨backslash, chain⟩ := path_of_segments each
  rw [← path] at backslash chain
  have dots : ∀ t : Text, ['/', '.'] <+: t → ¬ t <:+: store.key w o data := by
    intro t dotted inside
    have chain := chain.infix ((dotted.isInfix.trans inside).trans (List.suffix_cons _ _).isInfix)
    exact (List.isChain_cons_cons.mp chain).1 rfl rfl
  have scope : store.keyPrefix ++ (w ++ ['/']) <+: store.key w o data :=
    ⟨o ++ '/' :: store.hexDigest data, by simp [key]⟩
  have size : ¬ (data.length : ℤ) < 0 := by omega
  rw [openRef, if_neg, if_neg]
  · simp [ref]
  · simp [ref, store.pattern, size]
  · simp [ref, workspace, scope, backslash, dots ['/', '.', '.', '/'] (by decide),
      dots ['/', '.', '/'] (by decide)]

end Store

/-! ## Runs -/

namespace Bucket

structure Inv (b : Bucket) : Prop where
  written : ∀ k bytes, b.objects k = some bytes → bytes = readinessMarker ∨
    ∃ w o, safeSegment w = true ∧ k = store.key w o bytes ∧ (w, k, bytes) ∈ b.stored
  kept : ∀ data ref, (data, ref) ∈ b.returned → ∃ w o, safeSegment w = true ∧
    safeSegment o = true ∧ ref = store.ref w o data ∧
    ∃ bytes, b.objects ref.key = some bytes ∧ store.hexDigest bytes = store.hexDigest data

variable {store} {b : Bucket}

theorem Inv.write (inv : b.Inv store) {w : Text} (safe : safeSegment w = true) (o : Text)
    (data : List UInt8) : (b.write store w o data).Inv store where
  written k bytes found := by
    rw [objects_write, Function.update_apply] at found
    split at found
    case isTrue same =>
      obtain rfl := Option.some.inj found
      exact .inr ⟨w, o, safe, same, by rw [same]; exact List.mem_cons_self⟩
    case isFalse =>
      refine (inv.written k bytes found).imp_right ?_
      exact fun ⟨w', o', safe', key, mem⟩ => ⟨w', o', safe', key, List.mem_cons_of_mem _ mem⟩
  kept data' ref mem := by
    obtain ⟨w', o', workspace, object, rfl, bytes, found, digest⟩ := inv.kept data' ref mem
    refine ⟨w', o', workspace, object, rfl, ?_⟩
    rw [objects_write, Function.update_apply]
    split
    case isTrue same => exact ⟨data, rfl, (Store.hexDigest_eq_of_key same).symm⟩
    case isFalse => exact ⟨bytes, found, digest⟩

/-- What a `Put` does to the bucket: nothing, an object, or an object and a reference. -/
theorem put_cases (store : Store) (b : Bucket) (u : Upload) : (b.put store u).2 = b ∨
    safeSegment u.workspace = true ∧ safeSegment u.objectID = true ∧ ∃ data,
      ((b.put store u).2 = b.write store u.workspace u.objectID data ∨
        (b.put store u).2 = { b.write store u.workspace u.objectID data with
          returned := (data, store.ref u.workspace u.objectID data) :: b.returned }) := by
  rw [put]
  split
  · exact .inl rfl
  next input accepted =>
  split
  · exact .inl rfl
  next data staged =>
  simp only [Upload.accept, bind_eq_ok, check_eq_ok, Bool.and_eq_true] at accepted
  obtain ⟨-, ⟨⟨⟨workspace, object⟩, -⟩, -⟩, -⟩ := accepted
  simp only [Upload.stage, bind_eq_ok, check_eq_ok, pure_eq_ok, decide_eq_true_eq] at staged
  obtain ⟨-, -, -, size, -, -, same⟩ := staged
  rw [same] at size
  unfold publish
  split
  · exact .inl rfl
  all_goals refine .inr ⟨workspace, object, data, ?_⟩
  · exact .inl rfl
  · exact .inl rfl
  · split
    · exact .inl rfl
    simp only [finish]
    split
    · exact .inl rfl
    · exact .inr (by rw [← size]; rfl)

theorem Inv.apply (inv : b.Inv store) (a : Action) : (b.apply store a).Inv store := by
  cases a with
  | put u =>
    rw [Bucket.apply]
    rcases put_cases store b u with same | ⟨workspace, object, data, written | returned⟩
    · rwa [same]
    · rw [written]
      exact inv.write workspace _ data
    · have next := inv.write workspace u.objectID data
      rw [returned]
      refine ⟨next.written, fun data' ref mem => ?_⟩
      rcases List.mem_cons.mp mem with new | old
      · obtain ⟨rfl, rfl⟩ := new
        exact ⟨_, _, workspace, object, rfl, _, Function.update_self .., rfl⟩
      · exact next.kept data' ref old
  | prepareReadiness key served =>
    rw [Bucket.apply, prepareReadiness]
    split
    case isFalse => exact inv
    case isTrue creates =>
      simp only [Bool.and_eq_true, Option.isNone_iff_eq_none] at creates
      refine ⟨fun k bytes found => ?_, fun data ref mem => ?_⟩
      · simp only [Function.update_apply] at found
        split at found
        · exact .inl (Option.some.inj found).symm
        · exact inv.written k bytes found
      · obtain ⟨w, o, workspace, object, rfl, bytes, found, digest⟩ := inv.kept data ref mem
        refine ⟨w, o, workspace, object, rfl, bytes, ?_, digest⟩
        -- a reference has an object, and the probe is created where there is none
        have other : (store.ref w o data).key ≠ key := by
          rintro rfl
          cases creates.2.symm.trans found
        simpa only [Function.update_of_ne other] using found

theorem inv_after (actions : List Action) : (after store actions).Inv store :=
  List.foldlRecOn actions _
    ⟨fun _ _ found => (by cases found), fun _ _ mem => absurd mem List.not_mem_nil⟩
    fun _ inv a _ => inv.apply a

/-- Every reference that was returned is accepted by `Open` and still has an object, with the
digest of the bytes that were put. -/
def ReferencesOpen (store : Store) (b : Bucket) : Prop :=
  ∀ data ref, (data, ref) ∈ b.returned → ref.Matches store.hexDigest data ∧
    (∃ bytes, b.objects ref.key = some bytes ∧ store.hexDigest bytes = store.hexDigest data) ∧
    ∀ (β : Type) (body : Body β) (source : β),
      openRef body store.toConfig ref.workspaceID ref (.ok (data.length, source)) =
        .ok (.opened ref source)

/-- **References stay good.** -/
theorem references_open (store : Store) (actions : List Action) :
    ReferencesOpen store (after store actions) := by
  intro data ref mem
  obtain ⟨w, o, workspace, object, rfl, bytes, found, digest⟩ :=
    (inv_after actions).kept data ref mem
  exact ⟨⟨rfl, rfl⟩, ⟨bytes, found, digest⟩,
    fun _ body source => Store.openRef_ref body source workspace object⟩

/-- Whatever reference a workspace opens, the object is one that `Put` stored for that workspace,
or a readiness probe. -/
def Isolated (store : Store) (b : Bucket) : Prop :=
  ∀ (β : Type) (body : Body β) workspace ref length source session bytes,
    b.objects ref.key = some bytes →
    openRef body store.toConfig workspace ref (.ok (length, source)) = .ok session →
    (workspace, ref.key, bytes) ∈ b.stored ∨ bytes = readinessMarker

/-- **Workspaces are isolated.** -/
theorem workspaces_isolated (store : Store) (actions : List Action) :
    Isolated store (after store actions) := by
  intro β body workspace ref length source session bytes found opened
  refine ((inv_after actions).written ref.key bytes found).symm.imp_left ?_
  rintro ⟨w, o, safe, key, mem⟩
  rw [openRef] at opened
  split at opened
  case isTrue => cases opened
  case isFalse accepted =>
    simp only [Bool.or_eq_true, not_or, Bool.not_eq_true', Bool.not_eq_false] at accepted
    obtain ⟨⟨⟨⟨⟨⟨safe', -⟩, -⟩, scope⟩, -⟩, -⟩, -⟩ := accepted
    rw [key, List.isPrefixOf_iff_prefix] at scope
    rwa [Store.workspace_eq_of_prefix safe safe' scope]

end Bucket

end Aspm.EvidenceReader
