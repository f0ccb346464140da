import Aspm.Storage.Policy

/-!
# Roles do not reach each other's keys

An action is read as the object store reads it: the verb before the colon, the bucket before the
slash, and the keys that begin with what stands before the star.  `can_iff` says what a role may do
in terms of the prefixes; the rest is that no key begins with two of them.
-/

namespace Aspm.Storage

open Json (Text)

variable {bucket key : Text} {identities : List Identity} {verb : Verb}

/-! ## Reading actions -/

structure Grant where
  verb : Verb
  bucket : Text
  scope : Text
deriving DecidableEq

def verbOf (name : Text) : Option Verb :=
  if name = Verb.read.name then some .read
  else if name = Verb.write.name then some .write
  else none

/-- A text cut at the first separator. -/
def cutAt (separator : Char) (t : Text) : Option (Text × Text) :=
  match t.span (· ≠ separator) with
  | (_, []) => none
  | (before, _ :: after) => some (before, after)

/-- `Verb:bucket/prefix*`. -/
def grantOf (action : Text) : Option Grant := do
  let (name, rest) ← cutAt ':' action
  let verb ← verbOf name
  let (bucket, scope) ← cutAt '/' rest
  if scope.getLast? = some '*' then some ⟨verb, bucket, scope.dropLast⟩ else none

/-- The role may use the verb on the key. -/
def Can (identities : List Identity) (name : Text) (verb : Verb) (bucket key : Text) : Prop :=
  ∃ identity ∈ identities, identity.name = name ∧
    ∃ act ∈ identity.actions, ∃ grant, grantOf act = some grant ∧ grant.verb = verb ∧
      grant.bucket = bucket ∧ grant.scope <+: key

theorem cutAt_append {separator : Char} {before : Text} (free : separator ∉ before) (after : Text) :
    cutAt separator (before ++ separator :: after) = some (before, after) := by
  have passed : ∀ c ∈ before, decide (c ≠ separator) = true := fun c mem =>
    decide_eq_true fun same => free (same ▸ mem)
  rw [cutAt, List.span_eq_takeWhile_dropWhile, List.takeWhile_append_of_pos passed,
    List.dropWhile_append_of_pos passed, List.takeWhile_cons_of_neg (by simp),
    List.dropWhile_cons_of_neg (by simp), List.append_nil]

theorem grantOf_action (verb : Verb) (free : '/' ∉ bucket) (scope : Text) :
    grantOf (action verb bucket scope) = some ⟨verb, bucket, scope⟩ := by
  have name : cutAt ':' (action verb bucket scope) =
      some (verb.name, bucket ++ '/' :: (scope ++ ['*'])) :=
    cutAt_append (by cases verb <;> decide) _
  have named : verbOf verb.name = some verb := by cases verb <;> rfl
  simp [grantOf, name, named, cutAt_append free]

theorem slash_not_mem_of_validBucket (valid : validBucket bucket = true) : '/' ∉ bucket := by
  intro mem
  simp only [validBucket, bucketPattern, Bool.and_eq_true, List.all_eq_true] at valid
  exact absurd (valid.1.1.1.1.1.1.2 '/' mem) (by decide)

/-! ## Prefixes -/

/-- No key begins with two separate prefixes. -/
theorem Separate.disjoint {a b : Text} (separate : Separate a b) (left : a <+: key) :
    ¬ b <+: key := by
  intro right
  rcases List.prefix_or_prefix_of_prefix left right with ab | ba
  · exact separate.1 ab
  · exact separate.2 ba

theorem Separate.symm {a b : Text} (separate : Separate a b) : Separate b a :=
  ⟨separate.2, separate.1⟩

/-- Of prefixes that are separate by pairs a key begins with at most one. -/
theorem length_filter_le_one {prefixes : List Text} (separate : prefixes.Pairwise Separate)
    (key : Text) : (prefixes.filter fun p => decide (p <+: key)).length ≤ 1 := by
  induction prefixes with
  | nil => exact Nat.zero_le 1
  | cons p prefixes ih =>
    obtain ⟨others, rest⟩ := List.pairwise_cons.mp separate
    by_cases begins : p <+: key
    · have none : prefixes.filter (fun p => decide (p <+: key)) = [] := by
        rw [List.filter_eq_nil_iff]
        intro q mem
        rw [decide_eq_true_eq]
        exact (others q mem).disjoint begins
      rw [List.filter_cons_of_pos (by simpa using begins), none]
      exact le_rfl
    · rw [List.filter_cons_of_neg (by simpa using begins)]
      exact ih rest

/-! ## What a role may do -/

/-- One of the actions, given as verbs and prefixes, covers the key. -/
def Covers (acts : List (Verb × Text)) (verb : Verb) (key : Text) : Prop :=
  ∃ act ∈ acts, act.1 = verb ∧ act.2 <+: key

@[simp] theorem covers_nil (verb : Verb) (key : Text) : ¬ Covers [] verb key := nofun

@[simp] theorem covers_cons (act : Verb × Text) (acts : List (Verb × Text)) (verb : Verb)
    (key : Text) :
    Covers (act :: acts) verb key ↔ (act.1 = verb ∧ act.2 <+: key) ∨ Covers acts verb key := by
  simp [Covers]

/-- A role may do what its actions say, and no more. -/
theorem covers_of_can {name : Text} {credential : Credential} {acts : List (Verb × Text)}
    (distinct : (identities.map Identity.name).Nodup) (valid : validBucket bucket = true)
    (listed : role name credential (acts.map fun act => action act.1 bucket act.2) ∈ identities)
    (can : Can identities name verb bucket key) : Covers acts verb key := by
  obtain ⟨identity, among, named, act, mem, grant, read, rfl, -, begins⟩ := can
  obtain rfl := List.inj_on_of_nodup_map distinct among listed named
  obtain ⟨pair, given, rfl⟩ := List.mem_map.mp mem
  rw [grantOf_action pair.1 (slash_not_mem_of_validBucket valid), Option.some.injEq] at read
  exact ⟨pair, given, congrArg Grant.verb read, by rw [← read] at begins; exact begins⟩

/-- A role without an identity may do nothing. -/
theorem not_can_of_absent {name : Text} (absent : ∀ identity ∈ identities, identity.name ≠ name) :
    ¬ Can identities name verb bucket key := fun ⟨identity, listed, named, _⟩ =>
  absent identity listed named

/-! ## Isolation -/

/-- What the policy promises of the keys of the bucket, with the prefix of approved keys if there
is one. -/
structure Isolated (bucket raw normalized archive : Text) (approved : Option Text)
    (identities : List Identity) : Prop where
  covered_once : ∀ key,
    ((raw :: normalized :: archive :: approved.toList).filter
      fun p => decide (p <+: key)).length ≤ 1
  writers : ∀ key, Can identities ingestionName .write bucket key →
    ¬ Can identities coreName .write bucket key ∧ ¬ Can identities retentionName .write bucket key
  ingestion_approved : ∀ key, ∀ p ∈ approved, p <+: key →
    ∀ verb, ¬ Can identities ingestionName verb bucket key
  ingestion_archive : ∀ key, archive <+: key →
    ∀ verb, ¬ Can identities ingestionName verb bucket key
  ingestion_raw : ∀ key, raw <+: key → ¬ Can identities ingestionName .write bucket key
  core_normalized : ∀ key, normalized <+: key → ¬ Can identities coreName .write bucket key
  core_archive : ∀ key, archive <+: key → ¬ Can identities coreName .write bucket key
  ai_reads : ∀ key, Can identities aiName .read bucket key → ∃ p ∈ approved, p <+: key
  ai_writes : ∀ key, ¬ Can identities aiName .write bucket key
  retention_normalized : ∀ key, normalized <+: key →
    ∀ verb, ¬ Can identities retentionName verb bucket key
  retention_approved : ∀ key, ∀ p ∈ approved, p <+: key →
    ∀ verb, ¬ Can identities retentionName verb bucket key

/-- The prefixes and what the roles do with them, for a policy with and without approved keys. -/
structure Roles (bucket raw normalized archive : Text) (approved : Option Text)
    (identities : List Identity) : Prop where
  free : '/' ∉ bucket
  separate : (raw :: normalized :: archive :: approved.toList).Pairwise Separate
  core : ∀ verb key, Can identities coreName verb bucket key →
    Covers ([(.read, raw), (.write, raw), (.read, archive)] ++
      approved.toList.flatMap fun p => [(.read, p), (.write, p)]) verb key
  ingestion : ∀ verb key, Can identities ingestionName verb bucket key →
    Covers [(.read, raw), (.write, normalized)] verb key
  ai : ∀ verb key, Can identities aiName verb bucket key →
    Covers (approved.toList.map fun p => (.read, p)) verb key
  retention : ∀ verb key, Can identities retentionName verb bucket key →
    Covers [(.read, raw), (.write, raw), (.read, archive), (.write, archive)] verb key

namespace Roles

variable {raw normalized archive : Text} {approved : Option Text}

theorem core_write (roles : Roles bucket raw normalized archive approved identities)
    (can : Can identities coreName .write bucket key) :
    raw <+: key ∨ ∃ p ∈ approved, p <+: key := by
  have covers := roles.core .write key can
  cases approved with
  | none => simpa using covers
  | some p => simpa using covers

theorem ingestion_write (roles : Roles bucket raw normalized archive approved identities)
    (can : Can identities ingestionName .write bucket key) : normalized <+: key := by
  simpa using roles.ingestion .write key can

/-- Whatever the verb, ingestion stays with raw and normalized keys. -/
theorem ingestion_any (roles : Roles bucket raw normalized archive approved identities)
    (can : Can identities ingestionName verb bucket key) : raw <+: key ∨ normalized <+: key := by
  have covers := roles.ingestion verb key can
  simp only [covers_cons, covers_nil, or_false] at covers
  exact covers.imp And.right And.right

/-- Whatever the verb, retention stays with raw and archived keys. -/
theorem retention_any (roles : Roles bucket raw normalized archive approved identities)
    (can : Can identities retentionName verb bucket key) : raw <+: key ∨ archive <+: key := by
  have covers := roles.retention verb key can
  simp only [covers_cons, covers_nil, or_false] at covers
  rcases covers with ⟨-, begins⟩ | ⟨-, begins⟩ | ⟨-, begins⟩ | ⟨-, begins⟩
  · exact .inl begins
  · exact .inl begins
  · exact .inr begins
  · exact .inr begins

theorem isolated (roles : Roles bucket raw normalized archive approved identities) :
    Isolated bucket raw normalized archive approved identities := by
  have separate := roles.separate
  simp only [List.pairwise_cons, List.mem_cons, Option.mem_toList, forall_eq_or_imp] at separate
  obtain ⟨⟨rawNormalized, rawArchive, rawApproved⟩, ⟨normalizedArchive, normalizedApproved⟩,
    archiveApproved, -⟩ := separate
  exact {
    covered_once := length_filter_le_one roles.separate
    writers := fun key can => by
      have mine := roles.ingestion_write can
      refine ⟨fun core => ?_, fun retention => ?_⟩
      · rcases roles.core_write core with begins | ⟨p, given, begins⟩
        · exact rawNormalized.disjoint begins mine
        · exact (normalizedApproved p given).disjoint mine begins
      · rcases roles.retention_any retention with begins | begins
        · exact rawNormalized.disjoint begins mine
        · exact normalizedArchive.disjoint mine begins
    ingestion_approved := fun key p given begins verb can => by
      rcases roles.ingestion_any can with other | other
      · exact (rawApproved p given).disjoint other begins
      · exact (normalizedApproved p given).disjoint other begins
    ingestion_archive := fun key begins verb can => by
      rcases roles.ingestion_any can with other | other
      · exact rawArchive.disjoint other begins
      · exact normalizedArchive.disjoint other begins
    ingestion_raw := fun key begins can =>
      rawNormalized.disjoint begins (roles.ingestion_write can)
    core_normalized := fun key begins can => by
      rcases roles.core_write can with other | ⟨p, given, other⟩
      · exact rawNormalized.disjoint other begins
      · exact (normalizedApproved p given).disjoint begins other
    core_archive := fun key begins can => by
      rcases roles.core_write can with other | ⟨p, given, other⟩
      · exact rawArchive.disjoint other begins
      · exact (archiveApproved p given).disjoint begins other
    ai_reads := fun key can => by
      obtain ⟨act, mem, -, begins⟩ := roles.ai .read key can
      obtain ⟨p, given, rfl⟩ := List.mem_map.mp mem
      exact ⟨p, Option.mem_toList.mp given, begins⟩
    ai_writes := fun key can => by
      obtain ⟨act, mem, verb, -⟩ := roles.ai .write key can
      obtain ⟨p, given, rfl⟩ := List.mem_map.mp mem
      cases verb
    retention_normalized := fun key begins verb can => by
      rcases roles.retention_any can with other | other
      · exact rawNormalized.disjoint other begins
      · exact normalizedArchive.disjoint begins other
    retention_approved := fun key p given begins verb can => by
      rcases roles.retention_any can with other | other
      · exact (rawApproved p given).disjoint other begins
      · exact (archiveApproved p given).disjoint other begins }

end Roles

/-- The credentials of all identities are different, and the document is that of the
identities. -/
structure Delivered (identities : List Identity) (data : Text) : Prop where
  distinct : (credentialValues (identities.flatMap Identity.credentials)).Nodup
  decoded : decode data = some identities

theorem Config.distinct_names (c : Config) : (c.identities.map Identity.name).Nodup := by
  show [operatorName, coreName, ingestionName, aiName, retentionName].Nodup
  decide

theorem RuntimeConfig.distinct_names (c : RuntimeConfig) :
    (c.identities.map Identity.name).Nodup := by
  show [operatorName, coreName, ingestionName, retentionName].Nodup
  decide

theorem Config.roles {c : Config} (bucket : validBucket c.bucket = true)
    (prefixes : validPrefixes [c.rawPrefix, c.normalizedPrefix, c.approvedPrefix, c.archivePrefix] =
      true) :
    Roles c.bucket c.rawPrefix c.normalizedPrefix c.archivePrefix (some c.approvedPrefix)
      c.identities where
  free := slash_not_mem_of_validBucket bucket
  separate := by
    rw [validPrefixes, Bool.and_eq_true, decide_eq_true_eq] at prefixes
    have separate := prefixes.2
    simp only [List.pairwise_cons, List.mem_cons, List.not_mem_nil, or_false, forall_eq_or_imp,
      forall_eq, Option.toList_some] at separate ⊢
    obtain ⟨⟨rn, rp, ra⟩, ⟨np, na⟩, pa, -⟩ := separate
    exact ⟨⟨rn, ra, rp⟩, ⟨na, np⟩, pa.symm, nofun, .nil⟩
  core verb key can := by
    have covers : Covers [(.read, c.rawPrefix), (.write, c.rawPrefix), (.read, c.approvedPrefix),
        (.write, c.approvedPrefix), (.read, c.archivePrefix)] verb key :=
      covers_of_can c.distinct_names bucket (.tail _ <| .head _) can
    simp only [covers_cons, covers_nil, Option.toList_some, List.flatMap_singleton,
      List.cons_append, List.nil_append, or_false] at covers ⊢
    tauto
  ingestion verb key can :=
    covers_of_can c.distinct_names bucket (.tail _ <| .tail _ <| .head _) can
  ai verb key can :=
    covers_of_can c.distinct_names bucket (.tail _ <| .tail _ <| .tail _ <| .head _) can
  retention verb key can :=
    covers_of_can c.distinct_names bucket (.tail _ <| .tail _ <| .tail _ <| .tail _ <| .head _) can

theorem RuntimeConfig.roles {c : RuntimeConfig} (bucket : validBucket c.bucket = true)
    (scopes : validRuntimeScopes c.coreRawPrefix c.ingestionRawPrefix c.normalizedPrefix
      c.archivePrefix = true) :
    Roles c.bucket c.coreRawPrefix c.normalizedPrefix c.archivePrefix none c.identities := by
  simp only [validRuntimeScopes, Bool.and_eq_true, decide_eq_true_eq] at scopes
  obtain ⟨⟨-, same⟩, separate⟩ := scopes
  exact {
    free := slash_not_mem_of_validBucket bucket
    separate := separate
    core := fun verb key can =>
      covers_of_can c.distinct_names bucket (.tail _ <| .head _) can
    ingestion := fun verb key can => by
      rw [same]
      exact covers_of_can c.distinct_names bucket (.tail _ <| .tail _ <| .head _) can
    ai := fun verb key can => absurd can (not_can_of_absent fun identity mem => by
      have names : identity.name ∈ [operatorName, coreName, ingestionName, retentionName] :=
        List.mem_map_of_mem mem
      intro named
      rw [named] at names
      exact absurd names (by decide))
    retention := fun verb key can =>
      covers_of_can c.distinct_names bucket (.tail _ <| .tail _ <| .tail _ <| .head _) can }

/-- **Roles cannot reach each other's data**, with either builder, and what is written is what the
object store reads. -/
theorem roles_isolated :
    (∀ (c : Config) (data : Text), build c = some data →
      Isolated c.bucket c.rawPrefix c.normalizedPrefix c.archivePrefix (some c.approvedPrefix)
        c.identities ∧ Delivered c.identities data) ∧
    (∀ (c : RuntimeConfig) (data : Text), buildRuntime c = some data →
      Isolated c.bucket c.coreRawPrefix c.normalizedPrefix c.archivePrefix none c.identities ∧
        Delivered c.identities data) := by
  refine ⟨fun c data built => ?_, fun c data built => ?_⟩
  · obtain ⟨valid, written⟩ := Option.ite_none_right_eq_some.mp built
    obtain rfl := Option.some.inj written
    simp only [Bool.and_eq_true] at valid
    obtain ⟨⟨bucket, prefixes⟩, credentials⟩ := valid
    rw [validCredentials, Bool.and_eq_true, decide_eq_true_eq] at credentials
    exact ⟨(Config.roles bucket prefixes).isolated, credentials.2, decode_encode c.identities⟩
  · obtain ⟨valid, written⟩ := Option.ite_none_right_eq_some.mp built
    obtain rfl := Option.some.inj written
    simp only [Bool.and_eq_true] at valid
    obtain ⟨⟨⟨bucket, -⟩, scopes⟩, credentials⟩ := valid
    rw [validCredentials, Bool.and_eq_true, decide_eq_true_eq] at credentials
    exact ⟨(RuntimeConfig.roles bucket scopes).isolated, credentials.2, decode_encode c.identities⟩

/-! ## A policy -/

def someCredential (name : Char) : Credential := ⟨[name, 'a'], [name, '<']⟩

def someConfig : Config where
  bucket := "aspm".toList
  rawPrefix := "raw/".toList
  normalizedPrefix := "normalized/".toList
  approvedPrefix := "approved/".toList
  archivePrefix := "archive/".toList
  operator := someCredential 'o'
  core := someCredential 'c'
  ingestion := someCredential 'i'
  ai := someCredential 'm'
  retention := someCredential 'r'

def someRuntimeConfig : RuntimeConfig where
  bucket := "aspm".toList
  coreRawPrefix := "raw/".toList
  ingestionRawPrefix := "raw/".toList
  normalizedPrefix := "normalized/".toList
  archivePrefix := "archive/".toList
  operator := someCredential 'o'
  core := someCredential 'c'
  ingestion := someCredential 'i'
  retention := someCredential 'r'

theorem roles_isolated_some :
    Delivered someConfig.identities (encode someConfig.identities) ∧
      Delivered someRuntimeConfig.identities (encode someRuntimeConfig.identities) := by
  have built : build someConfig = some (encode someConfig.identities) := if_pos (by decide +kernel)
  have builtRuntime : buildRuntime someRuntimeConfig = some (encode someRuntimeConfig.identities) :=
    if_pos (by decide +kernel)
  exact ⟨(roles_isolated.1 someConfig _ built).2,
    (roles_isolated.2 someRuntimeConfig _ builtRuntime).2⟩

end Aspm.Storage
