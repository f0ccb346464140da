import Aspm.Lib.JsonRead
import Aspm.Lib.Strings

/-!
# The policy of the object store

`storagepolicy.Build` and `BuildRuntime` write the identities of the object store: for each role
its credential and its actions, an action being a verb on the keys of the bucket that begin with a
prefix.  Both refuse prefixes of which one begins with another, and credentials with a value that
occurs twice.

That roles do not reach each other's keys follows from the prefixes alone: a key that begins with
two of them would make one begin with the other (`Separate.disjoint`).
-/

namespace Aspm.Storage

open Json (Text byteLength Datum Numeral)
open Strings (split trimSpace isControl alphanumeric wordOf)

/-! ## Checks -/

structure Credential where
  accessKey : Text
  secretKey : Text
deriving DecidableEq

def lowerAlphanumeric (c : Char) : Bool := ('a' ≤ c && c ≤ 'z') || ('0' ≤ c && c ≤ '9')

/-- `^[a-z0-9][a-z0-9.-]{1,61}[a-z0-9]$`. -/
def bucketPattern (bucket : Text) : Bool :=
  3 ≤ bucket.length && bucket.length ≤ 63 &&
    bucket.all (fun c => lowerAlphanumeric c || c = '.' || c = '-') &&
    bucket.head?.all lowerAlphanumeric && bucket.getLast?.all lowerAlphanumeric

/-- A number of an address: no leading zero, and at most 255. -/
def octet (part : Text) : Bool :=
  1 ≤ part.length && part.length ≤ 3 && part.all (fun c => '0' ≤ c && c ≤ '9') &&
    (part.length = 1 || part.head? ≠ some '0') &&
    part.foldl (fun n c => n * 10 + (c.toNat - '0'.toNat)) 0 ≤ 255

/-- `net.ParseIP(bucket) != nil`, for a text without colons. -/
def parsesAsIP (bucket : Text) : Bool :=
  (split '.' bucket).length = 4 && (split '.' bucket).all octet

def validBucket (bucket : Text) : Bool :=
  bucketPattern bucket && !decide (['.', '.'] <:+: bucket) && !decide (['.', '-'] <:+: bucket) &&
    !decide (['-', '.'] <:+: bucket) && !parsesAsIP bucket

def segmentPattern : Text → Bool :=
  wordOf alphanumeric fun c => alphanumeric c || c ∈ ['.', '_', '-']

def validPrefix (value : Text) : Bool :=
  2 ≤ byteLength value && byteLength value ≤ 1024 && value.getLast? = some '/' &&
    (split '/' value.dropLast).all segmentPattern

def validCredentialValue (value : Text) : Bool :=
  value ≠ [] && byteLength value ≤ 4096 && trimSpace value = value && !value.any isControl

/-- Neither begins with the other. -/
def Separate (a b : Text) : Prop := ¬ a <+: b ∧ ¬ b <+: a

instance (a b : Text) : Decidable (Separate a b) := inferInstanceAs (Decidable (_ ∧ _))

/-- The loop over the prefixes and those before each. -/
def validPrefixes (prefixes : List Text) : Bool :=
  prefixes.all validPrefix && decide (prefixes.Pairwise Separate)

def credentialValues (credentials : List Credential) : List Text :=
  credentials.flatMap fun c => [c.accessKey, c.secretKey]

/-- Every value is valid, and none was seen before. -/
def validCredentials (credentials : List Credential) : Bool :=
  (credentialValues credentials).all validCredentialValue &&
    decide (credentialValues credentials).Nodup

/-! ## Identities and actions -/

structure Identity where
  name : Text
  credentials : List Credential
  actions : List Text
deriving DecidableEq

def role (name : Text) (credential : Credential) (actions : List Text) : Identity :=
  ⟨name, [credential], actions⟩

inductive Verb where
  | read
  | write
deriving DecidableEq

def Verb.name : Verb → Text
  | .read => "Read".toList
  | .write => "Write".toList

/-- `"Verb:bucket/prefix*"`. -/
def action (verb : Verb) (bucket scope : Text) : Text :=
  verb.name ++ ':' :: (bucket ++ '/' :: (scope ++ ['*']))

def administer : Text := "Admin".toList

structure Config where
  bucket : Text
  rawPrefix : Text
  normalizedPrefix : Text
  approvedPrefix : Text
  archivePrefix : Text
  operator : Credential
  core : Credential
  ingestion : Credential
  ai : Credential
  retention : Credential

structure RuntimeConfig where
  bucket : Text
  coreRawPrefix : Text
  ingestionRawPrefix : Text
  normalizedPrefix : Text
  archivePrefix : Text
  operator : Credential
  core : Credential
  ingestion : Credential
  retention : Credential

def operatorName : Text := "operator".toList
def coreName : Text := "core".toList
def ingestionName : Text := "ingestion".toList
def aiName : Text := "ai".toList
def retentionName : Text := "retention".toList

def Config.identities (c : Config) : List Identity :=
  [role operatorName c.operator [administer],
    role coreName c.core [action .read c.bucket c.rawPrefix, action .write c.bucket c.rawPrefix,
      action .read c.bucket c.approvedPrefix, action .write c.bucket c.approvedPrefix,
      action .read c.bucket c.archivePrefix],
    role ingestionName c.ingestion [action .read c.bucket c.rawPrefix,
      action .write c.bucket c.normalizedPrefix],
    role aiName c.ai [action .read c.bucket c.approvedPrefix],
    role retentionName c.retention [action .read c.bucket c.rawPrefix,
      action .write c.bucket c.rawPrefix, action .read c.bucket c.archivePrefix,
      action .write c.bucket c.archivePrefix]]

def RuntimeConfig.identities (c : RuntimeConfig) : List Identity :=
  [role operatorName c.operator [administer],
    role coreName c.core [action .read c.bucket c.coreRawPrefix,
      action .write c.bucket c.coreRawPrefix, action .read c.bucket c.archivePrefix],
    role ingestionName c.ingestion [action .read c.bucket c.ingestionRawPrefix,
      action .write c.bucket c.normalizedPrefix],
    role retentionName c.retention [action .read c.bucket c.coreRawPrefix,
      action .write c.bucket c.coreRawPrefix, action .read c.bucket c.archivePrefix,
      action .write c.bucket c.archivePrefix]]

/-! ## The document -/

def credentialDatum (c : Credential) : Datum Numeral :=
  .object [("accessKey".toList, .string c.accessKey), ("secretKey".toList, .string c.secretKey)]

def identityDatum (i : Identity) : Datum Numeral :=
  .object [("name".toList, .string i.name),
    ("credentials".toList, .array (i.credentials.map credentialDatum)),
    ("actions".toList, .array (i.actions.map .string))]

/-- `json.Marshal`. -/
def encode (identities : List Identity) : Text :=
  (Datum.object [("identities".toList, .array (identities.map identityDatum))]).print

/-- The value of a member of an object. -/
def member (name : Text) : Datum Numeral → Option (Datum Numeral)
  | .object fields => fields.lookup name
  | _ => none

def textOf : Datum Numeral → Option Text
  | .string t => some t
  | _ => none

def listOf {α : Type} (item : Datum Numeral → Option α) : Datum Numeral → Option (List α)
  | .array items => items.mapM item
  | _ => none

def credentialOf (d : Datum Numeral) : Option Credential := do
  let accessKey ← (member "accessKey".toList d).bind textOf
  let secretKey ← (member "secretKey".toList d).bind textOf
  some ⟨accessKey, secretKey⟩

def identityOf (d : Datum Numeral) : Option Identity := do
  let name ← (member "name".toList d).bind textOf
  let credentials ← (member "credentials".toList d).bind (listOf credentialOf)
  let actions ← (member "actions".toList d).bind (listOf textOf)
  some ⟨name, credentials, actions⟩

def decode (text : Text) : Option (List Identity) := do
  let d ← Datum.decode text
  (member "identities".toList d).bind (listOf identityOf)

theorem mapM_map {α β : Type} {f : β → Option α} {g : α → β} (law : ∀ a, f (g a) = some a)
    (l : List α) : (l.map g).mapM f = some l := by
  induction l with
  | nil => rfl
  | cons a l ih => simp [List.mapM_cons, law, ih]

theorem credentialOf_credentialDatum (c : Credential) :
    credentialOf (credentialDatum c) = some c := rfl

theorem textOf_string (t : Text) : textOf (.string t) = some t := rfl

theorem identityOf_identityDatum (i : Identity) : identityOf (identityDatum i) = some i := by
  have credentials := mapM_map credentialOf_credentialDatum i.credentials
  have actions := mapM_map textOf_string i.actions
  show (do
    let credentials ← (i.credentials.map credentialDatum).mapM credentialOf
    let actions ← (i.actions.map Datum.string).mapM textOf
    some (⟨i.name, credentials, actions⟩ : Identity)) = some i
  rw [credentials, actions]
  rfl

/-- The document determines the identities. -/
theorem decode_encode (identities : List Identity) :
    decode (encode identities) = some identities := by
  rw [decode, encode, Datum.decode_print]
  exact mapM_map identityOf_identityDatum identities

/-! ## Building -/

def build (c : Config) : Option Text :=
  if validBucket c.bucket &&
      validPrefixes [c.rawPrefix, c.normalizedPrefix, c.approvedPrefix, c.archivePrefix] &&
      validCredentials [c.operator, c.core, c.ingestion, c.ai, c.retention] then
    some (encode c.identities)
  else none

/-- `ValidateRuntimeScopes`, with an archive. -/
def validRuntimeScopes (coreRaw ingestionRaw normalized archive : Text) : Bool :=
  validPrefix coreRaw && validPrefix ingestionRaw && validPrefix normalized &&
    validPrefix archive && coreRaw = ingestionRaw &&
    decide ([coreRaw, normalized, archive].Pairwise Separate)

def buildRuntime (c : RuntimeConfig) : Option Text :=
  if validBucket c.bucket && validCredentials [c.core, c.ingestion, c.retention] &&
      validRuntimeScopes c.coreRawPrefix c.ingestionRawPrefix c.normalizedPrefix
        c.archivePrefix &&
      validCredentials [c.operator, c.core, c.ingestion, c.retention] then
    some (encode c.identities)
  else none

end Aspm.Storage
