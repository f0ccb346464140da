import Aspm.Lib.JsonRead
import Aspm.Parsers.Entries

/-!
# Identities of findings

The identity of a finding is the digest of a list of texts: the name of its domain, and the
texts that identify it there.  `Key` is what these texts stand for, and `Entry.key` reads it off
the entry.

If the digest is injective then equal identities mean equal keys (`identity_eq_iff`): the
encoding of the list is injective, the first text tells the domain, and the two texts that are
not taken over as they are, a line number and an object of fingerprints, are injective
encodings themselves.
-/

namespace Aspm.Parsers

open Json SortedMap Fallible

/-- What identifies a finding, by domain. -/
inductive Key where
  | mapped (sourceID : Text)
  | manual (sourceID : Text)
  | gitleaks (fingerprint : Text)
  | trivy (vulnerabilityID pkgName target : Text)
  | zap (alertRef uri : Text)
  | sarifGuid (guid : Text)
  /-- The fingerprints are a JSON object, as a map. -/
  | sarifFingerprint (ruleID : Text) (fingerprints : Object)
  | sarifLocation (ruleID uri : Text) (line : ℤ)
deriving DecidableEq

inductive Domain where
  | mapped
  | manual
  | gitleaks
  | trivy
  | zap
  | sarifGuid
  | sarifFingerprint
  | sarifLocation
deriving DecidableEq

def Domain.name : Domain → Text
  | .mapped => "mapped".toList
  | .manual => "manual".toList
  | .gitleaks => "gitleaks".toList
  | .trivy => "trivy".toList
  | .zap => "zap".toList
  | .sarifGuid => "sarif-guid".toList
  | .sarifFingerprint => "sarif-fingerprint".toList
  | .sarifLocation => "sarif-location".toList

def Key.domain : Key → Domain
  | .mapped _ => .mapped
  | .manual _ => .manual
  | .gitleaks _ => .gitleaks
  | .trivy _ _ _ => .trivy
  | .zap _ _ => .zap
  | .sarifGuid _ => .sarifGuid
  | .sarifFingerprint _ _ => .sarifFingerprint
  | .sarifLocation _ _ _ => .sarifLocation

/-- The texts of a key inside its domain. -/
def Key.texts : Key → List Text
  | .mapped sourceID => [sourceID]
  | .manual sourceID => [sourceID]
  | .gitleaks fingerprint => [fingerprint]
  | .trivy vulnerabilityID pkgName target => [vulnerabilityID, pkgName, target]
  | .zap alertRef uri => [alertRef, uri]
  | .sarifGuid guid => [guid]
  | .sarifFingerprint ruleID fingerprints => [ruleID, Datum.print (.object fingerprints)]
  | .sarifLocation ruleID uri line => [ruleID, uri, itoa line]

/-- The texts that are hashed. -/
def Key.parts (key : Key) : List Text := key.domain.name :: key.texts

/-- The location of a result, where one that cannot be read counts as none. -/
def locationOf (result : Option Object) : Location := (sarifLocation result).toOption.getD {}

/-- The key of a SARIF result: its guid, or its rule with its fingerprints, or its rule with
its location. -/
def sarifKey (result : Option Object) : Key :=
  let guid := str (field result "guid")
  let ruleID := str (field result "ruleId")
  let fingerprints := sarifFingerprints result
  if guid ≠ [] then .sarifGuid guid
  else if fingerprints ≠ [] then .sarifFingerprint ruleID fingerprints
  else .sarifLocation ruleID (locationOf result).uri (locationOf result).line

/-- The key of an entry. -/
def Entry.key (mapping : Mapping) : Entry → Key
  | .record item => .mapped (str (index (obj item) mapping.sourceFindingID))
  | .row item => .mapped (str (index (some item) mapping.sourceFindingID))
  | .manual item => .manual (str (field (obj item) "sourceFindingId"))
  | .sarif _ result => sarifKey (obj result)
  | .trivy result item => .trivy (str (field (obj item) "VulnerabilityID"))
      (str (field (obj item) "PkgName")) (str (field (obj result) "Target"))
  | .zap alert instance_ =>
    .zap (str (field (obj alert) "alertRef")) (str (field (obj instance_) "uri"))
  | .gitleaks item => .gitleaks (str (field (obj item) "Fingerprint"))

/-! ## The encodings -/

theorem hexDigit_injOn {m n : ℕ} (hm : m < 16) (hn : n < 16) (same : hexDigit m = hexDigit n) :
    m = n := by
  have read : some m = some n :=
    (hexValue_hexDigit ⟨m, hm⟩).symm.trans ((congrArg hexValue same).trans
      (hexValue_hexDigit ⟨n, hn⟩))
  exact Option.some.inj read

theorem hex_injective : Function.Injective hex := by
  intro a b same
  induction a generalizing b with
  | nil =>
    cases b with
    | nil => rfl
    | cons y b => cases same
  | cons x a ih =>
    cases b with
    | nil => cases same
    | cons y b =>
      rw [hex, List.flatMap_cons, hex, List.flatMap_cons] at same
      obtain ⟨high, low, rest⟩ : hexDigit (x.toNat / 16) = hexDigit (y.toNat / 16) ∧
          hexDigit (x.toNat % 16) = hexDigit (y.toNat % 16) ∧ hex a = hex b := by
        simpa [hex] using same
      have sizes : x.toNat < 256 ∧ y.toNat < 256 := ⟨x.toNat_lt, y.toNat_lt⟩
      have highs := hexDigit_injOn (by omega) (by omega) high
      have lows := hexDigit_injOn (by omega) (by omega) low
      have bytes : x.toNat = y.toNat := by omega
      rw [UInt8.toNat_inj.mp bytes, ih rest]

theorem toDigits_injective : Function.Injective (Nat.toDigits 10) := by
  intro m n same
  rw [← Nat.ofDigitChars_ten_toDigits (n := m), same, Nat.ofDigitChars_ten_toDigits]

theorem minus_notMem_toDigits (n : ℕ) : '-' ∉ Nat.toDigits 10 n := fun mem =>
  absurd (Nat.isDigit_of_mem_toDigits (by decide) (by decide) mem) (by decide)

theorem itoa_injective : Function.Injective itoa := by
  intro m n same
  unfold itoa at same
  split_ifs at same with hm hn hn
  · have digits := toDigits_injective (List.cons.inj same).2
    omega
  · exact absurd (same ▸ List.mem_cons_self) (minus_notMem_toDigits n.natAbs)
  · exact absurd (same ▸ List.mem_cons_self) (minus_notMem_toDigits m.natAbs)
  · have digits := toDigits_injective same
    omega

theorem Domain.name_injective : Function.Injective Domain.name := by
  intro d e same
  revert same
  cases d <;> cases e <;> decide +kernel

theorem print_object_injective {a b : Object}
    (same : Datum.print (.object a) = Datum.print (.object b)) : a = b :=
  Datum.object.inj (Datum.print_injective same)

/-- Inside one domain the texts tell the key. -/
theorem Key.texts_injOn {a b : Key} (domains : a.domain = b.domain) (same : a.texts = b.texts) :
    a = b := by
  cases a <;> cases b <;> cases domains <;>
    simp only [texts, List.cons.injEq, and_true] at same
  case sarifFingerprint =>
    rw [same.1, print_object_injective same.2]
  case sarifLocation =>
    rw [same.1, same.2.1, itoa_injective same.2.2]
  all_goals simp only [same]

theorem Key.parts_injective : Function.Injective Key.parts := by
  intro a b same
  obtain ⟨names, texts⟩ := List.cons.inj same
  exact Key.texts_injOn (Domain.name_injective names) texts

section Injective

variable {Bytes : Type} {platform : Platform Bytes}

/-- Identities of equal parts only. -/
theorem identity_injective (injective : Function.Injective platform.sha256) :
    Function.Injective (identity platform) := by
  intro a b same
  have printed := injective (hex_injective same)
  have listed := Datum.array.inj (Datum.print_injective printed)
  exact List.map_injective_iff.mpr (fun _ _ => Datum.string.inj) listed

/-! ## The key of an entry -/

variable {mapping : Mapping}

theorem sarifParts_eq (result : Option Object) (location : Location)
    (read : sarifLocation result = .ok location) :
    sarifParts result location = (sarifKey result).parts := by
  have known : locationOf result = location := by
    rw [locationOf, read]
    rfl
  simp only [sarifParts, sarifKey, known]
  split_ifs <;> rfl

theorem identity_of_labelled {label : String} {item : Option Object} {f : Finding}
    (made : labelledFinding platform mapping label item = .ok f) :
    f.identity =
      identity platform (Key.mapped (str (index item mapping.sourceFindingID))).parts := by
  simp only [labelledFinding, mappedFinding, bind_eq_ok, pure_eq_ok] at made
  obtain ⟨-, ⟨-, -, -, -, line, -, rfl⟩, rfl⟩ := made
  rfl

/-- **The identity is that of the key.** -/
theorem identity_of_finding {entry : Entry} {f : Finding}
    (made : entry.finding platform mapping = .ok f) :
    f.identity = identity platform (entry.key mapping).parts := by
  cases entry with
  | record item => exact identity_of_labelled made
  | row item => exact identity_of_labelled made
  | manual item =>
    simp only [Entry.finding, manualFinding, bind_eq_ok, pure_eq_ok] at made
    obtain ⟨-, -, -, -, line, -, rfl⟩ := made
    rfl
  | sarif run result =>
    simp only [Entry.finding, sarifFinding, bind_eq_ok, pure_eq_ok] at made
    obtain ⟨rules, -, -, -, location, read, rfl⟩ := made
    exact congrArg (identity platform) (sarifParts_eq _ location read)
  | trivy result item =>
    simp only [Entry.finding, pure_eq_ok] at made
    rw [← made]
    rfl
  | zap alert instance_ =>
    simp only [Entry.finding, zapFinding, bind_eq_ok, pure_eq_ok] at made
    obtain ⟨rawSeverity, -, -, -, rfl⟩ := made
    rfl
  | gitleaks item =>
    simp only [Entry.finding, gitleaksFinding, bind_eq_ok, pure_eq_ok] at made
    obtain ⟨line, -, -, -, rfl⟩ := made
    rfl

end Injective

/-! ## Fingerprints are compared as maps -/

/-- The fingerprints of a key list each name once and in order, at every level, so that two
equal objects are one list. -/
def Key.Canonical : Key → Prop
  | .sarifFingerprint _ fingerprints => Fields.Canonical fingerprints
  | _ => True

theorem inherited_canonical : Inherited Datum.Canonical where
  null := trivial
  item canonical mem := Datum.canonicalItems_iff.mp canonical _ mem
  field canonical found := (canonical_object.mp canonical).values _ _ found

theorem canonical_getD {m : Option Object} (canonical : HoldsOf Datum.Canonical m) :
    Fields.Canonical (m.getD []) := by
  cases m with
  | none => exact Fields.canonical_nil
  | some fields => exact canonical_object.mp (canonical fields rfl)

theorem canonical_sarifKey {result : Value} (canonical : result.Canonical) :
    (sarifKey (obj result)).Canonical := by
  have object (key : String) : Fields.Canonical ((obj (field (obj result) key)).getD []) :=
    canonical_getD (Inherited.obj (inherited_canonical.ofField canonical key))
  have fingerprints : Fields.Canonical (sarifFingerprints (obj result)) := by
    simp only [sarifFingerprints]
    split_ifs
    · exact object "fingerprints"
    · exact object "partialFingerprints"
  simp only [sarifKey]
  split_ifs
  · trivial
  · exact fingerprints
  · trivial

section Reports

variable {Bytes : Type} (platform : Platform Bytes)

/-- The keys of the entries of a report. -/
def keys (format : Format) (data : Bytes) (mapping : Mapping) : List Key :=
  (entries platform format data).map (Entry.key mapping)

theorem keys_canonical (format : Format) (data : Bytes) (mapping : Mapping) :
    ∀ key ∈ keys platform format data mapping, key.Canonical := by
  intro key mem
  obtain ⟨entry, listed, rfl⟩ := List.mem_map.mp mem
  cases entry with
  | sarif run result =>
    have rooted : (root platform data).Canonical := by
      unfold root
      cases onlyValue (platform.json data) with
      | none => trivial
      | some written => exact Datum.canonical_decoded written
    rw [entries] at listed
    split_ifs at listed with csv
    · obtain ⟨record, -, same⟩ := List.mem_map.mp listed
      cases same
    · obtain ⟨-, canonical⟩ := rootEntries_hold inherited_canonical rooted listed
      exact canonical_sarifKey canonical
  | _ => trivial

variable {platform}

/-- The findings of an accepted report carry the identities of its keys. -/
theorem identities_of_keys {id : Text} {data : Bytes} {mapping : Mapping}
    {findings : List Finding} (ok : parse platform id data mapping = .ok findings) :
    ∃ format : Format, format.id = id ∧
      List.Forall₂ (fun key f => f.identity = identity platform key.parts)
        (keys platform format data mapping) findings := by
  obtain ⟨format, known, made⟩ := parse_entries ok
  refine ⟨format, known, ?_⟩
  rw [keys, List.forall₂_map_left_iff]
  exact made.imp fun entry f => identity_of_finding

/-- **Identities are exact**: each finding of a report stands for the key at its place, and two
findings of any two accepted reports have the same identity if and only if they stand for the
same key. -/
theorem identity_eq_iff {id id' : Text} {data data' : Bytes} {mapping mapping' : Mapping}
    {findings findings' : List Finding} (injective : Function.Injective platform.sha256)
    (ok : parse platform id data mapping = .ok findings)
    (ok' : parse platform id' data' mapping' = .ok findings') :
    ∃ format format' : Format, format.id = id ∧ format'.id = id' ∧
      (keys platform format data mapping).length = findings.length ∧
      (keys platform format' data' mapping').length = findings'.length ∧
      (∀ key ∈ keys platform format data mapping, key.Canonical) ∧
      (∀ key ∈ keys platform format' data' mapping', key.Canonical) ∧
      ∀ (key key' : Key) (f f' : Finding),
        (key, f) ∈ (keys platform format data mapping).zip findings →
        (key', f') ∈ (keys platform format' data' mapping').zip findings' →
        (f.identity = f'.identity ↔ key = key') := by
  obtain ⟨format, known, carried⟩ := identities_of_keys ok
  obtain ⟨format', known', carried'⟩ := identities_of_keys ok'
  refine ⟨format, format', known, known', carried.length_eq, carried'.length_eq,
    keys_canonical platform format data mapping, keys_canonical platform format' data' mapping',
    fun key key' f f' mem mem' => ?_⟩
  rw [(List.forall₂_iff_zip.mp carried).2 mem, (List.forall₂_iff_zip.mp carried').2 mem']
  constructor
  · exact fun same => Key.parts_injective (identity_injective injective same)
  · rintro rfl
    rfl

end Reports

theorem unary_cons_inj {m n : ℕ} {a b : List UInt8}
    (same : List.replicate m 0 ++ 1 :: a = List.replicate n 0 ++ 1 :: b) : m = n ∧ a = b := by
  induction m generalizing n with
  | zero =>
    cases n with
    | zero => exact ⟨rfl, (List.cons.inj same).2⟩
    | succ n => exact absurd (List.cons.inj same).1 (by decide)
  | succ m ih =>
    cases n with
    | zero => exact absurd (List.cons.inj same).1 (by decide)
    | succ n =>
      obtain ⟨rfl, rfl⟩ := ih (List.cons.inj same).2
      exact ⟨rfl, rfl⟩

theorem unary_injective : Function.Injective unary := by
  intro t u same
  induction t generalizing u with
  | nil =>
    cases u with
    | nil => rfl
    | cons d u => simp [unary] at same
  | cons c t ih =>
    cases u with
    | nil => simp [unary] at same
    | cons d u =>
      rw [unary, List.flatMap_cons, List.append_assoc, unary, List.flatMap_cons,
        List.append_assoc] at same
      obtain ⟨codes, rest⟩ := unary_cons_inj same
      rw [Char.toNat_inj.mp codes, ih rest]

/-- A leaked secret with the fingerprint `a`. -/
def gitleaksReport : Value :=
  .array [writtenObject [("Fingerprint", written "a"), ("Description", written "d")]]

theorem identity_eq_iff_manual_gitleaks :
    ∃ f f', parse valuePlatform "manual".toList manualReport {} = .ok [f] ∧
      parse valuePlatform "gitleaks".toList gitleaksReport {} = .ok [f'] ∧
      f.identity ≠ f'.identity := by
  obtain ⟨f, ok⟩ : ∃ f, parse valuePlatform "manual".toList manualReport {} = .ok [f] :=
    one_of_length (by decide +kernel)
  obtain ⟨f', ok'⟩ : ∃ f, parse valuePlatform "gitleaks".toList gitleaksReport {} = .ok [f] :=
    one_of_length (by decide +kernel)
  refine ⟨f, f', ok, ok', ?_⟩
  obtain ⟨format, format', known, known', -, -, -, -, exact_⟩ :=
    identity_eq_iff unary_injective ok ok'
  obtain rfl := Format.id_injective (show format.id = Format.manual.id from known)
  obtain rfl := Format.id_injective (show format'.id = Format.gitleaks.id from known')
  have keyed : keys valuePlatform .manual manualReport {} = [.manual "a".toList] := by
    decide +kernel
  have keyed' : keys valuePlatform .gitleaks gitleaksReport {} = [.gitleaks "a".toList] := by
    decide +kernel
  rw [keyed, keyed'] at exact_
  exact fun same => nomatch (exact_ _ _ f f' (.head _) (.head _)).mp same

end Aspm.Parsers
