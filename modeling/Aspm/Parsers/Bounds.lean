import Aspm.Parsers.Entries

/-!
# Accepted reports are bounded and storable

A report is admitted by the tree check of `decodeJSON`, by the limits in the loops and by the
validation of every finding.  `parse_bounded` collects what they achieve together: few findings,
one for each entry, and no NUL character in any text of a finding or in anything it keeps of
the report.

The tree check sees the decoded value.  Entries of an object that a later entry of the same key
replaces are no longer in it, and are not bounded (`accepts_deep_repeated`).
-/

namespace Aspm.Parsers

open Json SortedMap Fallible

variable {depth nodes nodes' : ℕ} {v item : Value} {t : Text} {m : Option Object} {f : Finding}

/-! ## The tree check -/

/-- What the tree check establishes, wherever in the tree it starts. -/
def Admitted (v : Value) : Prop :=
  ∀ depth nodes nodes', bounded v depth nodes = some nodes' →
    nodes' = nodes + v.size ∧ depth + v.depth ≤ 64 ∧ nodes' ≤ 250000 ∧ v.Texts Plain

theorem enter_eq_some (entered : enter depth nodes = some nodes') :
    nodes' = nodes + 1 ∧ depth ≤ 64 ∧ nodes' ≤ 250000 := by
  unfold enter at entered
  split_ifs at entered with beyond
  simp only [Bool.or_eq_true, decide_eq_true_eq, not_or, not_lt] at beyond
  obtain rfl := Option.some.inj entered
  exact ⟨rfl, beyond.1, beyond.2⟩

theorem boundedItems_admitted {items : List Value} (each : ∀ v ∈ items, Admitted v)
    (shallow : depth ≤ 64) (few : nodes ≤ 250000)
    (ok : boundedItems items (depth + 1) nodes = some nodes') :
    nodes' = nodes + Datum.sizeItems items ∧ depth + Datum.depthItems items ≤ 64 ∧
      nodes' ≤ 250000 ∧ Datum.TextsItems Plain items := by
  induction items generalizing nodes with
  | nil =>
    obtain rfl := Option.some.inj ok
    exact ⟨rfl, shallow, few, trivial⟩
  | cons v rest ih =>
    obtain ⟨next, here, there⟩ := Option.bind_eq_some_iff.mp ok
    obtain ⟨size, deep, few, texts⟩ := each v List.mem_cons_self _ _ _ here
    obtain ⟨sizes, deeper, fewer, others⟩ :=
      ih (fun v mem => each v (List.mem_cons_of_mem _ mem)) few there
    refine ⟨?_, ?_, fewer, texts, others⟩
    · rw [sizes, size, Datum.sizeItems]
      omega
    · rw [Datum.depthItems]
      omega

theorem boundedFields_admitted {fields : Object} (each : ∀ entry ∈ fields, Admitted entry.2)
    (shallow : depth ≤ 64) (few : nodes ≤ 250000)
    (ok : boundedFields fields (depth + 1) nodes = some nodes') :
    nodes' = nodes + Datum.sizeFields fields ∧ depth + Datum.depthFields fields ≤ 64 ∧
      nodes' ≤ 250000 ∧ Datum.TextsFields Plain fields := by
  induction fields generalizing nodes with
  | nil =>
    obtain rfl := Option.some.inj ok
    exact ⟨rfl, shallow, few, trivial⟩
  | cons entry rest ih =>
    obtain ⟨k, v⟩ := entry
    rw [boundedFields] at ok
    split_ifs at ok with plain
    obtain ⟨next, here, there⟩ := Option.bind_eq_some_iff.mp ok
    have value : Admitted v := each (k, v) List.mem_cons_self
    obtain ⟨size, deep, few, texts⟩ := value _ _ _ here
    obtain ⟨sizes, deeper, fewer, others⟩ :=
      ih (fun entry mem => each entry (List.mem_cons_of_mem _ mem)) few there
    refine ⟨?_, ?_, fewer, ⟨plain, texts⟩, others⟩
    · rw [sizes, size, Datum.sizeFields]
      omega
    · rw [Datum.depthFields]
      omega

theorem admitted_leaf (leaf : ∀ depth nodes, bounded v depth nodes = enter depth nodes)
    (size : v.size = 1) (depth : v.depth = 0) (texts : v.Texts Plain) : Admitted v := by
  intro d n n' ok
  rw [leaf] at ok
  obtain ⟨count, shallow, few⟩ := enter_eq_some ok
  exact ⟨by rw [size, count], by rw [depth]; exact shallow, few, texts⟩

/-- **The tree check**: it counts the values, and bounds their number, their depth and their
texts. -/
theorem bounded_admitted (v : Value) : Admitted v := by
  induction v using Datum.ind with
  | null => exact admitted_leaf (fun _ _ => rfl) rfl rfl trivial
  | bool b => exact admitted_leaf (fun _ _ => rfl) rfl rfl trivial
  | number n => exact admitted_leaf (fun _ _ => rfl) rfl rfl trivial
  | string t =>
    intro depth nodes nodes' ok
    obtain ⟨next, entered, here⟩ := Option.bind_eq_some_iff.mp ok
    obtain ⟨count, shallow, few⟩ := enter_eq_some entered
    split_ifs at here with plain
    obtain rfl := Option.some.inj here
    exact ⟨count, shallow, few, plain⟩
  | array items each =>
    intro depth nodes nodes' ok
    obtain ⟨next, entered, here⟩ := Option.bind_eq_some_iff.mp ok
    obtain ⟨rfl, shallow, few⟩ := enter_eq_some entered
    obtain ⟨count, deep, fewer, texts⟩ := boundedItems_admitted each shallow few here
    refine ⟨?_, deep, fewer, texts⟩
    rw [count, Datum.size]
    omega
  | object fields each =>
    intro depth nodes nodes' ok
    obtain ⟨next, entered, here⟩ := Option.bind_eq_some_iff.mp ok
    obtain ⟨rfl, shallow, few⟩ := enter_eq_some entered
    obtain ⟨count, deep, fewer, texts⟩ := boundedFields_admitted each shallow few here
    refine ⟨?_, deep, fewer, texts⟩
    rw [count, Datum.size]
    omega

/-! ## Texts without NUL -/

/-- Nothing that the finding holds has a NUL character. -/
structure Finding.Plain (f : Finding) : Prop where
  identity : Parsers.Plain f.identity
  sourceFindingID : Parsers.Plain f.sourceFindingID
  title : Parsers.Plain f.title
  description : Parsers.Plain f.description
  sourceSeverity : Parsers.Plain f.sourceSeverity
  impact : Parsers.Plain f.impact
  remediation : Parsers.Plain f.remediation
  evidenceText : Parsers.Plain f.evidenceText
  sourceLabel : Parsers.Plain f.sourceLabel
  uri : Parsers.Plain f.location.uri
  unmapped : f.unmapped.Texts Parsers.Plain

theorem inherited_texts (P : Text → Prop) : Inherited (Datum.Texts P) where
  null := trivial
  item texts mem := Datum.textsItems_iff.mp texts _ mem
  field texts found := (Fields.texts_object.mp texts).get found

theorem plain_nil : Plain [] := List.not_mem_nil

theorem plain_append {u : Text} (left : Plain t) (right : Plain u) : Plain (t ++ u) :=
  fun mem => (List.mem_append.mp mem).elim left right

theorem plain_str (texts : v.Texts Plain) : Plain (str v) := by
  cases v with
  | string t => exact texts
  | _ => exact plain_nil

theorem plain_numeral (n : Numeral) : Plain n.text := fun mem =>
  absurd (List.all_eq_true.mp n.chars.1 nul mem) (by decide)

theorem plain_scalar (texts : v.Texts Plain) (read : scalar v = some t) : Plain t := by
  cases v with
  | string s => exact Option.some.inj read ▸ texts
  | number n => exact Option.some.inj read ▸ plain_numeral n
  | _ => cases read

theorem plain_first {values : List Text} (each : ∀ t ∈ values, Plain t) : Plain (first values) := by
  unfold first
  cases found : values.find? (· ≠ []) with
  | none => exact plain_nil
  | some t => exact each t (List.mem_of_find?_eq_some found)

theorem plain_hex (bytes : List UInt8) : Plain (hex bytes) := by
  intro mem
  obtain ⟨b, -, mem⟩ := List.mem_flatMap.mp mem
  have digit : ∀ n : Fin 16, hexDigit n ≠ nul := by decide
  have size := b.toNat_lt
  rcases List.mem_pair.mp mem with same | same
  · exact digit ⟨b.toNat / 16, by omega⟩ same.symm
  · exact digit ⟨b.toNat % 16, by omega⟩ same.symm

section Objects

/-- Reading a field of a plain object. -/
theorem plain_field (texts : HoldsOf (Datum.Texts Plain) m) (key : Text) :
    Plain (str (index m key)) :=
  plain_str ((inherited_texts Plain).index texts key)

theorem plain_text (texts : v.Texts Plain) : Plain (text v) := by
  simp only [text]
  split_ifs
  · exact plain_field (Inherited.obj texts) _
  · exact plain_field (Inherited.obj texts) _

theorem texts_getD (texts : HoldsOf (Datum.Texts Plain) m) : Fields.Texts Plain (m.getD []) := by
  cases m with
  | none => exact Fields.texts_nil
  | some fields => exact Fields.texts_object.mp (texts fields rfl)

theorem texts_remaining (texts : HoldsOf (Datum.Texts Plain) m) (ks : List Text) :
    Fields.Texts Plain (remaining m ks) :=
  (texts_getD texts).removeAll ks

end Objects

/-! ## Lines -/

theorem sourceLine_bounds {n : ℤ} (ok : sourceLine v = .ok n) : 0 ≤ n ∧ n < 2 ^ 31 := by
  unfold sourceLine at ok
  split_ifs at ok
  · obtain rfl := Except.ok.inj ok
    decide
  · simp only [bind_eq_ok, present_eq_ok, check_eq_ok, pure_eq_ok, decide_eq_true_eq] at ok
    obtain ⟨s, -, m, read, -, nonnegative, rfl⟩ := ok
    obtain ⟨k, -, small⟩ := Option.bind_eq_some_iff.mp read
    split_ifs at small with range
    obtain rfl := Option.some.inj small
    simp only [Bool.and_eq_true, decide_eq_true_eq] at range
    exact ⟨nonnegative, range.2⟩

theorem line_zero : (0 : ℤ) ≤ 0 ∧ (0 : ℤ) < 2 ^ 31 := by decide

theorem sarifLocation_bounds {result : Option Object} {location : Location}
    (texts : HoldsOf (Datum.Texts Plain) result) (ok : sarifLocation result = .ok location) :
    Plain location.uri ∧ 0 ≤ location.line ∧ location.line < 2 ^ 31 := by
  unfold sarifLocation at ok
  split at ok
  · obtain rfl := pure_eq_ok.mp ok
    exact ⟨plain_nil, line_zero⟩
  · next listed =>
      simp only [bind_eq_ok, pure_eq_ok] at ok
      obtain ⟨line, read, rfl⟩ := ok
      refine ⟨?_, sourceLine_bounds read⟩
      have inherited := inherited_texts Plain
      have first := inherited.elements (inherited.index texts _)
        (show _ ∈ elements (field result "locations") by
          rw [elements, listed]
          exact List.mem_cons_self)
      exact plain_field (Inherited.obj (inherited.ofField (inherited.ofField first _) _)) _

/-! ## What is made of an entry -/

theorem texts_sarifRules {driver : Option Object} {rules : List (Text × Object)}
    (texts : HoldsOf (Datum.Texts Plain) driver) (ok : sarifRules driver = .ok rules) :
    ∀ id, HoldsOf (Datum.Texts Plain) (get id rules) := by
  have inherited := inherited_texts Plain
  refine foldlM_invariant
    (I := fun rules => ∀ id, HoldsOf (Datum.Texts Plain) (get id rules)) ?_ ?_ ok
  · intro rawRule mem before after holds step id rule found
    simp only [sarifRule, bind_eq_ok, pure_eq_ok] at step
    obtain ⟨-, -, rfl⟩ := step
    rw [get_put] at found
    split_ifs at found
    · have raw := inherited.elements (inherited.index texts _) mem
      obtain rfl := Option.some.inj found
      exact Fields.texts_object.mpr (texts_getD (Inherited.obj raw))
    · exact holds id rule found
  · intro id rule found
    cases found

theorem texts_sarifProperties {properties unmapped : Object}
    (each : Fields.Texts Plain properties) (texts : Fields.Texts Plain unmapped) :
    Fields.Texts Plain (properties.foldl sarifProperty unmapped) := by
  induction properties generalizing unmapped with
  | nil => exact texts
  | cons property rest ih =>
    refine ih (fun entry mem => each entry (List.mem_cons_of_mem _ mem)) ?_
    obtain ⟨key, value⟩ := each property List.mem_cons_self
    unfold sarifProperty
    split_ifs
    · exact texts.put key value
    · exact texts

section Entries

variable {Bytes : Type} {platform : Platform Bytes} {mapping : Mapping}

/-- A finding that can be stored. -/
def Finding.Storable (f : Finding) : Prop :=
  f.Plain ∧ 0 ≤ f.location.line ∧ f.location.line < 2 ^ 31

theorem plain_pair {u : Text} (left : Plain t) (right : Plain u) : Plain (first [t, u]) :=
  plain_first fun v mem => by
    rcases List.mem_pair.mp mem with rfl | rfl
    · exact left
    · exact right

theorem labelled_storable {label : String} {item : Option Object} (plain : Plain label.toList)
    (texts : HoldsOf (Datum.Texts Plain) item)
    (made : labelledFinding platform mapping label item = .ok f) : f.Storable := by
  simp only [labelledFinding, mappedFinding, bind_eq_ok, pure_eq_ok] at made
  obtain ⟨-, ⟨-, -, -, -, line, read, rfl⟩, rfl⟩ := made
  have field := plain_field texts
  exact ⟨⟨plain_hex _, field _, field _, field _, field _, field _, field _,
    plain_pair (field _) (field _), plain, field _, texts_remaining texts _⟩,
    sourceLine_bounds read⟩

theorem manual_storable (texts : item.Texts Plain) (made : manualFinding platform item = .ok f) :
    f.Storable := by
  simp only [manualFinding, bind_eq_ok, pure_eq_ok] at made
  obtain ⟨-, -, -, -, line, read, rfl⟩ := made
  have object := Inherited.obj texts
  have field := plain_field object
  have loc := Inherited.obj ((inherited_texts Plain).ofField texts "sourceLocation")
  have label : Plain "Manual report".toList := by decide
  exact ⟨⟨plain_hex _, field _, field _, field _, field _, field _, field _,
    plain_pair (field _) (field _), label, plain_field loc _, texts_remaining object _⟩,
    sourceLine_bounds read⟩

theorem sarif_storable {label : Text} {rules : List (Text × Object)} {result : Value}
    (plain : Plain label) (known : ∀ id, HoldsOf (Datum.Texts Plain) (get id rules))
    (texts : result.Texts Plain) (made : sarifFinding platform label rules result = .ok f) :
    f.Storable := by
  simp only [sarifFinding, bind_eq_ok, pure_eq_ok] at made
  obtain ⟨-, -, location, read, rfl⟩ := made
  have inherited := inherited_texts Plain
  have object := Inherited.obj texts
  have field := plain_field object
  have message := plain_text (inherited.ofField texts "message")
  have rule (id : Text) (key : String) := plain_text (inherited.index (known id) key.toList)
  have properties := Inherited.obj (inherited.ofField texts "properties")
  obtain ⟨uri, line⟩ := sarifLocation_bounds object read
  refine ⟨⟨plain_hex _, ?_, ?_, plain_pair (rule _ _) message, field _, plain_field properties _,
    rule _ _, message, plain, uri,
    texts_sarifProperties (texts_getD properties) (texts_remaining object _)⟩, line⟩
  · dsimp only
    split_ifs
    · exact field _
    · exact field _
  · refine plain_first fun t mem => ?_
    simp only [List.mem_cons, List.not_mem_nil, or_false] at mem
    rcases mem with rfl | rfl | rfl
    · exact rule _ _
    · exact message
    · exact field _

theorem trivy_storable {target : Text} (plain : Plain target) (texts : item.Texts Plain) :
    (trivyFinding platform target item).Storable := by
  have object := Inherited.obj texts
  have field := plain_field object
  have fixed : Plain (trivyRemediation (obj item)) := by
    simp only [trivyRemediation]
    split_ifs
    · exact plain_append (plain_append (plain_append (by decide) (field _)) (by decide)) (field _)
    · exact plain_nil
  have label : Plain "Trivy report".toList := by decide
  exact ⟨⟨plain_hex _, field _, plain_pair (field _) (field _), field _, field _, field _, fixed,
    field _, label, plain, texts_remaining object _⟩, line_zero⟩

theorem zap_storable {alert instance_ : Value} {rawSeverity : Text} (raised : alert.Texts Plain)
    (texts : instance_.Texts Plain)
    (rated : scalar (field (obj alert) "riskcode") = some rawSeverity)
    (made : zapFinding platform (obj alert) rawSeverity instance_ = .ok f) : f.Storable := by
  simp only [zapFinding, bind_eq_ok, pure_eq_ok] at made
  obtain ⟨-, -, rfl⟩ := made
  have inherited := inherited_texts Plain
  have object := Inherited.obj raised
  have field := plain_field object
  have here := Inherited.obj texts
  have kept : (Datum.array [.object ((obj instance_).getD [])] : Value).Texts Plain :=
    ⟨Fields.texts_object.mpr (texts_getD here), trivial⟩
  have label : Plain "ZAP report".toList := by decide
  have key : Plain instancesKey := by decide
  exact ⟨⟨plain_hex _, field _, field _, field _,
    plain_scalar (inherited.ofField raised _) rated, field _, field _,
    plain_pair (plain_field here _) (field _), label, plain_field here _,
    (texts_remaining object _).put key kept⟩, line_zero⟩

theorem gitleaks_storable (texts : item.Texts Plain)
    (made : gitleaksFinding platform item = .ok f) : f.Storable := by
  simp only [gitleaksFinding, bind_eq_ok, pure_eq_ok] at made
  obtain ⟨line, read, -, -, rfl⟩ := made
  have object := Inherited.obj texts
  have field := plain_field object
  have label : Plain "Gitleaks report".toList := by decide
  exact ⟨⟨plain_hex _, field _, field _, field _, plain_nil, field _, plain_nil, field _,
    label, field _, texts_remaining object _⟩, sourceLine_bounds read⟩

/-- **Plain entries make storable findings.** -/
theorem finding_storable {entry : Entry} (texts : entry.Holds (Datum.Texts Plain))
    (made : entry.finding platform mapping = .ok f) : f.Storable := by
  cases entry with
  | record item => exact labelled_storable (by decide) (Inherited.obj texts) made
  | row item =>
    have texts : HoldsOf (Datum.Texts Plain) (some item) := fun fields same =>
      Option.some.inj same ▸ texts
    exact labelled_storable (by decide) texts made
  | manual item => exact manual_storable texts made
  | sarif run result =>
    obtain ⟨rules, read, made⟩ := bind_eq_ok.mp made
    have inherited := inherited_texts Plain
    have driver := Inherited.obj (inherited.ofField (inherited.ofField texts.1 "tool") "driver")
    exact sarif_storable (plain_field driver _) (texts_sarifRules driver read) texts.2 made
  | trivy result item =>
    obtain rfl := pure_eq_ok.mp made
    exact trivy_storable (plain_field (Inherited.obj texts.1) _) texts.2
  | zap alert instance_ =>
    obtain ⟨rawSeverity, rated, made⟩ := bind_eq_ok.mp made
    exact zap_storable texts.1 texts.2 (present_eq_ok.mp rated) made
  | gitleaks item => exact gitleaks_storable texts made

/-! ## Accepted reports -/

theorem texts_csvItem {headers record : List Text} (names : ∀ header ∈ headers, Plain header)
    (values : ∀ value ∈ record, Plain value) : Fields.Texts Plain (csvItem headers record) := by
  have pairs : ∀ entry ∈ headers.zip record, Plain entry.1 ∧ Plain entry.2 := fun entry mem =>
    ⟨names _ (List.of_mem_zip mem).1, values _ (List.of_mem_zip mem).2⟩
  -- The entries so far are plain, and so are those still to come.
  have loop : ∀ (entries : List (Text × Text)) (item : Object), Fields.Texts Plain item →
      (∀ entry ∈ entries, Plain entry.1 ∧ Plain entry.2) → Fields.Texts Plain
        (entries.foldl (fun item entry => put entry.1 (.string entry.2) item) item) := by
    intro entries
    induction entries with
    | nil => exact fun item texts _ => texts
    | cons entry entries ih =>
      intro item texts plain
      obtain ⟨name, value⟩ := plain entry List.mem_cons_self
      exact ih _ (texts.put name value) fun other mem => plain other (List.mem_cons_of_mem _ mem)
  exact loop _ [] Fields.texts_nil pairs

theorem csvEntries_plain {data : Bytes} {findings : List Finding}
    (ok : parseCSV platform data mapping = .ok findings) :
    ∀ entry ∈ csvEntries (platform.csv data).items, entry.Holds (Datum.Texts Plain) := by
  simp only [parseCSV, bind_eq_ok, present_eq_ok, check_eq_ok, pure_eq_ok, List.all_eq_true,
    Bool.and_eq_true, decide_eq_true_eq] at ok
  obtain ⟨headers, first, -, -, -, named, -, -, -, -, result, ok, -, -, rfl⟩ := ok
  intro entry mem
  rw [csvEntries, first, Option.getD_some] at mem
  obtain ⟨record, listed, rfl⟩ := List.mem_map.mp mem
  obtain ⟨before, after, round⟩ := foldlM_rounds ok listed
  simp only [csvRecord, bind_eq_ok, check_eq_ok, List.all_eq_true, decide_eq_true_eq] at round
  obtain ⟨-, -, -, values, -⟩ := round
  exact Fields.texts_object.mpr (texts_csvItem (fun header mem => (named header mem).2) values)

theorem decodeJSON_admitted {data : Bytes} (ok : decodeJSON platform data = .ok v) :
    (∃ written, platform.json data = ⟨[written], true⟩ ∧ v = written.decoded) ∧
      v.depth ≤ 64 ∧ v.size ≤ 250000 ∧ v.Texts Plain := by
  obtain ⟨written, only, decoded, -, admitted⟩ := root_of_decodeJSON ok
  obtain ⟨nodes, counted⟩ := Option.isSome_iff_exists.mp admitted
  obtain ⟨count, deep, few, texts⟩ := bounded_admitted v 0 0 nodes counted
  refine ⟨⟨written, ?_, decoded⟩, by omega, by omega, texts⟩
  unfold onlyValue at only
  split at only
  · next scanned =>
      rw [scanned, Option.some.inj only]
  · cases only

theorem entries_plain {format : Format} {data : Bytes} {findings : List Finding}
    (ok : (format.adapter platform).parse data mapping = .ok findings) :
    ∀ entry ∈ entries platform format data, entry.Holds (Datum.Texts Plain) := by
  rcases adapter_parse_eq_ok ok with ⟨csv, parsed⟩ | ⟨json, v, decoded, -⟩
  · rw [entries, if_pos csv]
    exact csvEntries_plain parsed
  · obtain ⟨-, -, -, rooted, -⟩ := root_of_decodeJSON decoded
    obtain ⟨-, -, -, texts⟩ := decodeJSON_admitted decoded
    rw [entries, if_neg json, rooted]
    exact fun entry mem => rootEntries_hold (inherited_texts Plain) texts mem

/-- **Accepted reports are bounded and storable.**  There are at most 5000 findings, one for
each entry of the report; each of them is valid, has a line of 31 bits and holds no NUL
character; and a report that is not CSV is one JSON value with nothing after it, which decodes
to at most 250000 values no deeper than 64. -/
theorem parse_bounded {id : Text} {data : Bytes} {findings : List Finding}
    (ok : parse platform id data mapping = .ok findings) :
    ∃ format : Format, format.id = id ∧ findings.length ≤ 5000 ∧
      findings.length = (entries platform format data).length ∧
      (∀ f ∈ findings, validateFinding f = true ∧ f.Plain ∧
        0 ≤ f.location.line ∧ f.location.line < 2 ^ 31) ∧
      (format ≠ .genericCSV → ∃ written, platform.json data = ⟨[written], true⟩ ∧
        written.decoded.depth ≤ 64 ∧ written.decoded.size ≤ 250000) := by
  obtain ⟨format, known, -, -, -, -, parsed, few, valid⟩ := (parse_eq_ok platform).mp ok
  obtain ⟨same, known', made⟩ := parse_entries ok
  obtain rfl := Format.id_injective (known'.trans known.symm)
  refine ⟨same, known, few, made.length_eq.symm, fun f mem => ?_, fun json => ?_⟩
  · obtain ⟨entry, listed, made⟩ := entry_of_mem made mem
    exact ⟨valid f mem, finding_storable (entries_plain parsed entry listed) made⟩
  · rcases adapter_parse_eq_ok parsed with ⟨csv, -⟩ | ⟨-, v, decoded, -⟩
    · exact absurd csv json
    · obtain ⟨⟨written, scanned, rfl⟩, deep, few, -⟩ := decodeJSON_admitted decoded
      exact ⟨written, scanned, deep, few⟩

end Entries

theorem parse_bounded_manual :
    ∃ f, parse valuePlatform "manual".toList manualReport {} = .ok [f] ∧
      validateFinding f = true ∧ f.Plain ∧ f.location.line < 2 ^ 31 := by
  obtain ⟨f, ok⟩ : ∃ f, parse valuePlatform "manual".toList manualReport {} = .ok [f] :=
    one_of_length (by decide +kernel)
  obtain ⟨-, -, -, -, each, -⟩ := parse_bounded ok
  obtain ⟨valid, plain, -, small⟩ := each f List.mem_cons_self
  exact ⟨f, ok, valid, plain, small⟩

/-! ## What the tree check does not see -/

/-- Arrays inside one another. -/
def nested : ℕ → Value
  | 0 => .null
  | n + 1 => .array [nested n]

/-- A SARIF report without runs, and with an extension that is given twice. -/
def repeatedReport : Value :=
  writtenObject [("version", written "2.1.0"), ("runs", .array []), ("x", nested 70), ("x", .null)]

/-- A report may be as deep as it likes under a key that is given again. -/
theorem accepts_deep_repeated :
    parse valuePlatform "sarif".toList repeatedReport {} = .ok [] ∧
      valuePlatform.json repeatedReport = ⟨[repeatedReport], true⟩ ∧
      64 < repeatedReport.depth :=
  ⟨by decide +kernel, rfl, by decide +kernel⟩

end Aspm.Parsers
