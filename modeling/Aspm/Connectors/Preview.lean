import Mathlib.Data.Finset.Sort
import Mathlib.Data.List.Lex
import Aspm.Connectors.Http

/-!
# The fields a Jira issue needs

`jiraDelivery.Preview` asks for the create fields of an issue type page by page, and collects those
that are required, have no default and are not supplied.  Three optional signals end the paging:
a flag, a total, and, without either, a short page.

A server is a function of the number of requests before and of the position asked for; what it
answers in a run is otherwise arbitrary.  For a server that serves a list of fields, in pages of any
lengths, the result is that of the whole list (`preview_serves`).  For every server, the requests
are bounded and success means that nothing seen is missing (`preview_any`).
-/

namespace Aspm.Connectors

open Json (Text byteLength)
open Strings

/-! ## The request's data -/

/-- `^[A-Z][A-Z0-9_]{0,254}$` -/
def jiraProjectID (t : Text) : Bool :=
  wordOf (fun c => 'A' ≤ c && c ≤ 'Z')
    (fun c => ('A' ≤ c && c ≤ 'Z') || isDigit c || c == '_') t && t.length ≤ 255

/-- `^customfield_[0-9]+$` -/
def customFieldID (t : Text) : Bool :=
  "customfield_".toList.isPrefixOf t && t.drop 12 ≠ [] && (t.drop 12).all isDigit

/-- A delivery that `OpenDelivery` returned.  `browserLink` is `validateBrowserLink`. -/
structure Jira where
  workspaceID : Text
  project : Text
  issueType : Text
  limits : Limits
  browserLink : Text → Bool
  project_ok : jiraProjectID project = true
  issueType_ok : numericID issueType = true

structure Action where
  workspaceID : Text
  findingID : Text
  title : Text
  body : Text
  deepLink : Text
  fields : List (Text × Text)

/-- `action.Fields[id]` -/
def Action.field (a : Action) (id : Text) : Text := (a.fields.lookup id).getD []

/-- `validateAction`, when nothing is sent. -/
def validateAction (d : Jira) (a : Action) : Except ErrorCode Unit :=
  if a.workspaceID ≠ d.workspaceID ∨ textID a.findingID 256 = false then .error .scope
  else if d.browserLink a.deepLink = false then .error .scope
  else if a.fields.any (fun f => !(customFieldID f.1) || 128 < byteLength f.1) then .error .scope
  else .ok ()

structure CreateField where
  fieldID : Text
  id : Text
  required : Bool
  hasDefaultValue : Bool
  schemaType : Text
deriving DecidableEq

def CreateField.key (f : CreateField) : Text := if f.fieldID = [] then f.id else f.fieldID

/-- The members of an answer that `Preview` reads. -/
structure Metadata where
  startAt : Option ℤ
  total : Option ℤ
  isLast : Option Bool
  fields : Option (List CreateField)
  values : Option (List CreateField)

/-! ## The loop -/

def isBlank (t : Text) : Bool := trimSpace t = []

def suppliedValue (d : Jira) (a : Action) (f : CreateField) : Text :=
  if f.key = "project".toList then d.project
  else if f.key = "issuetype".toList then d.issueType
  else if f.key = "summary".toList then a.title
  else if f.key = "description".toList then a.body
  else if customFieldID f.key && (f.schemaType == [] || f.schemaType == "string".toList) then
    a.field f.key
  else []

def isMissing (d : Jira) (a : Action) (f : CreateField) : Bool :=
  f.required && !f.hasDefaultValue && isBlank (suppliedValue d a f)

/-- `missing` before the loop. -/
def missingTitle (a : Action) : Finset Text :=
  if isBlank a.title then {"summary".toList} else ∅

/-- `slices.Sort`, whose order of bytes is that of the characters. -/
def sortIDs (missing : Finset Text) : List Text := missing.sort (· ≤ ·)

/-- The variables of the loop, and the fields that it has read. -/
structure Progress where
  requests : ℕ
  start : ℕ
  missing : Finset Text
  reported : List Text
  seen : List CreateField

/-- The result: `Preview{MissingFields}` and the error. -/
structure PreviewResult where
  missingFields : List Text
  error : Option ErrorCode
  requests : ℕ
  seen : List CreateField

def Progress.stop (p : Progress) (error : Option ErrorCode) : PreviewResult :=
  ⟨p.reported, error, p.requests, p.seen⟩

section Loop

variable (d : Jira) (a : Action)

/-- The fields of a page are read. -/
def Progress.add (p : Progress) (fields : List CreateField) : Progress :=
  let missing := p.missing ∪ ((fields.filter (isMissing d a)).map CreateField.key).toFinset
  { p with
    start := p.start + fields.length
    missing := missing
    reported := sortIDs missing
    seen := p.seen ++ fields }

/-- `done`, at the position after the page. -/
def isDone (m : Metadata) (start length : ℕ) : Bool :=
  m.isLast == some true || m.total.any (· ≤ (start : ℤ)) ||
    (m.isLast.isNone && m.total.isNone && length < d.limits.pageSize)

/-- The body of the loop after the request: a result, or the next page. -/
def readPage (p : Progress) (decoded : Option Metadata) : Except PreviewResult Progress :=
  match decoded with
  | none => .error (p.stop (some .protocol))
  | some m =>
    if m.startAt.any (· ≠ (p.start : ℤ)) ∨ (m.fields.isSome ∧ m.values.isSome) then
      .error (p.stop (some .protocol))
    else match m.fields <|> m.values with
      | none => .error (p.stop (some .protocol))
      | some fields =>
        if d.limits.pageSize < fields.length then .error (p.stop (some .protocol))
        else if fields.any (fun f => !(textID f.key 128)) then
          .error (p.stop (some .protocol))
        else
          let next := p.add d a fields
          if isDone d m next.start fields.length then
            .error (next.stop (if next.missing = ∅ then none else some .requiredFields))
          else if fields = [] then .error (next.stop (some .protocol))
          else .ok next

/-- A server, by the number of requests before and the position asked for. -/
abbrev Server := ℕ → ℕ → Exchange (Option Metadata)

/-- The loop, with the pages that are left. -/
def previewPages (server : Server) : ℕ → Progress → PreviewResult
  | 0, p => p.stop (some .limit)
  | pages + 1, p =>
    match sendRequest d.limits p.requests (server p.requests p.start) with
    | (.error error, requests) => { p with requests := requests }.stop (some error)
    | (.ok decoded, requests) =>
      match readPage d a { p with requests := requests } decoded with
      | .error result => result
      | .ok next => previewPages server pages next

def preview (server : Server) : PreviewResult :=
  match validateAction d a with
  | .error error => ⟨[], some error, 0, []⟩
  | .ok _ => previewPages d a server d.limits.pages ⟨0, 0, missingTitle a, [], []⟩

end Loop

/-! ## What is missing -/

/-- The fields that the action or the configuration supplies. -/
def Supplied (a : Action) (f : CreateField) : Prop :=
  f.key = "project".toList ∨ f.key = "issuetype".toList ∨
    (f.key = "summary".toList ∧ isBlank a.title = false) ∨
    (f.key = "description".toList ∧ isBlank a.body = false) ∨
    (customFieldID f.key = true ∧ (f.schemaType = [] ∨ f.schemaType = "string".toList) ∧
      isBlank (a.field f.key) = false)

/-- A field that an issue cannot be created without. -/
def Needed (f : CreateField) : Prop := f.required = true ∧ f.hasDefaultValue = false

section Missing

variable (d : Jira) (a : Action)

theorem isBlank_of_wordOf {first other : Char → Bool} {t : Text}
    (starts : ∀ c, first c = true → isSpace c = false)
    (continues : ∀ c, other c = true → isSpace c = false) (word : wordOf first other t = true) :
    isBlank t = false := by
  have visible : trimSpace t = t := trimSpace_eq_self (forall_of_wordOf word starts continues)
  rw [isBlank, visible, decide_eq_false_iff_not]
  rintro rfl
  cases word

theorem isSpace_eq_false {c : Char} (above : 33 ≤ c.toNat) (below : c.toNat ≤ 126) :
    isSpace c = false := by
  rw [← Bool.not_eq_true]
  intro space
  have := toNat_of_isSpace space
  omega

theorem isSpace_of_range {lo hi c : Char} (within : (lo ≤ c && c ≤ hi) = true)
    (above : 33 ≤ lo.toNat) (below : hi.toNat ≤ 126) : isSpace c = false := by
  rw [Bool.and_eq_true, decide_eq_true_eq, decide_eq_true_eq] at within
  exact isSpace_eq_false (above.trans (UInt32.le_iff_toNat_le.mp within.1))
    ((UInt32.le_iff_toNat_le.mp within.2).trans below)

theorem Jira.project_visible : isBlank d.project = false := by
  have word := (Bool.and_eq_true_iff.mp d.project_ok).1
  refine isBlank_of_wordOf (fun c upper => isSpace_of_range upper (by decide) (by decide)) ?_ word
  intro c member
  rw [Bool.or_eq_true, Bool.or_eq_true, beq_iff_eq] at member
  rcases member with (upper | digit) | rfl
  · exact isSpace_of_range upper (by decide) (by decide)
  · exact isSpace_of_range digit (by decide) (by decide)
  · decide

theorem Jira.issueType_visible : isBlank d.issueType = false := by
  have word := (Bool.and_eq_true_iff.mp d.issueType_ok).1
  exact isBlank_of_wordOf (fun c digit => isSpace_of_range digit (by decide) (by decide))
    (fun c digit => isSpace_of_range digit (by decide) (by decide)) word

theorem isBlank_suppliedValue (f : CreateField) :
    isBlank (suppliedValue d a f) = false ↔ Supplied a f := by
  unfold suppliedValue Supplied
  by_cases project : f.key = "project".toList
  · simp [project, d.project_visible]
  by_cases issueType : f.key = "issuetype".toList
  · rw [if_neg project, if_pos issueType]
    simp [issueType, d.issueType_visible]
  by_cases summary : f.key = "summary".toList
  · have notDescription : f.key ≠ "description".toList := by rw [summary]; decide
    have notCustom : customFieldID f.key ≠ true := by rw [summary]; decide
    rw [if_neg project, if_neg issueType, if_pos summary]
    simp only [project, issueType, notDescription, notCustom, Bool.false_eq_true, false_and,
      false_or, or_false, and_iff_right summary]
  by_cases description : f.key = "description".toList
  · have notCustom : customFieldID f.key ≠ true := by rw [description]; decide
    rw [if_neg project, if_neg issueType, if_neg summary, if_pos description]
    simp only [project, issueType, summary, notCustom, Bool.false_eq_true, false_and, false_or,
      or_false, and_iff_right description]
  rw [if_neg project, if_neg issueType, if_neg summary, if_neg description]
  simp only [project, issueType, summary, description, false_and, false_or]
  have blank : isBlank [] = true := rfl
  by_cases custom : (customFieldID f.key && (f.schemaType == [] || f.schemaType == "string".toList)) =
      true
  · rw [if_pos custom]
    rw [Bool.and_eq_true, Bool.or_eq_true, beq_iff_eq, beq_iff_eq] at custom
    rw [and_iff_right custom.1, and_iff_right custom.2]
  · rw [if_neg custom, blank]
    rw [Bool.and_eq_true, Bool.or_eq_true, beq_iff_eq, beq_iff_eq, not_and] at custom
    simp only [Bool.true_eq_false, false_iff, not_and]
    intro isCustom schema
    exact absurd schema (custom isCustom)

theorem isMissing_iff (f : CreateField) :
    isMissing d a f = true ↔ Needed f ∧ ¬ Supplied a f := by
  rw [← isBlank_suppliedValue d, isMissing, Bool.and_eq_true, Bool.and_eq_true, Bool.not_eq_true',
    Bool.not_eq_false]
  rfl

/-- The ids that are missing when these fields are all there are. -/
def missingOf (fields : List CreateField) : Finset Text :=
  missingTitle a ∪ ((fields.filter (isMissing d a)).map CreateField.key).toFinset

theorem mem_missingOf {fields : List CreateField} {id : Text} :
    id ∈ missingOf d a fields ↔
      (id = "summary".toList ∧ isBlank a.title = true) ∨
        ∃ f ∈ fields, f.key = id ∧ Needed f ∧ ¬ Supplied a f := by
  have title : id ∈ missingTitle a ↔ id = "summary".toList ∧ isBlank a.title = true := by
    unfold missingTitle
    split <;> simp_all
  simp only [missingOf, Finset.mem_union, title, List.mem_toFinset, List.mem_map, List.mem_filter,
    isMissing_iff]
  refine or_congr Iff.rfl ⟨?_, ?_⟩
  · rintro ⟨f, ⟨mem, missing⟩, same⟩
    exact ⟨f, mem, same, missing⟩
  · rintro ⟨f, mem, same, missing⟩
    exact ⟨f, ⟨mem, missing⟩, same⟩

theorem missingOf_eq_empty {fields : List CreateField} :
    missingOf d a fields = ∅ ↔
      (∀ f ∈ fields, Needed f → Supplied a f) ∧ isBlank a.title = false := by
  rw [Finset.eq_empty_iff_forall_notMem]
  simp only [mem_missingOf, not_or, not_exists, not_and, not_not]
  constructor
  · intro none
    refine ⟨fun f mem needed => (none f.key).2 f mem rfl needed, ?_⟩
    exact eq_false_of_ne_true ((none "summary".toList).1 rfl)
  · rintro ⟨supplied, title⟩ id
    refine ⟨fun _ => by simp [title], fun f mem _ needed => supplied f mem needed⟩

end Missing

/-! ## Every server -/

section Any

variable {d : Jira} {a : Action} {p : Progress}

/-- The loop keeps what is missing among the fields it has seen. -/
structure Progress.Inv (d : Jira) (a : Action) (p : Progress) : Prop where
  missing : p.missing = missingOf d a p.seen
  start : p.start = p.seen.length

theorem Progress.Inv.add (inv : p.Inv d a) (fields : List CreateField) :
    (p.add d a fields).Inv d a where
  missing := by
    change p.missing ∪ _ = missingOf d a (p.seen ++ fields)
    rw [inv.missing, missingOf, missingOf, List.filter_append, List.map_append,
      List.toFinset_append, Finset.union_assoc]
  start := by
    change p.start + fields.length = (p.seen ++ fields).length
    rw [inv.start, List.length_append]

/-- What the body of the loop can do. -/
theorem readPage_cases (d : Jira) (a : Action) (p : Progress) (decoded : Option Metadata) :
    (∃ r, readPage d a p decoded = .error r ∧ r.requests = p.requests ∧ r.error ≠ none) ∨
    (∃ fields, readPage d a p decoded = .error ((p.add d a fields).stop none) ∧
      (p.add d a fields).missing = ∅) ∨
    (∃ fields, readPage d a p decoded = .ok (p.add d a fields)) := by
  have fails (q : Progress) (code : ErrorCode) (same : q.requests = p.requests) :
      ∃ r, (Except.error (q.stop (some code)) : Except PreviewResult Progress) = .error r ∧
        r.requests = p.requests ∧ r.error ≠ none :=
    ⟨_, rfl, same, Option.some_ne_none code⟩
  unfold readPage
  cases decoded with
  | none => exact .inl (fails p .protocol rfl)
  | some m =>
    simp only
    split
    · exact .inl (fails p .protocol rfl)
    split
    · exact .inl (fails p .protocol rfl)
    next fields _ =>
    split
    · exact .inl (fails p .protocol rfl)
    split
    · exact .inl (fails p .protocol rfl)
    split
    · by_cases none : (p.add d a fields).missing = ∅
      · rw [if_pos none]
        exact .inr (.inl ⟨fields, rfl, none⟩)
      · rw [if_neg none]
        exact .inl (fails (p.add d a fields) .requiredFields rfl)
    split
    · exact .inl (fails (p.add d a fields) .protocol rfl)
    · exact .inr (.inr ⟨fields, rfl⟩)

/-- What holds of a result, whatever the server does. -/
structure PreviewResult.Sound (d : Jira) (a : Action) (bound : ℕ) (r : PreviewResult) : Prop where
  requests : r.requests ≤ bound ∧ r.requests ≤ d.limits.requests
  success : r.error = none → missingOf d a r.seen = ∅ ∧ r.missingFields = []

theorem previewPages_sound (server : Server) (pages : ℕ) (inv : p.Inv d a)
    (within : p.requests ≤ d.limits.requests) :
    (previewPages d a server pages p).Sound d a (p.requests + pages) := by
  induction pages generalizing p with
  | zero => exact ⟨⟨le_refl _, within⟩, nofun⟩
  | succ pages ih =>
    obtain ⟨one, bounded⟩ := sendRequest_requests d.limits p.requests (server p.requests p.start)
    unfold previewPages
    split
    · next error requests sent =>
      simp only [sent] at one bounded
      exact ⟨⟨by change requests ≤ _; omega, bounded within⟩, nofun⟩
    · next decoded requests sent =>
      simp only [sent] at one bounded
      have kept : Progress.Inv d a { p with requests := requests } := ⟨inv.missing, inv.start⟩
      rcases readPage_cases d a { p with requests := requests } decoded with
        ⟨r, shape, same, failed⟩ | ⟨fields, shape, none⟩ | ⟨fields, shape⟩
      · rw [shape]
        refine ⟨⟨?_, ?_⟩, fun success => absurd success failed⟩
        · rw [same]
          change requests ≤ _
          omega
        · rw [same]
          exact bounded within
      · rw [shape]
        refine ⟨⟨?_, bounded within⟩, fun _ => ⟨?_, ?_⟩⟩
        · change requests ≤ _
          omega
        · change missingOf d a (Progress.add d a _ fields).seen = ∅
          rw [← (kept.add fields).missing, none]
        · change sortIDs (Progress.add d a _ fields).missing = []
          rw [none]
          exact Finset.sort_empty _
      · rw [shape]
        obtain ⟨⟨below, most⟩, success⟩ := ih (kept.add fields) (bounded within)
        refine ⟨⟨below.trans ?_, most⟩, success⟩
        change requests + pages ≤ _
        omega

theorem missingOf_nil (d : Jira) (a : Action) : missingTitle a = missingOf d a [] := by
  simp [missingOf]

theorem preview_sound (d : Jira) (a : Action) (server : Server) :
    (preview d a server).Sound d a d.limits.pages := by
  unfold preview
  split
  · exact ⟨⟨Nat.zero_le _, Nat.zero_le _⟩, nofun⟩
  · have loop := previewPages_sound (p := ⟨0, 0, missingTitle a, [], []⟩) server d.limits.pages
      ⟨missingOf_nil d a, rfl⟩ (Nat.zero_le _)
    rwa [Nat.zero_add] at loop

end Any

/-! ## Servers of a list of fields -/

/-- A page of the list: some of the fields from this position on, under either name, with the
total, the flag or both. -/
structure PageOf (d : Jira) (all : List CreateField) (start : ℕ) (m : Metadata)
    (fields : List CreateField) : Prop where
  startAt : ∀ position ∈ m.startAt, position = (start : ℤ)
  named : (m.fields = some fields ∧ m.values = none) ∨ (m.fields = none ∧ m.values = some fields)
  slice : fields <+: all.drop start
  size : fields.length ≤ d.limits.pageSize
  progress : start < all.length → fields ≠ []
  total : ∀ total ∈ m.total, total = (all.length : ℤ)
  isLast : ∀ last ∈ m.isLast, last = decide (start + fields.length = all.length)
  signal : m.total ≠ none ∨ m.isLast ≠ none

def Serves (d : Jira) (all : List CreateField) (server : Server) : Prop :=
  ∀ n start, start ≤ all.length → ∃ answer m fields, server n start = .answered answer ∧
    answer.Arrives d.limits ∧ answer.body = some m ∧ PageOf d all start m fields

/-- The number of fields in an answer. -/
def delivered : Exchange (Option Metadata) → ℕ
  | .answered answer => ((answer.body.bind fun m => m.fields <|> m.values).getD []).length
  | _ => 0

/-- The number of fields in the first pages. -/
def covered (server : Server) : ℕ → ℕ
  | 0 => 0
  | n + 1 => covered server n + delivered (server n (covered server n))

section Serving

variable {d : Jira} {a : Action} {all : List CreateField} {server : Server} {start : ℕ}
  {m : Metadata} {fields : List CreateField}

theorem PageOf.fields_eq (page : PageOf d all start m fields) :
    (m.fields <|> m.values) = some fields := by
  rcases page.named with ⟨named, other⟩ | ⟨other, named⟩ <;> simp [named, other]

theorem PageOf.length_le (page : PageOf d all start m fields) (within : start ≤ all.length) :
    start + fields.length ≤ all.length := by
  have := page.slice.length_le
  rw [List.length_drop] at this
  omega

/-- Each signal that is present tells whether this is the last page. -/
theorem PageOf.isDone_eq (page : PageOf d all start m fields) (within : start ≤ all.length) :
    isDone d m (start + fields.length) fields.length =
      decide (start + fields.length = all.length) := by
  have most := page.length_le within
  have flag : m.isLast = none ∨ m.isLast = some (decide (start + fields.length = all.length)) := by
    cases shape : m.isLast with
    | none => exact .inl rfl
    | some last => exact .inr (congrArg some (page.isLast last shape))
  have total : m.total = none ∨ m.total = some (all.length : ℤ) := by
    cases shape : m.total with
    | none => exact .inl rfl
    | some total => exact .inr (congrArg some (page.total total shape))
  have reached : decide ((all.length : ℤ) ≤ ((start + fields.length : ℕ) : ℤ)) =
      decide (start + fields.length = all.length) := by
    rw [decide_eq_decide]
    omega
  unfold isDone
  rcases flag with noFlag | flag
  · rcases total with noTotal | total
    · exact absurd page.signal (by simp [noFlag, noTotal])
    · simp only [noFlag, total, Option.any_some, reached]
      simp
  · rcases total with noTotal | total
    · simp only [flag, noTotal]
      simp
    · simp only [flag, total, Option.any_some, reached]
      simp

variable {p : Progress}

/-- The body of the loop at a page of the list. -/
theorem PageOf.readPage_eq (page : PageOf d all p.start m fields) (within : p.start ≤ all.length)
    (valid : ∀ f ∈ all, textID f.key 128 = true) :
    readPage d a p (some m) =
      if p.start + fields.length = all.length then
        .error ((p.add d a fields).stop
          (if (p.add d a fields).missing = ∅ then none else some .requiredFields))
      else .ok (p.add d a fields) := by
  have position : ¬ (m.startAt.any (· ≠ (p.start : ℤ)) = true ∨
      (m.fields.isSome = true ∧ m.values.isSome = true)) := by
    rintro (elsewhere | both)
    · cases shape : m.startAt with
      | none => simp [shape] at elsewhere
      | some position => simp [shape, page.startAt position shape] at elsewhere
    · rcases page.named with ⟨-, other⟩ | ⟨other, -⟩ <;> simp [other] at both
  have named : ¬ fields.any (fun f => !(textID f.key 128)) = true := by
    simp only [List.any_eq_true, Bool.not_eq_true', not_exists, not_and, Bool.not_eq_false]
    exact fun f mem => valid f (List.mem_of_mem_drop (page.slice.subset mem))
  have done := page.isDone_eq within
  unfold readPage
  simp only
  rw [if_neg position, page.fields_eq]
  simp only
  rw [if_neg (not_lt.mpr page.size), if_neg named]
  change (if isDone d m (p.start + fields.length) fields.length = true then _ else _) = _
  rw [done]
  by_cases last : p.start + fields.length = all.length
  · rw [if_pos (decide_eq_true last), if_pos last]
  · have some : fields ≠ [] := page.progress (by have := page.length_le within; omega)
    rw [if_neg (by simpa using last), if_neg last, if_neg some]

/-- The result for a list of fields that has been read. -/
structure PreviewResult.Of (d : Jira) (a : Action) (all : List CreateField) (r : PreviewResult) :
    Prop where
  missingFields : r.missingFields = sortIDs (missingOf d a all)
  error : r.error = if missingOf d a all = ∅ then none else some .requiredFields

/-- The loop has read the pages before this request. -/
structure Progress.At (d : Jira) (a : Action) (all : List CreateField) (server : Server) (n : ℕ)
    (p : Progress) : Prop where
  inv : p.Inv d a
  requests : p.requests = n
  start : p.start = covered server n
  seen : p.seen = all.take p.start
  within : p.start ≤ all.length

theorem Progress.At.add {n : ℕ} (here : p.At d a all server n)
    (page : PageOf d all p.start m fields) (sent : delivered (server n p.start) = fields.length) :
    Progress.At d a all server (n + 1) (Progress.add d a { p with requests := n + 1 } fields) where
  inv :=
    have kept : Progress.Inv d a { p with requests := n + 1 } := ⟨here.inv.missing, here.inv.start⟩
    kept.add fields
  requests := rfl
  start := by
    change p.start + fields.length = covered server n + delivered (server n (covered server n))
    rw [← here.start, sent]
  seen := by
    change p.seen ++ fields = all.take (p.start + fields.length)
    rw [here.seen, List.take_add, List.prefix_iff_eq_take.mp page.slice]
    simp
  within := page.length_le here.within

theorem previewPages_serves (serves : Serves d all server)
    (valid : ∀ f ∈ all, textID f.key 128 = true) {k : ℕ} (enough : all.length ≤ covered server k)
    (requests : k ≤ d.limits.requests) (pages : ℕ) {n : ℕ} (before : n < k) (left : k ≤ n + pages)
    (here : p.At d a all server n) : (previewPages d a server pages p).Of d a all := by
  induction pages generalizing p n with
  | zero => omega
  | succ pages ih =>
    obtain ⟨answer, m, fields, answered, arrives, body, page⟩ := serves n p.start here.within
    have sent : delivered (server n p.start) = fields.length := by
      rw [answered]
      change ((answer.body.bind fun m => m.fields <|> m.values).getD []).length = _
      rw [body, Option.bind_some, page.fields_eq]
      rfl
    have next := here.add page sent
    have request : sendRequest d.limits p.requests (server p.requests p.start) =
        (.ok (some m), n + 1) := by
      rw [here.requests, answered, sendRequest_answered arrives (by omega), body]
    have read := PageOf.readPage_eq (a := a) (p := { p with requests := n + 1 }) page here.within
      valid
    unfold previewPages
    rw [request]
    simp only
    rw [read]
    by_cases last : p.start + fields.length = all.length
    · have whole : (Progress.add d a { p with requests := n + 1 } fields).seen = all := by
        rw [next.seen]
        change all.take (p.start + fields.length) = all
        rw [last, List.take_length]
      rw [if_pos last]
      have missing := next.inv.missing
      rw [whole] at missing
      exact ⟨congrArg sortIDs missing, by rw [← missing]; rfl⟩
    · rw [if_neg last]
      have more : covered server (n + 1) < all.length := by
        rw [← next.start]
        exact lt_of_le_of_ne next.within last
      have notYet : n + 1 ≠ k := by
        rintro rfl
        omega
      exact ih (by omega) (by omega) next

end Serving

/-- The list is served in no more pages than the limits allow. -/
def PagesWithin (d : Jira) (all : List CreateField) (server : Server) : Prop :=
  ∃ k, 0 < k ∧ k ≤ d.limits.pages ∧ k ≤ d.limits.requests ∧ all.length ≤ covered server k

theorem preview_serves {d : Jira} {a : Action} {all : List CreateField} {server : Server}
    (accepted : validateAction d a = .ok ()) (valid : ∀ f ∈ all, textID f.key 128 = true)
    (serves : Serves d all server) (within : PagesWithin d all server) :
    (preview d a server).Of d a all := by
  obtain ⟨k, pos, pages, requests, enough⟩ := within
  rw [preview, accepted]
  refine previewPages_serves serves valid enough requests d.limits.pages pos (by omega) ?_
  exact ⟨⟨missingOf_nil d a, rfl⟩, rfl, rfl, rfl, Nat.zero_le _⟩

/-- Required fields are checked.  For a list of create fields that a server hands out in pages, an
action is accepted exactly when it supplies what the whole list needs, and what is missing is
reported in order; and no server gets more requests than the limits have, or success while a field
that it sent is missing. -/
theorem preview_required (d : Jira) (a : Action) :
    (∀ all server, validateAction d a = .ok () → (∀ f ∈ all, textID f.key 128 = true) →
      Serves d all server → PagesWithin d all server →
        ((preview d a server).error = none ↔
          (∀ f ∈ all, Needed f → Supplied a f) ∧ isBlank a.title = false) ∧
        ((preview d a server).error ≠ none → (preview d a server).error = some .requiredFields) ∧
        (preview d a server).missingFields.Pairwise (· < ·) ∧
        ∀ id, id ∈ (preview d a server).missingFields ↔
          (id = "summary".toList ∧ isBlank a.title = true) ∨
            ∃ f ∈ all, f.key = id ∧ Needed f ∧ ¬ Supplied a f) ∧
    (∀ server, (preview d a server).requests ≤ min d.limits.pages d.limits.requests ∧
      ((preview d a server).error = none →
        ∀ f ∈ (preview d a server).seen, Needed f → Supplied a f)) := by
  refine ⟨fun all server accepted valid serves within => ?_, fun server => ?_⟩
  · obtain ⟨missingFields, error⟩ := preview_serves accepted valid serves within
    rw [missingFields, error]
    refine ⟨?_, ?_, (Finset.sortedLT_sort _).pairwise, fun id => ?_⟩
    · rw [← missingOf_eq_empty d a]
      by_cases none : missingOf d a all = ∅ <;> simp [none]
    · by_cases none : missingOf d a all = ∅ <;> simp [none]
    · rw [sortIDs, Finset.mem_sort, mem_missingOf]
  · have sound := preview_sound d a server
    refine ⟨le_min sound.requests.1 sound.requests.2, fun success => ?_⟩
    exact ((missingOf_eq_empty d a).mp (sound.success success).1).1

/-! ## A server, and an action of another workspace -/

/-- Serves a list one field a page, with its length. -/
def oneByOne (all : List CreateField) : Server := fun _ start =>
  .answered {
    status := 200
    length := 0
    complete := true
    cause := .unavailable
    body := some {
      startAt := some start
      total := some all.length
      isLast := none
      fields := some ((all.drop start).take 1)
      values := none } }

theorem oneByOne_serves (d : Jira) (all : List CreateField) : Serves d all (oneByOne all) := by
  intro n start within
  have success : 200 ≤ 200 ∧ 200 < 300 := by decide
  refine ⟨_, _, (all.drop start).take 1, rfl, ⟨success, Nat.zero_le _, rfl⟩, rfl, ?_⟩
  refine ⟨fun position shape => (Option.some.inj shape).symm, .inl ⟨rfl, rfl⟩, List.take_prefix _ _,
    ?_, ?_, fun total shape => (Option.some.inj shape).symm, nofun, .inl (Option.some_ne_none _)⟩
  · rw [List.length_take]
    exact (Nat.min_le_left _ _).trans d.limits.pageSize_pos
  · intro more
    rw [Ne, List.take_eq_nil_iff, List.drop_eq_nil_iff]
    omega

def sampleDelivery : Jira where
  workspaceID := "w".toList
  project := "SEC".toList
  issueType := "10001".toList
  limits := ⟨32, 8, 50, 8388608, by decide, by decide, by decide, by decide, by decide, by decide,
    by decide, by decide⟩
  browserLink := fun _ => true
  project_ok := by decide
  issueType_ok := by decide

def sampleAction : Action where
  workspaceID := "w".toList
  findingID := "f".toList
  title := "t".toList
  body := []
  deepLink := []
  fields := []

def projectField : CreateField := ⟨"project".toList, [], true, false, []⟩

theorem preview_required_project :
    (preview sampleDelivery sampleAction (oneByOne [projectField])).error = none ↔
      (∀ f ∈ [projectField], Needed f → Supplied sampleAction f) ∧
        isBlank sampleAction.title = false :=
  ((preview_required sampleDelivery sampleAction).1 [projectField] (oneByOne [projectField]) (by decide)
    (by
      intro f mem
      obtain rfl := List.mem_singleton.mp mem
      decide)
    (oneByOne_serves _ _)
    ⟨1, by decide, by decide, by decide, by decide⟩).1

/-- An action of another workspace is refused before any request, whatever it supplies. -/
theorem preview_elsewhere :
    Serves sampleDelivery [] (oneByOne []) ∧ PagesWithin sampleDelivery [] (oneByOne []) ∧
      isBlank sampleAction.title = false ∧
      (preview sampleDelivery { sampleAction with workspaceID := "v".toList } (oneByOne [])).error =
        some .scope := by
  refine ⟨oneByOne_serves _ _, ⟨1, ?_⟩, ?_, ?_⟩ <;> decide

end Aspm.Connectors
