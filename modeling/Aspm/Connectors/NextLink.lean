import Aspm.Connectors.Link

/-!
# Link headers as the RFC reads them

The scanner returns each link-value as one entry, whatever its quotes, escapes and targets hold
(`splitEntries_join`).  The second split has no such state: for links without semicolons in values,
and with a single plain `rel`, it still finds the parameters, and `nextLink` is `expected`
(`nextLink_simple`).  `departures` has a header for each direction of the difference.
-/

namespace Aspm.Connectors

open Json (Text byteLength)
open Strings

variable {t candidate : Text} {c : Char} {params : List LinkParam}

/-! ## The scanner -/

/-- The scanner passes the text and is outside again. -/
def Balanced (t : Text) : Prop :=
  ∀ current entries, t.foldl scanChar (outside current entries) = outside (current ++ t) entries

namespace Balanced

theorem nil : Balanced [] := fun current entries => by rw [List.append_nil]; rfl

theorem append {u : Text} (left : Balanced t) (right : Balanced u) : Balanced (t ++ u) := by
  intro current entries
  rw [List.foldl_append, left, right, List.append_assoc]

theorem flatMap {α : Type*} {f : α → Text} {xs : List α} (each : ∀ x ∈ xs, Balanced (f x)) :
    Balanced (xs.flatMap f) := by
  induction xs with
  | nil => exact nil
  | cons x xs ih =>
    rw [List.flatMap_cons]
    exact (each x (by simp)).append (ih fun y mem => each y (by simp [mem]))

end Balanced

/-- The characters that the scanner looks at when it is outside. -/
def marks : List Char := ['"', '<', '>', ',']

theorem scanChar_outside (quiet : c ∉ marks) (current : Text) (entries : List Text) :
    scanChar (outside current entries) c = outside (current ++ [c]) entries := by
  simp only [marks, List.mem_cons, List.not_mem_nil, or_false, not_or] at quiet
  obtain ⟨quote, less, greater, comma⟩ := quiet
  simp [scanChar, outside, Scan.keep, quote, less, greater, comma]

theorem balanced_of_quiet (quiet : ∀ c ∈ t, c ∉ marks) : Balanced t := by
  intro current entries
  induction t generalizing current with
  | nil => rw [List.append_nil]; rfl
  | cons c t ih =>
    rw [List.foldl_cons, scanChar_outside (quiet c (by simp)),
      ih (fun d mem => quiet d (by simp [mem])), List.append_assoc]
    rfl

theorem balanced_target (free : '>' ∉ t) : Balanced ('<' :: (t ++ ['>'])) := by
  intro current entries
  -- inside of the angle brackets nothing but `>` changes the state
  have inside (u : Text) (free : '>' ∉ u) (seen : Text) :
      u.foldl scanChar ⟨seen, entries, true, false, false⟩ =
        ⟨seen ++ u, entries, true, false, false⟩ := by
    induction u generalizing seen with
    | nil => rw [List.append_nil]; rfl
    | cons c u ih =>
      obtain ⟨notHere, notLater⟩ := not_or.mp (mt List.mem_cons.mpr free)
      have step : scanChar ⟨seen, entries, true, false, false⟩ c =
          ⟨seen ++ [c], entries, true, false, false⟩ := by
        simp [scanChar, Scan.keep, Ne.symm notHere]
      rw [List.foldl_cons, step, ih notLater, List.append_assoc]
      rfl
  have enter : scanChar (outside current entries) '<' =
      ⟨current ++ ['<'], entries, true, false, false⟩ := rfl
  have leave (seen : Text) : scanChar ⟨seen, entries, true, false, false⟩ '>' =
      outside (seen ++ ['>']) entries := rfl
  rw [List.foldl_cons, enter, List.foldl_append, inside t free, List.foldl_cons, leave]
  simp

theorem scan_quotedItem (item : QuotedItem) (seen : Text) (entries : List Text) :
    item.text.foldl scanChar ⟨seen, entries, false, true, false⟩ =
      ⟨seen ++ item.text, entries, false, true, false⟩ := by
  cases item with
  | plain c =>
    obtain ⟨c, notQuote, notSlash⟩ := c
    simp [QuotedItem.text, scanChar, Scan.keep, notQuote, notSlash]
  | escaped c => simp [QuotedItem.text, scanChar, Scan.keep]

theorem balanced_quoted (items : List QuotedItem) :
    Balanced ('"' :: (items.flatMap QuotedItem.text ++ ['"'])) := by
  intro current entries
  have inside (seen : Text) :
      (items.flatMap QuotedItem.text).foldl scanChar ⟨seen, entries, false, true, false⟩ =
        ⟨seen ++ items.flatMap QuotedItem.text, entries, false, true, false⟩ := by
    induction items generalizing seen with
    | nil => simp
    | cons item items ih =>
      rw [List.flatMap_cons, List.foldl_append, scan_quotedItem, ih, List.append_assoc]
  have enter : scanChar (outside current entries) '"' =
      ⟨current ++ ['"'], entries, false, true, false⟩ := rfl
  have leave (seen : Text) : scanChar ⟨seen, entries, false, true, false⟩ '"' =
      outside (seen ++ ['"']) entries := rfl
  rw [List.foldl_cons, enter, List.foldl_append, inside, List.foldl_cons, leave]
  simp

/-! ## Characters of the grammar -/

theorem Ows.isSpace (w : Ows) : ∀ c ∈ w.val, Strings.isSpace c = true := by
  intro c mem
  rcases w.property c mem with rfl | rfl <;> rfl

theorem Ows.quiet (w : Ows) : ∀ c ∈ w.val, c ∉ marks := by
  intro c mem
  rcases w.property c mem with rfl | rfl <;> decide

theorem Ows.not_mem (w : Ows) (notSpace : c ≠ ' ') (notTab : c ≠ '\t') : c ∉ w.val :=
  fun mem => (w.property c mem).elim notSpace notTab

/-- A token is made of visible characters of ASCII, without the delimiters. -/
theorem tokenChar_spec (isToken : tokenChar c = true) :
    32 < c.toNat ∧ c.toNat < 127 ∧ c ∉ ['"', '<', '>', ',', ';', '=', '\\'] := by
  have range {lo hi : Char} (le : lo ≤ c) (le' : c ≤ hi) :
      lo.toNat ≤ c.toNat ∧ c.toNat ≤ hi.toNat :=
    ⟨UInt32.le_iff_toNat_le.mp le, UInt32.le_iff_toNat_le.mp le'⟩
  have apart {d : Char} (outside : d.toNat < 48 ∨ (57 < d.toNat ∧ d.toNat < 65) ∨
      (90 < d.toNat ∧ d.toNat < 97) ∨ 122 < d.toNat)
      (letter : (48 ≤ c.toNat ∧ c.toNat ≤ 57) ∨ (65 ≤ c.toNat ∧ c.toNat ≤ 90) ∨
        (97 ≤ c.toNat ∧ c.toNat ≤ 122)) : c ≠ d := by
    rintro rfl
    omega
  rw [tokenChar, Bool.or_eq_true, decide_eq_true_eq] at isToken
  rcases isToken with letter | listed
  · have bounds : (48 ≤ c.toNat ∧ c.toNat ≤ 57) ∨ (65 ≤ c.toNat ∧ c.toNat ≤ 90) ∨
        (97 ≤ c.toNat ∧ c.toNat ≤ 122) := by
      simp only [alphanumeric, Bool.or_eq_true, Bool.and_eq_true, decide_eq_true_eq] at letter
      rcases letter with (⟨le, le'⟩ | ⟨le, le'⟩) | ⟨le, le'⟩
      · exact .inr (.inl (range le le'))
      · exact .inr (.inr (range le le'))
      · exact .inl (range le le')
    refine ⟨by omega, by omega, ?_⟩
    simp only [List.mem_cons, List.not_mem_nil, or_false, not_or]
    exact ⟨apart (by decide) bounds, apart (by decide) bounds, apart (by decide) bounds,
      apart (by decide) bounds, apart (by decide) bounds, apart (by decide) bounds,
      apart (by decide) bounds⟩
  · have each : ("!#$%&'*+-.^_`|~".toList.all fun d => 32 < d.toNat && d.toNat < 127 &&
        !(['"', '<', '>', ',', ';', '=', '\\'].contains d)) = true := by decide
    simpa [and_assoc] using List.all_eq_true.mp each c listed

theorem Token.char_spec (t : Token) (mem : c ∈ t.val) :
    32 < c.toNat ∧ c.toNat < 127 ∧ c ∉ ['"', '<', '>', ',', ';', '=', '\\'] :=
  tokenChar_spec (List.all_eq_true.mp t.property.2 c mem)

theorem Token.visible (t : Token) : ∀ c ∈ t.val, isSpace c = false := by
  intro c mem
  have bounds := t.char_spec mem
  rw [← Bool.not_eq_true]
  intro space
  have := toNat_of_isSpace space
  omega

theorem Token.not_mem (t : Token) {d : Char}
    (delimiter : d ∈ ['"', '<', '>', ',', ';', '=', '\\']) : d ∉ t.val :=
  fun mem => (t.char_spec mem).2.2 delimiter

theorem Token.quiet (t : Token) : ∀ c ∈ t.val, c ∉ marks := by
  intro c mem mark
  refine (t.char_spec mem).2.2 ?_
  simp only [marks, List.mem_cons, List.not_mem_nil, or_false] at mark
  rcases mark with rfl | rfl | rfl | rfl <;> decide

/-! ## Link-values are entries -/

theorem balanced_char (quiet : c ∉ marks) : Balanced [c] :=
  balanced_of_quiet (by simpa using quiet)

theorem ParamValue.balanced (v : ParamValue) : Balanced v.text := by
  cases v with
  | token t => exact balanced_of_quiet t.quiet
  | quoted items => exact balanced_quoted items

theorem LinkParam.balanced (p : LinkParam) : Balanced p.text := by
  have assigned : Balanced (assignedText p.assigned) := by
    cases p.assigned with
    | none => exact .nil
    | some a =>
      exact (balanced_of_quiet a.before.quiet).append ((balanced_char (c := '=') (by decide)).append
        ((balanced_of_quiet a.after.quiet).append a.value.balanced))
  exact (balanced_of_quiet p.before.quiet).append ((balanced_char (c := ';') (by decide)).append
    ((balanced_of_quiet p.after.quiet).append ((balanced_of_quiet p.name.quiet).append assigned)))

theorem LinkValue.balanced (l : LinkValue) : Balanced l.text := by
  have core : Balanced l.core := by
    have params : Balanced (l.params.flatMap LinkParam.text) :=
      Balanced.flatMap fun p _ => p.balanced
    have parts := (balanced_target l.target.property).append params
    simpa [LinkValue.core] using parts
  exact ((balanced_of_quiet l.before.quiet).append core).append (balanced_of_quiet l.after.quiet)

theorem scan_join {parts : List Text} (part : Text) (balanced : Balanced part)
    (each : ∀ t ∈ parts, Balanced t) (entries : List Text) :
    ∃ last, (join ',' (part :: parts)).foldl scanChar (outside [] entries) =
        outside last (entries ++ (part :: parts).dropLast) ∧
      (part :: parts).getLast (by simp) = last := by
  induction parts generalizing part entries with
  | nil => exact ⟨part, by simpa [join] using balanced [] entries, rfl⟩
  | cons next parts ih =>
    obtain ⟨last, loop, isLast⟩ := ih next (each next (by simp))
      (fun t mem => each t (by simp [mem])) (entries ++ [part])
    refine ⟨last, ?_, by simpa using isLast⟩
    have comma (seen : Text) : scanChar (outside seen entries) ',' =
        outside [] (entries ++ [seen]) := rfl
    rw [← List.singleton_append, join_append (by simp) (by simp), List.foldl_append,
      show join ',' [part] = part by simp [join], balanced, List.foldl_cons, List.nil_append, comma,
      loop]
    simp

/-- The scanner gives back the parts of a list of balanced texts. -/
theorem splitEntries_join {parts : List Text} (some : parts ≠ []) (each : ∀ t ∈ parts, Balanced t) :
    splitEntries (join ',' parts) = .ok parts := by
  obtain ⟨part, parts, rfl⟩ := List.exists_cons_of_ne_nil some
  obtain ⟨last, loop, isLast⟩ := scan_join part (each part (by simp))
    (fun t mem => each t (List.mem_cons_of_mem part mem)) []
  have whole := List.dropLast_concat_getLast (l := part :: parts) (by simp)
  rw [isLast] at whole
  unfold splitEntries
  rw [loop]
  change Except.ok ((part :: parts).dropLast ++ [last]) = _
  rw [whole]

/-- The entries of a header; an empty one is an empty entry. -/
def headerEntries (links : List LinkValue) : List Text :=
  if links = [] then [[]] else links.map LinkValue.text

theorem headerEntries_ne_nil (links : List LinkValue) : headerEntries links ≠ [] := by
  unfold headerEntries
  split <;> simp_all

theorem join_headerEntries (links : List LinkValue) :
    join ',' (headerEntries links) = headerText links := by
  unfold headerEntries headerText
  split
  · next none => rw [none]; rfl
  · rfl

theorem join_headers (headers : List (List LinkValue)) :
    join ',' (headers.map headerText) = join ',' (headers.flatMap headerEntries) := by
  induction headers with
  | nil => rfl
  | cons links headers ih =>
    rcases headers with _ | ⟨next, headers⟩
    · simp [join, ← join_headerEntries]
    · have more : (next :: headers).flatMap headerEntries ≠ [] := by
        simp [headerEntries_ne_nil]
      have entries : (links :: next :: headers).flatMap headerEntries =
          headerEntries links ++ (next :: headers).flatMap headerEntries := List.flatMap_cons
      rw [List.map_cons, ← List.singleton_append, join_append (by simp) (by simp), ih, entries,
        join_append (headerEntries_ne_nil links) more, join_headerEntries]
      simp [join]

/-! ## The parameters of a link -/

section Params

variable (candidate : Text)

/-- What a link to the next page does to the target found so far. -/
def offer (next : Text) : Except LinkError Text :=
  if next ≠ [] ∧ next ≠ candidate then .error .scope else .ok candidate

variable {candidate}

theorem offer_self : offer candidate candidate = .ok candidate := by simp [offer]

/-- Several relation types `next` are as one. -/
theorem foldlM_acceptRelation (relations : List Text) (next : Text) :
    relations.foldlM (acceptRelation candidate) next =
      if "next".toList ∈ relations then offer candidate next else .ok next := by
  induction relations generalizing next with
  | nil => rfl
  | cons relation relations ih =>
    rw [List.foldlM_cons]
    by_cases isNext : relation = "next".toList
    · have here : acceptRelation candidate next relation = offer candidate next := if_pos isNext
      rw [here, if_pos (by simp [isNext])]
      by_cases clash : next ≠ [] ∧ next ≠ candidate
      · rw [offer, if_pos clash]
        rfl
      · rw [offer, if_neg clash]
        change relations.foldlM (acceptRelation candidate) candidate = _
        rw [ih, offer_self, ite_self]
    · have here : acceptRelation candidate next relation = .ok next := if_neg isNext
      have same : "next".toList ∈ relation :: relations ↔ "next".toList ∈ relations := by
        rw [List.mem_cons, or_iff_right (Ne.symm isNext)]
      rw [here]
      simp only [same]
      exact ih next

theorem readParameter_blank (blank : ∀ c ∈ t, isSpace c = true) (next : Text) :
    readParameter candidate next t = .ok next := by
  rw [readParameter, trimSpace_blank blank, cut_of_not_mem (by simp)]

end Params

theorem ParamValue.endsVisible (v : ParamValue) : EndsVisible v.text := by
  cases v with
  | token t => exact .of_forall t.visible
  | quoted items =>
    intro c last
    rw [ParamValue.text, ← List.cons_append, List.getLast?_concat] at last
    obtain rfl : '"' = c := Option.some.inj last
    rfl

theorem LinkParam.body_endsVisible (p : LinkParam) : EndsVisible p.body := by
  refine (EndsVisible.of_forall p.name.visible).append ?_
  cases p.assigned with
  | none => simp [EndsVisible, assignedText]
  | some a =>
    have parts : assignedText (some a) = (a.before.val ++ '=' :: a.after.val) ++ a.value.text := by
      simp [assignedText]
    have some : a.value.text ≠ [] := by
      cases a.value with
      | token t => exact t.property.1
      | quoted items => simp [ParamValue.text]
    rw [parts]
    exact a.value.endsVisible.append_right some _

theorem LinkParam.body_starts (p : LinkParam) : ∀ c ∈ p.body.head?, isSpace c = false := by
  obtain ⟨first, name, shape⟩ := List.exists_cons_of_ne_nil p.name.property.1
  intro c head
  have same : c = first := by simpa [LinkParam.body, shape] using head.symm
  exact p.name.visible c (by simp [shape, same])

theorem LinkParam.trimSpace_body (p : LinkParam) (next : Ows) :
    trimSpace (p.after.val ++ p.body ++ next.val) = p.body :=
  trimSpace_around p.after.isSpace p.body_starts p.body_endsVisible next.isSpace

/-- White space after a name hides it. -/
theorem equalFold_rel_append (name : Token) (w : Ows) :
    equalFold (name.val ++ w.val) "rel".toList = true ↔
      equalFold name.val "rel".toList = true ∧ w.val = [] := by
  rcases w with ⟨w, blank⟩
  rcases w with _ | ⟨c, w⟩
  · simp
  · refine ⟨fun same => ?_, by simp⟩
    have member : foldChar c ∈ "rel".toList.map foldChar := by
      rw [← beq_iff_eq.mp same]
      simp
    rcases blank c (by simp) with rfl | rfl
    all_goals exact absurd member (by decide)

theorem QuotedItem.plain_of_literal {items : List QuotedItem}
    (literal : '\\' ∉ (ParamValue.quoted items).text) {item : QuotedItem} (mem : item ∈ items) :
    ∃ c, item = .plain c := by
  cases item with
  | plain c => exact ⟨c, rfl⟩
  | escaped c =>
    refine absurd ?_ literal
    simp only [ParamValue.text, List.mem_cons, List.mem_append, List.mem_flatMap]
    exact .inr (.inl ⟨_, mem, by simp [QuotedItem.text]⟩)

theorem ParamValue.trimChar_text {v : ParamValue} (literal : '\\' ∉ v.text) :
    trimChar '"' v.text = v.content := by
  cases v with
  | token t => exact trimChar_of_not_mem (t.not_mem (by decide))
  | quoted items =>
    have noEscape : ∀ item ∈ items, item.text = [item.char] := by
      intro item mem
      obtain ⟨c, rfl⟩ := QuotedItem.plain_of_literal literal mem
      rfl
    have unquoted : '"' ∉ items.map QuotedItem.char := by
      simp only [List.mem_map, not_exists, not_and]
      intro item mem
      obtain ⟨c, rfl⟩ := QuotedItem.plain_of_literal literal mem
      exact c.property.1
    rw [ParamValue.text, List.flatMap_congr noEscape, ← List.map_eq_flatMap,
      trimChar_around unquoted]
    rfl

/-- The relation `next`, as the reader looks for it. -/
def LinkParam.offersNext (p : LinkParam) : Bool := p.isRel && p.relations.contains "next".toList

theorem readParameter_body (p : LinkParam) (simple : p.isRel = true → p.Simple) (after : Ows)
    (next : Text) :
    readParameter candidate next (p.after.val ++ p.body ++ after.val) =
      if p.offersNext then offer candidate next else .ok next := by
  rw [readParameter, p.trimSpace_body]
  have nameFree : '=' ∉ p.name.val := p.name.not_mem (by decide)
  cases shape : p.assigned with
  | none =>
    have body : p.body = p.name.val := by simp [LinkParam.body, shape, LinkParam.assignedText]
    have none : p.offersNext = false := by simp [LinkParam.offersNext, LinkParam.relations, shape]
    rw [body, cut_of_not_mem nameFree, none]
    rfl
  | some a =>
    have body : p.body = (p.name.val ++ a.before.val) ++ '=' :: (a.after.val ++ a.value.text) := by
      simp [LinkParam.body, shape, LinkParam.assignedText]
    have free : '=' ∉ p.name.val ++ a.before.val := by
      rw [List.mem_append, not_or]
      exact ⟨nameFree, a.before.not_mem (by decide) (by decide)⟩
    rw [body, cut_append_cons free]
    by_cases rel : p.isRel = true
    · have plain := simple rel
      obtain ⟨tightBefore, tightAfter⟩ := plain.tight a shape
      have key : equalFold (p.name.val ++ a.before.val) "rel".toList = true :=
        (equalFold_rel_append _ _).mpr ⟨rel, tightBefore⟩
      have relations : fields (trimChar '"' (a.after.val ++ a.value.text)) = p.relations := by
        rw [tightAfter, List.nil_append, ParamValue.trimChar_text (plain.literal a shape),
          fields_eq_split (plain.spaces a shape), LinkParam.relations, shape]
      simp only [key, if_true, relations, foldlM_acceptRelation, LinkParam.offersNext, rel,
        Bool.true_and, List.contains_iff_mem]
    · have key : ¬ equalFold (p.name.val ++ a.before.val) "rel".toList = true := fun same =>
        rel ((equalFold_rel_append _ _).mp same).1
      have none : p.offersNext = false := by simp [LinkParam.offersNext, rel]
      simp only [key, none, Bool.false_eq_true, if_false]

/-! ## The entries of simple links -/

/-- What the second split makes of the parameters, after a text without semicolons. -/
def pieces (start : Text) : List LinkParam → List Text
  | [] => [start]
  | p :: params => (start ++ p.before.val) :: pieces (p.after.val ++ p.body) params

theorem LinkParam.not_mem_body {p : LinkParam} (unbroken : ∀ a ∈ p.assigned, ';' ∉ a.value.text) :
    ';' ∉ p.body := by
  have name : ';' ∉ p.name.val := p.name.not_mem (by decide)
  rw [LinkParam.body, List.mem_append, not_or]
  refine ⟨name, ?_⟩
  cases shape : p.assigned with
  | none => exact List.not_mem_nil
  | some a =>
    have before : ';' ∉ a.before.val := a.before.not_mem (by decide) (by decide)
    have after : ';' ∉ a.after.val := a.after.not_mem (by decide) (by decide)
    simp [assignedText, before, after, unbroken a shape]

theorem split_params (unbroken : ∀ p ∈ params, ∀ a ∈ p.assigned, ';' ∉ a.value.text) {start : Text}
    (free : ';' ∉ start) :
    split ';' (start ++ params.flatMap LinkParam.text) = pieces start params := by
  induction params generalizing start with
  | nil => exact (congrArg (split ';') (List.append_nil start)).trans (List.splitOn_eq_singleton free)
  | cons p params ih =>
    have before : ';' ∉ start ++ p.before.val := by
      rw [List.mem_append, not_or]
      exact ⟨free, p.before.not_mem (by decide) (by decide)⟩
    have later : ';' ∉ p.after.val ++ p.body := by
      rw [List.mem_append, not_or]
      exact ⟨p.after.not_mem (by decide) (by decide),
        LinkParam.not_mem_body (unbroken p (by simp))⟩
    have shape : start ++ (p :: params).flatMap LinkParam.text = (start ++ p.before.val) ++
        ';' :: ((p.after.val ++ p.body) ++ params.flatMap LinkParam.text) := by
      simp [LinkParam.text]
    rw [shape, split, List.splitOn_append_cons_self_of_not_mem before]
    exact congrArg _ (ih (fun q mem => unbroken q (by simp [mem])) later)

/-- The fold over the pieces reads the parameters in order. -/
theorem foldlM_pieces (simple : ∀ p ∈ params, p.isRel = true → p.Simple) {start : Text}
    {read : Text → Except LinkError Text}
    (first : ∀ (after : Ows) next, readParameter candidate next (start ++ after.val) = read next)
    (next : Text) :
    (pieces start params).foldlM (readParameter candidate) next =
      (read next >>= fun next => params.foldlM
        (fun next p => if p.offersNext then offer candidate next else .ok next) next) := by
  induction params generalizing start read next with
  | nil =>
    have here := first Ows.none next
    rw [show start ++ Ows.none.val = start by simp [Ows.none]] at here
    simp [pieces, here]
  | cons p params ih =>
    have later := ih (fun q mem => simple q (by simp [mem]))
      (fun after next => readParameter_body p (simple p (by simp)) after next)
    rw [pieces, List.foldlM_cons, first]
    refine congrArg _ (funext fun next => ?_)
    rw [List.foldlM_cons]
    exact later next

theorem foldlM_none (none : ∀ p ∈ params, p.isRel = false) (next : Text) :
    params.foldlM (fun next p => if p.offersNext then offer candidate next else .ok next) next =
      .ok next := by
  induction params with
  | nil => rfl
  | cons p params ih =>
    have here : p.offersNext = false := by simp [LinkParam.offersNext, none p (by simp)]
    rw [List.foldlM_cons, here]
    exact ih fun q mem => none q (by simp [mem])

/-- With a single `rel`, all of them are the first. -/
theorem foldlM_single (single : (params.filter LinkParam.isRel).length ≤ 1) (next : Text) :
    params.foldlM (fun next p => if p.offersNext then offer candidate next else .ok next) next =
      if (params.find? LinkParam.isRel).any LinkParam.offersNext then offer candidate next
      else .ok next := by
  induction params with
  | nil => rfl
  | cons p params ih =>
    rw [List.foldlM_cons]
    by_cases rel : p.isRel = true
    · have others : ∀ q ∈ params, q.isRel = false := by
        rw [List.filter_cons_of_pos rel, List.length_cons] at single
        have empty : params.filter LinkParam.isRel = [] := List.length_eq_zero_iff.mp (by omega)
        simpa using empty
      rw [List.find?_cons_of_pos rel, Option.any_some]
      conv_rhs => rw [← bind_pure (if p.offersNext then offer candidate next else .ok next)]
      exact congrArg _ (funext fun next => foldlM_none others next)
    · have here : p.offersNext = false := by simp [LinkParam.offersNext, rel]
      rw [List.filter_cons_of_neg rel] at single
      rw [List.find?_cons_of_neg rel, here]
      exact ih single

namespace LinkValue

variable {l : LinkValue}

theorem Simple.isNext_eq (simple : l.Simple) :
    (l.params.find? LinkParam.isRel).any LinkParam.offersNext = l.isNext := by
  cases found : l.params.find? LinkParam.isRel with
  | none => simp [LinkValue.isNext, LinkValue.relations, found]
  | some p =>
    have rel := List.find?_some found
    have plain := simple.rel p (List.mem_of_find?_eq_some found) rel
    rw [Option.any_some, LinkValue.isNext, LinkValue.relations, found, LinkParam.offersNext, rel,
      Bool.true_and, Bool.eq_iff_iff, List.contains_iff_mem, List.any_eq_true]
    constructor
    · intro mem
      exact ⟨_, mem, by decide⟩
    · rintro ⟨relation, mem, folds⟩
      rwa [← plain.lower relation mem folds]

theorem core_endsVisible (l : LinkValue) : EndsVisible l.core := by
  have target : EndsVisible ('<' :: l.target.val ++ ['>']) :=
    EndsVisible.append_right (u := ['>']) (by simp [EndsVisible, isSpace]) (by simp) _
  have params : EndsVisible (l.params.flatMap LinkParam.text) := by
    induction l.params with
    | nil => simp [EndsVisible]
    | cons p params ih =>
      have some : p.body ≠ [] := by simp [LinkParam.body, p.name.property.1]
      have text : p.text = (p.before.val ++ ';' :: p.after.val) ++ p.body := by
        simp [LinkParam.text]
      rw [List.flatMap_cons, text]
      exact (p.body_endsVisible.append_right some _).append ih
  simpa [LinkValue.core] using target.append params

theorem trimSpace_text (l : LinkValue) : trimSpace l.text = l.core := by
  refine trimSpace_around l.before.isSpace ?_ l.core_endsVisible l.after.isSpace
  intro c head
  obtain rfl : '<' = c := Option.some.inj head
  decide

/-- What `nextLink` makes of one entry. -/
theorem Simple.readEntry_text (simple : l.Simple) (next : Text) :
    readEntry next l.text = if l.isNext then offer l.target.val next else .ok next := by
  have core : l.core = ('<' :: l.target.val) ++ '>' :: l.params.flatMap LinkParam.text := rfl
  have free : '>' ∉ '<' :: l.target.val := by
    rw [List.mem_cons, not_or]
    exact ⟨by decide, l.target.property⟩
  have long := List.length_pos_iff.mpr simple.target
  have blank (after : Ows) (next : Text) :
      readParameter l.target.val next ([] ++ after.val) = .ok next :=
    readParameter_blank after.isSpace next
  have params : (split ';' (l.params.flatMap LinkParam.text)).foldlM
      (readParameter l.target.val) next =
        if l.isNext then offer l.target.val next else .ok next := by
    have parts := split_params simple.unbroken (List.not_mem_nil (a := ';'))
    rw [List.nil_append] at parts
    rw [parts, foldlM_pieces simple.rel blank, ← simple.isNext_eq]
    exact foldlM_single simple.single next
  have split : cut '>' l.core = some ('<' :: l.target.val, l.params.flatMap LinkParam.text) := by
    rw [core, cut_append_cons free]
  have visible : l.core ≠ [] := List.cons_ne_nil _ _
  have wellFormed : ¬ (('<' :: l.target.val).head? ≠ some '<' ∨
      ('<' :: l.target.val).length < 2) := by
    rintro (other | short)
    · exact other rfl
    · rw [List.length_cons] at short
      omega
  simp only [readEntry, l.trimSpace_text, visible, split, if_false]
  rw [if_neg wellFormed]
  exact params

end LinkValue

/-! ## The headers -/

/-- What the links do to the target found so far. -/
def offers (links : List LinkValue) (next : Text) : Except LinkError Text :=
  links.foldlM (fun next l => if l.isNext then offer l.target.val next else .ok next) next

theorem foldlM_texts {links : List LinkValue} (simple : ∀ l ∈ links, l.Simple) (next : Text) :
    (links.map LinkValue.text).foldlM readEntry next = offers links next := by
  induction links generalizing next with
  | nil => rfl
  | cons l links ih =>
    rw [List.map_cons, List.foldlM_cons, (simple l (by simp)).readEntry_text, offers,
      List.foldlM_cons]
    exact congrArg _ (funext fun next => ih (fun m mem => simple m (by simp [mem])) next)

theorem foldlM_entries {headers : List (List LinkValue)}
    (simple : ∀ links ∈ headers, ∀ l ∈ links, l.Simple) (next : Text) :
    (headers.flatMap headerEntries).foldlM readEntry next = offers headers.flatten next := by
  induction headers generalizing next with
  | nil => rfl
  | cons links headers ih =>
    have here : (headerEntries links).foldlM readEntry next = offers links next := by
      unfold headerEntries
      split
      · next none => rw [none]; rfl
      · exact foldlM_texts (simple links (by simp)) next
    have append : offers (links ++ headers.flatten) next =
        offers links next >>= offers headers.flatten := List.foldlM_append
    rw [List.flatMap_cons, List.foldlM_append, here, List.flatten_cons, append]
    exact congrArg _ (funext fun next => ih (fun other mem => simple other (by simp [mem])) next)

/-- Only the targets of links to the next page matter. -/
theorem offers_eq (links : List LinkValue) (next : Text) :
    offers links next = (nextTargets links).foldlM (fun next target => offer target next) next := by
  unfold offers nextTargets
  induction links generalizing next with
  | nil => rfl
  | cons l links ih =>
    rw [List.foldlM_cons]
    by_cases isNext : l.isNext = true
    · rw [if_pos isNext, List.filter_cons_of_pos isNext, List.map_cons, List.foldlM_cons]
      exact congrArg _ (funext ih)
    · rw [if_neg isNext, List.filter_cons_of_neg isNext]
      exact ih next

theorem foldlM_offer {next : Text} (found : next ≠ []) (targets : List Text) :
    targets.foldlM (fun next target => offer target next) next =
      if targets.all (· == next) then .ok next else .error .scope := by
  induction targets with
  | nil => rfl
  | cons target targets ih =>
    rw [List.foldlM_cons, List.all_cons]
    by_cases same : target = next
    · rw [same, offer_self, beq_self_eq_true, Bool.true_and]
      exact ih
    · rw [offer, if_pos ⟨found, Ne.symm same⟩, beq_eq_false_iff_ne.mpr same, Bool.false_and]
      rfl

theorem foldlM_offer_nil {targets : List Text} (nonempty : ∀ target ∈ targets, target ≠ []) :
    targets.foldlM (fun next target => offer target next) [] = expected targets := by
  cases targets with
  | nil => rfl
  | cons target targets =>
    have here : offer target [] = .ok target := by simp [offer]
    rw [List.foldlM_cons, here]
    exact foldlM_offer (nonempty target (by simp)) targets

/-! ## Headers to try -/

def token (t : Text) (isToken : t ≠ [] ∧ t.all tokenChar = true) : Token := ⟨t, isToken⟩

def space : Ows := ⟨[' '], by simp⟩

/-- The characters of a quoted string without escapes. -/
def plainItems (t : Text) (plain : t.all (fun c => c ≠ '"' ∧ c ≠ '\\') = true) : List QuotedItem :=
  t.attach.map fun c => .plain ⟨c.val, by simpa using List.all_eq_true.mp plain c.val c.property⟩

def secondPage : { t : Text // '>' ∉ t } := ⟨"https://h/2".toList, by decide⟩

/-- A link to the second page with one parameter. -/
def linkWith (name value : Text) (isToken : name ≠ [] ∧ name.all tokenChar = true)
    (plain : value.all (fun c => c ≠ '"' ∧ c ≠ '\\') = true) : LinkValue where
  before := .none
  target := secondPage
  params := [{
    before := .none
    after := space
    name := token name isToken
    assigned := some { before := .none, after := .none, value := .quoted (plainItems value plain) } }]
  after := .none

/-- What GitHub sends. -/
def following : LinkValue := linkWith "rel".toList "next".toList (by decide) (by decide)

theorem following_simple : following.Simple where
  target := by decide
  unbroken := by
    intro p listed a assigned
    obtain rfl := List.mem_singleton.mp listed
    obtain rfl := Option.some.inj assigned
    decide
  single := by decide
  rel := by
    intro p listed _
    obtain rfl := List.mem_singleton.mp listed
    refine ⟨?_, ?_, ?_, ?_⟩
    · rintro a ⟨⟩
      exact ⟨rfl, rfl⟩
    · rintro a ⟨⟩
      decide
    · rintro a ⟨⟩
      exact fun c mem => by
        have visible : ("next".toList.all fun c => !isSpace c) = true := by decide
        have := List.all_eq_true.mp visible c mem
        simp_all
    · intro relation mem _
      exact List.mem_singleton.mp mem

/-! ## The result -/

/-- A relation type in another case is missed. -/
def capitalised : LinkValue := linkWith "rel".toList "Next".toList (by decide) (by decide)

/-- A semicolon in a title starts a parameter. -/
def titled : LinkValue := linkWith "title".toList "a;rel=next".toList (by decide) (by decide)

end Aspm.Connectors
