import Aspm.Lib.Json

/-!
# Texts cut at a character

Cutting a text at every occurrence of a character and putting the parts together again, and
trimming white space.
-/

namespace Strings

open Json (Text)

/-- The white space of Unicode. -/
def isSpace (c : Char) : Bool :=
  c ∈ ['\t', '\n', Char.ofNat 11, Char.ofNat 12, '\r', ' ', Char.ofNat 0x85, Char.ofNat 0xA0,
    Char.ofNat 0x1680, Char.ofNat 0x2028, Char.ofNat 0x2029, Char.ofNat 0x202F,
    Char.ofNat 0x205F, Char.ofNat 0x3000] ||
    (Char.ofNat 0x2000 ≤ c && c ≤ Char.ofNat 0x200A)

/-- The control characters of Unicode. -/
def isControl (c : Char) : Bool := c.toNat < 32 || (127 ≤ c.toNat && c.toNat < 160)

def trimSpace (t : Text) : Text :=
  ((t.dropWhile isSpace).reverse.dropWhile isSpace).reverse

def alphanumeric (c : Char) : Bool :=
  ('A' ≤ c && c ≤ 'Z') || ('a' ≤ c && c ≤ 'z') || ('0' ≤ c && c ≤ '9')

/-- A text of characters of one kind, the first of a kind of its own. -/
def wordOf (first other : Char → Bool) : Text → Bool
  | [] => false
  | c :: rest => first c && rest.all other

/-- The parts between the separators. -/
def split (separator : Char) (t : Text) : List Text := t.splitOn separator

def join (separator : Char) (parts : List Text) : Text := [separator].intercalate parts

variable {separator : Char}

/-- A part that is not empty leaves a text that is not empty. -/
theorem join_ne_nil {parts : List Text} {part : Text} (mem : part ∈ parts) (ne : part ≠ []) :
    join separator parts ≠ [] := by
  induction parts with
  | nil => cases mem
  | cons p parts ih =>
    cases parts with
    | nil =>
      obtain rfl := List.mem_singleton.mp mem
      simpa [join, List.intercalate] using ne
    | cons q parts => simp [join, List.intercalate, List.intersperse]

variable {t : Text}

/-- No part has a separator. -/
theorem not_mem_of_mem_split {part : Text} (mem : part ∈ split separator t) : separator ∉ part := by
  induction t generalizing part with
  | nil =>
    obtain rfl : part = [] := by simpa [split] using mem
    exact List.not_mem_nil
  | cons c t ih =>
    rw [split, List.splitOn_cons_eq_if_modifyHead] at mem
    split at mem
    · rcases List.mem_cons.mp mem with rfl | later
      · exact List.not_mem_nil
      · exact ih later
    · rename_i other
      obtain ⟨first, parts, shape⟩ := List.exists_cons_of_ne_nil (List.splitOn_ne_nil separator t)
      rw [shape, List.modifyHead_cons] at mem
      rcases List.mem_cons.mp mem with rfl | later
      · have free : separator ∉ first := ih (by rw [split, shape]; exact List.mem_cons_self)
        rw [List.mem_cons, not_or]
        exact ⟨fun same => other (beq_iff_eq.mpr same.symm), free⟩
      · exact ih (by rw [split, shape]; exact List.mem_cons_of_mem first later)

/-- What has no white space has none to trim. -/
theorem trimSpace_eq_self (visible : ∀ c ∈ t, isSpace c = false) : trimSpace t = t := by
  have kept {u : Text} (seen : ∀ c ∈ u, isSpace c = false) : u.dropWhile isSpace = u := by
    cases u with
    | nil => rfl
    | cons c u => rw [List.dropWhile_cons_of_neg (by simp [seen c List.mem_cons_self])]
  rw [trimSpace, kept visible, kept fun c mem => visible c (List.mem_reverse.mp mem),
    List.reverse_reverse]

/-- White space is below the visible characters of ASCII, or above ASCII. -/
theorem toNat_of_isSpace {c : Char} (space : isSpace c = true) : c.toNat ≤ 32 ∨ 133 ≤ c.toNat := by
  simp only [isSpace, Bool.or_eq_true, Bool.and_eq_true, decide_eq_true_eq, List.mem_cons,
    List.not_mem_nil, or_false] at space
  rcases space with listed | ⟨above, -⟩
  · rcases listed with rfl | rfl | rfl | rfl | rfl | rfl | rfl | rfl | rfl | rfl | rfl | rfl |
      rfl | rfl
    all_goals decide
  · exact .inr ((show 133 ≤ (Char.ofNat 0x2000).toNat by decide).trans above)

theorem forall_of_wordOf {first other : Char → Bool} {p : Char → Prop}
    (word : wordOf first other t = true) (starts : ∀ c, first c = true → p c)
    (continues : ∀ c, other c = true → p c) : ∀ c ∈ t, p c := by
  cases t with
  | nil => nofun
  | cons c t =>
    rw [wordOf, Bool.and_eq_true, List.all_eq_true] at word
    rw [List.forall_mem_cons]
    exact ⟨starts c word.1, fun d mem => continues d (word.2 d mem)⟩

/-- Lines, each with its end. -/
def unlines (lines : List Text) : Text := lines.flatMap (· ++ ['\n'])

/-- Lines without line breaks can be told apart again, whatever follows them. -/
theorem split_unlines_append {lines : List Text} (free : ∀ line ∈ lines, '\n' ∉ line)
    (rest : Text) : split '\n' (unlines lines ++ rest) = lines ++ split '\n' rest := by
  induction lines with
  | nil => rfl
  | cons line lines ih =>
    have first := free line List.mem_cons_self
    have others := ih fun l mem => free l (List.mem_cons_of_mem line mem)
    rw [unlines, List.flatMap_cons, List.append_assoc, List.append_assoc, List.singleton_append,
      split, List.splitOn_append_cons_self_of_not_mem first]
    exact congrArg (line :: ·) others

/-! ## Cutting and trimming -/

/-- `strings.Cut`, at a character. -/
def cut (separator : Char) (t : Text) : Option (Text × Text) :=
  if separator ∈ t then
    some (t.takeWhile (· ≠ separator), (t.dropWhile (· ≠ separator)).tail)
  else none

/-- `strings.Trim`, of one character. -/
def trimChar (edge : Char) (t : Text) : Text :=
  ((t.dropWhile (· == edge)).reverse.dropWhile (· == edge)).reverse

/-- `strings.Fields`. -/
def fields (t : Text) : List Text := (t.splitOnP isSpace).filter (· ≠ [])

/-- Simple case folding, as far as it meets ASCII: two more characters fold to its letters. -/
def foldChar (c : Char) : Char :=
  if c.toNat = 0x17f then 's' else if c.toNat = 0x212a then 'k' else c.toLower

/-- `strings.EqualFold`, when one of the texts is ASCII. -/
def equalFold (t u : Text) : Bool := t.map foldChar == u.map foldChar

theorem cut_append_cons (free : separator ∉ t) (u : Text) :
    cut separator (t ++ separator :: u) = some (t, u) := by
  have kept : ∀ c ∈ t, decide (c ≠ separator) = true := fun c mem =>
    decide_eq_true fun same => free (same ▸ mem)
  rw [cut, if_pos (by simp), List.takeWhile_append_of_pos kept, List.dropWhile_append_of_pos kept]
  simp

theorem cut_of_not_mem (free : separator ∉ t) :
    cut separator t = none := if_neg free

/-- The last character is not white space. -/
def EndsVisible (t : Text) : Prop := ∀ c ∈ t.getLast?, isSpace c = false

theorem EndsVisible.append {u : Text} (left : EndsVisible t) (right : EndsVisible u) :
    EndsVisible (t ++ u) := by
  intro c last
  rw [List.getLast?_append, Option.mem_def, Option.or_eq_some_iff] at last
  rcases last with last | ⟨-, last⟩
  · exact right c last
  · exact left c last

theorem EndsVisible.append_right {u : Text} (right : EndsVisible u) (some : u ≠ []) (t : Text) :
    EndsVisible (t ++ u) := by
  intro c last
  rw [List.getLast?_append_of_ne_nil t some] at last
  exact right c last

theorem EndsVisible.of_forall (visible : ∀ c ∈ t, isSpace c = false) : EndsVisible t :=
  fun c last => visible c (List.mem_of_mem_getLast? last)

/-- White space around a text that neither starts nor ends with some. -/
theorem trimSpace_around {before after : Text} (space : ∀ c ∈ before, isSpace c = true)
    (starts : ∀ c ∈ t.head?, isSpace c = false) (ends : EndsVisible t)
    (blank : ∀ c ∈ after, isSpace c = true) : trimSpace (before ++ t ++ after) = t := by
  have kept {u : Text} (first : ∀ c ∈ u.head?, isSpace c = false) : u.dropWhile isSpace = u := by
    cases u with
    | nil => rfl
    | cons c u => rw [List.dropWhile_cons_of_neg (by simp [first c rfl])]
  have back : ∀ c ∈ after.reverse, isSpace c = true := fun c mem => blank c (List.mem_reverse.mp mem)
  rw [trimSpace, List.append_assoc, List.dropWhile_append_of_pos space]
  rcases t with _ | ⟨c, t⟩
  · rw [List.nil_append, List.dropWhile_eq_nil_iff.mpr blank]
    rfl
  · rw [List.cons_append, List.dropWhile_cons_of_neg (by simp [starts c rfl]), ← List.cons_append,
      List.reverse_append, List.dropWhile_append_of_pos back, kept, List.reverse_reverse]
    intro d first
    rw [List.head?_reverse] at first
    exact ends d first

theorem trimSpace_blank (blank : ∀ c ∈ t, isSpace c = true) : trimSpace t = [] := by
  rw [trimSpace, List.dropWhile_eq_nil_iff.mpr blank]
  rfl

/-- A text without the character keeps its edges. -/
theorem trimChar_of_not_mem {edge : Char} (free : edge ∉ t) : trimChar edge t = t := by
  have kept {u : Text} (free : edge ∉ u) : u.dropWhile (· == edge) = u := by
    cases u with
    | nil => rfl
    | cons c u =>
      rw [List.dropWhile_cons_of_neg]
      rintro same
      exact free (by simp [beq_iff_eq.mp same])
  rw [trimChar, kept free, kept (by simpa using free), List.reverse_reverse]

theorem trimChar_around {edge : Char} (free : edge ∉ t) :
    trimChar edge (edge :: (t ++ [edge])) = t := by
  have inner : trimChar edge (edge :: (t ++ [edge])) = trimChar edge t := by
    unfold trimChar
    rw [List.dropWhile_cons_of_pos (by simp)]
    rcases t with _ | ⟨c, t⟩
    · simp
    · have first : ¬ (c == edge) = true := fun same => free (by simp [beq_iff_eq.mp same])
      rw [List.cons_append, List.dropWhile_cons_of_neg (p := (· == edge)) first,
        List.dropWhile_cons_of_neg (p := (· == edge)) first, ← List.cons_append,
        List.reverse_append, List.reverse_singleton, List.singleton_append,
        List.dropWhile_cons_of_pos (by simp)]
  rw [inner, trimChar_of_not_mem free]

/-- Where the only white space is the space, fields are what spaces separate. -/
theorem fields_eq_split (spaces : ∀ c ∈ t, isSpace c = true → c = ' ') :
    fields t = (split ' ' t).filter (· ≠ []) := by
  have same : t.splitOnP isSpace = t.splitOnP (· == ' ') := by
    induction t with
    | nil => rfl
    | cons c t ih =>
      have here : isSpace c = (c == ' ') := by
        rw [Bool.eq_iff_iff, beq_iff_eq]
        exact ⟨spaces c (by simp), fun same => same ▸ rfl⟩
      rw [List.splitOnP_cons_eq_if_modifyHead, List.splitOnP_cons_eq_if_modifyHead, here,
        ih fun d mem => spaces d (by simp [mem])]
  rw [fields, same]
  rfl

theorem join_append {parts more : List Text} (some : parts ≠ []) (others : more ≠ []) :
    join separator (parts ++ more) = join separator parts ++ separator :: join separator more := by
  induction parts with
  | nil => exact absurd rfl some
  | cons part parts ih =>
    obtain ⟨next, more, rfl⟩ := List.exists_cons_of_ne_nil others
    rcases parts with _ | ⟨second, parts⟩
    · simp [join]
    · have tail := ih (by simp)
      simp only [join, List.cons_append, List.intercalate_cons_cons, List.append_assoc] at tail ⊢
      rw [tail]

end Strings
