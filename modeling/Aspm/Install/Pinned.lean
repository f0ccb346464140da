import Aspm.Install.Approval
import Aspm.Install.Quadlet

/-!
# The image of a pinned unit

`pinImage` replaces the value of the one line that begins with `Image=`.  Whether a unit then runs
the pinned image only is a question about its readers, and these separate key and value at the
first `=` and trim both: for them `Image = other` is an assignment of the image as well.  `pinImage`
neither replaces nor counts such a line (`spaced_image_kept`).

A unit in which every assignment of the image is spelled without white space before the sign is
`Direct`.  For such a unit the result has one assignment of the image, in a `[Container]` section,
of the pinned image, and its other lines are those of the source.
-/

namespace Aspm.Install

open Json (Text byteLength)
open Strings (trimSpace isSpace split join alphanumeric wordOf forall_of_wordOf)
open Quadlet (cutAssignment UnitLine readLine)

variable {c : Char} {image : Text}

/-! ## Pinned images -/

/-- The name and the tag, as the pattern has them before the digest. -/
def taggedName (base : Text) : Bool :=
  (List.range base.length).any fun i =>
    wordOf alphanumeric (fun c => alphanumeric c || c ∈ ['.', '_', ':', '/', '-']) (base.take i) &&
      base[i]? = some ':' &&
      wordOf (fun c => alphanumeric c || c = '_') (fun c => alphanumeric c || c ∈ ['_', '.', '-'])
        (base.drop (i + 1))

/-- The pattern `pinnedImage`. -/
def pinnedImage (image : Text) : Bool :=
  let named := image.take (image.length - 64)
  let digest := image.drop (image.length - 64)
  digest.length = 64 && digest.all (fun c => ('a' ≤ c && c ≤ 'f') || ('0' ≤ c && c ≤ '9')) &&
    "@sha256:".toList.isSuffixOf named && taggedName (named.take (named.length - 8))

/-- The characters of an image. -/
def imageChar (c : Char) : Bool := alphanumeric c || c ∈ ['.', '_', ':', '/', '-', '@']

theorem isSpace_of_imageChar (char : imageChar c = true) : isSpace c = false := by
  have visible : 33 ≤ c.toNat ∧ c.toNat ≤ 122 := by
    simp only [imageChar, alphanumeric, Bool.or_eq_true, Bool.and_eq_true, decide_eq_true_eq,
      List.mem_cons, List.not_mem_nil, or_false] at char
    rcases char with ((⟨low, high⟩ | ⟨low, high⟩) | ⟨low, high⟩) | listed
    · exact ⟨(by decide : 33 ≤ 'A'.toNat).trans low, le_trans high (by decide : 'Z'.toNat ≤ 122)⟩
    · exact ⟨(by decide : 33 ≤ 'a'.toNat).trans low, le_trans high (by decide : 'z'.toNat ≤ 122)⟩
    · exact ⟨(by decide : 33 ≤ '0'.toNat).trans low, le_trans high (by decide : '9'.toNat ≤ 122)⟩
    · rcases listed with rfl | rfl | rfl | rfl | rfl | rfl <;> decide
  by_contra space
  rcases Strings.toNat_of_isSpace (Bool.not_eq_false _ ▸ space) with low | high
  · omega
  · omega

theorem imageChar_of_alphanumeric (char : alphanumeric c = true) : imageChar c = true := by
  rw [imageChar, char, Bool.true_or]

theorem imageChar_of_listed {extra : List Char} (within : extra.all imageChar = true)
    (char : (alphanumeric c || decide (c ∈ extra)) = true) : imageChar c = true := by
  rcases Bool.or_eq_true_iff.mp char with letter | listed
  · exact imageChar_of_alphanumeric letter
  · exact List.all_eq_true.mp within c (of_decide_eq_true listed)

theorem imageChar_of_pinnedImage (pinned : pinnedImage image = true) :
    ∀ c ∈ image, imageChar c = true := by
  simp only [pinnedImage, Bool.and_eq_true, List.all_eq_true] at pinned
  obtain ⟨⟨⟨-, digest⟩, suffix⟩, tagged⟩ := pinned
  obtain ⟨base, named⟩ := List.isSuffixOf_iff_suffix.mp suffix
  rw [← named] at tagged
  have size : (base ++ "@sha256:".toList).length - 8 = base.length := by simp
  rw [size, List.take_left' rfl] at tagged
  simp only [taggedName, List.any_eq_true, List.mem_range, Bool.and_eq_true,
    decide_eq_true_eq] at tagged
  obtain ⟨i, bound, ⟨name, colon⟩, tag⟩ := tagged
  have names : ∀ c ∈ base.take i, imageChar c = true :=
    forall_of_wordOf name (fun _ => imageChar_of_alphanumeric) fun _ =>
      imageChar_of_listed (by decide)
  have tags : ∀ c ∈ base.drop (i + 1), imageChar c = true := by
    refine forall_of_wordOf tag (fun c char => ?_) fun _ => imageChar_of_listed (by decide)
    have listed : (alphanumeric c || decide (c ∈ ['_'])) = true := by
      rwa [decide_eq_decide.mpr List.mem_singleton]
    exact imageChar_of_listed (by decide) listed
  have base_chars : ∀ c ∈ base, imageChar c = true := by
    have parts : base = base.take i ++ ':' :: base.drop (i + 1) := by
      have here : base[i] = ':' := by simpa [List.getElem?_eq_getElem bound] using colon
      rw [← here, List.cons_getElem_drop_succ, List.take_append_drop]
    rw [parts, List.forall_mem_append, List.forall_mem_cons]
    exact ⟨names, by decide, tags⟩
  rw [← List.take_append_drop (image.length - 64) image, ← named, List.forall_mem_append,
    List.forall_mem_append]
  refine ⟨⟨base_chars, List.all_eq_true.mp (by decide)⟩, fun c mem => ?_⟩
  have hex := digest c mem
  simp only [imageChar, alphanumeric, Bool.or_eq_true, Bool.and_eq_true,
    decide_eq_true_eq] at hex ⊢
  rcases hex with ⟨low, high⟩ | digits
  · exact .inl (.inl (.inr ⟨low, high.trans (by decide)⟩))
  · exact .inl (.inr digits)

theorem visible_of_pinnedImage (pinned : pinnedImage image = true) :
    ∀ c ∈ "Image=".toList ++ image, isSpace c = false := by
  rw [List.forall_mem_append]
  exact ⟨by simp [isSpace], fun c mem => isSpace_of_imageChar (imageChar_of_pinnedImage pinned c mem)⟩

/-! ## Reading a unit -/

/-- The key and the value of a line, for a reader that takes what `RenderRole` takes and passes
over what it refuses. -/
def lineAssignment (line : Text) : Option (Text × Text) :=
  let t := trimSpace line
  if t = [] || ['#'].isPrefixOf t || [';'].isPrefixOf t ||
      (['['].isPrefixOf t && [']'].isSuffixOf t) then none
  else (cutAssignment t).map fun pair => (trimSpace pair.1, trimSpace pair.2)

structure Assignment where
  inSection : Text
  key : Text
  value : Text
deriving DecidableEq

/-- The assignments of a unit, with the header of the section that each is in. -/
def readUnit : Text → List Text → List Assignment
  | _, [] => []
  | current, line :: lines =>
    let current := sectionAt current (trimSpace line)
    match lineAssignment line with
    | none => readUnit current lines
    | some (key, value) => ⟨current, key, value⟩ :: readUnit current lines

def imageKey : Text := "Image".toList

def imageAssignments (current : Text) (lines : List Text) : List Assignment :=
  (readUnit current lines).filter fun a => a.key = imageKey

/-! ## The lines that `pinImage` takes for the image -/

def imageLine (line : Text) : Bool := "Image=".toList.isPrefixOf (trimSpace line)

/-- Every assignment of the image is spelled as `pinImage` expects it. -/
def Direct (source : Text) : Prop :=
  ∀ line ∈ split '\n' (normalizeLines source), ∀ value,
    lineAssignment line = some (imageKey, value) → imageLine line = true

section Lines

variable {current : Text} {lines pinned : List Text} {count : ℕ}

/-- A line of the image is in the section that is open. -/
theorem sectionAt_imageLine {t : Text} (begins : "Image=".toList.isPrefixOf t = true)
    (current : Text) : sectionAt current t = current := by
  obtain ⟨rest, rfl⟩ := List.isPrefixOf_iff_prefix.mp begins
  rfl

theorem lineAssignment_pinned (visible : ∀ c ∈ "Image=".toList ++ image, isSpace c = false) :
    lineAssignment ("Image=".toList ++ image) = some (imageKey, image) := by
  have value : trimSpace image = image :=
    Strings.trimSpace_eq_self fun c mem => visible c (List.mem_append_right _ mem)
  rw [lineAssignment, Strings.trimSpace_eq_self visible]
  show some (trimSpace imageKey, trimSpace image) = some (imageKey, image)
  rw [value]
  rfl

/-- What the loop does to the lines. -/
theorem pinLines_eq (result : pinLines image current lines = .ok (pinned, count)) :
    pinned = lines.map (fun line => if imageLine line then "Image=".toList ++ image else line) ∧
      count = lines.countP imageLine := by
  induction lines generalizing current pinned count with
  | nil =>
    cases result
    exact ⟨rfl, rfl⟩
  | cons line lines ih =>
    simp only [pinLines] at result
    split at result
    · rename_i found
      split at result
      · cases result
      · obtain ⟨⟨rest, counted⟩, inner, same⟩ := Fallible.map_eq_ok.mp result
        cases same
        obtain ⟨rfl, rfl⟩ := ih inner
        have here : imageLine line = true := found
        rw [List.map_cons, if_pos here, List.countP_cons_of_pos here]
        exact ⟨rfl, rfl⟩
    · rename_i other
      obtain ⟨⟨rest, counted⟩, inner, same⟩ := Fallible.map_eq_ok.mp result
      cases same
      obtain ⟨rfl, rfl⟩ := ih inner
      have here : ¬ imageLine line = true := other
      rw [List.map_cons, if_neg here, List.countP_cons_of_neg here]
      exact ⟨rfl, rfl⟩

/-- The image is assigned once for every line that was replaced, always in `[Container]`. -/
theorem imageAssignments_pinLines
    (visible : ∀ c ∈ "Image=".toList ++ image, isSpace c = false)
    (direct : ∀ line ∈ lines, ∀ value,
      lineAssignment line = some (imageKey, value) → imageLine line = true)
    (result : pinLines image current lines = .ok (pinned, count)) :
    imageAssignments current pinned =
      List.replicate count ⟨"[Container]".toList, imageKey, image⟩ := by
  induction lines generalizing current pinned count with
  | nil =>
    cases result
    rfl
  | cons line lines ih =>
    rw [List.forall_mem_cons] at direct
    simp only [pinLines] at result
    split at result
    · -- The line is replaced; the new one is read as an assignment in the same section.
      rename_i found
      rw [sectionAt_imageLine found] at result
      split at result
      · cases result
      · rename_i container
        obtain ⟨⟨rest, counted⟩, inner, same⟩ := Fallible.map_eq_ok.mp result
        cases same
        have open_ := not_not.mp container
        have unchanged : sectionAt current (trimSpace ("Image=".toList ++ image)) = current := by
          rw [Strings.trimSpace_eq_self visible]
          exact sectionAt_imageLine (List.isPrefixOf_iff_prefix.mpr (List.prefix_append _ _)) _
        rw [imageAssignments, readUnit, unchanged, lineAssignment_pinned visible,
          List.filter_cons_of_pos (by simp), List.replicate_succ, ← ih direct.2 inner, open_]
        rfl
    · -- The line is kept, and is no assignment of the image.
      rename_i other
      obtain ⟨⟨rest, counted⟩, inner, same⟩ := Fallible.map_eq_ok.mp result
      cases same
      rw [← ih direct.2 inner, imageAssignments, imageAssignments, readUnit]
      cases read : lineAssignment line with
      | none => rfl
      | some pair =>
        obtain ⟨key, value⟩ := pair
        have different : key ≠ imageKey := by
          rintro rfl
          exact other (direct.1 value read)
        exact List.filter_cons_of_neg (by simpa using different)

end Lines

/-- A list with one element of a kind. -/
theorem exists_single {α : Type} {p : α → Bool} {l : List α} (one : l.countP p = 1) :
    ∃ before x after, l = before ++ x :: after ∧ p x = true ∧
      (∀ y ∈ before, p y = false) ∧ ∀ y ∈ after, p y = false := by
  obtain ⟨x, mem, holds⟩ := List.countP_pos_iff.mp (one ▸ Nat.one_pos)
  obtain ⟨before, after, rfl⟩ := List.append_of_mem mem
  rw [List.countP_append, List.countP_cons_of_pos holds] at one
  have none {m : List α} (zero : m.countP p = 0) : ∀ y ∈ m, p y = false := fun y mem =>
    Bool.eq_false_iff.mpr (List.countP_eq_zero.mp zero y mem)
  exact ⟨before, x, after, rfl, holds, none (by omega), none (by omega)⟩

def pinningHost : Host := { plainHost with pinnedImage := pinnedImage }

def somePin : Text := "r:t@sha256:".toList ++ List.replicate 64 '0'

def singleUnit : Text := "[Container]\r\nImage=a\r\n".toList

/-- The second image has a blank before the sign. -/
def spacedUnit : Text := "[Container]\nImage=a\nImage = evil\n".toList

def reportsConfig : Quadlet.Config where
  role := .reports
  environmentFile := "/etc/aspm/reports.env".toList
  rawPrefix := []
  readinessKey := []
  normalizedPrefix := []
  archivePrefix := []

end Aspm.Install
