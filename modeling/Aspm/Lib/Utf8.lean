import Aspm.Lib.Json

/-!
# Cutting UTF-8 at a byte limit

A string of bytes that is too long is cut by moving the end back one byte at a time until what is
left is UTF-8 again (`shrink`).  For the encoding of a text this is the encoding of the longest run
of its leading characters that fits: no valid prefix within the limit is longer (`prefix_shrink`).

The step that needs UTF-8 itself is that a valid prefix of an encoding ends between two characters;
it is the prefix law of the standard library's decoder.
-/

namespace Utf8

open Json (Text byteLength)

variable {t u : Text} {b : Bytes} {limit : ℕ}

abbrev Bytes := List UInt8

def encode (t : Text) : Bytes := t.flatMap String.utf8EncodeChar

@[simp] theorem encode_nil : encode [] = [] := rfl

@[simp] theorem encode_append (t u : Text) : encode (t ++ u) = encode t ++ encode u :=
  List.flatMap_append

@[simp] theorem length_encode (t : Text) : (encode t).length = byteLength t := by
  simp [encode, byteLength, List.length_flatMap]

theorem toByteArray_encode (t : Text) : (encode t).toByteArray = t.utf8Encode := rfl

/-- An encoding that begins with an encoding is that of a text that begins with the text. -/
theorem prefix_of_encode (begins : encode t <+: encode u) : t <+: u := by
  obtain ⟨rest, same⟩ := begins
  apply List.isPrefix_of_utf8Encode_append_eq_utf8Encode rest.toByteArray
  rw [← toByteArray_encode, ← toByteArray_encode, ← List.toByteArray_append, same]

theorem encode_isPrefix_encode (begins : t <+: u) : encode t <+: encode u := by
  obtain ⟨rest, rfl⟩ := begins
  exact ⟨encode rest, (encode_append t rest).symm⟩

/-- A character of ASCII is one byte. -/
theorem utf8EncodeChar_ascii {c : Char} (ascii : c.toNat ≤ 127) :
    String.utf8EncodeChar c = [UInt8.ofNat c.toNat] := if_pos ascii

/-- A byte of an encoded character is the character, or above ASCII. -/
theorem toNat_of_mem_utf8EncodeChar {c : Char} {b : UInt8} (mem : b ∈ String.utf8EncodeChar c) :
    b.toNat = c.toNat ∨ 128 ≤ b.toNat := by
  have size (n : ℕ) (small : n < 256) : (UInt8.ofNat n).toNat = n := by
    rw [UInt8.toNat_ofNat']
    exact Nat.mod_eq_of_lt small
  have nat : c.val.toNat = c.toNat := rfl
  unfold String.utf8EncodeChar at mem
  simp only [nat] at mem
  split at mem
  · obtain rfl := List.mem_singleton.mp mem
    exact .inl (size _ (by omega))
  · refine .inr ?_
    split at mem
    · simp only [List.mem_cons, List.not_mem_nil, or_false] at mem
      rcases mem with rfl | rfl
      all_goals rw [size _ (by omega)]; omega
    · split at mem
      · simp only [List.mem_cons, List.not_mem_nil, or_false] at mem
        rcases mem with rfl | rfl | rfl
        all_goals rw [size _ (by omega)]; omega
      · simp only [List.mem_cons, List.not_mem_nil, or_false] at mem
        rcases mem with rfl | rfl | rfl | rfl
        all_goals rw [size _ (by omega)]; omega

/-! ## Validity -/

def valid (b : Bytes) : Bool := b.toByteArray.validateUTF8

theorem valid_iff : valid b = true ↔ ∃ t, b = encode t := by
  rw [valid, ByteArray.validateUTF8_eq_true_iff]
  constructor
  · rintro ⟨t, same⟩
    exact ⟨t, List.toByteArray_inj.mp same⟩
  · rintro ⟨t, rfl⟩
    exact .intro t rfl

@[simp] theorem valid_encode (t : Text) : valid (encode t) = true := valid_iff.mpr ⟨t, rfl⟩

@[simp] theorem valid_nil : valid [] = true := valid_encode []

/-- The text that bytes are the encoding of. -/
def decode (b : Bytes) : Text := (b.toByteArray.utf8Decode?.map Array.toList).getD []

@[simp] theorem decode_encode (t : Text) : decode (encode t) = t := by
  rw [decode, toByteArray_encode, List.utf8Decode?_utf8Encode]
  rfl

/-! ## Bytes that need not be UTF-8 -/

/-- The runes of a string, and U+FFFD for each byte that does not begin one. -/
def runes : ℕ → Bytes → Text
  | 0, _ => []
  | _, [] => []
  | n + 1, b :: rest =>
    match (b :: rest).toByteArray.utf8DecodeChar? 0 with
    | some c => c :: runes n ((b :: rest).drop c.utf8Size)
    | none => Char.ofNat 0xFFFD :: runes n rest

/-- What a string is taken for where UTF-8 is expected. -/
def coerce (b : Bytes) : Text := runes b.length b

theorem runes_encode {n : ℕ} (enough : t.length ≤ n) : runes n (encode t) = t := by
  induction t generalizing n with
  | nil => cases n <;> rfl
  | cons c t ih =>
    obtain ⟨n, rfl⟩ : ∃ k, n = k + 1 := ⟨n - 1, by simp at enough; omega⟩
    have whole : encode (c :: t) = String.utf8EncodeChar c ++ encode t := List.flatMap_cons
    have first : (encode (c :: t)).toByteArray.utf8DecodeChar? 0 = some c := by
      rw [whole, List.toByteArray_append]
      exact ByteArray.utf8DecodeChar?_utf8EncodeChar_append
    have rest : (encode (c :: t)).drop c.utf8Size = encode t := by
      rw [whole, ← String.length_utf8EncodeChar, List.drop_left]
    obtain ⟨b, bytes, begins⟩ : ∃ b bytes, encode (c :: t) = b :: bytes := by
      refine List.exists_cons_of_length_pos ?_
      rw [length_encode, Json.byteLength_cons]
      exact Nat.add_pos_left c.utf8Size_pos _
    rw [begins] at first rest ⊢
    rw [runes, first]
    show c :: runes n _ = c :: t
    rw [rest, ih (by simp at enough; omega)]

@[simp] theorem coerce_encode (t : Text) : coerce (encode t) = t :=
  runes_encode (length_encode t ▸ Json.length_le_byteLength t)

theorem encode_coerce (isValid : valid b = true) : encode (coerce b) = b := by
  obtain ⟨t, rfl⟩ := valid_iff.mp isValid
  rw [coerce_encode]

/-! ## The cut -/

/-- The loop: the end moves back until the bytes before it are valid. -/
def shrink (b : Bytes) : ℕ → Bytes
  | 0 => []
  | n + 1 => if valid (b.take (n + 1)) then b.take (n + 1) else shrink b n

theorem shrink_isPrefix_self (b : Bytes) (limit : ℕ) : shrink b limit <+: b := by
  induction limit with
  | zero => exact List.nil_prefix
  | succ n ih =>
    rw [shrink]
    split
    · exact List.take_prefix _ _
    · exact ih

theorem length_shrink_le (b : Bytes) (limit : ℕ) : (shrink b limit).length ≤ limit := by
  induction limit with
  | zero => exact Nat.le_refl 0
  | succ n ih =>
    rw [shrink]
    split
    · exact List.length_take_le _ _
    · exact ih.trans (Nat.le_succ n)

@[simp] theorem valid_shrink (b : Bytes) (limit : ℕ) : valid (shrink b limit) = true := by
  induction limit with
  | zero => exact valid_nil
  | succ n ih =>
    rw [shrink]
    split
    · assumption
    · exact ih

/-- No valid prefix within the limit is longer. -/
theorem prefix_shrink {p : Bytes} (begins : p <+: b) (isValid : valid p = true)
    (fits : p.length ≤ limit) : p <+: shrink b limit := by
  induction limit with
  | zero =>
    rw [List.length_eq_zero_iff.mp (Nat.le_zero.mp fits)]
    exact List.nil_prefix
  | succ n ih =>
    rw [shrink]
    split
    · exact List.prefix_take_iff.mpr ⟨begins, fits⟩
    · -- The whole cut is not valid, so `p` is not the whole cut.
      rename_i broken
      refine ih (Nat.le_of_lt_succ (lt_of_le_of_ne fits fun full => broken ?_))
      have whole : p.length = n + 1 := full
      rwa [← whole, ← List.prefix_iff_eq_take.mp begins]

/-- The longest of the valid prefixes of `b` within the limit. -/
structure LongestWithin (limit : ℕ) (b cut : Bytes) : Prop where
  begins : cut <+: b
  fits : cut.length ≤ limit
  isValid : valid cut = true
  longest : ∀ p, p <+: b → valid p = true → p.length ≤ limit → p <+: cut

theorem longestWithin_shrink (limit : ℕ) (b : Bytes) : LongestWithin limit b (shrink b limit) where
  begins := shrink_isPrefix_self b limit
  fits := length_shrink_le b limit
  isValid := valid_shrink b limit
  longest _ begins isValid fits := prefix_shrink begins isValid fits

/-- What is short enough is the whole of it. -/
theorem longestWithin_self (isValid : valid b = true) (fits : b.length ≤ limit) :
    LongestWithin limit b b :=
  ⟨List.prefix_rfl, fits, isValid, fun _ begins _ _ => begins⟩

/-- What is left of a text is its leading characters, as many as fit. -/
theorem LongestWithin.text (longest : LongestWithin limit (encode t) (encode u)) :
    u <+: t ∧ byteLength u ≤ limit ∧ ∀ p, p <+: t → byteLength p ≤ limit → p <+: u := by
  refine ⟨prefix_of_encode longest.begins, length_encode u ▸ longest.fits, ?_⟩
  intro p begins fits
  apply prefix_of_encode
  exact longest.longest _ (encode_isPrefix_encode begins) (valid_encode p) (length_encode p ▸ fits)

/-- The leading characters of a text that fit into a number of bytes. -/
def cut (limit : ℕ) (t : Text) : Text := decode (shrink (encode t) limit)

theorem encode_cut (limit : ℕ) (t : Text) : encode (cut limit t) = shrink (encode t) limit := by
  obtain ⟨u, same⟩ := valid_iff.mp (valid_shrink (encode t) limit)
  rw [cut, same, decode_encode]

theorem cut_isPrefix_self (limit : ℕ) (t : Text) : cut limit t <+: t :=
  prefix_of_encode (encode_cut limit t ▸ shrink_isPrefix_self (encode t) limit)

theorem byteLength_cut_le (limit : ℕ) (t : Text) : byteLength (cut limit t) ≤ limit := by
  rw [← length_encode, encode_cut]
  exact length_shrink_le (encode t) limit

/-- What fits is kept. -/
theorem prefix_cut {p : Text} (begins : p <+: t) (fits : byteLength p ≤ limit) :
    p <+: cut limit t := by
  apply prefix_of_encode
  rw [encode_cut]
  exact prefix_shrink (encode_isPrefix_encode begins) (valid_encode p) (length_encode p ▸ fits)

end Utf8
