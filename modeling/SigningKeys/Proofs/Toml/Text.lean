import SigningKeys.Proofs.Json.Token
import SigningKeys.Toml.Text

/-!
# Strings between double quotation marks

How a text may be written between double quotation marks on one line (`SpellsText`): each character
as itself, as a letter after a backslash, or by its number. Every text can be written
(`spellsText_spelling`), and however it is written, it is read back (`readBasic_of_spellsText`).
-/

namespace SigningKeys.Toml

open Text

/-- The character stands for itself between double quotation marks. -/
def isPlain (c : Char) : Bool := isPrintable c && c != '"' && c != '\\'

/-- What may be written for a character between double quotation marks. -/
inductive SpellsChar (c : Char) : List Char → Prop where
  | plain :
      isPlain c = true →
      SpellsChar c [c]
  | letter (letter) :
      unescapeLetter? letter = some c →
      SpellsChar c ['\\', letter]
  | fourDigits (w x y z) :
      charOfHex? [w, x, y, z] = some c →
      SpellsChar c ['\\', 'u', w, x, y, z]
  | eightDigits (s t u v w x y z) :
      charOfHex? [s, t, u, v, w, x, y, z] = some c →
      SpellsChar c ['\\', 'U', s, t, u, v, w, x, y, z]

/-- What may be written for a text between double quotation marks. -/
inductive SpellsText : List Char → List Char → Prop where
  | nil : SpellsText [] []
  | cons {c content written raw} :
      SpellsChar c written →
      SpellsText content raw →
      SpellsText (c :: content) (written ++ raw)

variable {c letter : Char} {content written raw digits rest : List Char}

/-! ## Plain characters -/

/-- A plain character is printable, and neither the mark nor a backslash. -/
theorem isPlain_iff : isPlain c = true ↔ isPrintable c = true ∧ c ≠ '"' ∧ c ≠ '\\' := by
  simp [isPlain, and_assoc]

/-- Characters from the blank on, up to the last visible one, can be printed. -/
theorem isPrintable_of_le (hlow : ' ' ≤ c) (hhigh : c ≤ '~') : isPrintable c = true := by
  have hdelete : c ≠ '\x7f' := by
    rintro rfl
    exact absurd hhigh (by decide)
  simp [isPrintable, hlow, hdelete]

/-- Digits of the base sixteen are figures or the first six letters. -/
theorem range_of_hexValue? {n : Nat} (h : hexValue? c = some n) :
    ('0' ≤ c ∧ c ≤ '9') ∨ ('a' ≤ c ∧ c ≤ 'f') ∨ ('A' ≤ c ∧ c ≤ 'F') := by
  unfold hexValue? at h
  split at h
  · exact .inl ‹_›
  split at h
  · exact .inr (.inl ‹_›)
  split at h
  · exact .inr (.inr ‹_›)
  cases h

/-- Digits of the base sixteen are plain. -/
theorem isPlain_of_hexValue? {n : Nat} (h : hexValue? c = some n) : isPlain c = true := by
  have hrange := range_of_hexValue? h
  rw [isPlain_iff]
  refine ⟨?_, ?_, ?_⟩
  · rcases hrange with ⟨hlow, hhigh⟩ | ⟨hlow, hhigh⟩ | ⟨hlow, hhigh⟩ <;>
      exact isPrintable_of_le (Char.le_trans (by decide) hlow) (Char.le_trans hhigh (by decide))
  · rintro rfl
    exact absurd hrange (by decide)
  · rintro rfl
    exact absurd hrange (by decide)

/-- Digits that number something are plain. -/
theorem isPlain_of_hexNumber? {high n : Nat} (h : hexNumber? high digits = some n) :
    ∀ c ∈ digits, isPlain c = true := by
  induction digits generalizing high with
  | nil => exact fun c hc ↦ absurd hc List.not_mem_nil
  | cons first digits ih =>
      rw [hexNumber?, Option.bind_eq_bind, Option.bind_eq_some_iff] at h
      obtain ⟨value, hvalue, hnumber⟩ := h
      exact List.forall_mem_cons.2 ⟨isPlain_of_hexValue? hvalue, ih hnumber⟩

/-- Digits that number a character are plain. -/
theorem isPlain_of_charOfHex? (h : charOfHex? digits = some c) :
    ∀ digit ∈ digits, isPlain digit = true := by
  rw [charOfHex?, Option.bind_eq_bind, Option.bind_eq_some_iff] at h
  obtain ⟨number, hnumber, -⟩ := h
  exact isPlain_of_hexNumber? hnumber

/-- The letter after a backslash is one of seven. -/
theorem mem_of_unescapeLetter? (h : unescapeLetter? letter = some c) :
    letter ∈ ['"', '\\', 'b', 't', 'n', 'f', 'r'] := by
  by_contra hletter
  simp only [List.mem_cons, List.not_mem_nil, or_false, not_or] at hletter
  simp [unescapeLetter?, hletter] at h

/-! ## Splitting at the mark -/

/-- A character that stands for itself does not end a string. -/
theorem splitBasic_cons (h : isPlain c = true) :
    splitBasic (c :: rest) = (splitBasic rest).map fun (raw, rest) ↦ (c :: raw, rest) := by
  obtain ⟨-, hmark, hbackslash⟩ := isPlain_iff.1 h
  rw [splitBasic]
  · exact hmark
  · intro next text htext
    exact absurd htext hbackslash

/-- Characters that stand for themselves do not end a string. -/
theorem splitBasic_append (h : ∀ c ∈ written, isPlain c = true) :
    splitBasic (written ++ rest) =
      (splitBasic rest).map fun (raw, rest) ↦ (written ++ raw, rest) := by
  induction written with
  | nil => simp
  | cons c written ih =>
      obtain ⟨hc, hwritten⟩ := List.forall_mem_cons.1 h
      rw [List.cons_append, splitBasic_cons hc, ih hwritten, Option.map_map]
      rfl

/-- A backslash, the character after it, and characters that stand for themselves do not end a
string. -/
theorem splitBasic_escape (h : ∀ c ∈ written, isPlain c = true) :
    splitBasic ('\\' :: letter :: (written ++ rest)) =
      (splitBasic rest).map fun (raw, rest) ↦ ('\\' :: letter :: (written ++ raw), rest) := by
  rw [splitBasic, splitBasic_append h, Option.map_map]
  rfl

/-- What is written for a character does not end a string. -/
theorem SpellsChar.splitBasic (h : SpellsChar c written) :
    splitBasic (written ++ rest) =
      (splitBasic rest).map fun (raw, rest) ↦ (written ++ raw, rest) := by
  cases h with
  | plain hplain => exact splitBasic_cons hplain
  | letter letter hletter => exact splitBasic_escape (fun c hc ↦ absurd hc List.not_mem_nil)
  | fourDigits w x y z hdigits => exact splitBasic_escape (isPlain_of_charOfHex? hdigits)
  | eightDigits s t u v w x y z hdigits => exact splitBasic_escape (isPlain_of_charOfHex? hdigits)

/-- What is written for a text ends at the mark. -/
theorem SpellsText.splitBasic (h : SpellsText content raw) :
    splitBasic (raw ++ '"' :: rest) = some (raw, rest) := by
  induction h with
  | nil => rfl
  | cons hchar _ ih =>
      rw [List.append_assoc, hchar.splitBasic, ih]
      rfl

/-- What is written for a text does not begin with the mark. -/
theorem SpellsText.not_mark (h : SpellsText content ('"' :: raw)) : False := by
  have hsplit : Toml.splitBasic ('"' :: (raw ++ ['"'])) = some ('"' :: raw, []) := h.splitBasic
  rw [Toml.splitBasic] at hsplit
  cases hsplit

/-! ## Resolving escapes -/

/-- What is written for a character is resolved to it. -/
theorem SpellsChar.unescape? (h : SpellsChar c written) :
    unescape? false (written ++ rest) = (unescape? false rest).map (c :: ·) := by
  cases h with
  | plain hplain =>
      obtain ⟨-, -, hbackslash⟩ := isPlain_iff.1 hplain
      show Toml.unescape? false (c :: rest) = _
      rw [Toml.unescape?, if_neg hbackslash, Bool.false_and, if_neg Bool.false_ne_true]
      all_goals intros; contradiction
  | letter letter hletter =>
      have hmem := mem_of_unescapeLetter? hletter
      have hshort : letter ≠ 'u' := by
        rintro rfl
        exact absurd hmem (by decide)
      have hlong : letter ≠ 'U' := by
        rintro rfl
        exact absurd hmem (by decide)
      -- No letter is a blank, so that the line does not end here.
      have hline : endsLine (letter :: rest) = false := by
        simp only [List.mem_cons, List.not_mem_nil, or_false] at hmem
        rcases hmem with rfl | rfl | rfl | rfl | rfl | rfl | rfl <;> rfl
      show Toml.unescape? false ('\\' :: letter :: rest) = _
      rw [Toml.unescape?, if_neg (by rw [hline]; exact Bool.false_ne_true), hletter]
      · rfl
      · intros; contradiction
      · intros; contradiction
  | fourDigits w x y z hdigits =>
      show Toml.unescape? false ('\\' :: 'u' :: w :: x :: y :: z :: rest) = _
      rw [Toml.unescape?, hdigits]
      rfl
  | eightDigits s t u v w x y z hdigits =>
      show Toml.unescape? false ('\\' :: 'U' :: s :: t :: u :: v :: w :: x :: y :: z :: rest) = _
      rw [Toml.unescape?, hdigits]
      rfl

/-- What is written for a text is resolved to it. -/
theorem SpellsText.unescape? (h : SpellsText content raw) :
    unescape? false raw = some content := by
  induction h with
  | nil => rfl
  | cons hchar _ ih =>
      rw [hchar.unescape?, ih]
      rfl

/-! ## Reading -/

/-- What is written for a character can be printed. -/
theorem SpellsChar.isPrintable (h : SpellsChar c written) :
    ∀ c ∈ written, isPrintable c = true := by
  have hplain {c} (hc : isPlain c = true) : Toml.isPrintable c = true := (isPlain_iff.1 hc).1
  have hbackslash : Toml.isPrintable '\\' = true := by decide
  cases h with
  | plain hc => exact List.forall_mem_singleton.2 (hplain hc)
  | letter letter hletter =>
      have hall : ['"', '\\', 'b', 't', 'n', 'f', 'r'].all Toml.isPrintable = true := by decide
      have hc := List.all_eq_true.1 hall letter (mem_of_unescapeLetter? hletter)
      exact List.forall_mem_cons.2 ⟨hbackslash, List.forall_mem_singleton.2 hc⟩
  | fourDigits w x y z hdigits =>
      refine List.forall_mem_cons.2 ⟨hbackslash, List.forall_mem_cons.2 ⟨by decide, ?_⟩⟩
      exact fun c hc ↦ hplain (isPlain_of_charOfHex? hdigits c hc)
  | eightDigits s t u v w x y z hdigits =>
      refine List.forall_mem_cons.2 ⟨hbackslash, List.forall_mem_cons.2 ⟨by decide, ?_⟩⟩
      exact fun c hc ↦ hplain (isPlain_of_charOfHex? hdigits c hc)

/-- What is written for a text can be printed. -/
theorem SpellsText.isPrintable (h : SpellsText content raw) :
    ∀ c ∈ raw, isPrintable c = true := by
  induction h with
  | nil => exact fun c hc ↦ absurd hc List.not_mem_nil
  | cons hchar _ ih => exact List.forall_mem_append.2 ⟨hchar.isPrintable, ih⟩

/-- A text is read back, however it is written. -/
theorem readBasic_of_spellsText (h : SpellsText content raw) :
    readBasic (raw ++ '"' :: rest) = some (.ofList content, rest) := by
  have hprintable : raw.all isPrintable = true := List.all_eq_true.2 h.isPrintable
  simp only [readBasic, h.splitBasic, h.unescape?, Option.bind_eq_bind, Option.bind_some,
    if_pos hprintable]

/-! ## One way to write a text -/

/-- A way to write a character: as itself if it is plain, else after a backslash, and control
characters by their number. -/
def spellingOfChar (c : Char) : List Char :=
  if c = '"' ∨ c = '\\' then ['\\', c]
  else if isPrintable c then [c]
  else ['\\', 'u', '0', '0', Json.hexDigit (c.toNat / 16), Json.hexDigit (c.toNat % 16)]

/-- A way to write a text. -/
def spelling (content : List Char) : List Char := content.flatMap spellingOfChar

/-- Only characters of a small number cannot be printed. -/
theorem toNat_lt_of_not_isPrintable (h : isPrintable c = false) : c.toNat < 128 := by
  by_contra hlarge
  have hlow : ' ' ≤ c := by
    show 32 ≤ c.toNat
    omega
  have hdelete : c ≠ '\x7f' := by
    rintro rfl
    exact absurd hlarge (by decide)
  simp [isPrintable, hlow, hdelete] at h

/-- A character of a small number is found by its digits. -/
theorem charOfHex?_hexDigit (h : c.toNat < 128) :
    charOfHex? ['0', '0', Json.hexDigit (c.toNat / 16), Json.hexDigit (c.toNat % 16)] = some c := by
  have hall : ∀ n < 128,
      charOfHex? ['0', '0', Json.hexDigit (n / 16), Json.hexDigit (n % 16)] =
        some (Char.ofNat n) := by decide
  rw [hall _ h, Char.ofNat_toNat]

/-- Every character is written so that it is read back. -/
theorem spellsChar_spellingOfChar (c : Char) : SpellsChar c (spellingOfChar c) := by
  unfold spellingOfChar
  split
  · next hmark => exact .letter c (if_pos hmark)
  split
  · next hmark hprintable => exact .plain (isPlain_iff.2 ⟨hprintable, not_or.1 hmark⟩)
  · next hprintable =>
      exact .fourDigits _ _ _ _ (charOfHex?_hexDigit
        (toNat_lt_of_not_isPrintable (Bool.not_eq_true _ ▸ hprintable)))

/-- Every text is written so that it is read back. -/
theorem spellsText_spelling (content : List Char) : SpellsText content (spelling content) := by
  induction content with
  | nil => exact .nil
  | cons c content ih => exact .cons (spellsChar_spellingOfChar c) ih

end SigningKeys.Toml
