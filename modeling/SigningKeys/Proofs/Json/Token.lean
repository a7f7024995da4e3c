import SigningKeys.Json.Printer
import SigningKeys.Json.Reader
import SigningKeys.Proofs.Text.Decimal

/-!
# Strings and numbers in JSON read back

A string is read from what is written for it, whatever characters it has (`readString_printString`),
and a number as it was written, if what follows does not go on with it (`readNumeral_print`).
-/

namespace SigningKeys.Json

open Text

/-! ## Strings -/

/-- The hexadecimal digit for a number below sixteen has this value. -/
theorem hexValue?_hexDigit : ∀ n < 16, hexValue? (hexDigit n) = some n := by decide

/-- A control character is read from its four digits. -/
theorem pieceOfHex?_control {c : Char} (h : c.toNat < 32) :
    pieceOfHex? '0' '0' (hexDigit (c.toNat / 16)) (hexDigit (c.toNat % 16)) = some (.char c) := by
  have hzero : hexValue? '0' = some 0 := by decide
  have hnumber : (0 * 16 + c.toNat / 16) * 16 + c.toNat % 16 = c.toNat := by omega
  simp only [pieceOfHex?, hexNumber?, hzero, hexValue?_hexDigit _ (show c.toNat / 16 < 16 by omega),
    hexValue?_hexDigit _ (Nat.mod_lt c.toNat (by decide)), Option.bind_eq_bind, Option.bind_some,
    Nat.zero_mul, Nat.add_zero] at hnumber ⊢
  rw [hnumber, if_neg (by omega), Char.ofNat_toNat]

/-- A character is written as a letter after a backslash, by its number if it is another control
character, or as it is. -/
theorem escape_cases (c : Char) :
    (∃ letter, escape c = ['\\', letter] ∧ unescape? letter = some c) ∨
      c.toNat < 32 ∧
        escape c = ['\\', 'u', '0', '0', hexDigit (c.toNat / 16), hexDigit (c.toNat % 16)] ∨
      ¬ c.toNat < 32 ∧ c ≠ '"' ∧ c ≠ '\\' ∧ escape c = [c] := by
  by_cases hquote : c = '"'
  · exact .inl ⟨'"', by subst hquote; decide⟩
  by_cases hbackslash : c = '\\'
  · exact .inl ⟨'\\', by subst hbackslash; decide⟩
  by_cases hline : c = '\n'
  · exact .inl ⟨'n', by subst hline; decide⟩
  by_cases hreturn : c = '\r'
  · exact .inl ⟨'r', by subst hreturn; decide⟩
  by_cases htab : c = '\t'
  · exact .inl ⟨'t', by subst htab; decide⟩
  by_cases hback : c = '\x08'
  · exact .inl ⟨'b', by subst hback; decide⟩
  by_cases hfeed : c = '\x0c'
  · exact .inl ⟨'f', by subst hfeed; decide⟩
  by_cases hcontrol : c.toNat < 32
  · exact .inr (.inl ⟨hcontrol, by simp only [escape, *, if_false, if_true]⟩)
  · exact .inr (.inr ⟨hcontrol, hquote, hbackslash, by simp only [escape, *, if_false]⟩)

/-- What is written for a character is read as this character. -/
theorem readPieces_escape (c : Char) (text : List Char) :
    readPieces (escape c ++ text) =
      (readPieces text).map fun (pieces, rest) ↦ (.char c :: pieces, rest) := by
  rcases escape_cases c with ⟨letter, hwritten, hread⟩ | ⟨hcontrol, hwritten⟩ |
    ⟨hplain, hquote, hbackslash, hwritten⟩
  · have hletter : letter ≠ 'u' := by rintro rfl; cases hread
    rw [hwritten]
    show readPieces ('\\' :: letter :: text) = _
    rw [readPieces]
    · rw [hread]
      cases readPieces text <;> rfl
    · intro a b c d rest htext
      exact absurd htext hletter
  · rw [hwritten]
    show readPieces ('\\' :: 'u' :: '0' :: '0' :: _ :: _ :: text) = _
    rw [readPieces, pieceOfHex?_control hcontrol]
    cases readPieces text <;> rfl
  · rw [hwritten]
    show readPieces (c :: text) = _
    rw [readPieces]
    · rw [if_neg hplain]
      cases readPieces text <;> rfl
    · exact hquote
    · intro a b c d rest htext
      exact absurd htext hbackslash
    · intro letter rest htext
      exact absurd htext hbackslash

/-- A string is read from what is written for it. -/
theorem readPieces_text (chars rest : List Char) :
    readPieces (chars.flatMap escape ++ '"' :: rest) = some (chars.map .char, rest) := by
  induction chars with
  | nil => rfl
  | cons c chars ih =>
      rw [List.flatMap_cons, List.append_assoc, readPieces_escape, ih]
      rfl

/-- Pieces that are characters are the text of these. -/
theorem joinPieces_chars (chars : List Char) : joinPieces (chars.map .char) = some chars := by
  induction chars with
  | nil => rfl
  | cons c chars ih => simp [joinPieces, ih]

/-- A string is read from what is written for it after its quotation mark. -/
theorem readString_printString (s : Option String) (rest : List Char) :
    ∃ text, printString s ++ rest = '"' :: text ∧ readString text = some (s, rest) := by
  cases s with
  | none =>
      have hwritten : printString none = ['"', '\\', 'u', 'd', '8', '0', '0', '"'] := by
        decide
      have hnumber : hexNumber? 0 ['d', '8', '0', '0'] = some 0xD800 := by decide
      have hhalf : pieceOfHex? 'd' '8' '0' '0' = some (.half 0xD800) := by
        simp [pieceOfHex?, hnumber]
      refine ⟨'\\' :: 'u' :: 'd' :: '8' :: '0' :: '0' :: '"' :: rest, by simp [hwritten], ?_⟩
      simp [readString, readPieces, hhalf, joinPieces]
  | some s =>
      refine ⟨s.toList.flatMap escape ++ '"' :: rest, ?_, ?_⟩
      · show '"' :: (s.toList.flatMap escape ++ ['"']) ++ rest = _
        rw [List.cons_append, List.append_assoc, List.singleton_append]
      · rw [readString, readPieces_text]
        simp [joinPieces_chars, String.ofList_toList]

/-! ## Numbers -/

/-- The characters with which a number can go on. -/
def continuesNumber (c : Char) : Bool :=
  Decimal.isDigit c || c == '.' || c == 'e' || c == 'E'

/-- What does not go on with a number does not go on with a digit. -/
theorem endsBefore_digit {text : List Char} (h : EndsBefore continuesNumber text) :
    EndsBefore Decimal.isDigit text := by
  intro c hc
  have hall := h c hc
  simp only [continuesNumber, Bool.or_eq_false_iff] at hall
  exact hall.1.1.1

/-- Digits are read up to the first character that is none. -/
theorem readDigits_append {digits rest : List Char} (hne : digits ≠ [])
    (h : ∀ c ∈ digits, Decimal.isDigit c = true) (hrest : EndsBefore Decimal.isDigit rest) :
    readDigits (digits ++ rest) = some (digits, rest) := by
  simp only [readDigits, takeWhile_append h hrest, dropWhile_append h hrest, if_neg hne]

/-- The digits of a number are read before the point. -/
theorem readWhole_digits (n : Nat) {rest : List Char} (hrest : EndsBefore Decimal.isDigit rest) :
    readWhole (Decimal.digits n ++ rest) = some (Decimal.digits n, rest) := by
  by_cases hzero : n = 0
  · subst hzero
    rw [Decimal.digits, if_pos (by decide)]
    rfl
  · have hread := readDigits_append (Decimal.digits_ne_nil n)
      (fun c ↦ Decimal.isDigit_of_mem_digits) hrest
    obtain ⟨c, digits, htext, -⟩ := Decimal.exists_digits_eq_cons n
    have hc : c ≠ '0' := by
      rintro rfl
      exact hzero (Decimal.eq_zero_of_head?_digits (by rw [htext, List.head?_cons]))
    rw [htext, List.cons_append] at hread ⊢
    rw [readWhole]
    · exact hread
    · intro tail htail
      exact absurd (List.cons.inj htail).1 hc

namespace Numeral

variable (n : Numeral) {rest : List Char}

/-- The point of a number and the digits after it, if there are any. -/
def pointText : List Char := if n.places = 0 then [] else '.' :: n.fraction

/-- The exponent of a number with its letter, if there is one. -/
def exponentText : List Char :=
  match n.exponent with
  | none => []
  | some exponent => 'e' :: Decimal.signedDigits exponent

/-- A number is written as its sign, its digits before and after the point, and its exponent. -/
theorem print_eq :
    n.print = (if n.negative then ['-'] else []) ++ n.whole ++ n.pointText ++ n.exponentText := rfl

/-- A number begins with its sign or with a digit. -/
theorem exists_print_eq_cons :
    ∃ c rest, n.print = c :: rest ∧ (c = '-' ∨ Decimal.isDigit c = true) := by
  rw [print_eq, whole]
  split
  · exact ⟨'-', _, rfl, .inl rfl⟩
  · obtain ⟨c, digits, htext, hc⟩ := Decimal.exists_digits_eq_cons (n.digits / Nat.pow 10 n.places)
    rw [htext]
    exact ⟨c, _, rfl, .inr hc⟩

/-- The digits before and after the point are those of the number. -/
theorem value_whole_fraction :
    Decimal.value (n.whole ++ n.fraction) = n.digits ∧ n.fraction.length = n.places := by
  have hpos : 0 < 10 ^ n.places := Nat.pow_pos (by decide)
  have hlt : n.digits % 10 ^ n.places < 10 ^ n.places := Nat.mod_lt _ hpos
  have hwhole : n.whole = Decimal.digits (n.digits / 10 ^ n.places) := rfl
  rw [hwhole, Decimal.value_append, Decimal.value_digits, Numeral.fraction]
  split
  · next hplaces => simp [hplaces, Decimal.value]
  · next hplaces =>
    have hlength : (Decimal.padded n.places (n.digits % 10 ^ n.places)).length = n.places :=
      Decimal.length_padded (Nat.pos_of_ne_zero hplaces) hlt
    show _ * 10 ^ (Decimal.padded n.places (n.digits % 10 ^ n.places)).length +
      Decimal.value (Decimal.padded n.places (n.digits % 10 ^ n.places)) = _ ∧ _
    rw [hlength, Decimal.value_padded]
    exact ⟨Nat.div_add_mod' _ _, hlength⟩

/-- What is written of an exponent goes on neither with digits nor with a point. -/
theorem endsBefore_exponentText (hrest : EndsBefore continuesNumber rest) :
    EndsBefore (fun c ↦ Decimal.isDigit c || c == '.') (n.exponentText ++ rest) := by
  intro c hc
  rw [exponentText] at hc
  split at hc
  · have hall := hrest c hc
    simp only [continuesNumber, Bool.or_eq_false_iff] at hall ⊢
    exact hall.1.1
  · cases hc
    decide

/-- What is written of the digits after the point does not go on with digits. -/
theorem endsBefore_pointText (hrest : EndsBefore Decimal.isDigit rest) :
    EndsBefore Decimal.isDigit (n.pointText ++ rest) := by
  rw [pointText]
  split
  · exact hrest
  · exact endsBefore_cons rfl

end Numeral

/-- A fraction is read from what is written for it, and none if there is none. -/
theorem readFraction_pointText (n : Numeral) {rest : List Char}
    (hrest : EndsBefore (fun c ↦ Decimal.isDigit c || c == '.') rest) :
    readFraction (n.pointText ++ rest) = some (n.fraction, rest) := by
  rw [Numeral.pointText, Numeral.fraction]
  split
  · rw [List.nil_append, readFraction]
    rintro tail rfl
    exact absurd (hrest '.' rfl) (by decide)
  · rw [List.cons_append, readFraction]
    refine readDigits_append (Decimal.padded_ne_nil _ _)
      (fun c ↦ Decimal.isDigit_of_mem_padded) fun c hc ↦ ?_
    have hall := hrest c hc
    simp only [Bool.or_eq_false_iff] at hall
    exact hall.1

/-- The sign of an exponent is read, if there is one. -/
theorem readExponentSign_signedDigits (exponent : Int) (rest : List Char) :
    readExponentSign (Decimal.signedDigits exponent ++ rest) =
      (decide (exponent < 0), Decimal.digits exponent.natAbs ++ rest) := by
  rw [Decimal.signedDigits]
  split
  · next hneg => simp [readExponentSign, hneg]
  · next hneg =>
    obtain ⟨c, digits, htext, hc⟩ := Decimal.exists_digits_eq_cons exponent.natAbs
    rw [htext, List.cons_append, readExponentSign]
    · simp [hneg]
    -- The digit is no sign.
    all_goals
      intro tail htail
      rw [(List.cons.inj htail).1] at hc
      cases hc

/-- An exponent is read from what is written for it, and none if there is none. -/
theorem readExponent_exponentText (n : Numeral) {rest : List Char}
    (hrest : EndsBefore continuesNumber rest) :
    readExponent (n.exponentText ++ rest) = some (n.exponent, rest) := by
  rw [Numeral.exponentText]
  split
  · next hnone =>
    rw [hnone, List.nil_append]
    cases rest with
    | nil => rfl
    | cons c rest =>
        have hc := hrest c rfl
        simp only [continuesNumber, Bool.or_eq_false_iff, beq_eq_false_iff_ne] at hc
        rw [readExponent, if_neg (not_or.2 ⟨hc.1.2, hc.2⟩)]
  · next exponent hsome =>
    rw [hsome, List.cons_append, readExponent, if_pos (.inl rfl), readExponentSign_signedDigits]
    simp only [readDigits_append (Decimal.digits_ne_nil _)
      (fun c ↦ Decimal.isDigit_of_mem_digits) (endsBefore_digit hrest), Decimal.value_digits,
      Option.bind_eq_bind, Option.bind_some, decide_eq_true_eq, Option.some.injEq,
      Prod.mk.injEq, and_true]
    split <;> omega

/-- A number without its sign is read from what is written for it. -/
theorem readUnsigned_print (n : Numeral) {rest : List Char}
    (hrest : EndsBefore continuesNumber rest) :
    readUnsigned n.negative (n.whole ++ (n.pointText ++ (n.exponentText ++ rest))) =
      some (n, rest) := by
  have hexponent := n.endsBefore_exponentText hrest
  have hdigits : EndsBefore Decimal.isDigit (n.exponentText ++ rest) := fun c hc ↦
    (Bool.or_eq_false_iff.1 (hexponent c hc)).1
  obtain ⟨hvalue, hplaces⟩ := n.value_whole_fraction
  rw [readUnsigned, Numeral.whole, readWhole_digits _ (n.endsBefore_pointText hdigits)]
  simp only [Option.bind_eq_bind, Option.bind_some, readFraction_pointText n hexponent,
    readExponent_exponentText n hrest, hplaces]
  rw [← Numeral.whole, hvalue]

/-- A number is read from what is written for it, if what follows does not go on with it. -/
theorem readNumeral_print (n : Numeral) {rest : List Char}
    (hrest : EndsBefore continuesNumber rest) : readNumeral (n.print ++ rest) = some (n, rest) := by
  have hread := readUnsigned_print n hrest
  rw [n.print_eq]
  simp only [List.append_assoc]
  split
  · next hnegative =>
    rw [hnegative] at hread
    exact hread
  · next hpositive =>
    obtain ⟨c, digits, htext, hc⟩ := Decimal.exists_digits_eq_cons (n.digits / Nat.pow 10 n.places)
    rw [Bool.eq_false_of_not_eq_true hpositive, Numeral.whole, htext, List.cons_append] at hread
    rw [Numeral.whole, htext, List.nil_append, List.cons_append, readNumeral]
    · exact hread
    · intro tail htail
      rw [(List.cons.inj htail).1] at hc
      cases hc

end SigningKeys.Json
