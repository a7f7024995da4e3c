import Mathlib.Data.List.TakeWhile
import SigningKeys.Proofs.Toml.Text
import SigningKeys.Toml.Token

/-!
# Integers in documents

How an integer may be written (`SpellsInteger`): in decimal digits with or without a sign, or in
another base after its mark, with underscores between digits. However it is written, it is read as
this integer and as nothing else (`valueOfToken?_of_spellsInteger`). The digits that this program
writes itself are one way (`spellsInteger_signedDigits`).
-/

namespace SigningKeys.Toml

open Text

/-- Digits, perhaps with an underscore between two of them. -/
inductive SpellsDigits (isDigit : Char → Bool) : List Char → List Char → Prop where
  | last (c) :
      isDigit c = true →
      SpellsDigits isDigit [c] [c]
  | next (c digits written) :
      isDigit c = true →
      SpellsDigits isDigit digits written →
      SpellsDigits isDigit (c :: digits) (c :: written)
  | gap (c digits written) :
      isDigit c = true →
      SpellsDigits isDigit digits written →
      SpellsDigits isDigit (c :: digits) (c :: '_' :: written)

/-- A natural number in decimal digits, of which the first is no zero unless it is the only one. -/
inductive SpellsNatural : Nat → List Char → Prop where
  | digits (digits written) :
      SpellsDigits Decimal.isDigit digits written →
      (digits.head? = some '0' → digits.length = 1) →
      SpellsNatural (Decimal.value digits) written

/-- The bases other than ten, with their marks. -/
def markedBases : List (Char × Nat) := [('x', 16), ('o', 8), ('b', 2)]

/-- What may be written for an integer. -/
inductive SpellsInteger : Int → List Char → Prop where
  | unsigned (n : Nat) (written) :
      SpellsNatural n written →
      SpellsInteger n written
  | plus (n : Nat) (written) :
      SpellsNatural n written →
      SpellsInteger n ('+' :: written)
  | minus (n : Nat) (written) :
      SpellsNatural n written →
      SpellsInteger (-n) ('-' :: written)
  | based (mark base digits written) :
      (mark, base) ∈ markedBases →
      SpellsDigits (isDigitOf base) digits written →
      SpellsInteger (numberOf base digits) ('0' :: mark :: written)

variable {isDigit : Char → Bool} {c mark : Char} {n : Int} {digits written token rest : List Char}

/-! ## Digits -/

/-- What is written for digits begins with a digit. -/
theorem SpellsDigits.exists_cons (h : SpellsDigits isDigit digits written) :
    ∃ c rest, written = c :: rest ∧ isDigit c = true := by
  cases h with
  | last c hc => exact ⟨c, [], rfl, hc⟩
  | next c digits written hc => exact ⟨c, written, rfl, hc⟩
  | gap c digits written hc => exact ⟨c, '_' :: written, rfl, hc⟩

/-- What is written for digits are digits and underscores. -/
theorem SpellsDigits.isDigit_or (h : SpellsDigits isDigit digits written) :
    ∀ c ∈ written, isDigit c = true ∨ c = '_' := by
  induction h with
  | last c hc => exact List.forall_mem_singleton.2 (.inl hc)
  | next c digits written hc _ ih => exact List.forall_mem_cons.2 ⟨.inl hc, ih⟩
  | gap c digits written hc _ ih =>
      exact List.forall_mem_cons.2 ⟨.inl hc, List.forall_mem_cons.2 ⟨.inr rfl, ih⟩⟩

/-- The digits are found when an underscore is none of them. -/
theorem SpellsDigits.ungroup? (hunderscore : isDigit '_' = false)
    (h : SpellsDigits isDigit digits written) : ungroup? isDigit written = some digits := by
  induction h with
  | last c hc =>
      rw [Toml.ungroup?, if_pos hc]
  | next c digits written hc hdigits ih =>
      obtain ⟨next, rest, rfl, hnext⟩ := hdigits.exists_cons
      rw [Toml.ungroup?, if_pos hc, ih]
      · rfl
      · intro hnil
        cases hnil
      · intro text htext
        cases htext
        exact Bool.false_ne_true (hunderscore.symm.trans hnext)
  | gap c digits written hc hdigits ih =>
      rw [Toml.ungroup?, if_pos hc, ih]
      rfl

/-- Nothing is read that begins with something else. -/
theorem ungroup?_eq_none (h : isDigit c = false) : ungroup? isDigit (c :: rest) = none := by
  unfold ungroup?
  split
  · rfl
  all_goals
    next htext =>
      cases htext
      rw [h]
      exact if_neg Bool.false_ne_true

/-- Nothing is read in which a character after the first is something else. -/
theorem ungroup?_cons_eq_none (hmark : isDigit mark = false) (hne : mark ≠ '_') :
    ungroup? isDigit (c :: mark :: rest) = none := by
  rw [ungroup?, ungroup?_eq_none hmark]
  · exact ite_self none
  · intro hnil
    cases hnil
  · intro text htext
    cases htext
    exact hne rfl

/-! ## Characters -/

/-- Digits of any base are letters or figures. -/
theorem isAlphanum_of_hexValue? {value : Nat} (h : hexValue? c = some value) :
    c.isAlphanum = true := by
  have hrange := range_of_hexValue? h
  simp only [Char.le_def] at hrange
  delta Char.isAlphanum Char.isAlpha Char.isUpper Char.isLower Char.isDigit
  simp only [Bool.or_eq_true, Bool.and_eq_true, decide_eq_true_eq, ge_iff_le]
  rcases hrange with hfigure | ⟨hlow, hhigh⟩ | ⟨hlow, hhigh⟩
  · exact .inr hfigure
  · exact .inl (.inr ⟨hlow, UInt32.le_trans hhigh (by decide)⟩)
  · exact .inl (.inl ⟨hlow, UInt32.le_trans hhigh (by decide)⟩)

/-- Decimal digits are figures. -/
theorem isAlphanum_of_isDigit (h : Decimal.isDigit c = true) : c.isAlphanum = true := by
  rw [Decimal.isDigit, Bool.and_eq_true, decide_eq_true_eq, decide_eq_true_eq] at h
  have hvalue : hexValue? c = some (c.toNat - '0'.toNat) := if_pos h
  exact isAlphanum_of_hexValue? hvalue

/-- Digits of a base are letters or figures. -/
theorem isAlphanum_of_isDigitOf {base : Nat} (h : isDigitOf base c = true) :
    c.isAlphanum = true := by
  rw [isDigitOf, Option.any_eq_true] at h
  obtain ⟨value, hvalue, -⟩ := h
  exact isAlphanum_of_hexValue? hvalue

/-- The character stands in integers after the first character: it is a letter, a figure or an
underscore. -/
def isInner (c : Char) : Bool := c.isAlphanum || c == '_'

/-- What is written for digits are letters, figures and underscores. -/
theorem SpellsDigits.isInner (hdigit : ∀ c, isDigit c = true → c.isAlphanum = true)
    (h : SpellsDigits isDigit digits written) : ∀ c ∈ written, isInner c = true := by
  intro c hc
  rw [Toml.isInner, Bool.or_eq_true, beq_iff_eq]
  exact (h.isDigit_or c hc).imp_left (hdigit c)

/-- A natural number begins with a figure. -/
theorem SpellsNatural.exists_cons {n : Nat} (h : SpellsNatural n written) :
    ∃ c rest, written = c :: rest ∧ Decimal.isDigit c = true := by
  cases h with
  | digits digits written hdigits => exact hdigits.exists_cons

/-- A natural number is written with figures and underscores. -/
theorem SpellsNatural.isDigit_or {n : Nat} (h : SpellsNatural n written) :
    ∀ c ∈ written, Decimal.isDigit c = true ∨ c = '_' := by
  cases h with
  | digits digits written hdigits => exact hdigits.isDigit_or

/-- A natural number is written with letters, figures and underscores. -/
theorem SpellsNatural.isInner {n : Nat} (h : SpellsNatural n written) :
    ∀ c ∈ written, isInner c = true := by
  cases h with
  | digits digits written hdigits => exact hdigits.isInner fun c ↦ isAlphanum_of_isDigit

/-- The marks of bases are letters that are no decimal digits and begin no exponent. -/
theorem of_mem_markedBases {base : Nat} (h : (mark, base) ∈ markedBases) :
    mark.isAlphanum = true ∧ Decimal.isDigit mark = false ∧ isExponentMark mark = false ∧
      mark ≠ '.' ∧ mark ≠ '_' := by
  have hall : ∀ entry ∈ markedBases, entry.1.isAlphanum = true ∧
      Decimal.isDigit entry.1 = false ∧ isExponentMark entry.1 = false ∧ entry.1 ≠ '.' ∧
        entry.1 ≠ '_' := by decide
  exact hall _ h

/-- An integer begins with a figure or a sign, after which there are letters, figures and
underscores. -/
theorem SpellsInteger.exists_cons (h : SpellsInteger n token) :
    ∃ c rest, token = c :: rest ∧ (Decimal.isDigit c = true ∨ c = '+' ∨ c = '-') ∧
      ∀ c ∈ rest, isInner c = true := by
  cases h with
  | unsigned n written hnatural =>
      obtain ⟨c, rest, rfl, hc⟩ := hnatural.exists_cons
      exact ⟨c, rest, rfl, .inl hc, (List.forall_mem_cons.1 hnatural.isInner).2⟩
  | plus n written hnatural => exact ⟨_, _, rfl, .inr (.inl rfl), hnatural.isInner⟩
  | minus n written hnatural => exact ⟨_, _, rfl, .inr (.inr rfl), hnatural.isInner⟩
  | based mark base digits written hbase hdigits =>
      have hmark : Toml.isInner mark = true := by
        rw [Toml.isInner, (of_mem_markedBases hbase).1, Bool.true_or]
      exact ⟨_, _, rfl, .inl rfl, List.forall_mem_cons.2
        ⟨hmark, hdigits.isInner fun c ↦ isAlphanum_of_isDigitOf⟩⟩

/-! ## No other value -/

/-- A date has a hyphen after its first character. -/
theorem afterDate?_eq_none (h : ∀ c ∈ rest, isInner c = true) : afterDate? (c :: rest) = none := by
  unfold afterDate?
  split
  · next heq =>
      cases heq
      have hhyphen := h '-' (by simp)
      exact absurd hhyphen (by decide)
  · rfl

/-- A time has a colon after its first character. -/
theorem afterTime?_eq_none (h : ∀ c ∈ rest, isInner c = true) : afterTime? (c :: rest) = none := by
  unfold afterTime?
  split
  · next heq =>
      cases heq
      have hcolon := h ':' (by simp)
      exact absurd hcolon (by decide)
  · rfl

/-- An integer is no date and no time. -/
theorem SpellsInteger.not_moment (h : SpellsInteger n token) :
    isDate token = false ∧ isMoment token = false := by
  obtain ⟨c, rest, rfl, -, hrest⟩ := h.exists_cons
  have hdate := afterDate?_eq_none (c := c) hrest
  have htime := afterTime?_eq_none (c := c) hrest
  simp [isMoment, isDate, hdate, htime]

/-- Digits have no sign. -/
theorem splitSign_of_isDigit (h : Decimal.isDigit c = true) :
    splitSign (c :: rest) = (false, c :: rest) := by
  unfold splitSign
  split
  · next heq =>
      cases heq
      exact absurd h (by decide)
  · next heq =>
      cases heq
      exact absurd h (by decide)
  · rfl

/-- The decimal digits of a natural number are read. -/
theorem SpellsNatural.wholeDigits? {n : Nat} (h : SpellsNatural n written) :
    ∃ digits, wholeDigits? written = some digits ∧ Decimal.value digits = n := by
  cases h with
  | digits digits written hdigits hzero =>
      refine ⟨digits, ?_, rfl⟩
      have hread := hdigits.ungroup? (by decide)
      rw [Toml.wholeDigits?, hread]
      exact if_neg fun hlong ↦ hlong.2 (hzero hlong.1)

/-- A natural number with or without a sign is no floating-point number. -/
theorem SpellsNatural.isFloat_eq_false {n : Nat} {negative : Bool} (h : SpellsNatural n written)
    (hsign : splitSign token = (negative, written)) : isFloat token = false := by
  obtain ⟨digits, hdigits, -⟩ := h.wholeDigits?
  obtain ⟨c, rest, hwritten, hc⟩ := h.exists_cons
  have hword : ¬ (written = "inf".toList ∨ written = "nan".toList) := by
    rintro (hinf | hnan)
    · cases hwritten.symm.trans hinf
      exact absurd hc (by decide)
    · cases hwritten.symm.trans hnan
      exact absurd hc (by decide)
  have hchar : ∀ c ∈ written, isExponentMark c = false ∧ c ≠ '.' := by
    intro c hc
    rcases h.isDigit_or c hc with hdigit | rfl
    · refine ⟨?_, ?_⟩
      · rw [isExponentMark, Bool.or_eq_false_iff, beq_eq_false_iff_ne, beq_eq_false_iff_ne]
        constructor
        · rintro rfl
          exact absurd hdigit (by decide)
        · rintro rfl
          exact absurd hdigit (by decide)
      · rintro rfl
        exact absurd hdigit (by decide)
    · decide
  -- There is no exponent and no point, so that the whole number is all there is.
  have hmantissa : written.takeWhile (!isExponentMark ·) = written :=
    List.takeWhile_eq_self_iff.2 fun c hc ↦ by simp [(hchar c hc).1]
  have hwhole : written.takeWhile (· != '.') = written :=
    List.takeWhile_eq_self_iff.2 fun c hc ↦ by simp [(hchar c hc).2]
  simp only [isFloat, hsign, if_neg hword, hmantissa, hwhole, hdigits]
  simp

/-- A number of a marked base is no floating-point number. -/
theorem isFloat_based_eq_false {base : Nat} (h : (mark, base) ∈ markedBases) :
    isFloat ('0' :: mark :: rest) = false := by
  obtain ⟨-, hdigit, hexponent, hpoint, hunderscore⟩ := of_mem_markedBases h
  have hwhole : ∀ text, wholeDigits? ('0' :: mark :: text) = none := by
    intro text
    rw [wholeDigits?, ungroup?_cons_eq_none hdigit hunderscore]
    rfl
  have hmarkedExponent : isExponentMark '0' = false := by decide
  simp [isFloat, splitSign, hmarkedExponent, hexponent, hpoint, hwhole]

/-- An integer is no floating-point number. -/
theorem SpellsInteger.isFloat_eq_false (h : SpellsInteger n token) : isFloat token = false := by
  cases h with
  | unsigned n written hnatural =>
      obtain ⟨c, rest, rfl, hc⟩ := hnatural.exists_cons
      exact hnatural.isFloat_eq_false (splitSign_of_isDigit hc)
  | plus n written hnatural => exact hnatural.isFloat_eq_false rfl
  | minus n written hnatural => exact hnatural.isFloat_eq_false rfl
  | based mark base digits written hbase => exact isFloat_based_eq_false hbase

/-! ## Reading -/

/-- The number is found that a natural number with or without a sign stands for. -/
theorem SpellsNatural.integerOf? {n : Nat} (negative : Bool) (h : SpellsNatural n written)
    (hsign : splitSign token = (negative, written))
    (hfit : Word.isSigned (if negative then -(n : Int) else n) = true) :
    integerOf? token = some (if negative then -(n : Int) else n) := by
  obtain ⟨digits, hdigits, hvalue⟩ := h.wholeDigits?
  have hunmarked : ∀ mark rest, token = '0' :: mark :: rest →
      Decimal.isDigit mark = true ∨ mark = '_' := by
    rintro mark rest rfl
    cases hsign
    exact h.isDigit_or mark (by simp)
  unfold Toml.integerOf?
  split
  · exact absurd (hunmarked 'x' _ rfl) (by decide)
  · exact absurd (hunmarked 'o' _ rfl) (by decide)
  · exact absurd (hunmarked 'b' _ rfl) (by decide)
  · simp only [hsign, hdigits, hvalue, Option.bind_eq_bind, Option.bind_some, if_pos hfit]

/-- The number is found that digits of a marked base stand for. -/
theorem integerOf?_based {base : Nat} (hbase : (mark, base) ∈ markedBases)
    (hdigits : SpellsDigits (isDigitOf base) digits written)
    (hfit : Word.isSigned (numberOf base digits) = true) :
    integerOf? ('0' :: mark :: written) = some (numberOf base digits : Int) := by
  have hunderscore : isDigitOf base '_' = false := by
    have hvalue : hexValue? '_' = none := by decide
    rw [isDigitOf, hvalue, Option.any_none]
  have hnumber : basedNumber? base written = some (numberOf base digits : Int) := by
    rw [basedNumber?, hdigits.ungroup? hunderscore, Option.map_some]
  have hread : integerOf? ('0' :: mark :: written) =
      (basedNumber? base written).bind fun n ↦ if Word.isSigned n then some n else none := by
    simp only [markedBases, List.mem_cons, List.not_mem_nil, or_false, Prod.mk.injEq] at hbase
    rcases hbase with ⟨rfl, rfl⟩ | ⟨rfl, rfl⟩ | ⟨rfl, rfl⟩ <;> rfl
  rw [hread, hnumber, Option.bind_some, if_pos hfit]

/-- An integer of 64 bits is found, however it is written. -/
theorem SpellsInteger.integerOf? (h : SpellsInteger n token) (hfit : Word.isSigned n = true) :
    integerOf? token = some n := by
  cases h with
  | unsigned n written hnatural =>
      obtain ⟨c, rest, rfl, hc⟩ := hnatural.exists_cons
      exact hnatural.integerOf? false (splitSign_of_isDigit hc) hfit
  | plus n written hnatural => exact hnatural.integerOf? false rfl hfit
  | minus n written hnatural => exact hnatural.integerOf? true rfl hfit
  | based mark base digits written hbase hdigits => exact integerOf?_based hbase hdigits hfit

/-- An integer of 64 bits is read as this integer, however it is written. -/
theorem valueOfToken?_of_spellsInteger (h : SpellsInteger n token)
    (hfit : Word.isSigned n = true) : valueOfToken? token = some (.integer n) := by
  obtain ⟨c, rest, htoken, hc, -⟩ := h.exists_cons
  have hword (first rest') (hfirst : ¬ (Decimal.isDigit first = true ∨ first = '+' ∨ first = '-')) :
      token ≠ first :: rest' := by
    rintro rfl
    cases htoken
    exact hfirst hc
  have htrue : token ≠ "true".toList := hword 't' ['r', 'u', 'e'] (by decide)
  have hfalse : token ≠ "false".toList := hword 'f' ['a', 'l', 's', 'e'] (by decide)
  rw [valueOfToken?, if_neg htrue, if_neg hfalse, if_neg (by simp [h.not_moment.2]),
    if_neg (by simp [h.isFloat_eq_false]), h.integerOf? hfit, Option.map_some]

/-! ## One way to write an integer -/

/-- Digits are written without underscores. -/
theorem spellsDigits_self (hne : digits ≠ []) (h : ∀ c ∈ digits, isDigit c = true) :
    SpellsDigits isDigit digits digits := by
  induction digits with
  | nil => exact absurd rfl hne
  | cons c digits ih =>
      obtain ⟨hc, hdigits⟩ := List.forall_mem_cons.1 h
      by_cases hnil : digits = []
      · subst hnil
        exact .last c hc
      · exact .next c digits digits hc (ih hnil hdigits)

/-- A natural number is written in its digits. -/
theorem spellsNatural_digits (n : Nat) : SpellsNatural n (Decimal.digits n) := by
  have hdigits := spellsDigits_self (Decimal.digits_ne_nil n) fun c ↦ Decimal.isDigit_of_mem_digits
  have hzero (h : (Decimal.digits n).head? = some '0') : (Decimal.digits n).length = 1 := by
    rw [Decimal.eq_zero_of_head?_digits h, Decimal.digits, if_pos (by decide)]
    rfl
  have hspells := SpellsNatural.digits _ _ hdigits hzero
  rwa [Decimal.value_digits] at hspells

/-- An integer is written in its digits, with a minus sign if it is negative. -/
theorem spellsInteger_signedDigits (n : Int) : SpellsInteger n (Decimal.signedDigits n) := by
  have hspells := spellsNatural_digits n.natAbs
  rw [Decimal.signedDigits]
  split
  · next hnegative =>
      have hinteger := SpellsInteger.minus _ _ hspells
      rwa [show -(n.natAbs : Int) = n by omega] at hinteger
  · next hnonnegative =>
      have hinteger := SpellsInteger.unsigned _ _ hspells
      rwa [show (n.natAbs : Int) = n by omega] at hinteger

end SigningKeys.Toml
