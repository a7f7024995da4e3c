import Mathlib.Data.List.TakeWhile
import SigningKeys.Proofs.Key.PublicText
import SigningKeys.Proofs.Pem

/-!
# The texts of the same bytes

Bytes can be given as base64 or armoured, under any label and with any newline, and with blanks
around the text. The main statement, `Spells.reads_alike`, says that all these texts are read alike,
whatever the bytes are: as the same key, as the same kind of key, or as none (`SameOutcome`).
-/

namespace SigningKeys

open Text

/-! ## Blanks around a text -/

namespace Text

/-- All characters are blank. -/
def IsBlankText (text : List Char) : Prop := ∀ c ∈ text, isBlank c = true

/-- Being blank is decided character by character. -/
instance (text : List Char) : Decidable (IsBlankText text) := List.decidableBAll _ text

variable {before after : List Char}

/-- Blanks around a text do not count when the outer blanks are removed. -/
theorem trim_append (hbefore : IsBlankText before) (hafter : IsBlankText after)
    (text : List Char) : trim (before ++ text ++ after) = trim text := by
  have hstart : trimStart (before ++ text ++ after) = trimStart (text ++ after) := by
    rw [trimStart, List.append_assoc, List.dropWhile_append_of_pos hbefore, trimStart]
  have hend : ∀ kept : List Char, trimEnd (kept ++ after) = trimEnd kept := by
    intro kept
    have hreverse : ∀ c ∈ after.reverse, isBlank c = true :=
      fun c hmem ↦ hafter c (List.mem_reverse.1 hmem)
    rw [trimEnd, List.reverse_append, List.dropWhile_append_of_pos hreverse, trimEnd]
  rw [trim, hstart, trimStart, List.dropWhile_append, trim, trimStart]
  split
  · next hblank =>
    -- A text of blanks only is removed together with the blanks after it.
    rw [List.isEmpty_iff.1 hblank, List.dropWhile_eq_nil_iff.2 hafter]
  · exact hend (text.dropWhile isBlank)

/-- A text between two characters that are not blank has no outer blanks. -/
theorem trim_eq_self_of_ends {first last : Char} (hfirst : isBlank first = false)
    (hlast : isBlank last = false) (middle : List Char) :
    trim (first :: (middle ++ [last])) = first :: (middle ++ [last]) := by
  simp [trim, trimStart, trimEnd, hfirst, hlast]

end Text

/-! ## The bytes of a text -/

/-- The text is one of those that can be given for the bytes: armoured or plain, with blanks around
it. -/
inductive Spells : List UInt8 → String → Prop where
  | armoured (bytes label newline before after) :
      Pem.isLabel label = true →
      IsBlankText before →
      IsBlankText after →
      Spells bytes (.ofList (before ++ Pem.encode label newline bytes ++ after))
  /-- Armour of no bytes may lack the line of symbols, which is empty. -/
  | bare (label newline before after) :
      Pem.isLabel label = true →
      IsBlankText before →
      IsBlankText after →
      Spells [] (.ofList (before ++ Pem.frame label newline [] ++ after))
  | plain (bytes before after) :
      IsBlankText before →
      IsBlankText after →
      Spells bytes (.ofList (before ++ Base64.encode bytes ++ after))

variable {bytes : List UInt8}

/-- Blanks around a text do not change the bytes that it stands for. -/
theorem keyBytes_append {before after : List Char} (hbefore : IsBlankText before)
    (hafter : IsBlankText after) (text : List Char) :
    keyBytes (.ofList (before ++ text ++ after)) = keyBytes (.ofList text) := by
  simp only [keyBytes, String.toList_ofList, trim_append hbefore hafter]

/-- Framed lines begin with the mark of armour. -/
theorem Pem.dropLead?_mark_frame (label : List Char) (newline : Newline)
    (texts : List (List Char)) : (dropLead? mark (frame label newline texts)).isSome = true := by
  have hopening : opening = mark ++ [' '] := by decide
  simp [frame, hopening]

/-- Framed lines begin and end with hyphens, so they have no outer blanks. -/
theorem Pem.trim_frame (label : List Char) (newline : Newline) (texts : List (List Char)) :
    trim (frame label newline texts) = frame label newline texts := by
  obtain ⟨lead, hlead⟩ : ∃ lead, opening = '-' :: lead := ⟨opening.tail, by decide⟩
  obtain ⟨tail, htail⟩ : ∃ tail, dashes = tail ++ ['-'] := ⟨dashes.tail, by decide⟩
  have hends : ∃ middle, frame label newline texts = '-' :: (middle ++ ['-']) := by
    refine ⟨lead ++ label ++ dashes ++ newline.chars ++ texts.flatMap (· ++ newline.chars) ++
      closing ++ label ++ tail, ?_⟩
    simp [frame, hlead, htail]
  obtain ⟨middle, hmiddle⟩ := hends
  rw [hmiddle]
  exact trim_eq_self_of_ends (by decide) (by decide) middle

/-- Framed lines are read as armour. -/
theorem keyBytes_frame (label : List Char) (newline : Newline) (texts : List (List Char)) :
    keyBytes (.ofList (Pem.frame label newline texts)) =
      (Pem.decode (Pem.frame label newline texts)).elim (.error (.malformed .armour))
        fun bytes ↦ if Der.isSequence bytes then .ok bytes else .error (.malformed .armour) := by
  have hmark := Pem.dropLead?_mark_frame label newline texts
  have hne : Pem.frame label newline texts ≠ [] := by
    intro heq
    rw [heq] at hmark
    cases hmark
  simp only [keyBytes, String.toList_ofList, Pem.trim_frame, if_neg hne, if_pos hmark]
  cases Pem.decode (Pem.frame label newline texts) <;> rfl

/-- An armoured text stands for its bytes if they are one sequence, and is refused otherwise. -/
theorem keyBytes_armoured {label : List Char} (h : Pem.isLabel label = true) (newline : Newline)
    (bytes : List UInt8) :
    keyBytes (.ofList (Pem.encode label newline bytes)) =
      if Der.isSequence bytes then .ok bytes else .error (.malformed .armour) := by
  rw [Pem.encode_eq_frame, keyBytes_frame, ← Pem.encode_eq_frame, Pem.decode_encode h,
    Option.elim_some]

/-- Armour without a line of symbols is refused. -/
theorem keyBytes_bare {label : List Char} (h : Pem.isLabel label = true) (newline : Newline) :
    keyBytes (.ofList (Pem.frame label newline [])) = .error (.malformed .armour) := by
  rw [keyBytes_frame, Pem.decode_frame h newline (by simp)]
  rfl

/-- Plain text of no bytes is refused. -/
theorem keyBytes_plain_nil : keyBytes (.ofList (Base64.encode [])) = .error .emptyText := rfl

/-- A text of bytes that are one sequence stands for these bytes. -/
theorem Spells.keyBytes_eq {text : String} (h : Spells bytes text)
    (hsequence : Der.isSequence bytes = true) : keyBytes text = .ok bytes := by
  cases h with
  | armoured _ label newline before after hlabel hbefore hafter =>
      rw [keyBytes_append hbefore hafter, keyBytes_armoured hlabel, if_pos hsequence]
  | bare => cases hsequence
  | plain _ before after hbefore hafter =>
      have hne : bytes ≠ [] := by
        rintro rfl
        cases hsequence
      rw [keyBytes_append hbefore hafter, keyBytes_encode hne]

/-- A text of bytes that are not one sequence stands for no bytes or for these. -/
theorem Spells.keyBytes_cases {text : String} (h : Spells bytes text)
    (hsequence : Der.isSequence bytes = false) :
    (∃ fault, keyBytes text = .error fault) ∨ keyBytes text = .ok bytes := by
  cases h with
  | armoured _ label newline before after hlabel hbefore hafter =>
      rw [keyBytes_append hbefore hafter, keyBytes_armoured hlabel]
      simp [hsequence]
  | bare label newline before after hlabel hbefore hafter =>
      rw [keyBytes_append hbefore hafter, keyBytes_bare hlabel]
      exact .inl ⟨_, rfl⟩
  | plain _ before after hbefore hafter =>
      rw [keyBytes_append hbefore hafter]
      by_cases hnil : bytes = []
      · exact .inl ⟨.emptyText, hnil ▸ keyBytes_plain_nil⟩
      · exact .inr (keyBytes_encode hnil)

/-! ## Reading -/

/-- What is not one sequence is no envelope of a public key. -/
theorem PublicEnvelope.read?_eq_none (h : Der.isSequence bytes = false) : read? bytes = none := by
  have hnone : Der.contentOfSequence? bytes = none := by
    simpa [Der.isSequence] using h
  simp [read?, hnone]

/-- What is not one sequence is no envelope of a private key. -/
theorem PrivateEnvelope.read?_eq_none (h : Der.isSequence bytes = false) : read? bytes = none := by
  have hnone : Der.contentOfSequence? bytes = none := by
    simpa [Der.isSequence] using h
  simp [read?, hnone]

/-- Two readings for a kind of key end alike: with the same result, or both with the error that
there is no such key, perhaps for different reasons. -/
inductive SameOutcome {α : Type} (algorithm : Algorithm) :
    Except Error α → Except Error α → Prop where
  | accepted (result) : SameOutcome algorithm (.ok result) (.ok result)
  | refused (first second) :
      SameOutcome algorithm (.error (.ofKey algorithm first)) (.error (.ofKey algorithm second))

/-- All texts of the same bytes are read alike, by any reader that refuses what is not one
sequence. -/
theorem Spells.readKeyText_sameOutcome {α : Type} {text other : String} (htext : Spells bytes text)
    (hother : Spells bytes other) {read : List UInt8 → Option α}
    (hread : Der.isSequence bytes = false → read bytes = none) (algorithm : Algorithm)
    (fault : KeyPart) :
    SameOutcome algorithm (readKeyText text algorithm fault read)
      (readKeyText other algorithm fault read) := by
  cases hsequence : Der.isSequence bytes with
  | true =>
      simp only [readKeyText, htext.keyBytes_eq hsequence, hother.keyBytes_eq hsequence]
      cases read bytes with
      | some result => exact .accepted result
      | none => exact .refused _ _
  | false =>
      have hrefused : ∀ {text}, Spells bytes text →
          ∃ reason, readKeyText text algorithm fault read = .error (.ofKey algorithm reason) := by
        refine fun {text} h ↦ readKeyText_refuses (fun found hfound ↦ ?_) algorithm fault
        rcases h.keyBytes_cases hsequence with ⟨reason, hbytes⟩ | hbytes
        · cases hbytes.symm.trans hfound
        · cases hbytes.symm.trans hfound
          exact hread hsequence
      obtain ⟨first, hfirst⟩ := hrefused htext
      obtain ⟨second, hsecond⟩ := hrefused hother
      rw [hfirst, hsecond]
      exact .refused first second

end SigningKeys
