import SigningKeys.Proofs.Key.Armour
import SigningKeys.Proofs.Key.PrivateText

/-!
# Key texts that were cut or extended

The text of a key is one value and nothing else, so no part of it from its beginning is the text of
a key, and neither is a longer text that begins with it. The main statement,
`altered_texts_refused`, says this of both halves of a key, wherever in the groups of symbols the
cut is made and whatever is added that is not blank.
-/

namespace SigningKeys

open Der Text

/-! ## Blanks after an addition -/

namespace Text

variable {text added : List Char}

/-- An addition that is not blank keeps some of its characters. -/
theorem trimEnd_ne_nil (h : ¬ IsBlankText added) : trimEnd added ≠ [] := by
  intro hnil
  refine h fun c hmem ↦ ?_
  have hblank := List.dropWhile_eq_nil_iff.1 (List.reverse_eq_nil_iff.1 hnil)
  exact hblank c (List.mem_reverse.2 hmem)

/-- Of a text without blanks and an addition, only the end of the addition is removed. -/
theorem trim_append_of_clear (hne : text ≠ []) (hclear : ∀ c ∈ text, isBlank c = false)
    (hadded : ¬ IsBlankText added) : trim (text ++ added) = text ++ trimEnd added := by
  have hstart : trimStart (text ++ added) = text ++ added := by
    cases text with
    | nil => exact absurd rfl hne
    | cons c rest => simp [trimStart, hclear c]
  have hkept : (added.reverse.dropWhile isBlank).isEmpty = false := by
    have hend := trimEnd_ne_nil hadded
    simpa [trimEnd] using hend
  rw [trim, hstart, trimEnd, List.reverse_append, List.dropWhile_append, hkept]
  simp [trimEnd]

end Text

/-! ## Altered texts -/

/-- The text differs from the other by a cut or by an addition at its end. -/
inductive Alters (text : String) : String → Prop where
  | cut (kept lost : List Char) :
      text.toList = kept ++ lost →
      lost ≠ [] →
      Alters text (.ofList kept)
  | extended (added : List Char) :
      ¬ IsBlankText added →
      Alters text (.ofList (text.toList ++ added))

/-- The symbols of a part of one sequence are not those of one sequence. -/
theorem isSequence_of_cut {bytes found : List UInt8} {kept lost : List Char}
    (hsequence : isSequence bytes = true) (htext : Base64.encode bytes = kept ++ lost)
    (hlost : lost ≠ []) (hfound : Base64.decode kept = some found) : isSequence found = false := by
  rw [Bool.eq_false_iff]
  intro hother
  -- What is kept is the text of what is read from it, so the whole text begins with that.
  have hwhole := Base64.decode_encode bytes
  rw [htext, ← Base64.encode_of_decode hfound] at hwhole
  obtain ⟨rest, hrest, rfl⟩ := Base64.exists_ne_nil_of_decode hlost hwhole
  exact hrest (eq_nil_of_isSequence_append hother hsequence)

/-- The symbols of one sequence and more are not those of one sequence. -/
theorem isSequence_of_extended {bytes found : List UInt8} {more : List Char}
    (hsequence : isSequence bytes = true) (hmore : more ≠ [])
    (hfound : Base64.decode (Base64.encode bytes ++ more) = some found) :
    isSequence found = false := by
  rw [Bool.eq_false_iff]
  intro hother
  obtain ⟨rest, hrest, rfl⟩ := Base64.exists_ne_nil_of_decode hmore hfound
  exact hrest (eq_nil_of_isSequence_append hsequence hother)

/-- An altered text of one sequence does not stand for one sequence. -/
theorem Alters.isSequence_eq_false {bytes found : List UInt8} {altered : String}
    (h : Alters (.ofList (Base64.encode bytes)) altered) (hsequence : isSequence bytes = true)
    (hfound : keyBytes altered = .ok found) : isSequence found = false := by
  have hclear : ∀ c ∈ Base64.encode bytes, isBlank c = false ∧ c ≠ '-' :=
    fun c hmem ↦ (Base64.isWritten_of_mem_encode hmem).clear
  cases h with
  | cut kept lost htext hlost =>
      rw [String.toList_ofList] at htext
      have hkept : ∀ c ∈ kept, isBlank c = false ∧ c ≠ '-' := by
        intro c hmem
        refine hclear c ?_
        rw [htext]
        exact List.mem_append_left lost hmem
      have htrim : trim kept = kept := trim_eq_self fun c hmem ↦ (hkept c hmem).1
      have hhead : kept.head? ≠ some '-' := by
        intro heq
        exact (hkept '-' (List.mem_of_mem_head? heq)).2 rfl
      exact isSequence_of_cut hsequence htext hlost ((keyBytes_eq_ok_iff htrim hhead).1 hfound).2
  | extended added hadded =>
      rw [String.toList_ofList] at hfound
      have hne : Base64.encode bytes ≠ [] := by
        refine Base64.encode_ne_nil ?_
        rintro rfl
        cases hsequence
      have htrim := trim_append_of_clear hne (fun c hmem ↦ (hclear c hmem).1) hadded
      have hhead : (Base64.encode bytes ++ trimEnd added).head? ≠ some '-' := by
        intro heq
        obtain ⟨c, rest, hcons⟩ := List.exists_cons_of_ne_nil hne
        rw [hcons] at heq
        cases heq
        exact (hclear '-' (by simp [hcons])).2 rfl
      exact isSequence_of_extended hsequence (trimEnd_ne_nil hadded)
        ((keyBytes_eq_ok_iff htrim hhead).1 hfound).2

/-! ## Reading -/

/-- Reading fails for every kind of key, with the error that there is no such key. -/
def IsRefused {α : Type} (read : Algorithm → Except Error α) : Prop :=
  ∀ algorithm, ∃ reason, read algorithm = .error (.ofKey algorithm reason)

/-- An altered text of one sequence is refused by any reader that refuses what is not one
sequence. -/
theorem Alters.isRefused {α : Type} {bytes : List UInt8} {altered : String}
    (h : Alters (.ofList (Base64.encode bytes)) altered) (hsequence : isSequence bytes = true)
    {read : Algorithm → List UInt8 → Option α}
    (hread : ∀ algorithm found, isSequence found = false → read algorithm found = none)
    (fault : KeyPart) :
    IsRefused fun algorithm ↦ readKeyText altered algorithm fault (read algorithm) := by
  intro algorithm
  refine readKeyText_refuses (fun found hfound ↦ ?_) algorithm fault
  exact hread algorithm found (h.isSequence_eq_false hsequence hfound)

/-- A public key is written as one sequence. -/
theorem PublicKey.isSequence_bytes {key : PublicKey} {bytes : List UInt8}
    (h : key.bytes = .ok bytes) : isSequence bytes = true :=
  isSequence_of_sequence? (bytes_eq_ok_iff.1 h)

/-- A private key is written as one sequence. -/
theorem PrivateKey.isSequence_bytes {key : PrivateKey} {bytes : List UInt8}
    (h : key.bytes = .ok bytes) : isSequence bytes = true := by
  obtain ⟨inner, -, henvelope⟩ := bytes_eq_ok_iff.1 h
  exact isSequence_of_sequence? henvelope

/-- A text that differs from what is written for a key by a cut or by an addition that is not blank
is refused in every way in which that half of a key is read. -/
theorem altered_texts_refused :
    (∀ (key : PublicKey) (text : String), key.encode = .ok text → ∀ altered, Alters text altered →
      IsRefused (PublicKey.decode altered) ∧ IsRefused (PublicKey.detect altered)) ∧
    ∀ (key : PrivateKey) (text : String), key.encode = .ok text → ∀ altered, Alters text altered →
      IsRefused (PrivateKey.decode altered) ∧ IsRefused (PrivateKey.detect altered) := by
  constructor
  · intro key text htext altered h
    obtain ⟨bytes, hbytes, rfl⟩ := writeKeyText_eq_ok_iff.1 htext
    have hsequence := PublicKey.isSequence_bytes hbytes
    refine ⟨h.isRefused hsequence (fun algorithm found hfound ↦ ?_) .numbers,
      h.isRefused hsequence (fun algorithm found hfound ↦ ?_) .layout⟩
    · simp [PublicEnvelope.read?_eq_none hfound]
    · simp [PublicEnvelope.read?_eq_none hfound]
  · intro key text htext altered h
    obtain ⟨bytes, hbytes, rfl⟩ := writeKeyText_eq_ok_iff.1 htext
    have hsequence := PrivateKey.isSequence_bytes hbytes
    refine ⟨h.isRefused hsequence (fun algorithm found hfound ↦ ?_) .numbers,
      h.isRefused hsequence (fun algorithm found hfound ↦ ?_) .layout⟩
    · simp [PrivateEnvelope.read?_eq_none hfound]
    · simp [PrivateEnvelope.read?_eq_none hfound]

/-- The texts of the small key are read, but neither is the public one when it is cut after six
groups of symbols, nor the private one with one more group. -/
theorem altered_texts_refused_small :
    let key := PrivateKey.rsa smallKey
    let half := String.ofList (smallPublicText.toList.take 24)
    let longer := String.ofList (smallPrivateText.toList ++ "AAAA".toList)
    key.publicKey.encode = .ok smallPublicText ∧
      PublicKey.decode smallPublicText .rsa = .ok key.publicKey ∧ Alters smallPublicText half ∧
      IsRefused (PublicKey.decode half) ∧ IsRefused (PublicKey.detect half) ∧
      key.encode = .ok smallPrivateText ∧ PrivateKey.decode smallPrivateText .rsa = .ok key ∧
      Alters smallPrivateText longer ∧
      IsRefused (PrivateKey.decode longer) ∧ IsRefused (PrivateKey.detect longer) := by
  intro key half longer
  have hpublic : key.publicKey.encode = .ok smallPublicText := by decide +kernel
  have hread : PublicKey.decode smallPublicText .rsa = .ok key.publicKey := by decide +kernel
  have hprivate := PrivateKey.encode_smallKey
  have hcut : Alters smallPublicText half :=
    .cut _ _ (List.take_append_drop 24 smallPublicText.toList).symm (by decide)
  have hextended : Alters smallPrivateText longer := .extended _ (by decide)
  obtain ⟨hhalf, hlonger⟩ := altered_texts_refused
  obtain ⟨hdecode, hdetect⟩ := hhalf key.publicKey smallPublicText hpublic half hcut
  exact ⟨hpublic, hread, hcut, hdecode, hdetect, hprivate, PrivateKey.decode_encode hprivate,
    hextended, hlonger key smallPrivateText hprivate longer hextended⟩

end SigningKeys
