import Mathlib.Data.List.DropRight
import SigningKeys.Proofs.Toml.Token
import SigningKeys.Toml.Reader

/-!
# Documents read back

A document of entries that are texts and integers (`SpellsDocument`): an entry stands on a line of
its own, its key with or without quotation marks, with blanks around its parts and perhaps with a
comment; between the entries there may be blank lines and comments. However a document is written,
its entries are read back in their order (`parse_of_spellsDocument`), and there is one for any
entries of these types (`exists_spellsDocument`).
-/

namespace SigningKeys.Toml

open Text

/-- What may be written for a key of one part. -/
inductive SpellsKey (key : List Char) : List Char → Prop where
  | bare :
      key ≠ [] →
      (∀ c ∈ key, isKeyChar c = true) →
      SpellsKey key key
  | basic (raw) :
      SpellsText key raw →
      SpellsKey key ('"' :: (raw ++ ['"']))
  | literal :
      (∀ c ∈ key, isPrintable c = true ∧ c ≠ '\'') →
      SpellsKey key ('\'' :: (key ++ ['\'']))

/-- What may be written for a text on one line, with escapes, or for an integer of 64 bits. -/
inductive SpellsValue : Value → List Char → Prop where
  | text (content raw) :
      SpellsText content raw →
      SpellsValue (.text (.ofList content)) ('"' :: (raw ++ ['"']))
  | integer (n token) :
      Word.isSigned n = true →
      SpellsInteger n token →
      SpellsValue (.integer n) token

/-- Blanks within a line, as many as there may be. -/
def AreBlanks (text : List Char) : Prop := ∀ c ∈ text, isBlank c = true

instance (text : List Char) : Decidable (AreBlanks text) :=
  decidable_of_iff (text.all isBlank = true) List.all_eq_true

/-- What may be written for an entry. -/
inductive SpellsEntry : String × Value → List Char → Prop where
  | intro (before key written between after value item) :
      AreBlanks before →
      SpellsKey key written →
      AreBlanks between →
      AreBlanks after →
      SpellsValue value item →
      SpellsEntry (.ofList key, value) (before ++ (written ++ (between ++ '=' :: (after ++ item))))

/-- What may stand on a line after an entry, or on a line without one. -/
inductive IsTail : List Char → Prop where
  | blanks (blanks) :
      AreBlanks blanks →
      IsTail blanks
  | comment (blanks text) :
      AreBlanks blanks →
      (∀ c ∈ text, isPrintable c = true) →
      IsTail (blanks ++ '#' :: text)

/-- The end of a line that is not the last one. -/
inductive IsNewline : List Char → Prop where
  | feed : IsNewline ['\n']
  | returnAndFeed : IsNewline ['\r', '\n']

/-- A document with these entries, in this order. -/
inductive SpellsDocument : Entries → List Char → Prop where
  | lastBlank (tail) :
      IsTail tail →
      SpellsDocument [] tail
  | lastEntry (entry written tail) :
      SpellsEntry entry written →
      IsTail tail →
      SpellsDocument [entry] (written ++ tail)
  | blank (tail newline entries text) :
      IsTail tail →
      IsNewline newline →
      SpellsDocument entries text →
      SpellsDocument entries (tail ++ (newline ++ text))
  | entry (entry written tail newline entries text) :
      SpellsEntry entry written →
      IsTail tail →
      IsNewline newline →
      SpellsDocument entries text →
      SpellsDocument (entry :: entries) (written ++ (tail ++ (newline ++ text)))

/-- The characters with which a line goes on after the parts of an entry, or ends. -/
def separators : List Char := [' ', '\t', '#', '\n', '\r']

variable {isMember : Char → Bool} {c : Char} {n : Int} {value : Value} {entry : String × Value}
  {entries before : Entries} {key written token blanks tail newline text rest : List Char}
  {fuel levels : Nat}

/-! ## Blanks and the ends of lines -/

/-- Blanks at the front are skipped. -/
theorem skipBlanks_append (h : AreBlanks blanks) :
    skipBlanks (blanks ++ text) = skipBlanks text :=
  List.dropWhile_append_of_pos h

/-- Nothing is skipped from a character on that is no blank. -/
theorem skipBlanks_cons (h : isBlank c = false) : skipBlanks (c :: text) = c :: text :=
  List.dropWhile_cons_of_neg (by simp [h])

/-- Blanks at the front are skipped up to a character that is none. -/
theorem skipBlanks_append_cons (h : AreBlanks blanks) (hc : isBlank c = false) :
    skipBlanks (blanks ++ c :: text) = c :: text := by
  rw [skipBlanks_append h, skipBlanks_cons hc]

/-- What is left begins with no blank. -/
theorem skipBlanks_skipBlanks (text : List Char) :
    skipBlanks (skipBlanks text) = skipBlanks text :=
  List.dropWhile_idempotent _ _

/-- A blank separates. -/
theorem mem_separators_of_isBlank (h : isBlank c = true) : c ∈ separators := by
  rw [isBlank, Bool.or_eq_true, beq_iff_eq, beq_iff_eq] at h
  rcases h with rfl | rfl <;> decide

/-- No separator is in a class that has none. -/
theorem eq_false_of_mem_separators (hclass : separators.any isMember = false)
    (hc : c ∈ separators) : isMember c = false :=
  Bool.eq_false_iff.2 (List.any_eq_false.1 hclass c hc)

/-- With blanks in front a text begins with a character of a class no more than without, if no
separator is in the class. -/
theorem AreBlanks.endsBefore (h : AreBlanks blanks)
    (hclass : separators.any isMember = false) (htext : EndsBefore isMember text) :
    EndsBefore isMember (blanks ++ text) := by
  cases blanks with
  | nil => exact htext
  | cons c blanks =>
      have hc := mem_separators_of_isBlank (h c List.mem_cons_self)
      exact Text.endsBefore_cons (eq_false_of_mem_separators hclass hc)

/-- The end of a line begins with one of two characters, and what follows it is the next line. -/
theorem IsNewline.exists_cons (h : IsNewline newline) :
    ∃ c text, newline = c :: text ∧ (c = '\n' ∨ c = '\r') ∧
      ∀ rest, afterNewline? (newline ++ rest) = some rest := by
  cases h with
  | feed => exact ⟨'\n', _, rfl, .inl rfl, fun rest ↦ rfl⟩
  | returnAndFeed => exact ⟨'\r', _, rfl, .inr rfl, fun rest ↦ rfl⟩

/-- These two characters are no blanks, begin no comment, and cannot be printed. -/
theorem of_endsLine (h : c = '\n' ∨ c = '\r') :
    isBlank c = false ∧ c ≠ '#' ∧ isPrintable c = false := by
  rcases h with rfl | rfl <;> decide

/-- A comment goes on to the end of its line. -/
theorem readLineEnd_comment (h : AreBlanks blanks) :
    readLineEnd (blanks ++ '#' :: text) =
      match text.dropWhile isPrintable with
      | [] => some []
      | rest => afterNewline? rest := by
  rw [readLineEnd, skipBlanks_append_cons h (by decide)]
  rfl

/-- The line goes on in the next one. -/
theorem IsTail.readLineEnd_append (h : IsTail tail) (hnewline : IsNewline newline) :
    readLineEnd (tail ++ (newline ++ rest)) = some rest := by
  obtain ⟨c, text, hcons, hc, hafter⟩ := hnewline.exists_cons
  obtain ⟨hblank, hhash, hprintable⟩ := of_endsLine hc
  have hnext := hafter rest
  rw [hcons, List.cons_append] at hnext ⊢
  cases h with
  | blanks blanks hblanks =>
      rw [readLineEnd, skipBlanks_append_cons hblanks hblank]
      split
      · next heq => cases heq
      · next heq =>
          cases heq
          exact absurd rfl hhash
      · exact hnext
  | comment blanks comment hblanks hcomment =>
      rw [List.append_assoc, List.cons_append, readLineEnd_comment hblanks,
        Text.dropWhile_append hcomment (Text.endsBefore_cons hprintable)]
      exact hnext

/-- The line is the last one. -/
theorem IsTail.readLineEnd (h : IsTail tail) : readLineEnd tail = some [] := by
  cases h with
  | blanks blanks hblanks =>
      have hskip : skipBlanks tail = [] := by simpa [skipBlanks, AreBlanks] using hblanks
      rw [Toml.readLineEnd, hskip]
  | comment blanks comment hblanks hcomment =>
      have hdrop : comment.dropWhile isPrintable = [] := by simpa using hcomment
      rw [readLineEnd_comment hblanks, hdrop]

/-! ## Keys -/

/-- A key begins with no blank, and not like a header, a comment, or the end of a line. -/
theorem SpellsKey.exists_cons (h : SpellsKey key written) :
    ∃ c rest, written = c :: rest ∧
      c ∉ '[' :: byteOrderMark :: separators := by
  cases h with
  | bare hne hkey =>
      obtain ⟨c, rest, rfl⟩ := List.exists_cons_of_ne_nil hne
      refine ⟨c, rest, rfl, fun hmem ↦ ?_⟩
      have hnone : ('[' :: byteOrderMark :: separators).any isKeyChar = false := by decide
      exact List.any_eq_false.1 hnone c hmem (hkey c List.mem_cons_self)
  | basic raw => exact ⟨'"', _, rfl, by decide⟩
  | literal => exact ⟨'\'', _, rfl, by decide⟩

/-- A key is read back, however it is written. -/
theorem SpellsKey.readKeyPart (h : SpellsKey key written) (hrest : EndsBefore isKeyChar rest) :
    readKeyPart (written ++ rest) = some (.ofList key, rest) := by
  cases h with
  | bare hne hkey =>
      obtain ⟨c, tail, rfl⟩ := List.exists_cons_of_ne_nil hne
      have hc := hkey c List.mem_cons_self
      rw [List.cons_append, Toml.readKeyPart, ← List.cons_append,
        Text.takeWhile_append hkey hrest, Text.dropWhile_append hkey hrest]
      · exact if_neg hne
      · intro text htext
        cases htext
        exact absurd hc (by decide)
      · intro text htext
        cases htext
        exact absurd hc (by decide)
  | basic raw hkey =>
      show readBasic (raw ++ ['"'] ++ rest) = _
      rw [List.append_assoc]
      exact readBasic_of_spellsText hkey
  | literal hkey =>
      have hmark : ∀ c ∈ key, (c != '\'') = true := fun c hc ↦ by simpa using (hkey c hc).2
      have hprintable : key.all isPrintable = true :=
        List.all_eq_true.2 fun c hc ↦ (hkey c hc).1
      have hend : EndsBefore (· != '\'') ('\'' :: rest) := Text.endsBefore_cons (by decide)
      show readLiteral (key ++ ['\''] ++ rest) = _
      rw [List.append_assoc]
      show readLiteral (key ++ '\'' :: rest) = _
      rw [readLiteral]
      simp only [Text.takeWhile_append hmark hend, Text.dropWhile_append hmark hend,
        if_pos hprintable]

/-- A key of one part is read up to the mark between it and its value. -/
theorem SpellsKey.readKey (h : SpellsKey key written) (hblanks : AreBlanks blanks) :
    readKey maxNesting (written ++ (blanks ++ '=' :: rest)) =
      some ([.ofList key], '=' :: rest) := by
  obtain ⟨c, tail, hwritten, hc⟩ := h.exists_cons
  have hskip : skipBlanks (written ++ (blanks ++ '=' :: rest)) =
      written ++ (blanks ++ '=' :: rest) := by
    rw [hwritten]
    refine skipBlanks_cons ?_
    simp only [separators, List.mem_cons, not_or] at hc
    simp [isBlank, hc]
  have hend : EndsBefore isKeyChar (blanks ++ '=' :: rest) :=
    hblanks.endsBefore (by decide) (Text.endsBefore_cons (by decide))
  have hmark : skipBlanks (blanks ++ '=' :: rest) = '=' :: rest :=
    skipBlanks_append_cons hblanks (by decide)
  show Toml.readKey (78 + 1) _ = _
  rw [Toml.readKey, hskip, h.readKeyPart hend]
  simp only [Option.bind_eq_bind, Option.bind_some, hmark]
  rfl

/-! ## Values -/

/-- The character goes on with a value that is written without marks, or is a mark. -/
def continuesValue (c : Char) : Bool := isTokenChar c || c == '"'

/-- The characters of an integer stand in tokens. -/
theorem SpellsInteger.isTokenChar (h : SpellsInteger n token) :
    ∀ c ∈ token, isTokenChar c = true := by
  obtain ⟨c, rest, rfl, hc, hrest⟩ := h.exists_cons
  refine List.forall_mem_cons.2 ⟨?_, fun c hmem ↦ ?_⟩
  · rcases hc with hdigit | rfl | rfl
    · simp [Toml.isTokenChar, isAlphanum_of_isDigit hdigit]
    · decide
    · decide
  · have hinner := hrest c hmem
    rw [isInner, Bool.or_eq_true, beq_iff_eq] at hinner
    rcases hinner with halphanum | rfl
    · simp [Toml.isTokenChar, halphanum]
    · decide

/-- An integer is read as a token. -/
theorem SpellsInteger.readToken (h : SpellsInteger n token) (hfit : Word.isSigned n = true)
    (hrest : EndsBefore continuesValue rest) :
    readToken (token ++ rest) = some (.integer n, rest) := by
  have hend : EndsBefore Toml.isTokenChar rest := by
    intro c hc
    have hcontinues := hrest c hc
    rw [continuesValue, Bool.or_eq_false_iff] at hcontinues
    exact hcontinues.1
  have hdate : ¬ isDate token = true := by simp [h.not_moment.1]
  simp only [Toml.readToken, Text.takeWhile_append h.isTokenChar hend,
    Text.dropWhile_append h.isTokenChar hend]
  rw [if_neg fun hmoment ↦ hdate hmoment.1, valueOfToken?_of_spellsInteger h hfit]
  rfl

/-- What begins with a figure or a sign is read as a token. -/
theorem readValue_eq_readToken (hc : Decimal.isDigit c = true ∨ c = '+' ∨ c = '-') :
    readValue (fuel + 1) levels (c :: rest) = readToken (c :: rest) := by
  have hmark : c ∉ ['"', '\'', '[', '\x7b'] := by
    intro hmem
    simp only [List.mem_cons, List.not_mem_nil, or_false] at hmem
    rcases hmem with rfl | rfl | rfl | rfl <;> exact absurd hc (by decide)
  simp only [List.mem_cons, List.not_mem_nil, or_false, not_or] at hmark
  obtain ⟨hbasic, hliteral, hbracket, hbrace⟩ := hmark
  rw [readValue]
  all_goals
    intro text htext
    cases htext
    contradiction

/-- A text on one line is read as such. -/
theorem readValue_of_spellsText {content raw : List Char} (h : SpellsText content raw)
    (hrest : EndsBefore continuesValue rest) :
    readValue (fuel + 1) levels ('"' :: (raw ++ '"' :: rest)) =
      some (.text (.ofList content), rest) := by
  rw [readValue, readBasic_of_spellsText h]
  · rfl
  · -- A second mark ends an empty text, and then no third one may follow.
    intro text htext
    cases raw with
    | nil =>
        rw [List.nil_append, List.cons.injEq] at htext
        exact absurd (hrest '"' (by rw [htext.2]; rfl)) (by decide)
    | cons c raw =>
        rw [List.cons_append, List.cons.injEq] at htext
        exact (htext.1 ▸ h).not_mark

/-- A value is read back, however it is written. -/
theorem SpellsValue.readValue (h : SpellsValue value written)
    (hrest : EndsBefore continuesValue rest) :
    readValue (fuel + 1) levels (written ++ rest) = some (value, rest) := by
  cases h with
  | text content raw hraw =>
      show Toml.readValue (fuel + 1) levels ('"' :: (raw ++ ['"'] ++ rest)) = _
      rw [List.append_assoc]
      exact readValue_of_spellsText hraw hrest
  | integer n token hfit htoken =>
      obtain ⟨c, tail, hcons, hc, -⟩ := htoken.exists_cons
      have hread := htoken.readToken hfit hrest
      rw [hcons, List.cons_append] at hread ⊢
      rw [readValue_eq_readToken hc, hread]

/-- A value begins with no blank. -/
theorem SpellsValue.exists_cons (h : SpellsValue value written) :
    ∃ c rest, written = c :: rest ∧ isBlank c = false := by
  cases h with
  | text content raw => exact ⟨'"', _, rfl, by decide⟩
  | integer n token _ htoken =>
      obtain ⟨c, rest, rfl, hc, -⟩ := htoken.exists_cons
      refine ⟨c, rest, rfl, ?_⟩
      by_contra hblank
      simp only [isBlank, Bool.not_eq_false, Bool.or_eq_true, beq_iff_eq] at hblank
      rcases hblank with rfl | rfl <;> exact absurd hc (by decide)

/-! ## Lines -/

/-- An entry takes some place. -/
theorem SpellsEntry.length_pos (h : SpellsEntry entry written) : 0 < written.length := by
  cases h with
  | intro => simp only [List.length_append, List.length_cons]; omega

/-- An entry is read up to the end of its value. -/
theorem SpellsEntry.readEntry (h : SpellsEntry entry written)
    (hrest : EndsBefore continuesValue rest) :
    ∃ c text, skipBlanks (written ++ rest) = c :: text ∧
      c ∉ ['[', '#', '\n', '\r'] ∧
      readEntry (c :: text) = (readLineEnd rest).map fun rest ↦ ([entry.1], entry.2, rest) := by
  cases h with
  | intro before key written between after value item hbefore hkey hbetween hafter hvalue =>
      obtain ⟨c, tail, hcons, hc⟩ := hkey.exists_cons
      obtain ⟨first, more, hitem, hfirst⟩ := hvalue.exists_cons
      simp only [separators, List.mem_cons, List.not_mem_nil, or_false, not_or] at hc
      have hskip : skipBlanks (before ++ (written ++ (between ++ '=' :: (after ++ item))) ++ rest) =
          written ++ (between ++ '=' :: (after ++ (item ++ rest))) := by
        simp only [List.append_assoc, List.cons_append]
        rw [hcons]
        exact skipBlanks_append_cons hbefore (by simp [isBlank, hc])
      have hblanks : skipBlanks (after ++ (item ++ rest)) = item ++ rest := by
        rw [hitem]
        exact skipBlanks_append_cons hafter hfirst
      refine ⟨c, tail ++ (between ++ '=' :: (after ++ (item ++ rest))), ?_, ?_, ?_⟩
      · rw [hskip, hcons, List.cons_append]
      · simp [hc]
      · rw [← List.cons_append, ← hcons, Toml.readEntry, hkey.readKey hbetween]
        simp only [Option.bind_eq_bind, Option.bind_some, dropLead?, if_true, hblanks,
          hvalue.readValue hrest]
        cases readLineEnd rest <;> rfl

/-- What may stand on a line after an entry does not begin with a class of characters if no
separator is in it. -/
theorem IsTail.endsBefore (h : IsTail tail) (hclass : separators.any isMember = false)
    (hrest : EndsBefore isMember rest) : EndsBefore isMember (tail ++ rest) := by
  cases h with
  | blanks blanks hblanks => exact hblanks.endsBefore hclass hrest
  | comment blanks comment hblanks =>
      rw [List.append_assoc]
      have hcomment : isMember '#' = false := eq_false_of_mem_separators hclass (by decide)
      exact hblanks.endsBefore hclass (Text.endsBefore_cons hcomment)

/-- The end of a line takes some place. -/
theorem IsNewline.length_pos (h : IsNewline newline) : 0 < newline.length := by
  cases h <;> decide

/-- The end of a line does not begin with a class of characters if no separator is in it. -/
theorem IsNewline.endsBefore (h : IsNewline newline) (hclass : separators.any isMember = false) :
    EndsBefore isMember (newline ++ rest) := by
  cases h with
  | feed | returnAndFeed =>
      exact Text.endsBefore_cons (eq_false_of_mem_separators hclass (by decide))

/-- A line without an entry is skipped. -/
theorem readLines_blank (h : skipBlanks text = c :: rest) (hc : c = '#' ∨ c = '\n' ∨ c = '\r') :
    readLines (fuel + 1) [] before text =
      (readLineEnd text).bind fun rest ↦ readLines fuel [] before rest := by
  have hskip : skipBlanks (c :: rest) = c :: rest := by rw [← h, skipBlanks_skipBlanks]
  have hend : readLineEnd (c :: rest) = readLineEnd text := by
    rw [readLineEnd, readLineEnd, hskip, h]
  rw [readLines, h]
  split
  · next heq => cases heq
  · next heq =>
      cases heq
      exact absurd hc (by decide)
  · next heq =>
      cases heq
      exact absurd hc (by decide)
  · next heq =>
      cases heq
      rw [if_pos hc, hend]
      rfl

/-- An entry with a new key is added, and the next line is read. -/
theorem SpellsEntry.readLines (h : SpellsEntry entry written)
    (hrest : EndsBefore continuesValue rest) (hend : readLineEnd rest = some text)
    (hfresh : entry.1 ∉ before.map Prod.fst) :
    readLines (fuel + 1) [] before (written ++ rest) =
      Toml.readLines fuel [] (before ++ [entry]) text := by
  obtain ⟨c, tail, hskip, hc, hread⟩ := h.readEntry hrest
  simp only [List.mem_cons, List.not_mem_nil, or_false, not_or] at hc
  have hfind : before.find? entry.1 = none := by
    rw [Entries.find?, List.lookup_eq_none_iff]
    intro other hother
    rw [bne_iff_ne]
    intro heq
    exact hfresh (heq ▸ List.mem_map_of_mem hother)
  rw [Toml.readLines, hskip]
  split
  · next heq => cases heq
  · next heq =>
      cases heq
      exact absurd rfl hc.1
  · next heq =>
      cases heq
      exact absurd rfl hc.1
  · next heq =>
      cases heq
      have hbreak : ¬ (c = '#' ∨ c = '\n' ∨ c = '\r') := by simp [hc]
      simp only [if_neg hbreak, hread, hend, Option.map_some, Option.bind_eq_bind,
        Option.bind_some, Entries.within, Entries.insert, hfind, Option.isSome_none]
      rfl

/-! ## Documents -/

/-- The last line without an entry ends the document. -/
theorem IsTail.readLines (h : IsTail tail) (hfuel : tail.length < fuel) :
    readLines fuel [] before tail = some before := by
  obtain ⟨fuel, rfl⟩ : ∃ less, fuel = less + 1 := ⟨fuel - 1, by omega⟩
  cases h with
  | blanks blanks hblanks =>
      have hskip : skipBlanks tail = [] := by simpa [skipBlanks, AreBlanks] using hblanks
      rw [Toml.readLines, hskip]
  | comment blanks comment hblanks hcomment =>
      have hskip : skipBlanks (blanks ++ '#' :: comment) = '#' :: comment :=
        skipBlanks_append_cons hblanks (by decide)
      obtain ⟨fuel, rfl⟩ : ∃ less, fuel = less + 1 := by
        refine ⟨fuel - 1, ?_⟩
        simp only [List.length_append, List.length_cons] at hfuel
        omega
      have hend := (IsTail.comment blanks comment hblanks hcomment).readLineEnd
      rw [readLines_blank hskip (.inl rfl), hend, Option.bind_some]
      rfl

/-- A line without an entry is skipped when there is a next one. -/
theorem IsTail.readLines_append (h : IsTail tail) (hnewline : IsNewline newline) :
    Toml.readLines (fuel + 1) [] before (tail ++ (newline ++ text)) =
      Toml.readLines fuel [] before text := by
  have hend : Toml.readLineEnd (tail ++ (newline ++ text)) = some text :=
    h.readLineEnd_append hnewline
  cases h with
  | blanks blanks hblanks =>
      obtain ⟨c, more, rfl, hc, -⟩ := hnewline.exists_cons
      have hskip : skipBlanks (tail ++ (c :: more ++ text)) = c :: (more ++ text) :=
        skipBlanks_append_cons hblanks (of_endsLine hc).1
      rw [readLines_blank hskip (.inr hc), hend, Option.bind_some]
  | comment blanks comment hblanks hcomment =>
      rw [List.append_assoc, List.cons_append] at hend ⊢
      have hskip : skipBlanks (blanks ++ '#' :: (comment ++ (newline ++ text))) =
          '#' :: (comment ++ (newline ++ text)) := skipBlanks_append_cons hblanks (by decide)
      rw [readLines_blank hskip (.inl rfl), hend, Option.bind_some]

/-- A key that is distinct from those before it is not among them. -/
theorem notMem_of_nodup (h : ((before ++ entry :: entries).map Prod.fst).Nodup) :
    entry.1 ∉ before.map Prod.fst := by
  rw [List.map_append, List.map_cons] at h
  exact fun hmem ↦ (List.nodup_append.1 h).2.2 _ hmem _ List.mem_cons_self rfl

/-- The entries of a document are added to those that are there already. -/
theorem readLines_of_spellsDocument (h : SpellsDocument entries text)
    (hfuel : text.length < fuel) (hdistinct : ((before ++ entries).map Prod.fst).Nodup) :
    readLines fuel [] before text = some (before ++ entries) := by
  induction h generalizing fuel before with
  | lastBlank tail htail => rw [htail.readLines hfuel, List.append_nil]
  | lastEntry entry written tail hentry htail =>
      obtain ⟨fuel, rfl⟩ : ∃ less, fuel = less + 2 := by
        have hlength := hentry.length_pos
        rw [List.length_append] at hfuel
        exact ⟨fuel - 2, by omega⟩
      have hend : EndsBefore continuesValue tail := by
        simpa using htail.endsBefore (by decide) Text.endsBefore_nil
      rw [hentry.readLines hend htail.readLineEnd (notMem_of_nodup hdistinct)]
      rfl
  | blank tail newline entries text htail hnewline _ ih =>
      obtain ⟨fuel, rfl⟩ : ∃ less, fuel = less + 1 := ⟨fuel - 1, by omega⟩
      have hlength := hnewline.length_pos
      simp only [List.length_append] at hfuel
      rw [htail.readLines_append hnewline, ih (by omega) hdistinct]
  | entry entry written tail newline entries text hentry htail hnewline _ ih =>
      obtain ⟨fuel, rfl⟩ : ∃ less, fuel = less + 1 := ⟨fuel - 1, by omega⟩
      have hlength := hnewline.length_pos
      simp only [List.length_append] at hfuel
      have hmore : ((before ++ [entry] ++ entries).map Prod.fst).Nodup := by
        rwa [List.append_assoc, List.singleton_append]
      rw [hentry.readLines (htail.endsBefore (by decide) (hnewline.endsBefore (by decide)))
        (htail.readLineEnd_append hnewline) (notMem_of_nodup hdistinct), ih (by omega) hmore,
        List.append_assoc, List.singleton_append]

/-- An entry begins with a blank or with its key. -/
theorem SpellsEntry.endsBefore (h : SpellsEntry entry written)
    (hclass : separators.any isMember = false)
    (hkey : ∀ c, c ∉ '[' :: byteOrderMark :: separators → isMember c = false) :
    EndsBefore isMember (written ++ rest) := by
  cases h with
  | intro before key written between after value item hbefore hwritten =>
      obtain ⟨c, tail, hcons, hc⟩ := hwritten.exists_cons
      rw [List.append_assoc, hcons]
      exact hbefore.endsBefore hclass (Text.endsBefore_cons (hkey c hc))

/-- A document does not begin with the mark that would be dropped there. -/
theorem dropByteOrderMark_of_spellsDocument (h : SpellsDocument entries text) :
    dropByteOrderMark text = text := by
  have hclass : separators.any (· == byteOrderMark) = false := by decide
  have hkey (c) (hc : c ∉ '[' :: byteOrderMark :: separators) : (c == byteOrderMark) = false := by
    rw [beq_eq_false_iff_ne]
    rintro rfl
    exact hc (by decide)
  have hend : EndsBefore (· == byteOrderMark) text := by
    cases h with
    | lastBlank tail htail => simpa using htail.endsBefore hclass Text.endsBefore_nil
    | lastEntry entry written tail hentry => exact hentry.endsBefore hclass hkey
    | blank tail newline entries text htail hnewline =>
        exact htail.endsBefore hclass (hnewline.endsBefore hclass)
    | entry entry written tail newline entries text hentry => exact hentry.endsBefore hclass hkey
  cases text with
  | nil => rfl
  | cons c rest => exact if_neg (by simpa using hend c rfl)

/-- The entries of a document are read back in their order when their keys are distinct, however it
is written. -/
theorem parse_of_spellsDocument {document : String} (h : SpellsDocument entries document.toList)
    (hdistinct : (entries.map Prod.fst).Nodup) : parse document = some entries := by
  rw [parse, dropByteOrderMark_of_spellsDocument h]
  exact readLines_of_spellsDocument h (Nat.lt_succ_self _) hdistinct

/-! ## One way to write a document -/

/-- A text or an integer of 64 bits. -/
inductive IsPlainValue : Value → Prop where
  | text (content : String) : IsPlainValue (.text content)
  | integer (n : Int) : Word.isSigned n = true → IsPlainValue (.integer n)

/-- A text or an integer can be written. -/
theorem IsPlainValue.exists_spellsValue (h : IsPlainValue value) :
    ∃ written, SpellsValue value written := by
  cases h with
  | text content =>
      have hwritten := SpellsValue.text _ _ (spellsText_spelling content.toList)
      rw [String.ofList_toList] at hwritten
      exact ⟨_, hwritten⟩
  | integer n hfit => exact ⟨_, .integer n _ hfit (spellsInteger_signedDigits n)⟩

/-- An entry whose value is a text or an integer can be written. -/
theorem exists_spellsEntry (h : IsPlainValue entry.2) : ∃ written, SpellsEntry entry written := by
  obtain ⟨item, hitem⟩ := h.exists_spellsValue
  have hnone : AreBlanks [] := by decide
  have hkey := SpellsKey.basic _ (spellsText_spelling entry.1.toList)
  have hwritten := SpellsEntry.intro _ _ _ _ _ _ _ hnone hkey hnone hnone hitem
  rw [String.ofList_toList] at hwritten
  exact ⟨_, hwritten⟩

/-- There is a document of any entries whose values are texts and integers. -/
theorem exists_spellsDocument (h : ∀ entry ∈ entries, IsPlainValue entry.2) :
    ∃ document : String, SpellsDocument entries document.toList := by
  suffices htext : ∃ text, SpellsDocument entries text by
    obtain ⟨text, htext⟩ := htext
    exact ⟨.ofList text, by rwa [String.toList_ofList]⟩
  have hnone : IsTail [] := .blanks [] (by decide)
  induction entries with
  | nil => exact ⟨_, .lastBlank [] hnone⟩
  | cons entry entries ih =>
      obtain ⟨hentry, hentries⟩ := List.forall_mem_cons.1 h
      obtain ⟨written, hwritten⟩ := exists_spellsEntry hentry
      obtain ⟨text, htext⟩ := ih hentries
      exact ⟨_, .entry entry written [] ['\n'] entries text hwritten hnone .feed htext⟩

end SigningKeys.Toml
