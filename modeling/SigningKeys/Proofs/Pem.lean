import Mathlib.Data.List.Flatten
import SigningKeys.Pem
import SigningKeys.Proofs.Base64

/-!
# Armoured texts

The symbols that an armoured text is read from are those of its lines, in order, so an armoured
text stands for no more bytes than it has characters (`Pem.length_decode_le`). What is written for
bytes, under any label and with any newline, is read as these bytes (`Pem.decode_encode`).
-/

namespace SigningKeys

namespace Text

/-- A character before the first line comes before the characters of all lines. -/
theorem flatten_consLine (c : Char) (texts : List (List Char)) :
    (consLine c texts).flatten = c :: texts.flatten := by
  cases texts with
  | nil => rfl
  | cons line more => rfl

/-- The lines of a text have its characters, in order, without those that end lines. -/
theorem flatten_lines_sublist (text : List Char) : (lines text).flatten.Sublist text := by
  induction text using lines.induct with
  | case1 => exact List.Sublist.refl []
  | case2 rest ih =>
      rw [lines]
      exact (ih.cons _).cons _
  | case3 c rest hne hnewline ih =>
      rw [lines, if_pos hnewline]
      · exact ih.cons c
      · exact hne
  | case4 c rest hne hnewline ih =>
      rw [lines, if_neg hnewline, flatten_consLine]
      · exact ih.cons_cons c
      · exact hne

/-- What is not blank ends no line. -/
theorem not_newline_of_not_blank {c : Char} (h : isBlank c = false) : c ≠ '\r' ∧ c ≠ '\n' := by
  constructor
  · rintro rfl
    exact absurd h (by decide)
  · rintro rfl
    exact absurd h (by decide)

/-- The characters are within one line. -/
def IsLine (line : List Char) : Prop := ∀ c ∈ line, c ≠ '\r' ∧ c ≠ '\n'

/-- Being within one line is decided character by character. -/
instance (line : List Char) : Decidable (IsLine line) := List.decidableBAll _ line

/-- A character that ends no line belongs to the first line. -/
theorem lines_cons {c : Char} (h : c ≠ '\r' ∧ c ≠ '\n') (rest : List Char) :
    lines (c :: rest) = consLine c (lines rest) := by
  rw [lines, if_neg (not_or.2 h)]
  intro _ hreturn
  exact absurd hreturn h.1

/-- What is within one line is this line. -/
theorem lines_eq_singleton {line : List Char} (h : IsLine line) : lines line = [line] := by
  induction line with
  | nil => rfl
  | cons c rest ih =>
      rw [lines_cons (h c List.mem_cons_self), ih fun d hmem ↦ h d (List.mem_cons_of_mem c hmem)]
      rfl

/-- A newline ends the first line, if it is read as this newline. -/
theorem lines_newline {newline : Newline} {rest : List Char}
    (h : newline = .cr → rest.head? ≠ some '\n') :
    lines (newline.chars ++ rest) = [] :: lines rest := by
  cases newline with
  | crlf => rfl
  | lf => rfl
  | cr =>
      show lines ('\r' :: rest) = _
      rw [lines, if_pos (.inl rfl)]
      rintro more - rfl
      exact h rfl rfl

/-- What is within one line and a newline are the first line of a text. -/
theorem lines_append_newline {line : List Char} {newline : Newline} {rest : List Char}
    (hline : IsLine line) (hrest : newline = .cr → rest.head? ≠ some '\n') :
    lines (line ++ (newline.chars ++ rest)) = line :: lines rest := by
  induction line with
  | nil => exact lines_newline hrest
  | cons c more ih =>
      rw [List.cons_append, lines_cons (hline c List.mem_cons_self),
        ih fun d hmem ↦ hline d (List.mem_cons_of_mem c hmem)]
      rfl

/-- Lines that a newline ends, and a last one that none ends, are the lines of the text. -/
theorem lines_flatMap (newline : Newline) {texts : List (List Char)} {last : List Char}
    (htexts : ∀ line ∈ texts, IsLine line) (hlast : IsLine last) :
    lines (texts.flatMap (· ++ newline.chars) ++ last) = texts ++ [last] := by
  induction texts with
  | nil => exact lines_eq_singleton hlast
  | cons line rest ih =>
      have hmore : ∀ other ∈ rest, IsLine other :=
        fun other hmem ↦ htexts other (List.mem_cons_of_mem line hmem)
      -- Where carriage returns end the lines, there is no line feed that could belong to one.
      have hrest : newline = .cr →
          (rest.flatMap (· ++ newline.chars) ++ last).head? ≠ some '\n' := by
        rintro rfl hhead
        have hmem := List.mem_of_head? hhead
        simp only [List.mem_append, List.mem_flatMap, Newline.chars, List.mem_singleton] at hmem
        rcases hmem with ⟨other, hother, hin | hin⟩ | hin
        · exact (hmore other hother _ hin).2 rfl
        · exact absurd hin (by decide)
        · exact (hlast _ hin).2 rfl
      rw [List.flatMap_cons, List.append_assoc, List.append_assoc,
        lines_append_newline (htexts line List.mem_cons_self) hrest, ih hmore, List.cons_append]

end Text

namespace Pem

open Text

/-- The symbols between the first and the last line are those of the lines. -/
theorem joinLines_eq {texts : List (List Char)} {symbols : List Char}
    (h : joinLines texts = some symbols) : symbols = texts.flatten := by
  induction texts generalizing symbols with
  | nil => cases h
  | cons line rest ih =>
      unfold joinLines at h
      split at h
      · cases h
      · next last heq =>
          cases heq
          split at h
          · cases h
            simp
          · cases h
      · next last heq =>
          cases heq
          split at h
          · cases h
            simp
          · cases h
      · next _ _ _ _ heq =>
          cases heq
          split at h
          · obtain ⟨joined, hjoined, rfl⟩ := Option.map_eq_some_iff.1 h
            rw [List.flatten_cons, ih hjoined]
          · cases h

/-- The text from a later line on is an end of the text. -/
theorem afterLine_suffix {text rest : List Char} (h : fromOpening?.afterLine text = some rest) :
    rest <:+ text := by
  induction text with
  | nil => cases h
  | cons c more ih =>
      rw [fromOpening?.afterLine] at h
      split at h
      · cases h
        exact List.suffix_cons c rest
      · split at h
        · cases h
        · exact (ih h).trans (List.suffix_cons c more)

/-- The text from the opening line on is an end of the text. -/
theorem fromOpening?_suffix {text rest : List Char} (h : fromOpening? text = some rest) :
    rest <:+ text := by
  unfold fromOpening? at h
  split at h
  · cases h
    exact List.suffix_refl text
  · exact afterLine_suffix h

/-- An armoured text stands for no more bytes than it has characters. -/
theorem length_decode_le {text : List Char} {bytes : List UInt8} (h : decode text = some bytes) :
    bytes.length ≤ text.length := by
  simp only [decode, Option.bind_eq_bind, Option.bind_eq_some_iff] at h
  obtain ⟨opened, hopened, h⟩ := h
  have hflatten := (flatten_lines_sublist opened).length_le
  split at h
  · cases h
  · next first rest hlines =>
      simp only [Option.bind_eq_some_iff] at h
      obtain ⟨label, -, last, -, h⟩ := h
      split at h
      · obtain ⟨symbols, hsymbols, hdecode⟩ := Option.bind_eq_some_iff.1 h
        calc bytes.length
            ≤ symbols.length := Base64.length_decode_le hdecode
          _ = rest.dropLast.flatten.length := by rw [joinLines_eq hsymbols]
          _ ≤ rest.flatten.length := (List.dropLast_sublist rest).flatten.length_le
          _ ≤ (lines opened).flatten.length := by
              rw [hlines, List.flatten_cons, List.length_append]
              omega
          _ ≤ opened.length := hflatten
          _ ≤ text.length := (fromOpening?_suffix hopened).length_le
      · cases h

/-! ## Reading what was written -/

/-- Wrapping gives at least one line. -/
theorem wrap_ne_nil (symbols : List Char) : wrap symbols ≠ [] := by
  unfold wrap
  split <;> simp

/-- The characters of the lines are among the symbols. -/
theorem mem_of_mem_wrap {symbols line : List Char} {c : Char} (hline : line ∈ wrap symbols)
    (hc : c ∈ line) : c ∈ symbols := by
  induction symbols using wrap.induct with
  | case1 symbols hshort =>
      rw [wrap, if_pos hshort, List.mem_singleton] at hline
      rwa [hline] at hc
  | case2 symbols hlong ih =>
      rw [wrap, if_neg hlong, List.mem_cons] at hline
      rcases hline with rfl | hline
      · exact List.mem_of_mem_take hc
      · exact List.mem_of_mem_drop (ih hline)

/-- A full line without a filler is joined with the lines after it. -/
theorem joinLines_cons {line : List Char} {rest : List (List Char)} (hlength : line.length = width)
    (hfiller : '=' ∉ line) (hrest : rest ≠ []) :
    joinLines (line :: rest) = (joinLines rest).map (line ++ ·) := by
  match rest with
  | [[]] => simp [joinLines, hlength]
  | (c :: more) :: others => rw [joinLines, if_pos ⟨hlength, hfiller⟩] <;> simp
  | [] :: next :: others => rw [joinLines, if_pos ⟨hlength, hfiller⟩] <;> simp

/-- Groups of four with at most two fillers at the end are joined from the lines that they are
wrapped in. -/
theorem joinLines_wrap {symbols body filler : List Char} (hgroups : symbols.length % 4 = 0)
    (heq : symbols = body ++ filler) (hbody : '=' ∉ body) (hfiller : filler.length ≤ 2) :
    joinLines (wrap symbols) = some symbols := by
  induction symbols using wrap.induct generalizing body with
  | case1 symbols hshort => rw [wrap, if_pos hshort, joinLines, if_pos hshort]
  | case2 symbols hlong ih =>
      have hwidth : width = 64 := rfl
      have hlength : symbols.length = body.length + filler.length := by
        rw [heq, List.length_append]
      -- The last group is not on the first line, so the fillers are not.
      have hle : width ≤ body.length := by omega
      have htake : symbols.take width = body.take width := by
        rw [heq, List.take_append_of_le_length hle]
      have hdrop : symbols.drop width = body.drop width ++ filler := by
        rw [heq, List.drop_append_of_le_length hle]
      have hline : '=' ∉ symbols.take width := by
        rw [htake]
        exact fun hmem ↦ hbody (List.mem_of_mem_take hmem)
      have hrest : joinLines (wrap (symbols.drop width)) = some (symbols.drop width) := by
        refine ih ?_ hdrop fun hmem ↦ hbody (List.mem_of_mem_drop hmem)
        rw [List.length_drop]
        omega
      rw [wrap, if_neg hlong, joinLines_cons (List.length_take_of_le (by omega)) hline
        (wrap_ne_nil _), hrest, Option.map_some, List.take_append_drop]

/-- The characters of a label are no hyphens and end no lines. -/
theorem clear_of_mem_label {blankNext : Bool} {label : List Char} {c : Char}
    (h : isLabelRest blankNext label = true) (hc : c ∈ label) : c ≠ '-' ∧ c ≠ '\r' ∧ c ≠ '\n' := by
  induction label generalizing blankNext with
  | nil => simp at hc
  | cons first rest ih =>
      have hfirst : ∃ next, isLabelRest next rest = true ∧
          (first ≠ '-' ∧ first ≠ '\r' ∧ first ≠ '\n') := by
        rw [isLabelRest] at h
        split at h
        · next hchar =>
            refine ⟨true, h, ?_⟩
            refine ⟨?_, ?_, ?_⟩ <;> (rintro rfl; exact absurd hchar (by decide))
        · simp only [Bool.and_eq_true, Bool.or_eq_true, beq_iff_eq] at h
          obtain ⟨⟨-, rfl | rfl⟩, h⟩ := h
          · exact ⟨false, h, by decide⟩
          · exact ⟨false, h, by decide⟩
      obtain ⟨next, hrest, hclear⟩ := hfirst
      rcases List.mem_cons.1 hc with rfl | hmem
      · exact hclear
      · exact ih hrest hmem

variable {label : List Char}

/-- A line around a label is one line. -/
theorem isLine_around {lead : List Char} (h : isLabel label = true) (hlead : IsLine lead) :
    IsLine (lead ++ label ++ dashes) := by
  intro c hmem
  rw [List.mem_append, List.mem_append] at hmem
  rcases hmem with (hmem | hmem) | hmem
  · exact hlead c hmem
  · exact (clear_of_mem_label h hmem).2
  · have hdashes : IsLine dashes := by decide
    exact hdashes c hmem

/-- A first line names its label. -/
theorem label?_opening (h : isLabel label = true) :
    label? (opening ++ (label ++ dashes)) = some label := by
  have hlabel : ∀ c ∈ label, (c != '-') = true := by
    intro c hmem
    simpa using (clear_of_mem_label h hmem).1
  have htake : (label ++ dashes).takeWhile (· != '-') = label := by
    rw [List.takeWhile_append_of_pos hlabel]
    simp [dashes]
  have hdrop : (label ++ dashes).dropWhile (· != '-') = dashes := by
    rw [List.dropWhile_append_of_pos hlabel]
    simp [dashes]
  rw [label?, dropLead?_append]
  simp [htake, hdrop, h]

/-- Lines between a first and a last line that name a label. -/
def frame (label : List Char) (newline : Newline) (texts : List (List Char)) : List Char :=
  opening ++ label ++ dashes ++ newline.chars ++ texts.flatMap (· ++ newline.chars) ++
    closing ++ label ++ dashes

/-- An armoured text frames the lines that its symbols are wrapped in. -/
theorem encode_eq_frame (label : List Char) (newline : Newline) (bytes : List UInt8) :
    encode label newline bytes = frame label newline (wrap (Base64.encode bytes)) := rfl

/-- The lines of a text are those that were framed, and the first and the last. -/
theorem lines_frame (h : isLabel label = true) (newline : Newline) {texts : List (List Char)}
    (htexts : ∀ line ∈ texts, IsLine line) :
    lines (frame label newline texts) =
      (opening ++ label ++ dashes) :: (texts ++ [closing ++ label ++ dashes]) := by
  have hall : ∀ line ∈ (opening ++ label ++ dashes) :: texts, IsLine line := by
    intro line hmem
    rcases List.mem_cons.1 hmem with rfl | hmem
    · exact isLine_around h (by decide)
    · exact htexts line hmem
  have hlast : IsLine (closing ++ label ++ dashes) := isLine_around h (by decide)
  have hjoined := lines_flatMap newline hall hlast
  simpa [frame] using hjoined

/-- Framed lines are read as the bytes of their symbols. -/
theorem decode_frame (h : isLabel label = true) (newline : Newline) {texts : List (List Char)}
    (htexts : ∀ line ∈ texts, IsLine line) :
    decode (frame label newline texts) = (joinLines texts).bind Base64.decode := by
  have hopening : fromOpening? (frame label newline texts) = some (frame label newline texts) := by
    have hlead : (dropLead? opening (frame label newline texts)).isSome = true := by
      simp [frame]
    rw [fromOpening?, if_pos hlead]
  simp [decode, hopening, lines_frame h newline htexts, label?_opening h]

/-- An armoured text is read as its bytes. -/
theorem decode_encode (h : isLabel label = true) (newline : Newline) (bytes : List UInt8) :
    decode (encode label newline bytes) = some bytes := by
  have hsymbols : ∀ line ∈ wrap (Base64.encode bytes), IsLine line := by
    intro line hline c hmem
    have hwritten := Base64.isWritten_of_mem_encode (mem_of_mem_wrap hline hmem)
    exact not_newline_of_not_blank hwritten.clear.1
  obtain ⟨body, filler, heq, hbody, hfiller⟩ := Base64.exists_body_encode bytes
  rw [encode_eq_frame, decode_frame h newline hsymbols,
    joinLines_wrap (Base64.length_encode_mod bytes) heq hbody hfiller, Option.bind_some,
    Base64.decode_encode]

end Pem

end SigningKeys
