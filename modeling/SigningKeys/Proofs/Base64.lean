import SigningKeys.Base64
import SigningKeys.Text.Blank

/-!
# Bytes from their base64 text

The text of bytes is read as the same bytes in either alphabet (`decode_encode`,
`decodeUrl_encodeUrl`). In the standard one it consists of symbols and fillers only, none of which
is blank or a hyphen; it is the only text that is read as these bytes (`encode_of_decode`), and a
longer text that begins with it is read as more bytes, if at all (`exists_ne_nil_of_decode`).
-/

namespace SigningKeys.Base64

/-! ## Symbols -/

/-- A symbol stands for the number that it is the symbol for. -/
@[simp]
theorem value?_symbol (alphabet : Alphabet) {value : Nat} (h : value < 64) :
    alphabet.value? (alphabet.symbol value) = some value := by
  cases alphabet <;> decide +revert

/-- The filler stands for no number. -/
theorem value?_filler (alphabet : Alphabet) : alphabet.value? '=' = none := by
  cases alphabet <;> decide

/-- A symbol is not the filler. -/
theorem symbol_ne_filler (alphabet : Alphabet) {value : Nat} (h : value < 64) :
    alphabet.symbol value ≠ '=' := by
  cases alphabet <;> decide +revert

/-- A symbol is the one for the number that it stands for. -/
theorem symbol_of_value? {alphabet : Alphabet} {c : Char} {value : Nat}
    (h : alphabet.value? c = some value) : value < 64 ∧ alphabet.symbol value = c := by
  -- In each range of the alphabet, the character is found from its distance to the first one.
  have hrange : ∀ {first last : Char} (offset : Nat), (first ≤ c ∧ c ≤ last) →
      c.toNat - first.toNat + offset = value →
      value ≤ last.toNat - first.toNat + offset ∧ offset ≤ value ∧
        Char.ofNat (first.toNat + (value - offset)) = c := by
    intro first last offset hc hvalue
    have hfirst : first.toNat ≤ c.toNat := hc.1
    have hlast : c.toNat ≤ last.toNat := hc.2
    have hchar : first.toNat + (value - offset) = c.toNat := by omega
    exact ⟨by omega, by omega, by rw [hchar, Char.ofNat_toNat]⟩
  unfold Alphabet.value? at h
  split at h
  · next hc =>
      obtain ⟨hle, -, hchar⟩ := hrange 0 hc (Option.some.inj h)
      have hlt : value < 26 := Nat.lt_succ_of_le hle
      exact ⟨by omega, by rw [Alphabet.symbol, if_pos hlt]; exact hchar⟩
  · split at h
    · next hc =>
        obtain ⟨hle, hge, hchar⟩ := hrange _ hc (Option.some.inj h)
        have hlt : value < 52 := Nat.lt_succ_of_le hle
        refine ⟨by omega, ?_⟩
        rw [Alphabet.symbol, if_neg (by omega), if_pos hlt]
        exact hchar
    · split at h
      · next hc =>
          obtain ⟨hle, hge, hchar⟩ := hrange _ hc (Option.some.inj h)
          have hlt : value < 62 := Nat.lt_succ_of_le hle
          refine ⟨by omega, ?_⟩
          rw [Alphabet.symbol, if_neg (by omega), if_neg (by omega), if_pos hlt]
          exact hchar
      · split at h
        · next hc =>
            cases h
            exact ⟨by decide, hc.symm⟩
        · split at h
          · next hc =>
              cases h
              exact ⟨by decide, hc.symm⟩
          · cases h

/-- A character of a text: a symbol of the standard alphabet or the filler. -/
def IsWritten (c : Char) : Prop := c = '=' ∨ ∃ value < 64, c = Alphabet.standard.symbol value

/-- No character of a text is blank or a hyphen. -/
theorem IsWritten.clear {c : Char} (h : IsWritten c) : Text.isBlank c = false ∧ c ≠ '-' := by
  rcases h with rfl | ⟨value, hvalue, rfl⟩
  · decide
  · decide +revert

/-! ## Groups -/

/-- Four symbols of three bytes stand for these. -/
theorem readQuad_symbols (alphabet : Alphabet) (a b c : UInt8) :
    let n := a.toNat * 65536 + b.toNat * 256 + c.toNat
    readQuad alphabet (alphabet.symbol (n / 262144)) (alphabet.symbol (n / 4096 % 64))
      (alphabet.symbol (n / 64 % 64)) (alphabet.symbol (n % 64)) = some [a, b, c] := by
  intro n
  have ha := a.toNat_lt
  have hb := b.toNat_lt
  have hc := c.toNat_lt
  -- The digits in base 64 make up the number, and its digits in base 256 are the bytes.
  have hn : n / 262144 * 262144 + n / 4096 % 64 * 4096 + n / 64 % 64 * 64 + n % 64 = n := by omega
  have hfirst : n / 262144 < 64 := by omega
  have hdigit : ∀ m, m % 64 < 64 := fun m ↦ Nat.mod_lt m (by omega)
  simp only [readQuad, value?_symbol _ hfirst, value?_symbol _ (hdigit _), Option.bind_eq_bind,
    Option.bind_some, Option.pure_def, hn]
  have hhigh : n / 65536 = a.toNat := by omega
  have hmiddle : n / 256 % 256 = b.toNat := by omega
  have hlow : n % 256 = c.toNat := by omega
  simp [hhigh, hmiddle, hlow]

/-- Three symbols of two bytes stand for these. -/
theorem readTriple_symbols (alphabet : Alphabet) (a b : UInt8) :
    let n := a.toNat * 256 + b.toNat
    readTriple alphabet (alphabet.symbol (n / 1024)) (alphabet.symbol (n / 16 % 64))
      (alphabet.symbol (n % 16 * 4)) = some [a, b] := by
  intro n
  have ha := a.toNat_lt
  have hb := b.toNat_lt
  have hn : n / 1024 * 4096 + n / 16 % 64 * 64 + n % 16 * 4 = n * 4 := by omega
  have hfirst : n / 1024 < 64 := by omega
  have hsecond : n / 16 % 64 < 64 := Nat.mod_lt _ (by omega)
  have hthird : n % 16 * 4 < 64 := by omega
  simp only [readTriple, value?_symbol _ hfirst, value?_symbol _ hsecond, value?_symbol _ hthird,
    Option.bind_eq_bind, Option.bind_some, Option.pure_def, hn]
  have hzero : n * 4 % 4 = 0 := by omega
  have hhigh : n * 4 / 1024 = a.toNat := by omega
  have hlow : n * 4 / 4 % 256 = b.toNat := by omega
  rw [if_pos hzero, hhigh, hlow]
  simp

/-- Two symbols of one byte stand for it. -/
theorem readPair_symbols (alphabet : Alphabet) (a : UInt8) :
    readPair alphabet (alphabet.symbol (a.toNat / 4)) (alphabet.symbol (a.toNat % 4 * 16)) =
      some [a] := by
  have ha := a.toNat_lt
  have hn : a.toNat / 4 * 64 + a.toNat % 4 * 16 = a.toNat * 16 := by omega
  have hfirst : a.toNat / 4 < 64 := by omega
  have hsecond : a.toNat % 4 * 16 < 64 := by omega
  simp only [readPair, value?_symbol _ hfirst, value?_symbol _ hsecond, Option.bind_eq_bind,
    Option.bind_some, Option.pure_def, hn]
  have hzero : a.toNat * 16 % 16 = 0 := by omega
  have hbyte : a.toNat * 16 / 16 = a.toNat := by omega
  rw [if_pos hzero, hbyte]
  simp

/-- Four symbols are those of the three bytes that they stand for. -/
theorem quad_of_readQuad {alphabet : Alphabet} {w x y z : Char} {group : List UInt8}
    (h : readQuad alphabet w x y z = some group) :
    ∃ a b c, group = [a, b, c] ∧ quad alphabet a b c = [w, x, y, z] := by
  simp only [readQuad, Option.bind_eq_bind, Option.bind_eq_some_iff, Option.pure_def,
    Option.some.injEq] at h
  obtain ⟨first, hfirst, second, hsecond, third, hthird, fourth, hfourth, rfl⟩ := h
  obtain ⟨hfirstLt, rfl⟩ := symbol_of_value? hfirst
  obtain ⟨hsecondLt, rfl⟩ := symbol_of_value? hsecond
  obtain ⟨hthirdLt, rfl⟩ := symbol_of_value? hthird
  obtain ⟨hfourthLt, rfl⟩ := symbol_of_value? hfourth
  refine ⟨_, _, _, rfl, ?_⟩
  -- The bytes make up the number that the symbols make up.
  generalize hn : first * 262144 + second * 4096 + third * 64 + fourth = n
  have hlt : n < 16777216 := by omega
  have hbytes : n / 65536 % 256 * 65536 + n / 256 % 256 % 256 * 256 + n % 256 % 256 = n := by
    clear hn
    omega
  simp only [quad, UInt8.toNat_ofNat', Nat.reducePow, hbytes]
  have h1 : n / 262144 = first := by omega
  have h2 : n / 4096 % 64 = second := by omega
  have h3 : n / 64 % 64 = third := by omega
  have h4 : n % 64 = fourth := by omega
  rw [h1, h2, h3, h4]

/-- Three symbols are those of the two bytes that they stand for. -/
theorem triple_of_readTriple {alphabet : Alphabet} {w x y : Char} {group : List UInt8}
    (h : readTriple alphabet w x y = some group) :
    ∃ a b, group = [a, b] ∧ triple alphabet a b = [w, x, y] := by
  simp only [readTriple, Option.bind_eq_bind, Option.bind_eq_some_iff] at h
  obtain ⟨first, hfirst, second, hsecond, third, hthird, h⟩ := h
  obtain ⟨hfirstLt, rfl⟩ := symbol_of_value? hfirst
  obtain ⟨hsecondLt, rfl⟩ := symbol_of_value? hsecond
  obtain ⟨hthirdLt, rfl⟩ := symbol_of_value? hthird
  split at h
  · next hzero =>
      cases h
      refine ⟨_, _, rfl, ?_⟩
      generalize hn : first * 4096 + second * 64 + third = n at hzero
      have hlt : n < 262144 := by omega
      have hbytes : n / 1024 % 256 * 256 + n / 4 % 256 % 256 = n / 4 := by
        clear hn
        omega
      simp only [triple, UInt8.toNat_ofNat', Nat.reducePow, hbytes]
      have h1 : n / 4 / 1024 = first := by omega
      have h2 : n / 4 / 16 % 64 = second := by omega
      have h3 : n / 4 % 16 * 4 = third := by omega
      rw [h1, h2, h3]
  · cases h

/-- Two symbols are those of the byte that they stand for. -/
theorem pair_of_readPair {alphabet : Alphabet} {w x : Char} {group : List UInt8}
    (h : readPair alphabet w x = some group) : ∃ a, group = [a] ∧ pair alphabet a = [w, x] := by
  simp only [readPair, Option.bind_eq_bind, Option.bind_eq_some_iff] at h
  obtain ⟨first, hfirst, second, hsecond, h⟩ := h
  obtain ⟨hfirstLt, rfl⟩ := symbol_of_value? hfirst
  obtain ⟨hsecondLt, rfl⟩ := symbol_of_value? hsecond
  split at h
  · next hzero =>
      cases h
      refine ⟨_, rfl, ?_⟩
      generalize hn : first * 64 + second = n at hzero
      have hbyte : n / 16 % 256 = n / 16 := by omega
      simp only [pair, UInt8.toNat_ofNat', Nat.reducePow, hbyte]
      have h1 : n / 16 / 4 = first := by omega
      have h2 : n / 16 % 4 * 16 = second := by omega
      rw [h1, h2]
  · cases h

/-- The symbols of one byte are not fillers. -/
theorem filler_not_mem_pair (alphabet : Alphabet) (a : UInt8) : '=' ∉ pair alphabet a := by
  have ha := a.toNat_lt
  simp only [pair, List.mem_cons, List.not_mem_nil, or_false, not_or]
  refine ⟨?_, ?_⟩ <;> exact (symbol_ne_filler alphabet (by omega)).symm

/-- The symbols of two bytes are not fillers. -/
theorem filler_not_mem_triple (alphabet : Alphabet) (a b : UInt8) :
    '=' ∉ triple alphabet a b := by
  have ha := a.toNat_lt
  have hb := b.toNat_lt
  simp only [triple, List.mem_cons, List.not_mem_nil, or_false, not_or]
  refine ⟨?_, ?_, ?_⟩ <;> exact (symbol_ne_filler alphabet (by omega)).symm

/-- The symbols of three bytes are not fillers. -/
theorem filler_not_mem_quad (alphabet : Alphabet) (a b c : UInt8) :
    '=' ∉ quad alphabet a b c := by
  have ha := a.toNat_lt
  have hb := b.toNat_lt
  have hc := c.toNat_lt
  simp only [quad, List.mem_cons, List.not_mem_nil, or_false, not_or]
  refine ⟨?_, ?_, ?_, ?_⟩ <;> exact (symbol_ne_filler alphabet (by omega)).symm

/-! ## Texts -/

/-- A full group is read before the groups that follow it. -/
theorem decode_group {w x y z : Char} {group : List UInt8} (hz : z ≠ '=')
    (hgroup : readQuad .standard w x y z = some group) (rest : List Char) :
    decode (w :: x :: y :: z :: rest) = (decode rest).map (group ++ ·) := by
  rw [decode]
  · rw [hgroup]
    cases decode rest <;> rfl
  · intro _ heq
    exact absurd heq hz
  · intro heq
    exact absurd heq hz

/-- The text of bytes is read as these bytes. -/
@[simp]
theorem decode_encode (bytes : List UInt8) : decode (encode bytes) = some bytes := by
  induction bytes using encode.induct with
  | case1 => rfl
  | case2 a => exact readPair_symbols .standard a
  | case3 a b =>
      -- The third symbol is no filler, so this is not read as a group of two.
      have hlast : (a.toNat * 256 + b.toNat) % 16 * 4 < 64 := by omega
      show decode [_, _, _, '='] = _
      rw [decode]
      · exact readTriple_symbols .standard a b
      · exact symbol_ne_filler .standard hlast
  | case4 a b c rest ih =>
      show decode (_ :: _ :: _ :: _ :: encode rest) = _
      rw [decode_group (symbol_ne_filler .standard (by omega)) (readQuad_symbols .standard a b c),
        ih]
      rfl

/-- A text that is read is the one that is written for what was read. -/
theorem encode_of_decode {text : List Char} {bytes : List UInt8}
    (h : decode text = some bytes) : encode bytes = text := by
  induction text using decode.induct generalizing bytes with
  | case1 =>
      cases h
      rfl
  | case2 w x =>
      obtain ⟨a, rfl, hpair⟩ := pair_of_readPair h
      rw [encode, hpair]
      rfl
  | case3 w x y hy =>
      rw [decode] at h
      · obtain ⟨a, b, rfl, htriple⟩ := triple_of_readTriple h
        rw [encode, htriple]
        rfl
      · exact hy
  | case4 w x y z rest hpair htriple ih =>
      rw [decode] at h
      · simp only [Option.bind_eq_bind, Option.bind_eq_some_iff, Option.pure_def,
          Option.some.injEq] at h
        obtain ⟨group, hgroup, others, hothers, rfl⟩ := h
        obtain ⟨a, b, c, rfl, hquad⟩ := quad_of_readQuad hgroup
        show encode (a :: b :: c :: others) = _
        rw [encode, hquad, ih hothers]
        rfl
      · exact hpair
      · exact htriple
  | case5 text hnil hpair htriple hquad =>
      rw [decode] at h
      · cases h
      · exact hnil
      · exact hpair
      · exact htriple
      · exact hquad

/-- No group of four symbols ends in a filler. -/
theorem decode_filler {more : List Char} (h : more ≠ []) (w x y : Char) :
    decode (w :: x :: y :: '=' :: more) = none := by
  rw [decode]
  · simp [readQuad, value?_filler]
  · rintro - - rfl
    exact h rfl
  · rintro - rfl
    exact h rfl

/-- What is read from a text with something after it begins with the bytes of the text. -/
theorem exists_append_of_decode {bytes found : List UInt8} {more : List Char}
    (h : decode (encode bytes ++ more) = some found) : ∃ rest, found = bytes ++ rest := by
  by_cases hmore : more = []
  · rw [hmore, List.append_nil, decode_encode] at h
    cases h
    exact ⟨[], (List.append_nil bytes).symm⟩
  induction bytes using encode.induct generalizing found with
  | case1 => exact ⟨found, rfl⟩
  | case2 a => cases (decode_filler hmore _ _ _).symm.trans h
  | case3 a b => cases (decode_filler hmore _ _ _).symm.trans h
  | case4 a b c rest ih =>
      change decode (_ :: _ :: _ :: _ :: (encode rest ++ more)) = _ at h
      rw [decode_group (symbol_ne_filler .standard (by omega)) (readQuad_symbols .standard a b c),
        Option.map_eq_some_iff] at h
      obtain ⟨others, hothers, rfl⟩ := h
      obtain ⟨more, rfl⟩ := ih hothers
      exact ⟨more, rfl⟩

/-- Something after a text adds bytes, if it is read at all. -/
theorem exists_ne_nil_of_decode {bytes found : List UInt8} {more : List Char} (hmore : more ≠ [])
    (h : decode (encode bytes ++ more) = some found) :
    ∃ rest, rest ≠ [] ∧ found = bytes ++ rest := by
  obtain ⟨rest, rfl⟩ := exists_append_of_decode h
  refine ⟨rest, ?_, rfl⟩
  rintro rfl
  have htext := encode_of_decode h
  simp only [List.append_nil, List.self_eq_append_right] at htext
  exact hmore htext
/-- The text of bytes consists of symbols and fillers. -/
theorem isWritten_of_mem_encode {bytes : List UInt8} {c : Char} (h : c ∈ encode bytes) :
    IsWritten c := by
  induction bytes using encode.induct with
  | case1 => simp [encode] at h
  | case2 a =>
      have ha := a.toNat_lt
      simp only [encode, pair, List.cons_append, List.nil_append, List.mem_cons, List.not_mem_nil,
        or_false] at h
      rcases h with rfl | rfl | rfl | rfl
      · exact .inr ⟨_, by omega, rfl⟩
      · exact .inr ⟨_, by omega, rfl⟩
      · exact .inl rfl
      · exact .inl rfl
  | case3 a b =>
      have ha := a.toNat_lt
      have hb := b.toNat_lt
      simp only [encode, triple, List.cons_append, List.nil_append, List.mem_cons,
        List.not_mem_nil, or_false] at h
      rcases h with rfl | rfl | rfl | rfl
      · exact .inr ⟨_, by omega, rfl⟩
      · exact .inr ⟨_, by omega, rfl⟩
      · exact .inr ⟨_, by omega, rfl⟩
      · exact .inl rfl
  | case4 a b c rest ih =>
      have ha := a.toNat_lt
      have hb := b.toNat_lt
      have hc := c.toNat_lt
      simp only [encode, quad, List.cons_append, List.nil_append, List.mem_cons] at h
      rcases h with rfl | rfl | rfl | rfl | hrest
      · exact .inr ⟨_, by omega, rfl⟩
      · exact .inr ⟨_, by omega, rfl⟩
      · exact .inr ⟨_, by omega, rfl⟩
      · exact .inr ⟨_, by omega, rfl⟩
      · exact ih hrest

/-- A text has at least as many characters as the bytes that it is written for. -/
theorem length_le_length_encode (bytes : List UInt8) : bytes.length ≤ (encode bytes).length := by
  induction bytes using encode.induct with
  | case1 | case2 | case3 => simp [encode, pair, triple]
  | case4 a b c rest ih =>
      simp only [encode, quad, List.length_append, List.length_cons, List.length_nil]
      omega

/-- A text stands for no more bytes than it has characters. -/
theorem length_decode_le {text : List Char} {bytes : List UInt8} (h : decode text = some bytes) :
    bytes.length ≤ text.length := by
  rw [← encode_of_decode h]
  exact length_le_length_encode bytes

/-- Only no bytes have an empty text. -/
theorem encode_ne_nil {bytes : List UInt8} (h : bytes ≠ []) : encode bytes ≠ [] := by
  cases bytes using encode.induct with
  | case1 => exact absurd rfl h
  | case2 | case3 | case4 => simp [encode, pair, triple, quad]

/-- A text is filled with at most two fillers, all of them at its end. -/
theorem exists_body_encode (bytes : List UInt8) :
    ∃ body filler, encode bytes = body ++ filler ∧ '=' ∉ body ∧ filler.length ≤ 2 := by
  induction bytes using encode.induct with
  | case1 => exact ⟨[], [], rfl, by simp, by simp⟩
  | case2 a => exact ⟨pair .standard a, ['=', '='], rfl, filler_not_mem_pair _ a, by simp⟩
  | case3 a b => exact ⟨triple .standard a b, ['='], rfl, filler_not_mem_triple _ a b, by simp⟩
  | case4 a b c rest ih =>
      obtain ⟨body, filler, hencode, hbody, hfiller⟩ := ih
      refine ⟨quad .standard a b c ++ body, filler, ?_, ?_, hfiller⟩
      · rw [encode, hencode, List.append_assoc]
      · exact List.not_mem_append (filler_not_mem_quad _ a b c) hbody

/-- A text consists of groups of four. -/
theorem length_encode_mod (bytes : List UInt8) : (encode bytes).length % 4 = 0 := by
  induction bytes using encode.induct with
  | case1 | case2 | case3 => simp [encode, pair, triple]
  | case4 a b c rest ih => simp [encode, quad, Nat.add_mod, ih]

/-! ## Texts in the alphabet for URLs -/

/-- A full group is read before the groups that follow it. -/
theorem decodeUrl_group {w x y z : Char} {group : List UInt8} (hz : z ≠ '=')
    (hgroup : readQuad .url w x y z = some group) (rest : List Char) :
    decodeUrl (w :: x :: y :: z :: rest) = (decodeUrl rest).map (group ++ ·) := by
  rw [decodeUrl]
  · rw [hgroup]
    cases decodeUrl rest <;> rfl
  · intro _ heq
    exact absurd heq hz
  · intro heq
    exact absurd heq hz

/-- The text of bytes in the alphabet for URLs is read as these bytes. -/
@[simp]
theorem decodeUrl_encodeUrl (bytes : List UInt8) : decodeUrl (encodeUrl bytes) = some bytes := by
  induction bytes using encodeUrl.induct with
  | case1 => rfl
  | case2 a => exact readPair_symbols .url a
  | case3 a b =>
      -- The third symbol is no filler, so this is not read as a group of two.
      have hlast : (a.toNat * 256 + b.toNat) % 16 * 4 < 64 := by omega
      show decodeUrl [_, _, _] = _
      rw [decodeUrl]
      · exact readTriple_symbols .url a b
      · exact symbol_ne_filler .url hlast
  | case4 a b c rest ih =>
      show decodeUrl (_ :: _ :: _ :: _ :: encodeUrl rest) = _
      rw [decodeUrl_group (symbol_ne_filler .url (by omega)) (readQuad_symbols .url a b c), ih]
      rfl

end SigningKeys.Base64
