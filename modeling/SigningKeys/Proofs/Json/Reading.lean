import Mathlib.Data.List.DropRight
import SigningKeys.Proofs.Json.Token

/-!
# Documents in JSON read back

A document is spelled by many texts, which differ in the blanks between tokens: by the text on one
line (`textOf_print`) and by the indented one (`textOf_printIndented`). Every text that spells a
document is read as this document (`parse_of_textOf`), so what is written is read back, whatever
the document.
-/

namespace SigningKeys.Json

open Text

/-! ## Blanks -/

/-- All characters are blanks. -/
def AreBlank (blanks : List Char) : Prop := ∀ c ∈ blanks, isBlank c = true

/-- No character is a blank. -/
theorem areBlank_nil : AreBlank [] := fun _ h ↦ nomatch h

/-- One blank. -/
theorem areBlank_singleton : AreBlank [' '] := by
  intro c hc
  rw [List.mem_singleton.1 hc]
  rfl

/-- A new line at any level is blank. -/
theorem areBlank_indentation (level : Nat) : AreBlank (Value.indentation level) := by
  intro c hc
  rcases List.mem_cons.1 hc with rfl | hc
  · rfl
  · rw [List.eq_of_mem_replicate hc]
    rfl

/-- Blanks are skipped. -/
theorem skipBlanks_append {blanks : List Char} (h : AreBlank blanks) (text : List Char) :
    skipBlanks (blanks ++ text) = skipBlanks text :=
  List.dropWhile_append_of_pos h

/-- A text that begins with no blank is left as it is. -/
theorem skipBlanks_cons {c : Char} (h : isBlank c = false) (text : List Char) :
    skipBlanks (c :: text) = c :: text := by
  rw [skipBlanks, List.dropWhile_cons_of_neg (by simp [h])]

/-- Blanks are skipped up to the first other character. -/
theorem skipBlanks_append_cons {blanks : List Char} {c : Char} (hblanks : AreBlank blanks)
    (hc : isBlank c = false) (text : List Char) :
    skipBlanks (blanks ++ c :: text) = c :: text := by
  rw [skipBlanks_append hblanks, skipBlanks_cons hc]

/-- Skipping blanks leaves none to skip. -/
theorem skipBlanks_idem (text : List Char) : skipBlanks (skipBlanks text) = skipBlanks text :=
  List.dropWhile_idempotent isBlank text

/-! ## Texts of documents -/

mutual

/-- The text spells the value: it begins and ends with its tokens and has any blanks between
them. -/
inductive TextOf : Value → List Char → Prop
  | null : TextOf .null "null".toList
  | bool (value : Bool) : TextOf (.bool value) (printBool value)
  | number (n : Numeral) : TextOf (.number n) n.print
  | string (s : Option String) : TextOf (.string s) (printString s)
  | noItems : TextOf (.array []) ['[', ']']
  | array {items : List Value} {text : List Char} (hitems : ItemsTextOf items text) :
      TextOf (.array items) ('[' :: text)
  | noMembers : TextOf (.object []) ['\x7b', '\x7d']
  | object {members : Members} {text : List Char} (hmembers : MembersTextOf members text) :
      TextOf (.object members) ('\x7b' :: text)

/-- The text spells the items of an array and its closing bracket. -/
inductive ItemsTextOf : List Value → List Char → Prop
  | last {item : Value} {before text after : List Char} (hbefore : AreBlank before)
      (hitem : TextOf item text) (hafter : AreBlank after) :
      ItemsTextOf [item] (before ++ (text ++ (after ++ [']'])))
  | cons {item : Value} {items : List Value} {before text rest : List Char}
      (hbefore : AreBlank before) (hitem : TextOf item text) (hitems : ItemsTextOf items rest) :
      ItemsTextOf (item :: items) (before ++ (text ++ ',' :: rest))

/-- The text spells the members of an object and its closing brace. -/
inductive MembersTextOf : Members → List Char → Prop
  | last {name : Option String} {value : Value} {before gap text after : List Char}
      (hbefore : AreBlank before) (hgap : AreBlank gap) (hvalue : TextOf value text)
      (hafter : AreBlank after) :
      MembersTextOf [(name, value)]
        (before ++ (printString name ++ ':' :: (gap ++ (text ++ (after ++ ['\x7d'])))))
  | cons {name : Option String} {value : Value} {members : Members}
      {before gap text rest : List Char} (hbefore : AreBlank before) (hgap : AreBlank gap)
      (hvalue : TextOf value text) (hmembers : MembersTextOf members rest) :
      MembersTextOf ((name, value) :: members)
        (before ++ (printString name ++ ':' :: (gap ++ (text ++ ',' :: rest))))

end

/-! ## Writing -/

-- Both recursions are on the value. An array without items and an object without members are cases
-- of their own, since their brackets stand together.

mutual

/-- The text on one line spells the value. -/
theorem textOf_print : ∀ value : Value, TextOf value value.print
  | .null => .null
  | .bool value => .bool value
  | .number n => .number n
  | .string s => .string s
  | .array [] => .noItems
  | .array (item :: items) => .array (itemsTextOf_printItems (item :: items) (List.cons_ne_nil _ _))
  | .object [] => .noMembers
  | .object (member :: members) =>
      .object (membersTextOf_printMembers (member :: members) (List.cons_ne_nil _ _))

/-- The items on one line are spelled. -/
theorem itemsTextOf_printItems : ∀ items : List Value, items ≠ [] →
    ItemsTextOf items (Value.printItems items ++ [']'])
  | [], h => absurd rfl h
  | [item], _ => .last areBlank_nil (textOf_print item) areBlank_nil
  | item :: next :: items, _ => by
      have hitem := textOf_print item
      have hitems := itemsTextOf_printItems (next :: items) (List.cons_ne_nil _ _)
      rw [Value.printItems, List.append_assoc]
      · exact .cons areBlank_nil hitem hitems
      · exact List.cons_ne_nil _ _

/-- The members on one line are spelled. -/
theorem membersTextOf_printMembers : ∀ members : Members, members ≠ [] →
    MembersTextOf members (Value.printMembers members ++ ['\x7d'])
  | [], h => absurd rfl h
  | [(name, value)], _ => by
      have hvalue := textOf_print value
      rw [Value.printMembers, List.append_assoc]
      exact .last areBlank_nil areBlank_nil hvalue areBlank_nil
  | (name, value) :: next :: members, _ => by
      have hvalue := textOf_print value
      have hmembers := membersTextOf_printMembers (next :: members) (List.cons_ne_nil _ _)
      rw [Value.printMembers]
      · simp only [List.append_assoc, List.cons_append]
        exact .cons areBlank_nil areBlank_nil hvalue hmembers
      · exact List.cons_ne_nil _ _

end

mutual

/-- The indented text spells the value. -/
theorem textOf_printIndented : ∀ (value : Value) (level : Nat),
    TextOf value (value.printIndented level)
  | .null, _ => .null
  | .bool value, _ => .bool value
  | .number n, _ => .number n
  | .string s, _ => .string s
  | .array [], _ => .noItems
  | .array (item :: items), level => by
      have hitems := itemsTextOf_printIndentedItems (item :: items) (List.cons_ne_nil _ _)
        (level + 1) (areBlank_indentation level)
      rw [Value.printIndented, List.append_assoc]
      · exact .array hitems
      · exact List.cons_ne_nil _ _
  | .object [], _ => .noMembers
  | .object (member :: members), level => by
      have hmembers := membersTextOf_printIndentedMembers (member :: members) (List.cons_ne_nil _ _)
        (level + 1) (areBlank_indentation level)
      rw [Value.printIndented, List.append_assoc]
      · exact .object hmembers
      · exact List.cons_ne_nil _ _

/-- The indented items are spelled, whatever blanks follow the last. -/
theorem itemsTextOf_printIndentedItems : ∀ items : List Value, items ≠ [] → ∀ (level : Nat)
    {after : List Char}, AreBlank after →
      ItemsTextOf items (Value.printIndentedItems level items ++ (after ++ [']']))
  | [], h => absurd rfl h
  | [item], _ => by
      intro level after hafter
      have hitem := textOf_printIndented item level
      rw [Value.printIndentedItems, List.append_assoc]
      exact .last (areBlank_indentation level) hitem hafter
  | item :: next :: items, _ => by
      intro level after hafter
      have hitem := textOf_printIndented item level
      have hitems :=
        itemsTextOf_printIndentedItems (next :: items) (List.cons_ne_nil _ _) level hafter
      rw [Value.printIndentedItems]
      · simp only [List.append_assoc, List.cons_append]
        exact .cons (areBlank_indentation level) hitem hitems
      · exact List.cons_ne_nil _ _

/-- The indented members are spelled, whatever blanks follow the last. -/
theorem membersTextOf_printIndentedMembers : ∀ members : Members, members ≠ [] → ∀ (level : Nat)
    {after : List Char}, AreBlank after →
      MembersTextOf members (Value.printIndentedMembers level members ++ (after ++ ['\x7d']))
  | [], h => absurd rfl h
  | [(name, value)], _ => by
      intro level after hafter
      have hvalue := textOf_printIndented value level
      rw [Value.printIndentedMembers]
      simp only [List.append_assoc, List.cons_append]
      exact .last (areBlank_indentation level) areBlank_singleton hvalue hafter
  | (name, value) :: next :: members, _ => by
      intro level after hafter
      have hvalue := textOf_printIndented value level
      have hmembers :=
        membersTextOf_printIndentedMembers (next :: members) (List.cons_ne_nil _ _) level hafter
      rw [Value.printIndentedMembers]
      · simp only [List.append_assoc, List.cons_append]
        exact .cons (areBlank_indentation level) areBlank_singleton hvalue hmembers
      · exact List.cons_ne_nil _ _

end

/-! ## Reading -/

/-- A character with which a number begins is no blank, bracket, quotation mark or letter. -/
theorem numeral_head {c : Char} (h : c = '-' ∨ Decimal.isDigit c = true) :
    isBlank c = false ∧ c ∉ ['"', '[', ']', '\x7b', 'n', 't', 'f'] := by
  rcases h with rfl | h
  · decide
  · constructor
    · rw [isBlank]
      by_contra hblank
      simp only [Bool.or_eq_false_iff, not_and_or, beq_eq_false_iff_ne, ne_eq, not_not] at hblank
      rcases hblank with ((rfl | rfl) | rfl) | rfl <;> cases h
    · intro hc
      simp only [List.mem_cons, List.not_mem_nil, or_false] at hc
      rcases hc with rfl | rfl | rfl | rfl | rfl | rfl | rfl <;> cases h

/-- A spelled value begins with a character that is neither a blank nor a closing bracket. -/
theorem TextOf.exists_head {value : Value} {text : List Char} (h : TextOf value text) :
    ∃ c rest, text = c :: rest ∧ isBlank c = false ∧ c ≠ ']' := by
  cases h with
  | null => exact ⟨'n', ['u', 'l', 'l'], by decide, rfl, by decide⟩
  | bool value =>
      cases value with
      | false => exact ⟨'f', ['a', 'l', 's', 'e'], by decide, rfl, by decide⟩
      | true => exact ⟨'t', ['r', 'u', 'e'], by decide, rfl, by decide⟩
  | number n =>
      obtain ⟨c, rest, htext, hc⟩ := n.exists_print_eq_cons
      have hhead := numeral_head hc
      exact ⟨c, rest, htext, hhead.1, fun hbracket ↦ hhead.2 (by simp [hbracket])⟩
  | string s =>
      obtain ⟨text, htext, -⟩ := readString_printString s []
      rw [List.append_nil] at htext
      exact ⟨'"', text, htext, rfl, by decide⟩
  | noItems => exact ⟨'[', _, rfl, rfl, by decide⟩
  | array hitems => exact ⟨'[', _, rfl, rfl, by decide⟩
  | noMembers => exact ⟨'\x7b', _, rfl, rfl, by decide⟩
  | object hmembers => exact ⟨'\x7b', _, rfl, rfl, by decide⟩

/-- Blanks before a value do not count. -/
theorem readValue_skipBlanks (fuel : Nat) (text : List Char) :
    readValue fuel (skipBlanks text) = readValue fuel text := by
  cases fuel with
  | zero => rw [readValue, readValue]
  | succ fuel => rw [readValue, readValue, skipBlanks_idem]

/-- Any blanks before a value are skipped. -/
theorem readValue_skip (fuel : Nat) {blanks : List Char} (h : AreBlank blanks)
    (text : List Char) : readValue fuel (blanks ++ text) = readValue fuel text := by
  rw [← readValue_skipBlanks, skipBlanks_append h, readValue_skipBlanks]

/-- Blanks before the first item do not count. -/
theorem readItems_skipBlanks (fuel : Nat) (text : List Char) :
    readItems fuel (skipBlanks text) = readItems fuel text := by
  cases fuel with
  | zero => rw [readItems, readItems]
  | succ fuel => rw [readItems, readItems, readValue_skipBlanks]

/-- Blanks before the first member do not count. -/
theorem readMembers_skipBlanks (fuel : Nat) (text : List Char) :
    readMembers fuel (skipBlanks text) = readMembers fuel text := by
  cases fuel with
  | zero => rw [readMembers, readMembers]
  | succ fuel => rw [readMembers, readMembers, skipBlanks_idem]

/-- A value that begins with no bracket and no quotation mark is a number or a word. -/
theorem readValue_of_head (fuel : Nat) {c : Char} {text : List Char} (htext : text.head? = some c)
    (hblank : isBlank c = false) (hopen : c ∉ ['"', '[', '\x7b']) :
    readValue (fuel + 1) text = readScalar text := by
  obtain ⟨rest, rfl⟩ : ∃ rest, text = c :: rest := List.head?_eq_some_iff.1 htext
  simp only [List.mem_cons, List.not_mem_nil, or_false, not_or] at hopen
  rw [readValue, skipBlanks_cons hblank]
  split
  · next htext => exact absurd (List.cons.inj htext).1 hopen.1
  · next htext => exact absurd (List.cons.inj htext).1 hopen.2.1
  · next htext => exact absurd (List.cons.inj htext).1 hopen.2.2
  · rfl

/-- The word for no value is read. -/
theorem readValue_null (fuel : Nat) (rest : List Char) :
    readValue (fuel + 1) ("null".toList ++ rest) = some (.null, rest) := by
  rw [readValue_of_head fuel (c := 'n') (by simp) rfl (by decide), readScalar, dropLead?_append]

/-- The words for truth values are read. -/
theorem readValue_printBool (fuel : Nat) (value : Bool) (rest : List Char) :
    readValue (fuel + 1) (printBool value ++ rest) = some (.bool value, rest) := by
  cases value with
  | false =>
      have hwritten : printBool false = "false".toList := rfl
      rw [hwritten, readValue_of_head fuel (c := 'f') (by simp) rfl (by decide), readScalar,
        dropLead?_append]
      simp [dropLead?]
  | true =>
      have hwritten : printBool true = "true".toList := rfl
      rw [hwritten, readValue_of_head fuel (c := 't') (by simp) rfl (by decide), readScalar,
        dropLead?_append]
      simp [dropLead?]

/-- A number is read, if what follows does not go on with it. -/
theorem readValue_printNumeral (fuel : Nat) (n : Numeral) {rest : List Char}
    (hrest : EndsBefore continuesNumber rest) :
    readValue (fuel + 1) (n.print ++ rest) = some (.number n, rest) := by
  have hread := readNumeral_print n hrest
  obtain ⟨c, text, htext, hc⟩ := n.exists_print_eq_cons
  obtain ⟨hblank, hhead⟩ := numeral_head hc
  simp only [List.mem_cons, List.not_mem_nil, or_false, not_or] at hhead
  obtain ⟨hquote, hbracket, -, hbrace, hn, ht, hf⟩ := hhead
  rw [htext, List.cons_append] at hread ⊢
  rw [readValue_of_head fuel rfl hblank (by simp [hquote, hbracket, hbrace]), readScalar, hread]
  simp [dropLead?, Ne.symm hn, Ne.symm ht, Ne.symm hf]

/-- A string is read. -/
theorem readValue_printString (fuel : Nat) (s : Option String) (rest : List Char) :
    readValue (fuel + 1) (printString s ++ rest) = some (.string s, rest) := by
  obtain ⟨text, htext, hread⟩ := readString_printString s rest
  rw [htext, readValue, skipBlanks_cons rfl]
  simp only [hread, Option.map_some]

/-- An array is read if its items are. -/
theorem readValue_array {fuel : Nat} {text rest : List Char} {items : List Value} {c : Char}
    {tail : List Char} (hhead : skipBlanks text = c :: tail) (hc : c ≠ ']')
    (hread : readItems fuel text = some (items, rest)) :
    readValue (fuel + 1) ('[' :: text) = some (.array items, rest) := by
  rw [← readItems_skipBlanks, hhead] at hread
  rw [readValue, skipBlanks_cons rfl]
  simp only [hhead]
  split
  · next htext => exact absurd (List.cons.inj htext).1 hc
  · rw [hread, Option.map_some]

/-- An object is read if its members are. -/
theorem readValue_object {fuel : Nat} {text rest : List Char} {members : Members} {c : Char}
    {tail : List Char} (hhead : skipBlanks text = c :: tail) (hc : c ≠ '\x7d')
    (hread : readMembers fuel text = some (members, rest)) :
    readValue (fuel + 1) ('\x7b' :: text) = some (.object members, rest) := by
  rw [← readMembers_skipBlanks, hhead] at hread
  rw [readValue, skipBlanks_cons rfl]
  simp only [hhead]
  split
  · next htext => exact absurd (List.cons.inj htext).1 hc
  · rw [hread, Option.map_some]

/-- The last item is read with the closing bracket. -/
theorem readItems_last {fuel : Nat} {text after rest : List Char} {item : Value}
    (hitem : readValue fuel text = some (item, after ++ ']' :: rest)) (hafter : AreBlank after) :
    readItems (fuel + 1) text = some ([item], rest) := by
  rw [readItems, hitem]
  simp only [Option.bind_eq_bind, Option.bind_some,
    skipBlanks_append_cons hafter (c := ']') rfl]

/-- An item is read with the comma, and then the others are. -/
theorem readItems_cons {fuel : Nat} {text tail rest : List Char} {item : Value}
    {items : List Value} (hitem : readValue fuel text = some (item, ',' :: tail))
    (hitems : readItems fuel tail = some (items, rest)) :
    readItems (fuel + 1) text = some (item :: items, rest) := by
  rw [readItems, hitem]
  simp only [Option.bind_eq_bind, Option.bind_some, skipBlanks_cons (c := ',') rfl, hitems,
    Option.map_some]

/-- The last member is read with the closing brace. -/
theorem readMembers_last {fuel : Nat} {before tail after rest : List Char} {name : Option String}
    {value : Value} (hbefore : AreBlank before)
    (hvalue : readValue fuel tail = some (value, after ++ '\x7d' :: rest))
    (hafter : AreBlank after) :
    readMembers (fuel + 1) (before ++ (printString name ++ ':' :: tail)) =
      some ([(name, value)], rest) := by
  obtain ⟨text, htext, hname⟩ := readString_printString name (':' :: tail)
  rw [htext, readMembers, skipBlanks_append_cons hbefore rfl]
  simp only [hname, Option.bind_eq_bind, Option.bind_some, skipBlanks_cons (c := ':') rfl, hvalue,
    skipBlanks_append_cons hafter (c := '\x7d') rfl]

/-- A member is read with the comma, and then the others are. -/
theorem readMembers_cons {fuel : Nat} {before tail more rest : List Char} {name : Option String}
    {value : Value} {members : Members} (hbefore : AreBlank before)
    (hvalue : readValue fuel tail = some (value, ',' :: more))
    (hmembers : readMembers fuel more = some (members, rest)) :
    readMembers (fuel + 1) (before ++ (printString name ++ ':' :: tail)) =
      some ((name, value) :: members, rest) := by
  obtain ⟨text, htext, hname⟩ := readString_printString name (':' :: tail)
  rw [htext, readMembers, skipBlanks_append_cons hbefore rfl]
  simp only [hname, Option.bind_eq_bind, Option.bind_some, skipBlanks_cons (c := ':') rfl, hvalue,
    skipBlanks_cons (c := ',') rfl, hmembers, Option.map_some]

/-- A spelled array does not close before its first item. -/
theorem ItemsTextOf.exists_head {items : List Value} {text : List Char}
    (h : ItemsTextOf items text) (rest : List Char) :
    ∃ c tail, skipBlanks (text ++ rest) = c :: tail ∧ c ≠ ']' := by
  obtain ⟨before, text, tail, item, rfl, hbefore, hitem⟩ : ∃ before first tail item,
      text = before ++ (first ++ tail) ∧ AreBlank before ∧ TextOf item first := by
    cases h with
    | last hbefore hitem hafter => exact ⟨_, _, _, _, rfl, hbefore, hitem⟩
    | cons hbefore hitem hitems => exact ⟨_, _, _, _, rfl, hbefore, hitem⟩
  obtain ⟨c, first, rfl, hblank, hc⟩ := hitem.exists_head
  refine ⟨c, first ++ (tail ++ rest), ?_, hc⟩
  rw [List.append_assoc, skipBlanks_append hbefore, List.append_assoc, List.cons_append,
    skipBlanks_cons hblank]

/-- A spelled object does not close before its first member. -/
theorem MembersTextOf.exists_head {members : Members} {text : List Char}
    (h : MembersTextOf members text) (rest : List Char) :
    ∃ c tail, skipBlanks (text ++ rest) = c :: tail ∧ c ≠ '\x7d' := by
  obtain ⟨before, tail, name, rfl, hbefore⟩ : ∃ before tail name,
      text = before ++ (printString name ++ tail) ∧ AreBlank before := by
    cases h with
    | last hbefore hgap hvalue hafter => exact ⟨_, _, _, rfl, hbefore⟩
    | cons hbefore hgap hvalue hmembers => exact ⟨_, _, _, rfl, hbefore⟩
  obtain ⟨text, htext, -⟩ := readString_printString name (tail ++ rest)
  refine ⟨'"', text, ?_, by decide⟩
  rw [List.append_assoc, skipBlanks_append hbefore, List.append_assoc, htext, skipBlanks_cons rfl]

/-- What follows a value between brackets does not go on with a number. -/
theorem endsBefore_blank {after : List Char} {c : Char} (hafter : AreBlank after)
    (hc : continuesNumber c = false) (rest : List Char) :
    EndsBefore continuesNumber (after ++ c :: rest) := by
  cases after with
  | nil => exact endsBefore_cons hc
  | cons blank after =>
      refine endsBefore_cons ?_
      have hblank := hafter blank List.mem_cons_self
      simp only [isBlank, Bool.or_eq_true, beq_iff_eq] at hblank
      rcases hblank with ((rfl | rfl) | rfl) | rfl <;> decide

-- The induction is on the spelling. Each bracket, comma and quotation mark that is read shortens
-- the text by one, which pays for the step of the recursion that reads it.

mutual

/-- A value is read from every text that spells it, if the text does not go on with a number and
the recursion may go as deep as the text is long. -/
theorem TextOf.readValue_append {value : Value} {text : List Char} (h : TextOf value text) :
    ∀ {fuel : Nat} {rest : List Char}, text.length ≤ fuel → EndsBefore continuesNumber rest →
      readValue fuel (text ++ rest) = some (value, rest) := by
  intro fuel rest hfuel hrest
  obtain ⟨fuel, rfl⟩ : ∃ less, fuel = less + 1 := by
    obtain ⟨c, tail, rfl, -⟩ := h.exists_head
    exact ⟨fuel - 1, by rw [List.length_cons] at hfuel; omega⟩
  cases h with
  | null => exact readValue_null fuel rest
  | bool value => exact readValue_printBool fuel value rest
  | number n => exact readValue_printNumeral fuel n hrest
  | string s => exact readValue_printString fuel s rest
  | noItems => rfl
  | array hitems =>
      obtain ⟨c, tail, hhead, hc⟩ := hitems.exists_head rest
      have hread := hitems.readItems_append rest (Nat.le_of_succ_le_succ hfuel)
      exact readValue_array hhead hc hread
  | noMembers => rfl
  | object hmembers =>
      obtain ⟨c, tail, hhead, hc⟩ := hmembers.exists_head rest
      have hread := hmembers.readMembers_append rest (Nat.le_of_succ_le_succ hfuel)
      exact readValue_object hhead hc hread

/-- The items of an array are read from every text that spells them. -/
theorem ItemsTextOf.readItems_append {items : List Value} {text : List Char}
    (h : ItemsTextOf items text) : ∀ {fuel : Nat} (rest : List Char), text.length ≤ fuel →
      readItems fuel (text ++ rest) = some (items, rest) := by
  intro fuel rest hfuel
  cases h with
  | last hbefore hitem hafter =>
      simp only [List.length_append, List.length_cons, List.length_nil] at hfuel
      obtain ⟨fuel, rfl⟩ : ∃ less, fuel = less + 1 := ⟨fuel - 1, by omega⟩
      simp only [List.append_assoc, List.cons_append, List.nil_append]
      refine readItems_last ?_ hafter
      rw [readValue_skip fuel hbefore]
      exact hitem.readValue_append (by omega) (endsBefore_blank hafter rfl rest)
  | cons hbefore hitem hitems =>
      simp only [List.length_append, List.length_cons] at hfuel
      obtain ⟨fuel, rfl⟩ : ∃ less, fuel = less + 1 := ⟨fuel - 1, by omega⟩
      simp only [List.append_assoc, List.cons_append]
      refine readItems_cons ?_ (hitems.readItems_append rest (by omega))
      rw [readValue_skip fuel hbefore]
      exact hitem.readValue_append (by omega) (endsBefore_cons rfl)

/-- The members of an object are read from every text that spells them. -/
theorem MembersTextOf.readMembers_append {members : Members} {text : List Char}
    (h : MembersTextOf members text) : ∀ {fuel : Nat} (rest : List Char), text.length ≤ fuel →
      readMembers fuel (text ++ rest) = some (members, rest) := by
  intro fuel rest hfuel
  cases h with
  | last hbefore hgap hvalue hafter =>
      simp only [List.length_append, List.length_cons, List.length_nil] at hfuel
      obtain ⟨fuel, rfl⟩ : ∃ less, fuel = less + 1 := ⟨fuel - 1, by omega⟩
      simp only [List.append_assoc, List.cons_append, List.nil_append]
      refine readMembers_last hbefore ?_ hafter
      rw [readValue_skip fuel hgap]
      exact hvalue.readValue_append (by omega) (endsBefore_blank hafter rfl rest)
  | cons hbefore hgap hvalue hmembers =>
      simp only [List.length_append, List.length_cons] at hfuel
      obtain ⟨fuel, rfl⟩ : ∃ less, fuel = less + 1 := ⟨fuel - 1, by omega⟩
      simp only [List.append_assoc, List.cons_append]
      refine readMembers_cons hbefore ?_ (hmembers.readMembers_append rest (by omega))
      rw [readValue_skip fuel hgap]
      exact hvalue.readValue_append (by omega) (endsBefore_cons rfl)

end

/-- Every text that spells a document is read as this document. -/
theorem parse_of_textOf {value : Value} {text : List Char} (h : TextOf value text) :
    parse (.ofList text) = some value := by
  have hread : readValue (2 * text.length + 2) (text ++ []) = some (value, []) :=
    h.readValue_append (by omega) endsBefore_nil
  rw [List.append_nil] at hread
  rw [parse, String.length_ofList, String.toList_ofList, hread]
  rfl

/-- What is written on one line is read back. -/
@[simp]
theorem parse_compact (value : Value) : parse value.compact = some value :=
  parse_of_textOf (textOf_print value)

/-- What is written with indentation is read back. -/
@[simp]
theorem parse_pretty (value : Value) : parse value.pretty = some value :=
  parse_of_textOf (textOf_printIndented value 0)

end SigningKeys.Json
