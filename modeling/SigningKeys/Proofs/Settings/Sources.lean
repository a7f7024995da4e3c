import Mathlib.Data.List.Perm.Basic
import SigningKeys.Proofs.Toml.Document
import SigningKeys.Settings.Arguments
import SigningKeys.Settings.Document

/-!
# The sources of settings

The same values can be given in a document, by arguments, or by variables of the environment
(`Settings.Choice`). Whichever way they are given, the settings are the same, and those left out
have their default values; what is given by an argument is not looked at in the environment. The
main statement is `Settings.sources_agree`.
-/

namespace SigningKeys

/-! ## Names -/

namespace Setting

/-- Every setting is among all of them. -/
theorem mem_all (setting : Setting) : setting ∈ all := by
  cases setting <;> decide

/-- Settings have different names. -/
theorem name_injective {setting other : Setting} (h : setting.name = other.name) :
    setting = other := by
  cases setting <;> cases other <;> first | rfl | exact absurd h (by decide)

/-- A setting is found by the name of its option. -/
theorem ofLong?_option (setting : Setting) :
    OptionName.ofLong? setting.option = some (.setting setting) := by
  cases setting <;> decide

/-- The name of an option ends where its value is attached. -/
theorem ne_of_mem_option {setting : Setting} {c : Char} (h : c ∈ setting.option) :
    (c != '=') = true := by
  have hall : setting.option.all (· != '=') = true := by cases setting <;> decide
  exact List.all_eq_true.1 hall c h

/-- The argument that gives a setting a value, which is attached to the name of its option. -/
def argument (setting : Setting) (text : String) : String :=
  .ofList ('-' :: '-' :: (setting.option ++ '=' :: text.toList))

/-- The argument is taken for what it is. -/
theorem ofText_argument (setting : Setting) (text : String) :
    Argument.ofText (setting.argument text) = .long setting.option (some text) := by
  have hoption (c) (hc : c ∈ setting.option) : (c != '=') = true := ne_of_mem_option hc
  have hend : Text.EndsBefore (· != '=') ('=' :: text.toList) := Text.endsBefore_cons (by decide)
  unfold Argument.ofText
  rw [argument, String.toList_ofList]
  split
  · next heq => simp at heq
  · next heq =>
      cases heq
      rw [Text.takeWhile_append hoption hend, Text.dropWhile_append hoption hend]
      simp only [String.ofList_toList]
  · next hlong heq =>
      cases heq
      exact False.elim (hlong rfl)
  · next hlong hshort => exact False.elim (hlong _ rfl)

end Setting

namespace Settings

/-- Values for some of the settings other than the name of a document: numbers that documents can
hold, and any texts. -/
structure Choice where
  logFilter : Option String
  defaultAlgorithm : Option String
  modulusBits : Option Nat
  rotationPeriod : Option Int
  recordFile : Option String
  modulusBits_fits : ∀ bits ∈ modulusBits, Word.isSigned bits = true
  rotationPeriod_fits : ∀ seconds ∈ rotationPeriod, Word.isSigned seconds = true

namespace Choice

/-- The text that gives a setting its value as an argument or a variable, if it is given one. -/
def text? (choice : Choice) : Setting → Option String
  | .configFile => none
  | .logFilter => choice.logFilter
  | .defaultAlgorithm => choice.defaultAlgorithm
  | .modulusBits => choice.modulusBits.map Decimal.text
  | .rotationPeriod =>
      choice.rotationPeriod.map fun seconds ↦ .ofList (Decimal.signedDigits seconds)
  | .recordFile => choice.recordFile

/-- The value that gives a setting its value in a document, if it is given one. -/
def value? (choice : Choice) : Setting → Option Toml.Value
  | .configFile => none
  | .logFilter => choice.logFilter.map .text
  | .defaultAlgorithm => choice.defaultAlgorithm.map .text
  | .modulusBits => choice.modulusBits.map fun (bits : Nat) ↦ .integer bits
  | .rotationPeriod => choice.rotationPeriod.map .integer
  | .recordFile => choice.recordFile.map .text

/-- The settings with the values that are given, and those of other settings for what is left
out. -/
def onto (choice : Choice) (others : Settings) : Settings where
  configFile := others.configFile
  logFilter := choice.logFilter.getD others.logFilter
  defaultAlgorithm := choice.defaultAlgorithm.getD others.defaultAlgorithm
  modulusBits := choice.modulusBits.getD others.modulusBits
  rotationPeriod := choice.rotationPeriod.getD others.rotationPeriod
  recordFile := choice.recordFile.or others.recordFile

/-- The settings with the values that are given, and the default values for what is left out. -/
def settings (choice : Choice) : Settings := choice.onto default

/-- The entries of a document that gives these values, in the order of the settings. -/
def entries (choice : Choice) (order : List Setting) : Toml.Entries :=
  order.filterMap fun setting ↦ (choice.value? setting).map fun value ↦ (setting.name, value)

/-- The document gives these values and nothing else, in any order. -/
def IsWrittenIn (choice : Choice) (document : String) : Prop :=
  ∃ order : List Setting, order.Perm Setting.all ∧
    Toml.SpellsDocument (choice.entries order) document.toList

/-- The arguments that give these values, in the order of the settings. -/
def arguments (choice : Choice) (order : List Setting) : List String :=
  order.filterMap fun setting ↦ (choice.text? setting).map setting.argument

/-- The arguments give these values and nothing else, each attached to its option, in any order. -/
def IsGivenBy (choice : Choice) (arguments : List String) : Prop :=
  ∃ order : List Setting, order.Perm Setting.all ∧ arguments = choice.arguments order

/-- The variables give these values and no others. -/
def IsSetIn (choice : Choice) (environment : String → Option String) : Prop :=
  ∀ setting : Setting, setting.environmentName?.bind environment = choice.text? setting

/-- The values of one choice, and those of another for what it leaves out. -/
def orElse (choice other : Choice) : Choice where
  logFilter := choice.logFilter.or other.logFilter
  defaultAlgorithm := choice.defaultAlgorithm.or other.defaultAlgorithm
  modulusBits := choice.modulusBits.or other.modulusBits
  rotationPeriod := choice.rotationPeriod.or other.rotationPeriod
  recordFile := choice.recordFile.or other.recordFile
  modulusBits_fits bits h := by
    rcases Option.or_eq_some_iff.1 h with h | ⟨-, h⟩
    · exact choice.modulusBits_fits bits h
    · exact other.modulusBits_fits bits h
  rotationPeriod_fits seconds h := by
    rcases Option.or_eq_some_iff.1 h with h | ⟨-, h⟩
    · exact choice.rotationPeriod_fits seconds h
    · exact other.rotationPeriod_fits seconds h

/-- The values of a choice that another one leaves out. -/
def except (choice other : Choice) : Choice where
  logFilter := if other.logFilter.isSome then none else choice.logFilter
  defaultAlgorithm := if other.defaultAlgorithm.isSome then none else choice.defaultAlgorithm
  modulusBits := if other.modulusBits.isSome then none else choice.modulusBits
  rotationPeriod := if other.rotationPeriod.isSome then none else choice.rotationPeriod
  recordFile := if other.recordFile.isSome then none else choice.recordFile
  modulusBits_fits bits h := by
    split at h
    · cases h
    · exact choice.modulusBits_fits bits h
  rotationPeriod_fits seconds h := by
    split at h
    · cases h
    · exact choice.rotationPeriod_fits seconds h

variable {choice other : Choice} {settings : Settings} {setting : Setting} {text : String}

/-! ## One setting -/

/-- The settings with the value for one of them, if it is given one. -/
def apply (choice : Choice) (settings : Settings) : Setting → Settings
  | .configFile => settings
  | .logFilter => { settings with logFilter := choice.logFilter.getD settings.logFilter }
  | .defaultAlgorithm =>
      { settings with defaultAlgorithm := choice.defaultAlgorithm.getD settings.defaultAlgorithm }
  | .modulusBits => { settings with modulusBits := choice.modulusBits.getD settings.modulusBits }
  | .rotationPeriod =>
      { settings with rotationPeriod := choice.rotationPeriod.getD settings.rotationPeriod }
  | .recordFile => { settings with recordFile := choice.recordFile.or settings.recordFile }

/-- What is left out changes nothing. -/
theorem apply_eq_self (h : choice.text? setting = none) :
    choice.apply settings setting = settings := by
  cases setting <;> simp_all [text?, apply]

/-- A number that a document can hold is a number of 64 bits without a sign. -/
theorem withModulusBits?_of_fits {bits : Nat} (h : Word.isSigned bits = true) :
    settings.withModulusBits? bits = some { settings with modulusBits := bits } := by
  simp only [Word.isSigned, Bool.and_eq_true, decide_eq_true_eq] at h
  have hfit : Word.isUnsigned bits = true := by
    rw [Word.isUnsigned, decide_eq_true_eq]
    omega
  exact if_pos hfit

/-- The text of a setting gives it its value. -/
theorem assign?_of_text? (h : choice.text? setting = some text) :
    settings.assign? setting text = some (choice.apply settings setting) := by
  cases setting with
  | configFile => cases h
  | logFilter => simp_all [text?, apply, assign?]
  | defaultAlgorithm => simp_all [text?, apply, assign?]
  | modulusBits =>
      obtain ⟨bits, hbits, rfl⟩ := Option.map_eq_some_iff.1 h
      rw [assign?, Decimal.text, String.toList_ofList, Decimal.natOfText?_digits, Option.bind_some,
        withModulusBits?_of_fits (choice.modulusBits_fits bits hbits), apply, hbits]
      rfl
  | rotationPeriod =>
      obtain ⟨seconds, hseconds, rfl⟩ := Option.map_eq_some_iff.1 h
      rw [assign?, String.toList_ofList, Decimal.intOfText?_signedDigits, Option.bind_some,
        withRotationPeriod?, if_pos (choice.rotationPeriod_fits seconds hseconds), apply, hseconds]
      rfl
  | recordFile => simp_all [text?, apply, assign?]

/-- The value of a setting in a document gives it the same value. -/
theorem assignValue?_of_value? {value : Toml.Value} (h : choice.value? setting = some value) :
    settings.assignValue? setting value = some (choice.apply settings setting) := by
  cases setting with
  | configFile => cases h
  | logFilter =>
      obtain ⟨filter, hfilter, rfl⟩ := Option.map_eq_some_iff.1 h
      show some { settings with logFilter := filter } = _
      rw [apply, hfilter, Option.getD_some]
  | defaultAlgorithm =>
      obtain ⟨tag, htag, rfl⟩ := Option.map_eq_some_iff.1 h
      show some { settings with defaultAlgorithm := tag } = _
      rw [apply, htag, Option.getD_some]
  | modulusBits =>
      obtain ⟨bits, hbits, rfl⟩ := Option.map_eq_some_iff.1 h
      rw [assignValue?, if_pos (Int.natCast_nonneg bits), Int.toNat_natCast,
        withModulusBits?_of_fits (choice.modulusBits_fits bits hbits), apply, hbits,
        Option.getD_some]
  | rotationPeriod =>
      obtain ⟨seconds, hseconds, rfl⟩ := Option.map_eq_some_iff.1 h
      rw [assignValue?, withRotationPeriod?, if_pos (choice.rotationPeriod_fits seconds hseconds),
        apply, hseconds, Option.getD_some]
  | recordFile =>
      obtain ⟨path, hpath, rfl⟩ := Option.map_eq_some_iff.1 h
      show some { settings with recordFile := some path } = _
      rw [apply, hpath, Option.some_or]

/-- A setting is given a value in documents when it is given a text. -/
theorem value?_eq_none_iff : choice.value? setting = none ↔ choice.text? setting = none := by
  cases setting <;> simp [value?, text?]

/-- What a choice puts into a document are texts and integers of 64 bits. -/
theorem isPlainValue_of_value? {value : Toml.Value} (h : choice.value? setting = some value) :
    Toml.IsPlainValue value := by
  cases setting with
  | configFile => cases h
  | logFilter | defaultAlgorithm | recordFile =>
      obtain ⟨content, -, rfl⟩ := Option.map_eq_some_iff.1 h
      exact .text content
  | modulusBits =>
      obtain ⟨bits, hbits, rfl⟩ := Option.map_eq_some_iff.1 h
      exact .integer _ (choice.modulusBits_fits bits hbits)
  | rotationPeriod =>
      obtain ⟨seconds, hseconds, rfl⟩ := Option.map_eq_some_iff.1 h
      exact .integer _ (choice.rotationPeriod_fits seconds hseconds)

/-! ## All settings -/

/-- One after another the settings get all values that are given. -/
theorem foldl_apply_all : Setting.all.foldl choice.apply settings = choice.onto settings := rfl

/-- Settings that get their values do not depend on each other. -/
instance : RightCommutative choice.apply where
  right_comm settings first second := by cases first <;> cases second <;> rfl

/-- The settings get all values that are given in any order. -/
theorem foldl_apply_of_perm {order : List Setting} (h : order.Perm Setting.all) :
    order.foldl choice.apply settings = choice.onto settings :=
  (h.foldl_eq settings).trans foldl_apply_all

/-- Values that are left out come from another choice, and its other values do not count. -/
theorem onto_except :
    (other.except choice).onto (choice.onto settings) = (choice.orElse other).onto settings := by
  have hgetD {α : Type} (a b : Option α) (d : α) :
      (if a.isSome then none else b).getD (a.getD d) = (a.or b).getD d := by
    cases a <;> rfl
  have hor {α : Type} (a b d : Option α) :
      (if a.isSome then none else b).or (a.or d) = (a.or b).or d := by
    cases a <;> rfl
  simp only [onto, except, orElse, hgetD, hor]

/-! ## Documents -/

/-- The value of a setting is found among the entries. -/
theorem find?_entries (order : List Setting) :
    (choice.entries order).find? setting.name =
      if setting ∈ order then choice.value? setting else none := by
  unfold entries
  induction order with
  | nil => rfl
  | cons first order ih =>
      by_cases hfirst : first = setting
      · subst hfirst
        rw [if_pos List.mem_cons_self]
        cases hvalue : choice.value? first with
        | some value => simp [Toml.Entries.find?, hvalue]
        | none =>
            rw [List.filterMap_cons_none (by rw [hvalue, Option.map_none]), ih, hvalue, ite_self]
      · have hmem : setting ∈ first :: order ↔ setting ∈ order := by
          rw [List.mem_cons, or_iff_right (Ne.symm hfirst)]
        have hname : (setting.name == first.name) = false := by
          rw [beq_eq_false_iff_ne]
          exact fun hname ↦ hfirst (Setting.name_injective hname.symm)
        rw [if_congr hmem rfl rfl, ← ih]
        cases hvalue : choice.value? first with
        | some value =>
            rw [List.filterMap_cons_some (by rw [hvalue, Option.map_some]), Toml.Entries.find?,
              List.lookup_cons, hname]
            rfl
        | none => rw [List.filterMap_cons_none (by rw [hvalue, Option.map_none])]

/-- Entries of different settings have different keys. -/
theorem nodup_entries {order : List Setting} (h : order.Nodup) :
    ((choice.entries order).map Prod.fst).Nodup := by
  rw [List.Nodup, List.pairwise_map]
  refine List.Pairwise.filterMap _ (fun first second hne entry hentry other hother ↦ ?_) h
  obtain ⟨value, -, rfl⟩ := Option.map_eq_some_iff.1 hentry
  obtain ⟨otherValue, -, rfl⟩ := Option.map_eq_some_iff.1 hother
  exact fun hname ↦ hne (Setting.name_injective hname)

/-- A document gives the settings that are written in it. -/
theorem ofText?_of_isWrittenIn {document : String} (h : choice.IsWrittenIn document) :
    ofText? document = some choice.settings := by
  obtain ⟨order, hperm, hdocument⟩ := h
  have hnodup : order.Nodup := hperm.nodup_iff.2 (by decide)
  have hassign : assignFrom? (choice.entries order) =
      fun settings setting ↦ some (choice.apply settings setting) := by
    funext settings setting
    rw [assignFrom?, find?_entries, if_pos (hperm.mem_iff.2 setting.mem_all)]
    cases hvalue : choice.value? setting with
    | some value => exact assignValue?_of_value? hvalue
    | none => rw [apply_eq_self (value?_eq_none_iff.1 hvalue)]
  rw [ofText?, Toml.parse_of_spellsDocument hdocument (nodup_entries hnodup), Option.bind_some,
    ofEntries?, hassign]
  exact (List.foldlM_pure (m := Option)).trans (congrArg some foldl_apply_all)

/-- Any values can be written in a document. -/
theorem exists_isWrittenIn (choice : Choice) : ∃ document, choice.IsWrittenIn document := by
  have hplain : ∀ entry ∈ choice.entries Setting.all, Toml.IsPlainValue entry.2 := by
    intro entry hentry
    obtain ⟨setting, -, hsetting⟩ := List.mem_filterMap.1 hentry
    obtain ⟨value, hvalue, rfl⟩ := Option.map_eq_some_iff.1 hsetting
    exact isPlainValue_of_value? hvalue
  obtain ⟨document, hdocument⟩ := Toml.exists_spellsDocument hplain
  exact ⟨document, Setting.all, List.Perm.refl _, hdocument⟩

/-! ## Arguments -/

/-- An argument gives a setting that was not given before its value. -/
theorem takeAll_argument {rest : List String} {given : List Setting}
    (h : choice.text? setting = some text) (hfresh : setting ∉ given) :
    takeAll (setting.argument text :: rest) ⟨settings, given, none⟩ =
      takeAll rest ⟨choice.apply settings setting, setting :: given, none⟩ := by
  have htake : Progress.take ⟨settings, given, none⟩ (.long setting.option (some text)) =
      .ok ⟨choice.apply settings setting, setting :: given, none⟩ := by
    simp only [Progress.take, Setting.ofLong?_option]
    show Progress.give ⟨settings, given, none⟩ setting text = _
    simp only [Progress.give, if_neg hfresh, assign?_of_text? h]
  conv => lhs; unfold takeAll
  rw [Setting.ofText_argument]
  show (Progress.take _ _).bind (takeAll rest) = _
  rw [htake]
  rfl

/-- Arguments give all values of the settings that they are for. -/
theorem takeAll_arguments {order given : List Setting} (hnodup : order.Nodup)
    (hfresh : ∀ setting ∈ order, setting ∉ given) :
    takeAll (choice.arguments order) ⟨settings, given, none⟩ =
      .ok ⟨order.foldl choice.apply settings,
        (order.filter fun setting ↦ (choice.text? setting).isSome).reverse ++ given, none⟩ := by
  unfold arguments
  induction order generalizing settings given with
  | nil => rfl
  | cons first order ih =>
      obtain ⟨hfirst, horder⟩ := List.nodup_cons.1 hnodup
      obtain ⟨hnew, hothers⟩ := List.forall_mem_cons.1 hfresh
      cases htext : choice.text? first with
      | none =>
          rw [List.filterMap_cons_none (by rw [htext, Option.map_none]), ih horder hothers,
            List.foldl_cons, apply_eq_self htext, List.filter_cons_of_neg (by simp [htext])]
      | some text =>
          have hmore : ∀ setting ∈ order, setting ∉ first :: given := by
            intro setting hsetting hmem
            rcases List.mem_cons.1 hmem with rfl | hmem
            · exact hfirst hsetting
            · exact hothers setting hsetting hmem
          rw [List.filterMap_cons_some (by rw [htext, Option.map_some]),
            takeAll_argument htext hnew, ih horder hmore, List.foldl_cons,
            List.filter_cons_of_pos (by simp [htext]), List.reverse_cons, List.append_assoc,
            List.singleton_append]

/-! ## Variables -/

/-- Variables give all values of the settings that no argument gives. -/
theorem foldlM_assignVariable (choice : Choice) {environment : String → Option String}
    {given order : List Setting}
    (hgiven : ∀ setting ∈ given, choice.text? setting = none)
    (henvironment : ∀ setting, setting ∉ given →
      setting.environmentName?.bind environment = choice.text? setting) :
    order.foldlM (assignVariable environment given) settings =
      .ok (order.foldl choice.apply settings) := by
  have hassign : assignVariable environment given =
      fun settings setting ↦ .ok (choice.apply settings setting) := by
    funext settings setting
    have hvariable : (if setting ∈ given then none
        else setting.environmentName?.bind environment) = choice.text? setting := by
      split
      · next hmem => rw [hgiven setting hmem]
      · next hmem => rw [henvironment setting hmem]
    rw [assignVariable, hvariable]
    cases htext : choice.text? setting with
    | none => rw [apply_eq_self htext]
    | some text => simp only [assign?_of_text? htext]
  rw [hassign]
  exact List.foldlM_pure

/-- Any values can be set in the environment. -/
theorem exists_isSetIn (choice : Choice) : ∃ environment, choice.IsSetIn environment := by
  refine ⟨fun name ↦ (Setting.all.find? (·.environmentName? == some name)).bind choice.text?,
    fun setting ↦ ?_⟩
  have hfind (setting : Setting) (name : String) (h : setting.environmentName? = some name) :
      Setting.all.find? (·.environmentName? == some name) = some setting := by
    rw [← h]
    cases setting with
    | configFile => cases h
    | _ => decide
  cases hname : setting.environmentName? with
  | none =>
      cases setting with
      | configFile => rfl
      | _ => cases hname
  | some name => rw [Option.bind_some, hfind setting name hname, Option.bind_some]

/-- The values of a choice that another one leaves out have the same texts. -/
theorem text?_except :
    (other.except choice).text? setting =
      if (choice.text? setting).isSome then none else other.text? setting := by
  cases setting with
  | configFile => rfl
  | logFilter | defaultAlgorithm | recordFile => rfl
  | modulusBits =>
      simp only [text?, except, Option.isSome_map]
      split <;> rfl
  | rotationPeriod =>
      simp only [text?, except, Option.isSome_map]
      split <;> rfl

/-- The values that arguments give count, and for what they leave out those that variables give. -/
theorem ofArguments_of_isGivenBy {arguments : List String} {environment : String → Option String}
    (h : choice.IsGivenBy arguments)
    (henvironment : ∀ setting, choice.text? setting = none →
      setting.environmentName?.bind environment = other.text? setting) :
    ofArguments arguments environment = .ok (choice.orElse other).settings := by
  obtain ⟨order, hperm, rfl⟩ := h
  have hnodup : order.Nodup := hperm.nodup_iff.2 (by decide)
  have hmem (setting) :
      setting ∈ (order.filter fun setting ↦ (choice.text? setting).isSome).reverse ++ [] ↔
        (choice.text? setting).isSome = true := by
    rw [List.append_nil, List.mem_reverse, List.mem_filter]
    exact and_iff_right (hperm.mem_iff.2 setting.mem_all)
  rw [ofArguments, argumentDefaults_eq_default,
    takeAll_arguments hnodup fun setting _ ↦ List.not_mem_nil]
  show Setting.all.foldlM (assignVariable environment _) (order.foldl choice.apply default) = _
  rw [foldlM_assignVariable (other.except choice), foldl_apply_of_perm hperm, foldl_apply_all,
    onto_except]
  · rfl
  · intro setting hsetting
    rw [text?_except, if_pos ((hmem setting).1 hsetting)]
  · intro setting hsetting
    have hnone : ¬ (choice.text? setting).isSome = true := fun hsome ↦
      hsetting ((hmem setting).2 hsome)
    rw [text?_except, if_neg hnone]
    exact henvironment setting (Option.not_isSome_iff_eq_none.1 hnone)

/-- The choice that leaves everything out. -/
def nothing : Choice where
  logFilter := none
  defaultAlgorithm := none
  modulusBits := none
  rotationPeriod := none
  recordFile := none
  modulusBits_fits _ h := nomatch h
  rotationPeriod_fits _ h := nomatch h

/-- Nothing is given where everything is left out. -/
theorem text?_nothing (setting : Setting) : nothing.text? setting = none := by
  cases setting <;> rfl

/-- No arguments give nothing. -/
theorem isGivenBy_nothing : nothing.IsGivenBy [] := ⟨Setting.all, List.Perm.refl _, rfl⟩

/-- Without variables nothing is given besides what is. -/
theorem orElse_nothing (choice : Choice) : (choice.orElse nothing).settings = choice.settings := by
  simp only [settings, onto, orElse, nothing, Option.or_none]

/-- Without arguments what is given is given. -/
theorem nothing_orElse (choice : Choice) : (nothing.orElse choice).settings = choice.settings := by
  simp only [settings, onto, orElse, nothing, Option.none_or]

end Choice

/-! ## All sources -/

/-- Whatever values are given for any of the settings, they can be given in every way; and a
document of these values, arguments with these values attached and no variables, and variables with
these values and no arguments all give the same settings: those with these values and the default
values for what is left out. What is given by arguments counts whatever variables say, and other
settings are those of the variables. -/
theorem sources_agree (choice : Choice) :
    (∃ document, choice.IsWrittenIn document) ∧
    (∃ arguments, choice.IsGivenBy arguments) ∧
    (∃ environment, choice.IsSetIn environment) ∧
    (∀ document, choice.IsWrittenIn document → ofText? document = some choice.settings) ∧
    (∀ arguments, choice.IsGivenBy arguments →
      ofArguments arguments (fun _ ↦ none) = .ok choice.settings) ∧
    (∀ environment, choice.IsSetIn environment →
      ofArguments [] environment = .ok choice.settings) ∧
    ∀ other arguments environment, choice.IsGivenBy arguments →
      (∀ setting, choice.text? setting = none →
        setting.environmentName?.bind environment = other.text? setting) →
      ofArguments arguments environment = .ok (choice.orElse other).settings := by
  refine ⟨choice.exists_isWrittenIn, ⟨_, Setting.all, List.Perm.refl _, rfl⟩,
    choice.exists_isSetIn, fun document ↦ Choice.ofText?_of_isWrittenIn,
    fun arguments h ↦ ?_, fun environment h ↦ ?_,
    fun other arguments environment ↦ Choice.ofArguments_of_isGivenBy⟩
  · have hnone (setting : Setting) (_ : choice.text? setting = none) :
        setting.environmentName?.bind (fun _ ↦ none) = Choice.nothing.text? setting := by
      rw [Option.bind_fun_none, Choice.text?_nothing]
    rw [Choice.ofArguments_of_isGivenBy h hnone, choice.orElse_nothing]
  · rw [Choice.ofArguments_of_isGivenBy Choice.isGivenBy_nothing fun setting _ ↦ h setting,
      choice.nothing_orElse]

/-- A path with a quotation mark and a negative period are the same from a document with escapes, a
comment and two kinds of line ends, from arguments, and from variables. With both, the variable of a
setting that an argument gives need not even suit it. -/
theorem sources_agree_escaped :
    let choice : Choice :=
      { Choice.nothing with
        rotationPeriod := some (-1)
        recordFile := some "A\""
        rotationPeriod_fits := by decide }
    ofText? "record_out = \"\\u0041\\\"\" # a path\r\nrotation_frequency=-1" =
        some choice.settings ∧
      ofArguments ["--rotation-frequency=-1", "--record-out=A\""] (fun _ ↦ none) =
        .ok choice.settings ∧
      ofArguments []
          (fun name ↦
            if name = "ROTATION_FREQUENCY" then some "-1"
            else if name = "RECORD_OUT" then some "A\"" else none) =
        .ok choice.settings ∧
      ofArguments ["--rotation-frequency=-1", "--record-out=A\""]
          (fun name ↦
            if name = "ROTATION_FREQUENCY" then some "soon"
            else if name = "DEFAULT_ALGORITHM" then some "RSA" else none) =
        .ok { choice.settings with defaultAlgorithm := "RSA" } ∧
      choice.settings = { default with rotationPeriod := -1, recordFile := some "A\"" } := by
  intro choice
  have hdigits : Decimal.signedDigits (-1) = ['-', '1'] := by
    rw [Decimal.signedDigits, if_pos (by decide), Decimal.digits, if_pos (by decide)]
    rfl
  have hperiod : choice.text? .rotationPeriod = some "-1" := by
    show some (String.ofList (Decimal.signedDigits (-1))) = _
    rw [hdigits]
  have hwritten : choice.IsWrittenIn
      "record_out = \"\\u0041\\\"\" # a path\r\nrotation_frequency=-1" := by
    have htext : Toml.SpellsText ['A', '"'] ['\\', 'u', '0', '0', '4', '1', '\\', '"'] :=
      .cons (.fourDigits '0' '0' '4' '1' (by decide)) (.cons (.letter '"' (by decide)) .nil)
    have hinteger := Toml.spellsInteger_signedDigits (-1)
    rw [hdigits] at hinteger
    have hpath := Toml.SpellsEntry.intro [] "record_out".toList _ [' '] [' '] _ _ (by decide)
      (.bare (by decide) (List.all_eq_true.1 (by decide))) (by decide) (by decide) (.text _ _ htext)
    have hperiod := Toml.SpellsEntry.intro [] "rotation_frequency".toList _ [] [] _ _ (by decide)
      (.bare (by decide) (List.all_eq_true.1 (by decide))) (by decide) (by decide)
      (.integer _ _ (by decide) hinteger)
    have hdocument := Toml.SpellsDocument.entry _ _ (' ' :: '#' :: " a path".toList) ['\r', '\n']
      _ _ hpath (.comment [' '] _ (by decide) (List.all_eq_true.1 (by decide))) .returnAndFeed
      (.lastEntry _ _ [] hperiod (.blanks [] (by decide)))
    refine ⟨[.recordFile, .rotationPeriod, .configFile, .logFilter, .defaultAlgorithm,
      .modulusBits], by decide, ?_⟩
    convert hdocument using 1
    · rfl
    · decide +kernel
  have hgiven : choice.IsGivenBy ["--rotation-frequency=-1", "--record-out=A\""] := by
    refine ⟨[.rotationPeriod, .recordFile, .configFile, .logFilter, .defaultAlgorithm,
      .modulusBits], by decide, ?_⟩
    show _ = [Setting.rotationPeriod.argument (.ofList (Decimal.signedDigits (-1))),
      Setting.recordFile.argument "A\""]
    rw [hdigits]
    decide +kernel
  obtain ⟨-, -, -, hdocument, harguments, hvariables, hboth⟩ := sources_agree choice
  refine ⟨hdocument _ hwritten, harguments _ hgiven, hvariables _ fun setting ↦ ?_,
    hboth { Choice.nothing with defaultAlgorithm := some "RSA" } _ _ hgiven fun setting hnone ↦ ?_,
    rfl⟩
  · cases setting with
    | rotationPeriod =>
        rw [hperiod]
        decide
    | _ => decide
  · cases setting with
    | rotationPeriod => exact absurd (hperiod.symm.trans hnone) (by decide)
    | recordFile => cases hnone
    | _ => decide

end Settings

end SigningKeys
