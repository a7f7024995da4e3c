import SigningKeys.Proofs.Settings.Sources
import SigningKeys.Run

/-!
# Whether a document that is named counts

The option that names a document can be written in many ways and stand among other options. A run
heeds the document (`Request.Heeds`) when the settings that it gives and the arguments do not have
its values, unless it cannot be read or parsed. `Request.heeds_iff` says for which arguments that is
so: those that name the document in two arguments and nothing else, and those that give every
setting themselves. With any others the document is not even opened.
-/

namespace SigningKeys

/-- What is a value by its form is this value. -/
theorem Argument.eq_of_ofText {text path : String} (h : ofText text = .value path) :
    path = text := by
  unfold ofText at h
  split at h
  all_goals cases h
  rfl

namespace Settings

variable {settings result : Settings} {setting other : Setting} {value : Toml.Value}
  {entries : Toml.Entries} {update : Settings → Settings} {order : List Setting}

/-! ## What a document gives -/

/-- The settings change in the given one only, whatever it was. -/
inductive IsUpdate : Setting → (Settings → Settings) → Prop where
  | configFile (file) : IsUpdate .configFile fun settings ↦ { settings with configFile := file }
  | logFilter (filter) : IsUpdate .logFilter fun settings ↦ { settings with logFilter := filter }
  | defaultAlgorithm (tag) :
      IsUpdate .defaultAlgorithm fun settings ↦ { settings with defaultAlgorithm := tag }
  | modulusBits (bits) : IsUpdate .modulusBits fun settings ↦ { settings with modulusBits := bits }
  | rotationPeriod (seconds) :
      IsUpdate .rotationPeriod fun settings ↦ { settings with rotationPeriod := seconds }
  | recordFile (file) : IsUpdate .recordFile fun settings ↦ { settings with recordFile := file }

/-- A second update of the same kind changes nothing. -/
theorem IsUpdate.idem (h : IsUpdate setting update) :
    update (update settings) = update settings := by
  cases h <;> rfl

/-- Updates of different settings do not depend on each other. -/
theorem IsUpdate.comm {otherUpdate : Settings → Settings} (h : IsUpdate setting update)
    (hother : IsUpdate other otherUpdate) (hne : other ≠ setting) :
    update (otherUpdate settings) = otherUpdate (update settings) := by
  cases h <;> cases hother <;> first | rfl | exact absurd rfl hne

/-- A value of a document suits a setting or not, whatever the settings are, and if it does, it is
the value of this setting only. -/
theorem assignValue?_cases (setting : Setting) (value : Toml.Value) :
    (∀ settings : Settings, settings.assignValue? setting value = none) ∨
      ∃ update, IsUpdate setting update ∧
        ∀ settings : Settings, settings.assignValue? setting value = some (update settings) := by
  cases setting with
  | configFile =>
      cases value with
      | text path => exact .inr ⟨_, .configFile (some path), fun settings ↦ rfl⟩
      | _ => exact .inl fun settings ↦ rfl
  | logFilter =>
      cases value with
      | text filter => exact .inr ⟨_, .logFilter filter, fun settings ↦ rfl⟩
      | _ => exact .inl fun settings ↦ rfl
  | defaultAlgorithm =>
      cases value with
      | text tag => exact .inr ⟨_, .defaultAlgorithm tag, fun settings ↦ rfl⟩
      | _ => exact .inl fun settings ↦ rfl
  | modulusBits =>
      cases value with
      | integer n =>
          by_cases hfit : 0 ≤ n ∧ Word.isUnsigned n.toNat = true
          · refine .inr ⟨_, .modulusBits n.toNat, fun settings ↦ ?_⟩
            rw [assignValue?, if_pos hfit.1, withModulusBits?, if_pos hfit.2]
          · refine .inl fun settings ↦ ?_
            rw [assignValue?]
            split
            · next hpos => exact if_neg fun hsize ↦ hfit ⟨hpos, hsize⟩
            · rfl
      | _ => exact .inl fun settings ↦ rfl
  | rotationPeriod =>
      cases value with
      | integer n =>
          by_cases hfit : Word.isSigned n = true
          · exact .inr ⟨_, .rotationPeriod n, fun settings ↦ if_pos hfit⟩
          · exact .inl fun settings ↦ if_neg hfit
      | _ => exact .inl fun settings ↦ rfl
  | recordFile =>
      cases value with
      | text path => exact .inr ⟨_, .recordFile (some path), fun settings ↦ rfl⟩
      | _ => exact .inl fun settings ↦ rfl

/-- A setting keeps its value while others are assigned. -/
theorem IsUpdate.foldlM_assignFrom? (h : IsUpdate setting update)
    (hupdated : update settings = settings) (hnotMem : setting ∉ order)
    (hresult : order.foldlM (assignFrom? entries) settings = some result) :
    update result = result := by
  induction order generalizing settings with
  | nil =>
      cases hresult
      exact hupdated
  | cons other order ih =>
      rw [List.mem_cons, not_or] at hnotMem
      obtain ⟨hne, hnotMem⟩ := hnotMem
      obtain ⟨next, hnext, hrest⟩ := Option.bind_eq_some_iff.1 hresult
      refine ih ?_ hnotMem hrest
      rw [assignFrom?] at hnext
      split at hnext
      · next value _ =>
          rcases assignValue?_cases other value with hnone | ⟨otherUpdate, hother, hassign⟩
          · rw [hnone] at hnext
            cases hnext
          · rw [hassign] at hnext
            cases hnext
            rw [h.comm hother (Ne.symm hne), hupdated]
      · cases hnext
        exact hupdated

/-- A setting has the value that the entries give it. -/
theorem assignValue?_of_foldlM (hnodup : order.Nodup) (hmem : setting ∈ order)
    (hvalue : entries.find? setting.name = some value)
    (hresult : order.foldlM (assignFrom? entries) settings = some result) :
    result.assignValue? setting value = some result := by
  induction order generalizing settings with
  | nil => exact absurd hmem List.not_mem_nil
  | cons first order ih =>
      obtain ⟨hfirst, hnodup⟩ := List.nodup_cons.1 hnodup
      obtain ⟨next, hnext, hrest⟩ := Option.bind_eq_some_iff.1 hresult
      rcases List.mem_cons.1 hmem with rfl | hmem
      · simp only [assignFrom?, hvalue] at hnext
        rcases assignValue?_cases setting value with hnone | ⟨update, hupdate, hassign⟩
        · rw [hnone] at hnext
          cases hnext
        · rw [hassign] at hnext
          cases hnext
          rw [hassign, hupdate.foldlM_assignFrom? hupdate.idem hfirst hrest]
      · exact ih hnodup hmem hrest

/-- Every setting can be given another value by a document. -/
theorem exists_assignValue?_ne (settings : Settings) (setting : Setting) :
    ∃ value result, Toml.IsPlainValue value ∧
      settings.assignValue? setting value = some result ∧ result ≠ settings := by
  -- Of two different values one at least is another than before.
  have htwo : ∃ value result otherValue otherResult,
      Toml.IsPlainValue value ∧ settings.assignValue? setting value = some result ∧
      Toml.IsPlainValue otherValue ∧
      settings.assignValue? setting otherValue = some otherResult ∧ result ≠ otherResult := by
    cases setting with
    | configFile | logFilter | defaultAlgorithm | recordFile =>
        exact ⟨.text "a", _, .text "b", _, .text _, rfl, .text _, rfl, by simp⟩
    | modulusBits =>
        exact ⟨.integer 0, _, .integer 1, _, .integer _ (by decide), rfl,
          .integer _ (by decide), rfl, by simp⟩
    | rotationPeriod =>
        exact ⟨.integer 0, _, .integer 1, _, .integer _ (by decide), rfl,
          .integer _ (by decide), rfl, by simp⟩
  obtain ⟨value, result, otherValue, otherResult, hplain, hassign, hotherPlain, hotherAssign,
    hne⟩ := htwo
  by_cases hsame : result = settings
  · exact ⟨otherValue, otherResult, hotherPlain, hotherAssign, fun h ↦ hne (hsame.trans h.symm)⟩
  · exact ⟨value, result, hplain, hassign, hsame⟩

/-! ## What the arguments give -/

/-- The settings that the arguments give. -/
def givenBy (arguments : List String) : List Setting :=
  match takeAll arguments ⟨argumentDefaults, [], none⟩ with
  | .ok progress => progress.given
  | .error _ => []

/-- The arguments can be taken, and give the option that names a document with this path. -/
def NamesDocument (arguments : List String) (path : String) : Prop :=
  ∃ progress, takeAll arguments ⟨argumentDefaults, [], none⟩ = .ok progress ∧
    progress.settings.configFile = some path

/-- Only what is a value by its form is taken for the value that an option misses. -/
theorem Progress.take_eq_error {progress : Progress} (argument : Argument)
    (hpending : progress.pending = some (setting, none)) (hvalue : ∀ text, argument ≠ .value text)
    (hdivider : argument ≠ .divider) : ∃ halt, progress.take argument = .error halt := by
  have hsettle : progress.settle = .error (.fault .missingValue) := by
    rw [Progress.settle, hpending]
  have hoption (option attached) :
      progress.takeOption option attached = .error (.fault .missingValue) := by
    rw [Progress.takeOption, hsettle]
    rfl
  cases argument with
  | long name attached =>
      cases hname : OptionName.ofLong? name with
      | none =>
          simp only [Progress.take, hname]
          exact ⟨_, rfl⟩
      | some option =>
          cases option <;> cases attached <;> simp only [Progress.take, hname, hoption] <;>
            exact ⟨_, rfl⟩
  | short c rest =>
      cases hname : OptionName.ofShort? c with
      | none =>
          simp only [Progress.take, hname]
          exact ⟨_, rfl⟩
      | some option =>
          simp only [Progress.take, hname, hoption]
          exact ⟨_, rfl⟩
  | divider => exact absurd rfl hdivider
  | value text => exact absurd rfl (hvalue text)

/-- An option that names a document and misses its value takes the next argument for it. -/
theorem configFile_of_takeAll {path : String} {progress : Progress}
    (h : takeAll [path] ⟨argumentDefaults, [], some (.configFile, none)⟩ = .ok progress) :
    progress.settings.configFile = some path := by
  have hpending : Progress.pending ⟨argumentDefaults, [], some (.configFile, none)⟩ =
      some (.configFile, none) := rfl
  unfold takeAll at h
  cases hform : Argument.ofText path with
  | value text =>
      rw [hform] at h
      cases h
      rw [Argument.eq_of_ofText hform]
  | divider =>
      rw [hform] at h
      cases h
  | long name attached =>
      obtain ⟨halt, htake⟩ := Progress.take_eq_error (.long name attached) hpending
        (by simp) (by simp)
      rw [hform] at h
      change (Progress.take _ _).bind _ = _ at h
      rw [htake] at h
      cases h
  | short c rest =>
      obtain ⟨halt, htake⟩ := Progress.take_eq_error (.short c rest) hpending
        (by simp) (by simp)
      rw [hform] at h
      change (Progress.take _ _).bind _ = _ at h
      rw [htake] at h
      cases h

end Settings

namespace Request

open Settings

variable {arguments : List String} {path : String} {environment : String → Option String}

/-- The run heeds the document with this path: it fails because the document cannot be read or
parsed, or every setting that the document gives and the arguments do not has the value of the
document. -/
def Heeds (arguments : List String) (environment read : String → Option String) (path : String) :
    Prop :=
  match (ofArguments arguments).settings environment read with
  | .error stop => stop = .failure .unreadableDocument ∨ stop = .failure .unparsableDocument
  | .ok settings =>
      ∀ content entries setting value, read path = some content →
        Toml.parse content = some entries → Toml.Entries.find? entries setting.name = some value →
        setting ∉ givenBy arguments → settings.assignValue? setting value = some settings

/-- The arguments are accepted: with some files there are settings. -/
def Accepts (arguments : List String) (environment : String → Option String) : Prop :=
  ∃ read settings, (ofArguments arguments).settings environment read = .ok settings

/-- A document is named in two arguments and nothing else, or else the arguments are read as
options. -/
theorem ofArguments_cases (arguments : List String) :
    (∃ path, (arguments = ["-c", path] ∨ arguments = ["--config", path]) ∧
      ofArguments arguments = .document path) ∨
    (∀ path, arguments ≠ ["-c", path] ∧ arguments ≠ ["--config", path]) ∧
      ofArguments arguments = .arguments arguments := by
  unfold ofArguments
  split
  · next option path =>
      by_cases hoption : option = "-c" ∨ option = "--config"
      · exact .inl ⟨path, by simpa using hoption, if_pos hoption⟩
      · refine .inr ⟨fun other ↦ ⟨?_, ?_⟩, if_neg hoption⟩
        · intro h
          cases h
          exact hoption (.inl rfl)
        · intro h
          cases h
          exact hoption (.inr rfl)
  · next hother => exact .inr ⟨fun path ↦ ⟨hother _ _, hother _ _⟩, rfl⟩

/-- A document that is read is heeded. -/
theorem heeds_of_document (h : ofArguments arguments = .document path)
    (read : String → Option String) : Heeds arguments environment read path := by
  rw [Heeds, h, Request.settings]
  cases hread : read path with
  | none => exact .inl rfl
  | some content =>
      cases hsettings : ofText? content with
      | none =>
          simp only [load, hsettings]
          exact .inr rfl
      | some settings =>
          simp only [load, hsettings]
          intro other entries setting value hcontent hparse hvalue _
          cases hcontent
          rw [ofText?, hparse] at hsettings
          exact assignValue?_of_foldlM (by decide) setting.mem_all hvalue hsettings

/-- The option parser finds the path of the document that is read. -/
theorem path_of_namesDocument {other : String}
    (h : arguments = ["-c", path] ∨ arguments = ["--config", path])
    (hnames : NamesDocument arguments other) : path = other := by
  obtain ⟨progress, htake, hother⟩ := hnames
  have hpath : progress.settings.configFile = some path := by
    refine configFile_of_takeAll ?_
    rcases h with rfl | rfl
    · exact htake
    · exact htake
  exact Option.some.inj (hpath.symm.trans hother)

/-- Without reading a document the run does not heed what it says about settings that the arguments
do not give. -/
theorem not_heeds_of_arguments {setting : Setting} {settings : Settings}
    (harguments : ofArguments arguments = .arguments arguments)
    (hsettings : Settings.ofArguments arguments environment = .ok settings)
    (hmissing : setting ∉ givenBy arguments) (path : String) :
    ∃ document, ¬ Heeds arguments environment (fun _ ↦ some document) path := by
  obtain ⟨value, result, hplain, hassign, hne⟩ := exists_assignValue?_ne settings setting
  have hentries : ∀ entry ∈ [(setting.name, value)], Toml.IsPlainValue entry.2 :=
    List.forall_mem_singleton.2 hplain
  obtain ⟨document, hdocument⟩ := Toml.exists_spellsDocument hentries
  have hparse := Toml.parse_of_spellsDocument hdocument (List.pairwise_singleton _ _)
  refine ⟨document, fun hheeds ↦ hne ?_⟩
  rw [Heeds, harguments, Request.settings, hsettings] at hheeds
  have hvalue : Toml.Entries.find? [(setting.name, value)] setting.name = some value := by
    simp [Toml.Entries.find?]
  have hsame := hheeds _ _ setting value rfl hparse hvalue hmissing
  exact Option.some.inj (hassign.symm.trans hsame)

/-- For arguments that are accepted and name a document, the document is heeded whatever it says
exactly when it is named in two arguments and nothing else, or when the arguments give every setting
themselves. -/
theorem heeds_iff (hnames : NamesDocument arguments path)
    (haccepts : Accepts arguments environment) :
    (∀ read, Heeds arguments environment read path) ↔
      arguments = ["-c", path] ∨ arguments = ["--config", path] ∨
        ∀ setting, setting ∈ givenBy arguments := by
  rcases ofArguments_cases arguments with ⟨other, hform, hdocument⟩ | ⟨hform, harguments⟩
  · obtain rfl := path_of_namesDocument hform hnames
    exact ⟨fun _ ↦ hform.elim .inl (.inr ∘ .inl), fun _ ↦ heeds_of_document hdocument⟩
  · obtain ⟨someRead, settings, haccepts⟩ := haccepts
    rw [harguments, Request.settings] at haccepts
    cases hsettings : Settings.ofArguments arguments environment with
    | error halt =>
        rw [hsettings] at haccepts
        cases haccepts
    | ok settings =>
        constructor
        · intro hheeds
          refine .inr (.inr fun setting ↦ ?_)
          by_contra hmissing
          obtain ⟨document, hnot⟩ := not_heeds_of_arguments harguments hsettings hmissing path
          exact hnot (hheeds _)
        · intro h read
          have hall : ∀ setting, setting ∈ givenBy arguments := by
            rcases h with h | h | h
            · exact absurd h (hform path).1
            · exact absurd h (hform path).2
            · exact h
          rw [Heeds, harguments, Request.settings, hsettings]
          intro content entries setting value _ _ _ hmissing
          exact absurd (hall setting) hmissing

/-- With the path attached to the option the document need not count, and neither need it when
another option stands beside the two arguments that name it; in these two alone it does. -/
theorem heeds_iff_spelling :
    (¬ ∀ read, Heeds ["--config=c.toml"] (fun _ ↦ none) read "c.toml") ∧
      (¬ ∀ read, Heeds ["-c", "c.toml", "--rsa-bits=3072"] (fun _ ↦ none) read "c.toml") ∧
      ∀ read, Heeds ["-c", "c.toml"] (fun _ ↦ none) read "c.toml" := by
  refine ⟨?_, ?_, ?_⟩
  · have hgiven : givenBy ["--config=c.toml"] = [.configFile] := rfl
    rw [heeds_iff ⟨_, rfl, rfl⟩ ⟨fun _ ↦ none, _, rfl⟩, hgiven]
    rintro (h | h | h)
    · exact absurd h (by decide)
    · exact absurd h (by decide)
    · exact absurd (h .logFilter) (by decide)
  · have hgiven : givenBy ["-c", "c.toml", "--rsa-bits=3072"] = [.modulusBits, .configFile] := rfl
    rw [heeds_iff ⟨_, rfl, rfl⟩ ⟨fun _ ↦ none, _, rfl⟩, hgiven]
    rintro (h | h | h)
    · exact absurd h (by decide)
    · exact absurd h (by decide)
    · exact absurd (h .logFilter) (by decide)
  · have haccepts : Accepts ["-c", "c.toml"] fun _ ↦ none := ⟨fun _ ↦ some "", _, rfl⟩
    exact (heeds_iff ⟨_, rfl, rfl⟩ haccepts).2 (.inl rfl)

/-- A document with a rotation period of two minutes is named in one argument: the run has the
default period, although nothing is wrong with the document. -/
theorem attached_document_ignored :
    let read : String → Option String := fun path ↦
      if path = "c.toml" then some "rotation_frequency = 120\n" else none
    ofText? "rotation_frequency = 120\n" = some { default with rotationPeriod := 120 } ∧
      (ofArguments ["--config=c.toml"]).settings (fun _ ↦ none) read =
        .ok { default with configFile := some "c.toml" } ∧
      ¬ Heeds ["--config=c.toml"] (fun _ ↦ none) read "c.toml" := by
  intro read
  have hnumber : Toml.SpellsInteger 120 ['1', '2', '0'] :=
    .unsigned 120 _ (.digits ['1', '2', '0'] _ (Toml.spellsDigits_self (by decide)
      (List.all_eq_true.1 (by decide))) (by decide))
  have hentry := Toml.SpellsEntry.intro [] "rotation_frequency".toList _ [' '] [' '] _ _ (by decide)
    (.bare (by decide) (List.all_eq_true.1 (by decide))) (by decide) (by decide)
    (.integer _ _ (by decide) hnumber)
  have hdocument : Toml.SpellsDocument [("rotation_frequency", .integer 120)]
      "rotation_frequency = 120\n".toList := by
    have htext := Toml.SpellsDocument.entry _ _ [] ['\n'] _ _ hentry (.blanks [] (by decide)) .feed
      (.lastBlank [] (.blanks [] (by decide)))
    convert htext using 1
    · rfl
    · decide +kernel
  have hparse := Toml.parse_of_spellsDocument hdocument (by decide)
  refine ⟨by rw [ofText?, hparse]; rfl, rfl, fun hheeds ↦ ?_⟩
  have hsame := hheeds _ _ .rotationPeriod (.integer 120) rfl hparse rfl (by decide)
  cases hsame

end Request

end SigningKeys
