import Mathlib.Data.List.Forall2
import SigningKeys.Proofs.Generator
import SigningKeys.Proofs.Record.Issue
import SigningKeys.Run

/-!
# Which settings can be assembled

Settings are acceptable when they name a kind of key and lie within the limits (`Settings.IsValid`);
otherwise the first condition that does not hold decides the error (`Settings.Refuses`). From
acceptable settings a registry and a strategy are assembled (`Settings.exists_registry`,
`Settings.exists_strategy`), and from others none.
-/

namespace SigningKeys

/-! ## Tags in any case -/

namespace Algorithm

/-- The text is the tag of the kind of key, with any of its letters in lower case. -/
def IsNamedBy (algorithm : Algorithm) (text : String) : Prop :=
  List.Forall₂ (fun c letter ↦ c = letter ∨ c = letter.toLower) text.toList algorithm.tag.toList

/-- The characters that become a capital letter are this letter and its lower case. -/
theorem toUpper_eq_iff {c letter : Char} (h : letter.isUpper = true) :
    c.toUpper = letter ↔ c = letter ∨ c = letter.toLower := by
  have ha : 'a'.val.toNat = 97 := rfl
  have hz : 'z'.val.toNat = 122 := rfl
  have hA : 'A'.val.toNat = 65 := rfl
  have hZ : 'Z'.val.toNat = 90 := rfl
  have hup : ('A'.val - 'a'.val).toNat = 4294967264 := rfl
  have hdown : ('a'.val - 'A'.val).toNat = 32 := rfl
  have hsize := c.val.toNat_lt
  delta Char.isUpper at h
  simp only [decide_eq_true_eq] at h
  have hlower : letter.toLower.val = letter.val + ('a'.val - 'A'.val) :=
    congrArg Char.val (dif_pos h)
  simp only [ge_iff_le, UInt32.le_iff_toNat_le] at h
  by_cases hc : 'a'.val ≤ c.val ∧ c.val ≤ 'z'.val
  · -- Taking 32 away is adding up to the word size.
    have hupper : c.toUpper.val = c.val + ('A'.val - 'a'.val) := by
      delta Char.toUpper
      rw [dif_pos hc]
    simp only [UInt32.le_iff_toNat_le] at hc
    simp only [Char.ext_iff, hlower, hupper, ← UInt32.toNat_inj, UInt32.toNat_add]
    omega
  · have hupper : c.toUpper = c := dif_neg hc
    simp only [UInt32.le_iff_toNat_le] at hc
    simp only [Char.ext_iff, hlower, hupper, ← UInt32.toNat_inj, UInt32.toNat_add]
    omega

/-- A text becomes a text of capital letters when each character becomes the letter. -/
theorem map_toUpper_eq_iff {text letters : List Char}
    (h : ∀ letter ∈ letters, letter.isUpper = true) :
    text.map Char.toUpper = letters ↔
      List.Forall₂ (fun c letter ↦ c = letter ∨ c = letter.toLower) text letters := by
  induction letters generalizing text with
  | nil => simp
  | cons letter letters ih =>
      obtain ⟨hletter, hletters⟩ := List.forall_mem_cons.1 h
      cases text with
      | nil => simp
      | cons c text =>
          rw [List.map_cons, List.cons.injEq, toUpper_eq_iff hletter, ih hletters,
            List.forall₂_cons]

/-- Tags are in capital letters. -/
theorem isUpper_of_mem_tag (algorithm : Algorithm) :
    ∀ letter ∈ algorithm.tag.toList, letter.isUpper = true := by
  rw [← List.all_eq_true]
  cases algorithm <;> decide

/-- A kind of key is found for the texts that name it. -/
theorem ofTag?_eq_some_iff {text : String} {algorithm : Algorithm} :
    ofTag? text = some algorithm ↔ algorithm.IsNamedBy text := by
  rw [IsNamedBy, ← map_toUpper_eq_iff (isUpper_of_mem_tag algorithm)]
  constructor
  · intro h
    simpa using List.find?_some h
  · intro h
    rw [ofTag?, h]
    cases algorithm <;> decide

/-- The kind of key that a text names is found. -/
theorem ofTag_of_isNamedBy {text : String} {algorithm : Algorithm} (h : algorithm.IsNamedBy text) :
    ofTag text = .ok algorithm := by
  rw [ofTag, ofTag?_eq_some_iff.2 h]

/-- For a text that names no kind of key the error repeats the text. -/
theorem ofTag_of_not_isNamedBy {text : String}
    (h : ∀ algorithm : Algorithm, ¬ algorithm.IsNamedBy text) :
    ofTag text = .error (.unsupportedAlgorithm text) := by
  rw [ofTag]
  cases hfound : ofTag? text with
  | some algorithm => exact absurd (ofTag?_eq_some_iff.1 hfound) (h algorithm)
  | none => rfl

end Algorithm

/-! ## Generators of both kinds -/

/-- A size within the limits has a generator. -/
theorem Generator.exists_rsa {bits : Nat} (h : 2048 ≤ bits ∧ bits ≤ 4096) :
    ∃ generator, rsa bits = .ok generator ∧ generator.algorithm = .rsa ∧
      ∀ entropy, generator.generate entropy =
        drawn .rsa ((Rsa.PrivateKey.draw? bits entropy).map .rsa) :=
  ⟨_, if_pos h, rfl, fun _ ↦ rfl⟩

/-- A size that is out of range has none. -/
theorem Generator.rsa_eq_error {bits : Nat} (h : ¬ (2048 ≤ bits ∧ bits ≤ 4096)) :
    rsa bits = .error (.configuration (.modulusSize bits)) :=
  if_neg h

/-- With a generator of each kind, either kind can be the default, and building never fails. -/
theorem Registry.exists_build {generator : Generator} (h : generator.algorithm = .rsa)
    (algorithm : Algorithm) :
    ∃ registry, build [⟨.ec, algorithm = .ec⟩, ⟨generator, algorithm = .rsa⟩] = .ok registry ∧
      registry.default = algorithm ∧ registry.generators = [.ec, generator] := by
  obtain ⟨kind, generate⟩ := generator
  subst h
  cases algorithm <;> exact ⟨_, rfl, rfl, rfl⟩

namespace Settings

/-! ## Acceptable settings -/

/-- The settings name a kind of key and lie within the limits, that for RSA keys whatever kind they
name. -/
structure IsValid (settings : Settings) (algorithm : Algorithm) : Prop where
  named : algorithm.IsNamedBy settings.defaultAlgorithm
  modulusBits : 2048 ≤ settings.modulusBits ∧ settings.modulusBits ≤ 4096
  rotationPeriod : 1 ≤ settings.rotationPeriod ∧ settings.rotationPeriod ≤ maxRotationPeriod

/-- The settings are turned away with a failure: that of the first condition which does not hold. -/
inductive Refuses (settings : Settings) : Failure → Prop where
  | algorithm :
      (∀ algorithm : Algorithm, ¬ algorithm.IsNamedBy settings.defaultAlgorithm) →
      Refuses settings (.generators (.unsupportedAlgorithm settings.defaultAlgorithm))
  | modulusBits (algorithm) :
      Algorithm.IsNamedBy algorithm settings.defaultAlgorithm →
      ¬ (2048 ≤ settings.modulusBits ∧ settings.modulusBits ≤ 4096) →
      Refuses settings (.generators (.configuration (.modulusSize settings.modulusBits)))
  | rotationPeriod (algorithm) :
      Algorithm.IsNamedBy algorithm settings.defaultAlgorithm →
      2048 ≤ settings.modulusBits ∧ settings.modulusBits ≤ 4096 →
      ¬ (1 ≤ settings.rotationPeriod ∧ settings.rotationPeriod ≤ maxRotationPeriod) →
      Refuses settings (.rotationPeriod (.configuration (.rotationPeriod settings.rotationPeriod)))

variable {settings : Settings} {algorithm : Algorithm} {entropy : Entropy}

/-- Settings are acceptable or turned away. -/
theorem isValid_or_refuses (settings : Settings) :
    (∃ algorithm, settings.IsValid algorithm) ∨ ∃ failure, settings.Refuses failure := by
  by_cases hname : ∃ algorithm : Algorithm, algorithm.IsNamedBy settings.defaultAlgorithm
  · obtain ⟨algorithm, hname⟩ := hname
    by_cases hbits : 2048 ≤ settings.modulusBits ∧ settings.modulusBits ≤ 4096
    · by_cases hperiod :
          1 ≤ settings.rotationPeriod ∧ settings.rotationPeriod ≤ maxRotationPeriod
      · exact .inl ⟨algorithm, hname, hbits, hperiod⟩
      · exact .inr ⟨_, .rotationPeriod algorithm hname hbits hperiod⟩
    · exact .inr ⟨_, .modulusBits algorithm hname hbits⟩
  · exact .inr ⟨_, .algorithm (not_exists.1 hname)⟩

/-- Acceptable settings are not turned away. -/
theorem IsValid.not_refuses {failure : Failure} (h : settings.IsValid algorithm) :
    ¬ settings.Refuses failure := by
  intro hrefuses
  cases hrefuses with
  | algorithm hname => exact hname algorithm h.named
  | modulusBits _ _ hbits => exact hbits h.modulusBits
  | rotationPeriod _ _ _ hperiod => exact hperiod h.rotationPeriod

/-- Settings are turned away while the generators or the period are assembled. -/
theorem Refuses.turnsAway {failure : Failure} (h : settings.Refuses failure) :
    (∃ cause, failure = .generators cause) ∨ ∃ cause, failure = .rotationPeriod cause := by
  cases h with
  | algorithm | modulusBits => exact .inl ⟨_, rfl⟩
  | rotationPeriod => exact .inr ⟨_, rfl⟩

/-! ## Assembling -/

/-- The private key of the given kind, and of the size that is set, that random bytes give. -/
def drawnKey? (settings : Settings) (algorithm : Algorithm) (entropy : Entropy) :
    Option PrivateKey :=
  match algorithm with
  | .ec => (P256.SecretKey.draw? entropy).map .ec
  | .rsa => (Rsa.PrivateKey.draw? settings.modulusBits entropy).map .rsa

/-- Settings that name a kind of key and a size within the limits make a registry with this kind as
the default, whose generator draws the key. -/
theorem exists_registry (hname : algorithm.IsNamedBy settings.defaultAlgorithm)
    (hbits : 2048 ≤ settings.modulusBits ∧ settings.modulusBits ≤ 4096) :
    ∃ registry, settings.registry = .ok registry ∧ registry.default = algorithm ∧
      registry.defaultGenerator.Draws ∧ ∀ entropy, registry.defaultGenerator.generate entropy =
        Generator.drawn algorithm (settings.drawnKey? algorithm entropy) := by
  obtain ⟨generator, hgenerator, hkind, hgenerate⟩ := Generator.exists_rsa hbits
  obtain ⟨registry, hbuild, hdefault, hgenerators⟩ := Registry.exists_build hkind algorithm
  have hregistry : settings.registry = .ok registry := by
    rw [Settings.registry, Algorithm.ofTag_of_isNamedBy hname, hgenerator]
    exact hbuild
  have hfind := registry.find?_default
  rw [Registry.find?, hdefault, hgenerators] at hfind
  refine ⟨registry, hregistry, hdefault, ?_⟩
  cases algorithm with
  | ec =>
      have hec : registry.defaultGenerator = .ec := by simpa [Generator.ec, eq_comm] using hfind
      rw [hec]
      exact ⟨.ec, fun entropy ↦ rfl⟩
  | rsa =>
      have hrsa : registry.defaultGenerator = generator := by
        simpa [Generator.ec, hkind, eq_comm] using hfind
      rw [hrsa]
      exact ⟨.rsa hgenerator, hgenerate⟩

/-- Texts that name no kind of key are turned away first. -/
theorem registry_eq_error_of_not_named
    (h : ∀ algorithm : Algorithm, ¬ algorithm.IsNamedBy settings.defaultAlgorithm) :
    settings.registry = .error (.unsupportedAlgorithm settings.defaultAlgorithm) := by
  rw [registry, Algorithm.ofTag_of_not_isNamedBy h]
  rfl

/-- A size that is out of range is turned away, also if the size does not matter. -/
theorem registry_eq_error_of_modulusBits (hname : algorithm.IsNamedBy settings.defaultAlgorithm)
    (hbits : ¬ (2048 ≤ settings.modulusBits ∧ settings.modulusBits ≤ 4096)) :
    settings.registry = .error (.configuration (.modulusSize settings.modulusBits)) := by
  rw [registry, Algorithm.ofTag_of_isNamedBy hname, Generator.rsa_eq_error hbits]
  rfl

/-- A period within the limits makes a strategy. -/
theorem exists_strategy
    (h : 1 ≤ settings.rotationPeriod ∧ settings.rotationPeriod ≤ maxRotationPeriod) :
    ∃ strategy, settings.strategy = .ok strategy ∧ strategy.seconds = settings.rotationPeriod := by
  rw [strategy, Strategy.ofSeconds, dif_pos h]
  exact ⟨_, rfl, rfl⟩

/-- A period that is out of range is turned away. -/
theorem strategy_eq_error
    (h : ¬ (1 ≤ settings.rotationPeriod ∧ settings.rotationPeriod ≤ maxRotationPeriod)) :
    settings.strategy = .error (.configuration (.rotationPeriod settings.rotationPeriod)) := by
  rw [strategy, Strategy.ofSeconds, dif_neg h]

end Settings

end SigningKeys
