import SigningKeys.Proofs.Key.Length
import SigningKeys.Record.Issue

/-!
# Issued records

When a registry issues a record, and what is in it (`Registry.issueFor_eq_ok_iff`).
-/

namespace SigningKeys

namespace Registry

variable {registry : Registry} {algorithm : Algorithm} {draw : Draw} {record : Record}

/-- The generator that is found for a kind of key is of that kind. -/
theorem algorithm_of_find? {generator : Generator} (h : registry.find? algorithm = some generator) :
    generator.algorithm = algorithm := by
  simpa using List.find?_some h

/-- A record is issued exactly when the kind of key has a generator, this hands out a pair, and both
halves can be written; the record then holds both halves and what the caller supplies. -/
theorem issueFor_eq_ok_iff :
    registry.issueFor algorithm draw = .ok record ↔
      ∃ generator pair publicText privateText,
        registry.find? algorithm = some generator ∧
        generator.generate draw.entropy = .ok pair ∧
        pair.encode = .ok (publicText, privateText) ∧
        record = ⟨draw.keyId, algorithm, publicText, privateText, draw.createdAt, .active⟩ := by
  unfold issueFor resolve Record.ofPair
  cases hfind : registry.find? algorithm with
  | none => simp [bind, Except.bind]
  | some generator =>
      cases hpair : generator.generate draw.entropy with
      | error error => simp [bind, Except.bind, hpair]
      | ok pair =>
          cases htexts : pair.encode with
          | error error => simp [bind, Except.bind, hpair, htexts]
          | ok texts =>
              obtain ⟨publicText, privateText⟩ := texts
              simp [bind, Except.bind, pure, Except.pure, hpair, htexts]
              exact eq_comm

/-- An issued record has the id that was drawn for it. -/
theorem keyId_of_issue (h : registry.issue draw = .ok record) : record.keyId = draw.keyId := by
  obtain ⟨_, _, _, _, _, _, _, rfl⟩ := issueFor_eq_ok_iff.1 h
  rfl

/-- An issued record signs. -/
theorem isActive_of_issue (h : registry.issue draw = .ok record) : record.isActive = true := by
  obtain ⟨_, _, _, _, _, _, _, rfl⟩ := issueFor_eq_ok_iff.1 h
  rfl

/-- The generator that is found for the default kind of key is the default one. -/
theorem find?_default (registry : Registry) :
    registry.find? registry.default = some registry.defaultGenerator :=
  (Option.some_get registry.isSome_find?_default).symm

/-- No record is issued exactly when the default generator hands out no pair, or one that cannot be
written; the error is the one of that. -/
theorem issue_eq_error_iff {error : Error} :
    registry.issue draw = .error error ↔
      registry.defaultGenerator.generate draw.entropy = .error error ∨
        ∃ pair, registry.defaultGenerator.generate draw.entropy = .ok pair ∧
          pair.encode = .error error := by
  unfold issue issueFor resolve Record.ofPair
  rw [registry.find?_default]
  cases hpair : registry.defaultGenerator.generate draw.entropy with
  | error other => simp [bind, Except.bind, hpair]
  | ok pair =>
      cases htexts : pair.encode with
      | error other => simp [bind, Except.bind, hpair, htexts]
      | ok texts => simp [bind, Except.bind, pure, Except.pure, hpair, htexts]

/-- A record is issued when the default generator hands out a pair whose private half can be
written. -/
theorem exists_issue {pair : KeyPair} {privateText : String}
    (hpair : registry.defaultGenerator.generate draw.entropy = .ok pair)
    (hprivate : pair.privateKey.encode = .ok privateText) :
    ∃ record, registry.issue draw = .ok record := by
  obtain ⟨publicText, htexts⟩ := KeyPair.exists_encode hprivate
  exact ⟨_, issueFor_eq_ok_iff.2 ⟨registry.defaultGenerator, pair, publicText, privateText,
    registry.find?_default, hpair, htexts, rfl⟩⟩

/-- An issued record is of the default kind. -/
theorem algorithm_of_issue (h : registry.issue draw = .ok record) :
    record.algorithm = registry.default := by
  obtain ⟨_, _, _, _, _, _, _, rfl⟩ := issueFor_eq_ok_iff.1 h
  rfl

/-- An issued record bears the time that was read for it. -/
theorem createdAt_of_issue (h : registry.issue draw = .ok record) :
    record.createdAt = draw.createdAt := by
  obtain ⟨_, _, _, _, _, _, _, rfl⟩ := issueFor_eq_ok_iff.1 h
  rfl

end Registry

/-! ## The small key issued -/

/-- The generator that hands out the small key whenever it is asked. -/
def Generator.small : Generator := ⟨.rsa, fun _ ↦ .ok (.ofPrivate (.rsa smallKey))⟩

/-- The registry of the generator of the small key. -/
def Registry.small : Registry := ⟨[.small], .rsa, ⟨.small, by simp, rfl⟩, by simp⟩

/-- A second of one day. -/
def Instant.small (second : Nat) (range : second < 86400) : Instant :=
  ⟨730000, second, 0, by decide, by decide, range, .inl (by decide)⟩

/-- An active key whose hour ends at one o'clock. -/
def Record.small : Record := ⟨"small", .rsa, "", "", .small 0 (by decide), .active⟩

end SigningKeys
