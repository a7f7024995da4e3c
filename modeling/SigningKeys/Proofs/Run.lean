import SigningKeys.Proofs.Jwk.Set
import SigningKeys.Proofs.Record.Disclosure
import SigningKeys.Proofs.Record.Storage
import SigningKeys.Proofs.Rotation.Course
import SigningKeys.Proofs.Settings.Assembly

/-!
# What a run delivers

A run is turned away exactly when its settings are not acceptable (`Settings.Refuses`), and before
anything is drawn. Otherwise it issues one record (`Record.IsIssuedFor`), and delivers it in one
place: in its file, or in the printed object if there is no file (`Delivers`). The main statement,
`run_delivers`, says so for all settings.
-/

namespace SigningKeys

open Json

/-! ## The printed object -/

/-- The text is an object with a key set, an id and a time, and further members after these. The set
is that of the one key and is read as this, the id is that of the record, and the time is read as
the next rotation. -/
inductive Announces (record : Record) (key : Jwk) (next : Instant)
    (further : List (String × Value)) (output : String) : Prop where
  | intro (keySet time) :
      parse output = some (.ofMembers ([("jwks", keySet), ("keyId", .text record.keyId),
        ("nextRotation", .text time)] ++ further)) →
      keySet = (JwkSet.mk [key]).toJson.sorted →
      JwkSet.ofJson? keySet = some ⟨[key]⟩ →
      Instant.ofText? time = some next →
      Announces record key next further output

/-- The printed object has its members in the order of their names. -/
theorem sorted_printedObject (record : Record) (next : Instant) (keySet : JwkSet)
    (withRecord : Bool) :
    (printedObject record next keySet withRecord).sorted =
      .ofMembers ([("jwks", keySet.toJson.sorted), ("keyId", .text record.keyId),
        ("nextRotation", .text next.text)] ++
        if withRecord then [("record", record.toJson.sorted)] else []) := by
  cases withRecord <;>
    simp [printedObject, Value.ofMembers, Value.sorted, Value.sortedMembers, Value.text,
      Value.nameLe, List.mergeSort, List.MergeSort.Internal.splitInTwo]

/-- A key for verifying a record is one that is built. -/
theorem Record.isBuilt_of_publicJwk {record : Record} {key : Jwk}
    (h : record.publicJwk = .ok key) : key.IsBuilt := by
  obtain ⟨publicKey, hpublic⟩ := Jwk.exists_decode_of_ofTexts h
  exact .ofPublic record.keyId publicKey ((Jwk.ofTexts_of_decode hpublic).symm.trans h)

/-- The text of the printed object announces the key for verifying. -/
theorem announces_printedObject {record : Record} {key : Jwk} (h : record.publicJwk = .ok key)
    (next : Instant) (withRecord : Bool) :
    Announces record key next (if withRecord then [("record", record.toJson.sorted)] else [])
      (printedObject record next ⟨[key]⟩ withRecord).sorted.pretty := by
  have hbuilt : ∀ jwk ∈ (JwkSet.mk [key]).keys, jwk.IsBuilt :=
    List.forall_mem_singleton.2 (Record.isBuilt_of_publicJwk h)
  refine .intro _ next.text ?_ rfl (JwkSet.ofJson?_of_isBuilt hbuilt).2 (Instant.ofText?_text next)
  rw [parse_pretty, sorted_printedObject]

/-! ## Preparing a delivery -/

/-- A relabelled error is that of the step. -/
theorem mapError_eq_error_iff {α ε φ : Type} {step : Except ε α} {relabel : ε → φ} {error : φ} :
    step.mapError relabel = .error error ↔
      ∃ cause, step = .error cause ∧ relabel cause = error := by
  cases step <;> simp [Except.mapError]

section

variable {settings : Settings} {draw : Draw} {algorithm : Algorithm}

/-- Settings that are not acceptable are turned away before anything is drawn. -/
theorem prepare_of_refuses {failure : Failure} (h : settings.Refuses failure) (draw : Draw) :
    prepare settings draw = .error failure := by
  cases h with
  | algorithm hname =>
      rw [prepare, Settings.registry_eq_error_of_not_named hname]
      rfl
  | modulusBits algorithm hname hbits =>
      rw [prepare, Settings.registry_eq_error_of_modulusBits hname hbits]
      rfl
  | rotationPeriod algorithm hname hbits hperiod =>
      obtain ⟨registry, hregistry, -⟩ := Settings.exists_registry hname hbits
      rw [prepare, hregistry, Settings.strategy_eq_error hperiod]
      rfl

/-- Acceptable settings are not turned away, whatever else fails. -/
theorem not_turned_away_of_isValid {failure : Failure} (hvalid : settings.IsValid algorithm)
    (h : prepare settings draw = .error failure) (cause : Error) :
    failure ≠ .generators cause ∧ failure ≠ .rotationPeriod cause := by
  obtain ⟨registry, hregistry, -⟩ := Settings.exists_registry hvalid.named hvalid.modulusBits
  obtain ⟨strategy, hstrategy, -⟩ := Settings.exists_strategy hvalid.rotationPeriod
  rw [prepare, hregistry, hstrategy] at h
  simp only [bind_eq_error_iff, mapError_eq_error_iff] at h
  -- One alternative for each step that can fail, and one for the end.
  rcases h with ⟨_, h, -⟩ | ⟨_, -, ⟨_, h, -⟩ | ⟨_, -, ⟨_, -, rfl⟩ | ⟨_, -, ⟨_, -, rfl⟩ |
    ⟨_, -, ⟨_, -, rfl⟩ | ⟨_, -, h⟩⟩⟩⟩⟩
  · cases h
  · cases h
  · exact ⟨nofun, nofun⟩
  · exact ⟨nofun, nofun⟩
  · exact ⟨nofun, nofun⟩
  · cases h

/-- The record is the active one that is made of a drawn key. -/
structure Record.IsIssuedFor (record : Record) (algorithm : Algorithm) (privateKey : PrivateKey)
    (draw : Draw) : Prop where
  keyId : record.keyId = draw.keyId
  algorithm : record.algorithm = algorithm
  publicText : privateKey.publicKey.encode = .ok record.publicText
  privateText : privateKey.encode = .ok record.privateText
  createdAt : record.createdAt = draw.createdAt
  isActive : record.isActive = true

/-- Under acceptable settings a drawn key is issued, and it can be published. -/
theorem exists_issue_of_drawnKey {privateKey : PrivateKey} {registry : Registry}
    (hdefault : registry.default = algorithm) (hdraws : registry.defaultGenerator.Draws)
    (hpair : registry.defaultGenerator.generate draw.entropy = .ok (.ofPrivate privateKey)) :
    ∃ record key, registry.issue draw = .ok record ∧ record.publicJwk = .ok key ∧
      record.IsIssuedFor algorithm privateKey draw := by
  obtain ⟨privateText, hprivate⟩ := hdraws.exists_encode hpair
  obtain ⟨publicText, htexts⟩ := KeyPair.exists_encode hprivate
  have hissue : registry.issue draw = .ok
      ⟨draw.keyId, registry.default, publicText, privateText, draw.createdAt, .active⟩ :=
    Registry.issueFor_eq_ok_iff.2
      ⟨_, _, publicText, privateText, registry.find?_default, hpair, htexts, rfl⟩
  obtain ⟨key, hkey⟩ := Registry.exists_publicJwk_of_issue hdraws.isPublishable hissue
  exact ⟨_, key, hissue, hkey,
    ⟨rfl, hdefault, (KeyPair.encode_eq_ok_iff.1 htexts).1, hprivate, rfl, rfl⟩⟩

/-- What is prepared when every step succeeds. -/
theorem prepare_eq_ok {registry : Registry} {strategy : Strategy} {record : Record} {key : Jwk}
    {next : Instant} (hregistry : settings.registry = .ok registry)
    (hstrategy : settings.strategy = .ok strategy) (hissue : registry.issue draw = .ok record)
    (hkey : record.publicJwk = .ok key) (hnext : strategy.nextRotation record = .ok next) :
    prepare settings draw = .ok
      { record := record
        file := settings.recordFile.map fun path ↦ (path, record.toJson.pretty)
        output :=
          (printedObject record next ⟨[key]⟩ settings.recordFile.isNone).sorted.pretty } := by
  have hset : JwkSet.ofRecords [record] = .ok ⟨[key]⟩ :=
    JwkSet.ofRecords_eq_ok_iff.2 (.cons hkey .nil)
  rw [prepare, hregistry, hstrategy]
  simp only [bind, Except.bind, Except.mapError, hissue, hset, hnext]
  rfl

/-! ## What becomes of a delivery -/

/-- What becomes of a run that has a record. Without a file the record is printed after what may be
published. With one it is in the file alone. If the file does not take all of it or cannot be
opened, nothing is printed. -/
inductive Delivers (settings : Settings) (taken : String → List UInt8 → Option Nat)
    (record : Record) (key : Jwk) (next : Instant) : Outcome → Prop where
  | printed (output value) :
      settings.recordFile = none →
      Announces record key next [("record", value)] output →
      Record.ofJson? value = some record →
      Delivers settings taken record key next ⟨none, .ok output⟩
  | written (path content output count) :
      settings.recordFile = some path →
      taken path (fileBytes content) = some count →
      (fileBytes content).length ≤ count →
      Record.ofText? content = some record →
      Announces record key next [] output →
      Delivers settings taken record key next ⟨some (path, fileBytes content), .ok output⟩
  | cut (path content count) :
      settings.recordFile = some path →
      taken path (fileBytes content) = some count →
      count < (fileBytes content).length →
      Record.ofText? content = some record →
      Delivers settings taken record key next
        ⟨some (path, (fileBytes content).take count), .error (.unwritableRecord path)⟩
  | unopened (path content) :
      settings.recordFile = some path →
      taken path (fileBytes content) = none →
      Record.ofText? content = some record →
      Delivers settings taken record key next ⟨none, .error (.unwritableRecord path)⟩

/-- What becomes of a run that fails. Nothing is printed, and nothing is written unless the file
takes only the beginning of a record. -/
inductive Fails (settings : Settings) (taken : String → List UInt8 → Option Nat) :
    Failure → Outcome → Prop where
  | untouched (failure) : Fails settings taken failure ⟨none, .error failure⟩
  | cut (path content count record) :
      settings.recordFile = some path →
      taken path (fileBytes content) = some count →
      count < (fileBytes content).length →
      Record.ofText? content = some record →
      Fails settings taken (.unwritableRecord path)
        ⟨some (path, (fileBytes content).take count), .error (.unwritableRecord path)⟩

variable {taken : String → List UInt8 → Option Nat}

namespace Delivers

variable {record : Record} {key : Jwk} {next : Instant} {outcome : Outcome} {path : String}

/-- Without a file the record is printed. -/
theorem of_no_file (h : Delivers settings taken record key next outcome)
    (hfile : settings.recordFile = none) :
    ∃ output value, outcome = ⟨none, .ok output⟩ ∧ Record.ofJson? value = some record ∧
      Announces record key next [("record", value)] output := by
  cases h with
  | printed output value _ hannounces hvalue => exact ⟨output, value, rfl, hvalue, hannounces⟩
  | written path content output count hother | cut path content count hother
  | unopened path content hother => cases hfile.symm.trans hother

/-- A file that takes any content as a whole has the record. -/
theorem of_taken (h : Delivers settings taken record key next outcome)
    (hfile : settings.recordFile = some path)
    (htaken : ∀ bytes, taken path bytes = some bytes.length) :
    ∃ content output, outcome = ⟨some (path, fileBytes content), .ok output⟩ ∧
      Record.ofText? content = some record ∧ Announces record key next [] output := by
  cases h with
  | printed output value hother => cases hfile.symm.trans hother
  | written other content output count hother _ _ hcontent hannounces =>
      cases hfile.symm.trans hother
      exact ⟨content, output, rfl, hcontent, hannounces⟩
  | cut other content count hother hcount hlt =>
      cases hfile.symm.trans hother
      cases (htaken _).symm.trans hcount
      exact absurd hlt (Nat.lt_irrefl _)
  | unopened other content hother hnone =>
      cases hfile.symm.trans hother
      cases (htaken _).symm.trans hnone

/-- A file that cannot be opened fails the run. -/
theorem of_unopened (h : Delivers settings taken record key next outcome)
    (hfile : settings.recordFile = some path) (htaken : ∀ bytes, taken path bytes = none) :
    outcome = ⟨none, .error (.unwritableRecord path)⟩ := by
  cases h with
  | printed output value hother => cases hfile.symm.trans hother
  | written other content output count hother hcount | cut other content count hother hcount =>
      cases hfile.symm.trans hother
      cases (htaken _).symm.trans hcount
  | unopened other content hother =>
      cases hfile.symm.trans hother
      rfl

end Delivers

/-- The file of a delivery that was prepared is that of the settings, and takes the record. -/
theorem file_of_prepare {delivery : Delivery} (h : prepare settings draw = .ok delivery) :
    delivery.file =
      settings.recordFile.map fun path ↦ (path, delivery.record.toJson.pretty) := by
  simp only [prepare, bind_eq_ok_iff] at h
  obtain ⟨_, -, _, -, _, -, _, -, _, -, h⟩ := h
  cases h
  rfl

/-- A delivery without a file is printed. One with a file is printed if the file takes all of the
content, and fails if it takes less or cannot be opened. -/
theorem Delivery.outcome_cases (delivery : Delivery) (taken : String → List UInt8 → Option Nat) :
    (delivery.file = none ∧ delivery.outcome taken = ⟨none, .ok delivery.output⟩) ∨
    ∃ path content, delivery.file = some (path, content) ∧
      ((∃ count, taken path (fileBytes content) = some count ∧
          (fileBytes content).length ≤ count ∧
          delivery.outcome taken = ⟨some (path, fileBytes content), .ok delivery.output⟩) ∨
        (∃ count, taken path (fileBytes content) = some count ∧
          count < (fileBytes content).length ∧
          delivery.outcome taken = ⟨some (path, (fileBytes content).take count),
            .error (.unwritableRecord path)⟩) ∨
        (taken path (fileBytes content) = none ∧
          delivery.outcome taken = ⟨none, .error (.unwritableRecord path)⟩)) := by
  unfold Delivery.outcome Delivery.printed
  rcases delivery.file with - | ⟨path, content⟩
  · exact .inl ⟨rfl, rfl⟩
  · refine .inr ⟨path, content, rfl, ?_⟩
    cases htaken : taken path (fileBytes content) with
    | none => exact .inr (.inr ⟨rfl, by simp [htaken]⟩)
    | some count =>
        by_cases hwhole : (fileBytes content).length ≤ count
        · exact .inl ⟨count, rfl, hwhole, by simp [htaken, hwhole, List.take_of_length_le]⟩
        · exact .inr (.inl ⟨count, rfl, Nat.lt_of_not_le hwhole, by simp [htaken, hwhole]⟩)

/-- A run that has prepared a delivery performs it. -/
theorem delivers_run {delivery : Delivery} {key : Jwk} {next : Instant}
    (h : prepare settings draw = .ok delivery) (hkey : delivery.record.publicJwk = .ok key)
    (houtput : delivery.output =
      (printedObject delivery.record next ⟨[key]⟩ settings.recordFile.isNone).sorted.pretty) :
    Delivers settings taken delivery.record key next (run settings draw taken) := by
  have hannounces := announces_printedObject hkey next settings.recordFile.isNone
  have hcontent : Record.ofText? delivery.record.toJson.pretty = some delivery.record := by
    simp [Record.ofText?]
  have houtcome : run settings draw taken = delivery.outcome taken := by rw [run, h]
  have hcases := delivery.outcome_cases taken
  rw [← houtput] at hannounces
  rw [← houtcome, file_of_prepare h] at hcases
  rcases hcases with ⟨hnone, hrun⟩ | ⟨path, content, hsome, hcases⟩
  · have hfile : settings.recordFile = none := Option.map_eq_none_iff.1 hnone
    rw [hfile] at hannounces
    exact hrun ▸ .printed _ delivery.record.toJson.sorted hfile hannounces (by simp)
  · obtain ⟨_, hfile, heq⟩ := Option.map_eq_some_iff.1 hsome
    cases heq
    rw [hfile] at hannounces
    rcases hcases with ⟨count, htaken, hwhole, hrun⟩ | ⟨count, htaken, hlt, hrun⟩ |
      ⟨htaken, hrun⟩
    · exact hrun ▸ .written path _ _ count hfile htaken hwhole hcontent hannounces
    · exact hrun ▸ .cut path _ count hfile htaken hlt hcontent
    · exact hrun ▸ .unopened path _ hfile htaken hcontent

/-- Acceptable settings, a drawn key and a representable time make a record that is delivered. -/
theorem exists_delivers {privateKey : PrivateKey} {latest : Instant}
    (hvalid : settings.IsValid algorithm)
    (hdrawn : settings.drawnKey? algorithm draw.entropy = some privateKey)
    (hlatest : draw.createdAt.shift? maxRotationPeriod = some latest) :
    ∃ record key next, record.IsIssuedFor algorithm privateKey draw ∧
      record.publicJwk = .ok key ∧ key.isPrivate = false ∧
      record.createdAt.shift? settings.rotationPeriod = some next ∧
      Delivers settings taken record key next (run settings draw taken) := by
  obtain ⟨registry, hregistry, hdefault, hdraws, hgenerate⟩ :=
    Settings.exists_registry hvalid.named hvalid.modulusBits
  obtain ⟨strategy, hstrategy, hseconds⟩ := Settings.exists_strategy hvalid.rotationPeriod
  have hpair : registry.defaultGenerator.generate draw.entropy = .ok (.ofPrivate privateKey) := by
    rw [hgenerate, hdrawn]
    rfl
  obtain ⟨record, key, hissue, hkey, hissued⟩ :=
    exists_issue_of_drawnKey hdefault hdraws hpair
  obtain ⟨next, hnext⟩ : ∃ next, record.createdAt.shift? settings.rotationPeriod = some next := by
    rw [hissued.createdAt]
    exact Instant.exists_shift?_of_le hvalid.rotationPeriod.1 hvalid.rotationPeriod.2 hlatest
  have hscheduled : strategy.nextRotation record = .ok next := by
    rw [Strategy.nextRotation_eq_ok_iff, hseconds, hnext]
  have hprepare := prepare_eq_ok hregistry hstrategy hissue hkey hscheduled
  exact ⟨record, key, next, hissued, hkey, (Record.publicJwk_spec hkey).2, hnext,
    delivers_run hprepare hkey rfl⟩

variable {failure : Failure}

/-- A run that fails has printed nothing, and has written nothing or the beginning of a record. It
was preparing, or could not write its file. -/
theorem run_of_failed (h : (run settings draw taken).printed = .error failure) :
    Fails settings taken failure (run settings draw taken) ∧
      (prepare settings draw = .error failure ∨ ∃ path, failure = .unwritableRecord path) := by
  cases hprepare : prepare settings draw with
  | error found =>
      rw [run, hprepare] at h ⊢
      cases h
      exact ⟨.untouched failure, .inl rfl⟩
  | ok delivery =>
      have houtcome : run settings draw taken = delivery.outcome taken := by rw [run, hprepare]
      rcases delivery.outcome_cases taken with ⟨-, hrun⟩ | ⟨path, content, hsome,
        ⟨count, -, -, hrun⟩ | ⟨count, htaken, hlt, hrun⟩ | ⟨-, hrun⟩⟩
      · rw [houtcome, hrun] at h
        cases h
      · rw [houtcome, hrun] at h
        cases h
      · rw [houtcome, hrun] at h ⊢
        rw [file_of_prepare hprepare] at hsome
        obtain ⟨_, hfile, heq⟩ := Option.map_eq_some_iff.1 hsome
        cases heq
        cases h
        exact ⟨.cut path _ count delivery.record hfile htaken hlt (by simp [Record.ofText?]),
          .inr ⟨path, rfl⟩⟩
      · rw [houtcome, hrun] at h ⊢
        cases h
        exact ⟨.untouched _, .inr ⟨path, rfl⟩⟩

/-- A run with settings that are not acceptable fails and writes nothing. -/
theorem run_of_refuses (h : settings.Refuses failure) :
    run settings draw taken = ⟨none, .error failure⟩ := by
  rw [run, prepare_of_refuses h draw]

/-- A run that fails in assembling the generators or the period has settings that are not
acceptable. -/
theorem refuses_of_failed (h : (run settings draw taken).printed = .error failure)
    (hstage : (∃ cause, failure = .generators cause) ∨ ∃ cause, failure = .rotationPeriod cause) :
    settings.Refuses failure := by
  rcases settings.isValid_or_refuses with ⟨algorithm, hvalid⟩ | ⟨other, hrefuses⟩
  · rcases (run_of_failed h).2 with hprepare | ⟨path, rfl⟩
    · rcases hstage with ⟨cause, rfl⟩ | ⟨cause, rfl⟩
      · exact absurd rfl (not_turned_away_of_isValid hvalid hprepare cause).1
      · exact absurd rfl (not_turned_away_of_isValid hvalid hprepare cause).2
    · rcases hstage with ⟨cause, hcause⟩ | ⟨cause, hcause⟩ <;> cases hcause
  · rw [run_of_refuses hrefuses] at h
    cases h
    exact hrefuses

end

/-- Random bytes from which two primes of 1024 bits are drawn without a search. -/
def primeEntropy : Entropy :=
  List.replicate 142 0 ++ [2, 6] ++ List.replicate 142 0 ++ [3, 80]

end SigningKeys
