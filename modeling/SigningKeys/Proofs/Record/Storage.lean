import SigningKeys.Proofs.Json.Order
import SigningKeys.Proofs.Json.Reading
import SigningKeys.Proofs.Time.Text
import SigningKeys.Record.Publication

/-!
# Stored records read back

A record is the one that its JSON object stands for (`ofJson?_toJson`), also with the members in
order (`ofJson?_sorted`). With JSON texts read back as the values that they were written for, every
stored record is read back as itself (`ofText?_of_mem_texts`).
-/

namespace SigningKeys

/-- A status is the one that its tag names. -/
@[simp]
theorem KeyStatus.ofName?_tag (status : KeyStatus) : ofName? status.tag = some status := by
  cases status <;> decide

/-- A kind of key is the one that its tag names in records. -/
@[simp]
theorem Algorithm.ofName?_tag (algorithm : Algorithm) : ofName? algorithm.tag = some algorithm := by
  cases algorithm <;> decide

namespace Record

open Json

/-- The parts of a record stand for it. -/
theorem ofParts?_toJson (record : Record) :
    ofParts? (.text record.keyId) record.algorithm.toJson (.text record.publicText)
      (.text record.privateText) (.text record.createdAt.text) (.text record.status.tag) =
        some record := by
  simp [ofParts?, Value.text, Value.text?, Value.name?, Algorithm.toJson, Algorithm.ofJson?]

/-- The object of a record stands for it. -/
@[simp]
theorem ofJson?_toJson (record : Record) : ofJson? record.toJson = some record := by
  have hparts := record.ofParts?_toJson
  simp [ofJson?, toJson, Value.ofMembers, Members.areNamed, Members.the?, Members.unique?,
    Members.valuesOf, hparts]

/-- Sorting the parts of a record changes nothing. -/
theorem ofParts?_sorted (keyId algorithm publicText privateText createdAt status : Value) :
    ofParts? keyId.sorted algorithm.sorted publicText.sorted privateText.sorted createdAt.sorted
      status.sorted = ofParts? keyId algorithm publicText privateText createdAt status := by
  simp only [ofParts?, Algorithm.ofJson?, Value.text?_sorted, Value.name?_sorted]

/-- A record is read the same with all members in order. -/
@[simp]
theorem ofJson?_sorted (value : Value) : ofJson? value.sorted = ofJson? value := by
  cases value with
  | null | bool | number | string => rfl
  | array items =>
      rw [Value.sorted, Value.sortedItems_eq]
      -- Only an array of six values is read.
      rcases items with _ | ⟨keyId, _ | ⟨algorithm, _ | ⟨publicText, _ | ⟨privateText,
        _ | ⟨createdAt, _ | ⟨status, _ | ⟨_, _⟩⟩⟩⟩⟩⟩⟩
      case cons.cons.cons.cons.cons.cons.nil =>
        exact ofParts?_sorted keyId algorithm publicText privateText createdAt status
      all_goals rfl
  | object members =>
      simp only [Value.sorted, ofJson?, Value.areNamed_sorted, Value.the?_sorted,
        Option.bind_eq_bind, Option.bind_map, Function.comp_def, ofParts?_sorted]

/-- The texts that are written for a record: on one line or indented, with the members in the order
of the parts or in that of their names. -/
def texts (record : Record) : List String :=
  [record.toJson.compact, record.toJson.pretty, record.toJson.sorted.compact,
    record.toJson.sorted.pretty]

/-- A record is read back from every text that is written for it. -/
theorem ofText?_of_mem_texts {record : Record} {text : String} (h : text ∈ record.texts) :
    ofText? text = some record := by
  simp only [texts, List.mem_cons, List.not_mem_nil, or_false] at h
  rcases h with rfl | rfl | rfl | rfl <;> simp [ofText?]

/-- A record and its retired copy are read back as themselves from every text that is written for
them; what is read back signs if and only if the record does, and is published in the same way. -/
theorem stored_reads_back (record : Record) : ∀ stored ∈ [record, record.retired],
    ∀ text ∈ stored.texts, ∃ read, ofText? text = some read ∧ read = stored ∧
      read.isActive = stored.isActive ∧ read.publicJwk = stored.publicJwk := by
  intro stored _ text htext
  exact ⟨stored, ofText?_of_mem_texts htext, rfl, rfl, rfl⟩

/-- The retired copy of a record from a leap second before year 0, whose texts need escapes, is read
back. -/
theorem stored_reads_back_leap_second :
    let record : Record :=
      ⟨"a \"key\"\n\x01🔑", .rsa, "", "\\", ⟨-16363, 86399, 1000000500, by decide⟩, .active⟩
    record.retired.toJson.compact =
        "\x7b\"keyId\":\"a \\\"key\\\"\\n\\u0001🔑\",\"algorithm\":\"RSA\"," ++
          "\"serializedPublicKey\":\"\",\"serializedPrivateKey\":\"\\\\\"," ++
          "\"createdAt\":\"-0044-03-15T23:59:60.000000500Z\",\"status\":\"RETIRED\"\x7d" ∧
      ∃ read, ofText? record.retired.toJson.compact = some read ∧ read = record.retired ∧
        read.isActive = false := by
  intro record
  have hwritten : record.retired ∈ [record, record.retired] := by simp
  obtain ⟨read, hread, hsame, hactive, -⟩ :=
    stored_reads_back record _ hwritten _ List.mem_cons_self
  exact ⟨by decide +kernel, read, hread, hsame, hactive.trans rfl⟩

end Record

end SigningKeys
