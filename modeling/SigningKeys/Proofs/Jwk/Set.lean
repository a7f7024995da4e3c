import SigningKeys.Proofs.Json.Reading
import SigningKeys.Proofs.Jwk.Distinct

/-!
# Key sets read back

Every key that is built is a key for signatures (`Jwk.IsBuilt.exists_signature`). All members of its
object are texts, so nothing is nested in it, and sorting only moves its members; either way it is
read as the key (`Jwk.IsBuilt.isReadFrom`). The main statement, `JwkSet.built_reads_back`, says that
a set of such keys is read back from every text that is written for it.
-/

namespace SigningKeys

open Json

/-! ## Objects of texts -/

namespace Json.Value

/-- The values of the members are texts. -/
def AreTexts {α : Type} (members : List (α × Value)) : Prop :=
  ∀ member ∈ members, ∃ s, member.2 = .text s

section

variable {α : Type} {member : α × Value} {first second : List (α × Value)}

/-- No member is no text. -/
@[simp]
theorem areTexts_nil : AreTexts ([] : List (α × Value)) := fun _ h ↦ nomatch h

/-- Members are texts when the first one and the others are. -/
@[simp]
theorem areTexts_cons :
    AreTexts (member :: second) ↔ (∃ s, member.2 = .text s) ∧ AreTexts second :=
  List.forall_mem_cons

/-- Members are texts when those of both parts are. -/
@[simp]
theorem areTexts_append : AreTexts (first ++ second) ↔ AreTexts first ∧ AreTexts second :=
  List.forall_mem_append

/-- A member that may be left out is a text when it has one for its value. -/
@[simp]
theorem areTexts_optionalMember {name : String} {value : Option Value} :
    AreTexts (optionalMember name value) ↔ ∀ found ∈ value, ∃ s, found = .text s := by
  cases value <;> simp [optionalMember]

end

variable {members others : Members}

/-- Texts are texts in any order. -/
theorem AreTexts.of_perm (h : AreTexts members) (hperm : members.Perm others) : AreTexts others :=
  fun member hmem ↦ h member (hperm.mem_iff.2 hmem)

/-- Nothing is nested in an object of texts. -/
theorem AreTexts.depth_object (h : AreTexts members) : (object members).depth = 1 := by
  have hmembers : membersDepth members = 0 := by
    induction members with
    | nil => rfl
    | cons member rest ih =>
        obtain ⟨name, value⟩ := member
        obtain ⟨⟨s, hs⟩, hrest⟩ := areTexts_cons.1 h
        cases hs
        rw [membersDepth, ih hrest]
        rfl
  rw [depth, hmembers]

/-- Sorting an object of texts only moves its members. -/
theorem AreTexts.sorted_object (h : AreTexts members) :
    ∃ moved, (object members).sorted = .object moved ∧ members.Perm moved := by
  have hsame : (members.map fun member ↦ (member.1, member.2.sorted)) = members := by
    have hmember : ∀ member ∈ members, (member.1, member.2.sorted) = id member := by
      intro member hmem
      obtain ⟨s, hs⟩ := h member hmem
      rw [hs]
      exact Prod.ext rfl hs.symm
    rw [List.map_congr_left hmember, List.map_id]
  have hperm := perm_sortedMembers members
  rw [hsame] at hperm
  exact ⟨_, rfl, hperm.symm⟩

end Json.Value

open Json.Value

/-! ## Keys -/

namespace Jwk

/-- The key is built: for signing out of a pair, for verifying out of a public key, out of halves of
a stated kind, or out of key texts. -/
inductive IsBuilt (jwk : Jwk) : Prop where
  | ofPair (keyId pair) : ofPair keyId pair = .ok jwk → IsBuilt jwk
  | ofPublic (keyId key) : ofPublic keyId key = .ok jwk → IsBuilt jwk
  | ofKeys (keyId algorithm publicKey privateKey) :
      ofKeys keyId algorithm publicKey privateKey = .ok jwk → IsBuilt jwk
  | ofTexts (keyId publicText privateText algorithm) :
      ofTexts keyId publicText privateText algorithm = .ok jwk → IsBuilt jwk

variable {jwk : Jwk}

/-- A key that is built of halves is a key for signatures. -/
theorem exists_signature_of_ofKeys {keyId : String} {algorithm : Algorithm}
    {publicKey : PublicKey} {privateKey : Option PrivateKey}
    (h : ofKeys keyId algorithm publicKey privateKey = .ok jwk) :
    ∃ material : JwkKey, material.IsSized ∧ jwk = signature keyId algorithm material := by
  obtain ⟨material, hmaterial, h⟩ : ∃ material, JwkKey.ofKeys publicKey privateKey = .ok material ∧
      .ok (signature keyId algorithm material) = Except.ok (ε := Error) jwk := by
    -- The kinds of the halves are tested before the key material is made.
    cases privateKey with
    | none =>
        simp only [ofKeys, bind_eq_ok_iff] at h
        obtain ⟨_, -, h⟩ := h
        exact h
    | some key =>
        simp only [ofKeys, bind_eq_ok_iff] at h
        obtain ⟨_, -, _, -, h⟩ := h
        exact h
  cases h
  exact ⟨material, JwkKey.isSized_of_ofKeys hmaterial, rfl⟩

/-- Every key that is built is a key for signatures. -/
theorem IsBuilt.exists_signature (h : jwk.IsBuilt) :
    ∃ (keyId : String) (algorithm : Algorithm) (material : JwkKey),
      material.IsSized ∧ jwk = signature keyId algorithm material := by
  cases h with
  | ofPair keyId pair h => exact ⟨keyId, _, exists_signature_of_ofKeys h⟩
  | ofPublic keyId key h => exact ⟨keyId, _, exists_signature_of_ofKeys h⟩
  | ofKeys keyId algorithm publicKey privateKey h =>
      exact ⟨keyId, algorithm, exists_signature_of_ofKeys h⟩
  | ofTexts keyId publicText privateText algorithm h =>
      cases privateText with
      | none =>
          obtain ⟨key, hkey⟩ := exists_decode_of_ofTexts h
          rw [ofTexts_of_decode hkey] at h
          exact ⟨keyId, _, exists_signature_of_ofKeys h⟩
      | some privateText =>
          obtain ⟨pair, hpair⟩ := exists_decode_pair_of_ofTexts h
          rw [ofTexts_of_decode_pair hpair] at h
          exact ⟨keyId, _, exists_signature_of_ofKeys h⟩

/-- The members of key material are texts. -/
theorem areTexts_material (key : JwkKey) : AreTexts key.toMembers := by
  cases key with
  | ec x y d => simp [JwkKey.toMembers, bytesToJson, Value.text]
  | rsa n secret =>
      cases secret <;> simp [JwkKey.toMembers, RsaMembers.toMembers, bytesToJson, Value.text]
  | shared k => simp [JwkKey.toMembers, bytesToJson, Value.text]

/-- The members of a key for signatures are texts. -/
theorem areTexts_signature (keyId : String) (algorithm : Algorithm) (key : JwkKey) :
    AreTexts (signature keyId algorithm key).toMembers := by
  simp [toMembers, signature, areTexts_material, Certificates.toMembers, Certificates.none,
    Value.text]

/-- The key is read from the value, in which nothing is nested but the members. -/
structure IsReadFrom (jwk : Jwk) (value : Value) : Prop where
  read : ofJson? value = some jwk
  depth : value.depth = 1

/-- A key that is built is read from its object, with the members in order or not. -/
theorem IsBuilt.isReadFrom (h : jwk.IsBuilt) :
    jwk.IsReadFrom jwk.toJson ∧ jwk.IsReadFrom jwk.toJson.sorted := by
  obtain ⟨keyId, algorithm, material, hsized, rfl⟩ := h.exists_signature
  have hread := ofJson?_signature hsized keyId algorithm
  have htexts : AreTexts (Members.ofNamed (signature keyId algorithm material).toMembers) := by
    intro member hmem
    obtain ⟨named, hnamed, rfl⟩ := List.mem_map.1 hmem
    exact areTexts_signature keyId algorithm material named hnamed
  obtain ⟨moved, hsorted, hperm⟩ := htexts.sorted_object
  constructor
  · exact ⟨hread, htexts.depth_object⟩
  · have hsame : (signature keyId algorithm material).toJson.SameObject (.object moved) := hperm
    have hobject : (signature keyId algorithm material).toJson.sorted = .object moved := hsorted
    rw [hobject]
    refine ⟨?_, (htexts.of_perm hperm).depth_object⟩
    rw [← ofJson?_of_sameObject hsame, hread]

end Jwk

/-! ## Sets -/

namespace JwkSet

/-- A list of keys is read when each key is read from what is written for it. -/
theorem ofKeys?_array {write : Jwk → Value} {keys : List Jwk}
    (h : ∀ jwk ∈ keys, jwk.IsReadFrom (write jwk)) :
    ofKeys? (.array (keys.map write)) = some ⟨keys⟩ := by
  have hboth : (keys.map write).mapM Jwk.ofJson? = some keys ∧
      itemsDepth (keys.map write) ≤ 1 := by
    induction keys with
    | nil => exact ⟨rfl, Nat.zero_le 1⟩
    | cons jwk keys ih =>
        obtain ⟨hjwk, hkeys⟩ := List.forall_mem_cons.1 h
        obtain ⟨hread, hdepth⟩ := ih hkeys
        rw [List.map_cons]
        constructor
        · rw [List.mapM_cons, hjwk.read, hread]
          rfl
        · rw [itemsDepth, hjwk.depth]
          exact Nat.max_le.2 ⟨Nat.le_refl 1, hdepth⟩
  obtain ⟨hread, hdepth⟩ := hboth
  have hshallow : (Value.array (keys.map write)).depth < maxDepth := by
    rw [depth]
    exact Nat.lt_of_le_of_lt (Nat.succ_le_succ hdepth) (by decide)
  rw [ofKeys?, if_pos hshallow, hread]
  rfl

variable {set : JwkSet}

/-- The texts that are written for a key set: on one line or indented, with the members of all
objects in the order of the parts or in that of their names. -/
def texts (set : JwkSet) : List String :=
  [set.toJson.compact, set.toJson.pretty, set.toJson.sorted.compact, set.toJson.sorted.pretty]

/-- A set of keys that are built is read from its object, with the members in order or not. -/
theorem ofJson?_of_isBuilt (h : ∀ jwk ∈ set.keys, jwk.IsBuilt) :
    ofJson? set.toJson = some set ∧ ofJson? set.toJson.sorted = some set := by
  constructor
  · show ofKeys? (.array (set.keys.map Jwk.toJson)) = _
    exact ofKeys?_array fun jwk hmem ↦ (h jwk hmem).isReadFrom.1
  · show ofJson? (.object (List.mergeSort [(some "keys", .array (sortedItems _))] nameLe)) = _
    rw [List.mergeSort_singleton, sortedItems_eq, List.map_map]
    show ofKeys? (.array (set.keys.map (Value.sorted ∘ Jwk.toJson))) = _
    exact ofKeys?_array fun jwk hmem ↦ (h jwk hmem).isReadFrom.2

/-- A set of keys that are built is read back from every text that is written for it: the same keys
in the same order, each of which is private or not as it was. -/
theorem built_reads_back (h : ∀ jwk ∈ set.keys, jwk.IsBuilt) :
    ∀ text ∈ set.texts, ∃ read, ofText? text = some read ∧ read = set ∧
      read.keys.map Jwk.isPrivate = set.keys.map Jwk.isPrivate := by
  obtain ⟨hwritten, hsorted⟩ := ofJson?_of_isBuilt h
  intro text htext
  refine ⟨set, ?_, rfl, rfl⟩
  simp only [texts, List.mem_cons, List.not_mem_nil, or_false] at htext
  rcases htext with rfl | rfl | rfl | rfl <;> simp [ofText?, hwritten, hsorted]

end JwkSet

/-- The secret key whose scalar is one. -/
def P256.SecretKey.one : P256.SecretKey where
  scalar := 1
  point := P256.base
  scalar_pos := by decide
  scalar_lt := by decide
  multiple_eq := by decide +kernel

/-- An RSA key both of whose primes are 257, so that it has no remainders. -/
def squareKey : Rsa.PrivateKey where
  publicKey := ⟨66049, 65537, by decide⟩
  secret := 1
  first := 257
  second := 257
  isPrivate := by decide

/-- Keys of both kinds, for signing and for verifying, with and without remainders, are read back
from their indented text, although an id needs escapes and two keys have the same id. -/
theorem JwkSet.built_reads_back_mixed :
    let point := KeyPair.ofPrivate (.ec P256.SecretKey.one)
    let small := KeyPair.ofPrivate (.rsa smallKey)
    let square := KeyPair.ofPrivate (.rsa squareKey)
    ∃ set : JwkSet,
      [Jwk.ofPair "\"one\"\n" point, Jwk.ofPublic "small" small.publicKey,
        Jwk.ofPair "small" small, Jwk.ofPair "" square] = set.keys.map .ok ∧
      set.keys.map Jwk.isPrivate = [true, false, true, true] ∧
      ∃ read, JwkSet.ofText? set.toJson.sorted.pretty = some read ∧ read = set ∧
        read.keys.map Jwk.isPrivate = set.keys.map Jwk.isPrivate := by
  intro point small square
  let set : JwkSet :=
    ⟨[.signature "\"one\"\n" .ec (.ofEc P256.base (some .one)),
      .signature "small" .rsa (.rsa (BigEndian.shortest 67591) none),
      .signature "small" .rsa (.rsa (BigEndian.shortest 67591) (some (.ofKey smallKey))),
      .signature "" .rsa (.rsa (BigEndian.shortest 66049) (some (.ofKey squareKey)))]⟩
  have hbuilt : ∀ jwk ∈ set.keys, jwk.IsBuilt := by
    intro jwk hmem
    simp only [set, List.mem_cons, List.not_mem_nil, or_false] at hmem
    rcases hmem with rfl | rfl | rfl | rfl
    · exact .ofPair "\"one\"\n" point rfl
    · exact .ofPublic "small" small.publicKey rfl
    · exact .ofPair "small" small rfl
    · exact .ofPair "" square rfl
  exact ⟨set, rfl, rfl, built_reads_back hbuilt _ (by simp [JwkSet.texts])⟩

end SigningKeys
