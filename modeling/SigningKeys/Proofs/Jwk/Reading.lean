import SigningKeys.Jwk.Build
import SigningKeys.Jwk.Json
import SigningKeys.Proofs.Base64
import SigningKeys.Proofs.Json.Order

/-!
# JSON Web Keys from their objects

The object that is written for a key for signatures is read as this key (`Jwk.ofJson?_signature`),
in whatever order its members are written (`Jwk.ofJson?_of_sameObject`). A reader finds members by
their names, so both rest on what stands under each name in the list of members that is written.
-/

namespace SigningKeys

open Json

/-! ## Members by name -/

namespace Json.Members

/-- Members with texts for names. -/
def ofNamed (members : List (String × Value)) : Members :=
  members.map fun member ↦ (some member.1, member.2)

/-- No member has a name. -/
@[simp]
theorem valuesOf_nil (name : String) : valuesOf (ofNamed []) name = [] := rfl

/-- A member has its own name only. -/
@[simp]
theorem valuesOf_cons (member : String × Value) (rest : List (String × Value)) (name : String) :
    valuesOf (ofNamed (member :: rest)) name =
      if name = member.1 then member.2 :: valuesOf (ofNamed rest) name
      else valuesOf (ofNamed rest) name := by
  by_cases hname : name = member.1
  · simp [valuesOf, ofNamed, hname]
  · simp [valuesOf, ofNamed, hname, Ne.symm hname]

/-- Members of either list are members of both together. -/
@[simp]
theorem valuesOf_append (first second : List (String × Value)) (name : String) :
    valuesOf (ofNamed (first ++ second)) name =
      valuesOf (ofNamed first) name ++ valuesOf (ofNamed second) name := by
  simp [valuesOf, ofNamed]

/-- A member that may be left out has its own name only. -/
@[simp]
theorem valuesOf_optionalMember (own : String) (value : Option Value) (name : String) :
    valuesOf (ofNamed (optionalMember own value)) name =
      if name = own then value.toList else [] := by
  cases value <;> simp [optionalMember]

variable {members : Members} {name : String} {value : Option Value}

/-- If there is at most one value with a name, it is what is found. -/
theorem unique?_eq (h : members.valuesOf name = value.toList) :
    members.unique? name = some value := by
  rw [unique?, h]
  cases value <;> rfl

/-- If there is at most one value with a name, it is what has to be there. -/
theorem the?_eq (h : members.valuesOf name = value.toList) : members.the? name = value := by
  rw [the?, unique?_eq h]
  rfl

end Json.Members

open Members

/-! ## Reading members -/

section Members

variable {members : Members} {name : String}

/-- An optional member is read as what was written into it. -/
theorem readOptional_eq {α : Type} {read : Value → Option α} (write : α → Value)
    {value : Option α} (h : members.valuesOf name = (value.map write).toList)
    (hread : ∀ found ∈ value, write found ≠ .null ∧ read (write found) = some found) :
    readOptional members name read = some value := by
  rw [readOptional, unique?_eq h]
  cases value with
  | none => rfl
  | some found =>
      obtain ⟨hnull, hfound⟩ := hread found rfl
      simp only [Option.bind_eq_bind, Option.bind_some, Option.map_some]
      rw [hfound, Option.map_some]

/-- A member that has to be there is read as what was written into it. -/
theorem readRequired_eq {α : Type} {read : Value → Option α} {value : Value}
    (h : members.valuesOf name = [value]) : readRequired members name read = read value := by
  have hfound : members.the? name = some value := the?_eq h
  rw [readRequired, hfound, Option.bind_some]

/-- Bytes are read as they were written. -/
@[simp]
theorem bytesOfJson?_bytesToJson (bytes : List UInt8) :
    bytesOfJson? (bytesToJson bytes) = some bytes := by
  simp [bytesOfJson?, bytesToJson, Value.text, Value.text?]

/-- Bytes of the right length are read as they were written. -/
theorem bytesOfLength?_bytesToJson {bytes : List UInt8} {length : Nat}
    (h : bytes.length = length) : bytesOfLength? length (bytesToJson bytes) = some bytes := by
  simp [bytesOfLength?, h]

/-- Bytes that may be left out are read as they were written. -/
theorem readOptional_bytes {bytes : Option (List UInt8)}
    (h : members.valuesOf name = (bytes.map bytesToJson).toList) :
    readOptional members name bytesOfJson? = some bytes :=
  readOptional_eq bytesToJson h fun found _ ↦ ⟨nofun, bytesOfJson?_bytesToJson found⟩

/-! ## Key material -/

namespace RsaMembers

/-- The names that private members of an RSA key may have. -/
def memberNames : List String := ["d", "p", "q", "dp", "dq", "qi"]

/-- Private members, if there are any, have no other names. -/
theorem valuesOf_eq_nil (secret : Option RsaMembers) (h : name ∉ memberNames) :
    valuesOf (ofNamed ((secret.map toMembers).getD [])) name = [] := by
  simp only [memberNames, List.mem_cons, List.not_mem_nil, or_false, not_or] at h
  cases secret <;> simp [toMembers, h]

/-- Private members are read from any members among which those with their names are their own. -/
theorem ofMembers?_eq {secret : Option RsaMembers}
    (h : ∀ name ∈ memberNames,
      members.valuesOf name = valuesOf (ofNamed ((secret.map toMembers).getD [])) name) :
    ofMembers? members = secret := by
  cases secret with
  | none =>
      -- Without an exponent for signing, the private members are dropped as a whole.
      have hd : members.the? "d" = none := the?_eq (h "d" (by decide))
      simp [ofMembers?, readRequired, hd]
  | some secret =>
      have hd : members.valuesOf "d" = [bytesToJson secret.d] := by
        simpa [toMembers] using h "d" (by decide)
      have hp : members.valuesOf "p" = (secret.p.map bytesToJson).toList := by
        simpa [toMembers] using h "p" (by decide)
      have hq : members.valuesOf "q" = (secret.q.map bytesToJson).toList := by
        simpa [toMembers] using h "q" (by decide)
      have hdp : members.valuesOf "dp" = (secret.dp.map bytesToJson).toList := by
        simpa [toMembers] using h "dp" (by decide)
      have hdq : members.valuesOf "dq" = (secret.dq.map bytesToJson).toList := by
        simpa [toMembers] using h "dq" (by decide)
      have hqi : members.valuesOf "qi" = (secret.qi.map bytesToJson).toList := by
        simpa [toMembers] using h "qi" (by decide)
      simp [ofMembers?, readRequired_eq hd, readOptional_bytes hp, readOptional_bytes hq,
        readOptional_bytes hdp, readOptional_bytes hdq, readOptional_bytes hqi]

end RsaMembers

namespace JwkKey

/-- The names that members of key material may have. -/
def memberNames : List String :=
  ["kty", "crv", "x", "y", "e", "n", "k"] ++ RsaMembers.memberNames

/-- The coordinates and the scalar of a point have their fixed length. -/
def IsSized : JwkKey → Prop
  | .ec x y d =>
      x.length = coordinateLength ∧ y.length = coordinateLength ∧
        ∀ scalar ∈ d, scalar.length = coordinateLength
  | .rsa _ _ => True
  | .shared _ => True

/-- Key material has no members with other names. -/
theorem valuesOf_eq_nil (key : JwkKey) (h : name ∉ memberNames) :
    valuesOf (ofNamed key.toMembers) name = [] := by
  rw [memberNames, List.mem_append, not_or] at h
  obtain ⟨hpublic, hprivate⟩ := h
  simp only [List.mem_cons, List.not_mem_nil, or_false, not_or] at hpublic
  cases key with
  | ec x y d =>
      have hd : name ≠ "d" := fun heq ↦ hprivate (heq ▸ List.mem_cons_self)
      simp [toMembers, hpublic, hd]
  | rsa n secret => simp [toMembers, hpublic, RsaMembers.valuesOf_eq_nil secret hprivate]
  | shared k => simp [toMembers, hpublic]

/-- Key material is read from any members among which those with its names are its own. -/
theorem ofMembers?_eq {key : JwkKey} (hsized : key.IsSized)
    (h : ∀ name ∈ memberNames, members.valuesOf name = valuesOf (ofNamed key.toMembers) name) :
    ofMembers? members = some key := by
  cases key with
  | ec x y d =>
      obtain ⟨hxLength, hyLength, hdLength⟩ := hsized
      have htype : members.valuesOf "kty" = [.text "EC"] := by
        simpa [toMembers] using h "kty" (by decide)
      have hcurve : members.valuesOf "crv" = [.text "P-256"] := by
        simpa [toMembers] using h "crv" (by decide)
      have hx : members.valuesOf "x" = [bytesToJson x] := by
        simpa [toMembers] using h "x" (by decide)
      have hy : members.valuesOf "y" = [bytesToJson y] := by
        simpa [toMembers] using h "y" (by decide)
      have hd : readOptional members "d" (bytesOfLength? coordinateLength) = some d := by
        refine readOptional_eq bytesToJson ?_ fun scalar hmem ↦
          ⟨nofun, bytesOfLength?_bytesToJson (hdLength scalar hmem)⟩
        simpa [toMembers] using h "d" (by decide)
      have hec : positionOf? keyTypes (.text "EC") = some 0 := by decide
      have hp256 : positionOf? curves (.text "P-256") = some 0 := by decide
      simp [ofMembers?, readRequired_eq htype, hec, readRequired_eq hcurve, hp256, hd,
        readRequired_eq hx, bytesOfLength?_bytesToJson hxLength, readRequired_eq hy,
        bytesOfLength?_bytesToJson hyLength]
  | rsa n secret =>
      have htype : members.valuesOf "kty" = [.text "RSA"] := by
        have hnone := RsaMembers.valuesOf_eq_nil secret (show "kty" ∉ _ by decide)
        simpa [toMembers, hnone] using h "kty" (by decide)
      have hexponent : members.the? "e" = some (.text "AQAB") := by
        have hnone := RsaMembers.valuesOf_eq_nil secret (show "e" ∉ _ by decide)
        refine the?_eq ?_
        simpa [toMembers, hnone] using h "e" (by decide)
      have hn : members.valuesOf "n" = [bytesToJson n] := by
        have hnone := RsaMembers.valuesOf_eq_nil secret (show "n" ∉ _ by decide)
        simpa [toMembers, hnone] using h "n" (by decide)
      have hsecret : RsaMembers.ofMembers? members = secret := by
        refine RsaMembers.ofMembers?_eq fun name hname ↦ ?_
        rw [h name (List.mem_append_right _ hname)]
        simp only [RsaMembers.memberNames, List.mem_cons, List.not_mem_nil, or_false] at hname
        rcases hname with rfl | rfl | rfl | rfl | rfl | rfl <;> simp [toMembers]
      have hrsa : positionOf? keyTypes (.text "RSA") = some 1 := by decide
      have hcommon : isCommonExponent (.text "AQAB") = true := by decide
      simp [ofMembers?, readRequired_eq htype, hrsa, hexponent, readRequired_eq hn, hcommon,
        hsecret]
  | shared k =>
      have htype : members.valuesOf "kty" = [.text "oct"] := by
        simpa [toMembers] using h "kty" (by decide)
      have hk : members.valuesOf "k" = [bytesToJson k] := by
        simpa [toMembers] using h "k" (by decide)
      have hoct : positionOf? keyTypes (.text "oct") = some 2 := by decide
      simp [ofMembers?, readRequired_eq htype, hoct, readRequired_eq hk]

end JwkKey

end Members

/-! ## Plain members -/

/-- Members are plain when their values are. -/
@[simp]
theorem membersArePlain_ofNamed (members : List (String × Value)) :
    Value.membersArePlain (ofNamed members) = members.all fun member ↦ member.2.isPlain := by
  rw [Value.membersArePlain_eq, ofNamed, List.all_map]
  rfl

/-- A text is plain. -/
@[simp]
theorem isPlain_text (s : String) : (Value.text s).isPlain = true := rfl

/-- A member that may be left out is plain when its value is. -/
@[simp]
theorem all_optionalMember (name : String) (value : Option Value) :
    (optionalMember name value).all (fun member ↦ member.2.isPlain) = value.all Value.isPlain := by
  cases value <;> simp [optionalMember]

/-- Bytes that may be left out are plain, being texts. -/
@[simp]
theorem all_isPlain_bytes (bytes : Option (List UInt8)) :
    (bytes.map bytesToJson).all Value.isPlain = true := by
  cases bytes <;> rfl

/-- The members of key material are plain. -/
theorem JwkKey.all_isPlain (key : JwkKey) :
    (key.toMembers.all fun member ↦ member.2.isPlain) = true := by
  cases key with
  | ec x y d => simp [toMembers, bytesToJson]
  | rsa n secret => cases secret <;> simp [toMembers, RsaMembers.toMembers, bytesToJson]
  | shared k => simp [toMembers, bytesToJson]

/-! ## Keys -/

namespace Jwk

/-- The members of a key for signatures that are not those of its key material. -/
def signatureNames : List String := ["use", "kid", "alg"]

section Signature

variable (keyId : String) (algorithm : Algorithm) (key : JwkKey)

/-- The members of a key for signatures are those of its key material and three more. -/
theorem valuesOf_signature (name : String) :
    valuesOf (ofNamed (signature keyId algorithm key).toMembers) name =
      valuesOf (ofNamed key.toMembers) name ++
        ((if name = "use" then [.text "sig"] else []) ++
          (if name = "kid" then [.text keyId] else []) ++
          if name = "alg" then [.text algorithm.jws.name] else []) := by
  simp [toMembers, signature, KeyUse.name, Certificates.toMembers, Certificates.none]

/-- The use of a key for signatures is read. -/
theorem readOptional_use :
    readOptional (ofNamed (signature keyId algorithm key).toMembers) "use" KeyUse.ofJson? =
      some (some .sig) := by
  have hkey := key.valuesOf_eq_nil (show "use" ∉ JwkKey.memberNames by decide)
  refine readOptional_eq (fun use ↦ .text use.name) ?_ ?_
  · simp [valuesOf_signature, hkey, KeyUse.name]
  · rintro _ ⟨⟩
    exact ⟨nofun, rfl⟩

/-- The id of a key for signatures is read. -/
theorem readOptional_keyId :
    readOptional (ofNamed (signature keyId algorithm key).toMembers) "kid" Value.text? =
      some (some keyId) := by
  have hkey := key.valuesOf_eq_nil (show "kid" ∉ JwkKey.memberNames by decide)
  refine readOptional_eq .text ?_ fun _ _ ↦ ⟨nofun, rfl⟩
  simp [valuesOf_signature, hkey]

/-- The algorithm of a key for signatures is read. -/
theorem readOptional_algorithm :
    readOptional (ofNamed (signature keyId algorithm key).toMembers) "alg" JwsAlgorithm.ofJson? =
      some (some algorithm.jws) := by
  have hkey := key.valuesOf_eq_nil (show "alg" ∉ JwkKey.memberNames by decide)
  refine readOptional_eq (fun algorithm ↦ .text algorithm.name) ?_ ?_
  · simp [valuesOf_signature, hkey]
  · rintro _ ⟨⟩
    cases algorithm <;> exact ⟨nofun, rfl⟩

/-- No other members are found. -/
theorem unique?_signature (name : String) (h : name ∉ JwkKey.memberNames ++ signatureNames) :
    unique? (ofNamed (signature keyId algorithm key).toMembers) name = some none := by
  obtain ⟨hmaterial, hsignature⟩ : name ∉ JwkKey.memberNames ∧ name ∉ signatureNames := by
    simpa only [List.mem_append, not_or] using h
  simp only [signatureNames, List.mem_cons, List.not_mem_nil, or_false, not_or] at hsignature
  have hnone : valuesOf (ofNamed (signature keyId algorithm key).toMembers) name = [] := by
    simp [valuesOf_signature, key.valuesOf_eq_nil hmaterial, hsignature]
  exact unique?_eq hnone

end Signature

/-- The object of a key for signatures is read as this key. -/
theorem ofJson?_signature {key : JwkKey} (hsized : key.IsSized) (keyId : String)
    (algorithm : Algorithm) :
    ofJson? (signature keyId algorithm key).toJson = some (signature keyId algorithm key) := by
  have hvalues := valuesOf_signature keyId algorithm key
  have huse := readOptional_use keyId algorithm key
  have hkeyId := readOptional_keyId keyId algorithm key
  have halgorithm := readOptional_algorithm keyId algorithm key
  have hother := unique?_signature keyId algorithm key
  have hplain :
      Value.membersArePlain (ofNamed (signature keyId algorithm key).toMembers) = true := by
    simp [toMembers, signature, key.all_isPlain, Certificates.toMembers, Certificates.none]
  show ofJson? (.object (ofNamed (signature keyId algorithm key).toMembers)) = _
  generalize ofNamed (signature keyId algorithm key).toMembers = members at *
  have hkey : JwkKey.ofMembers? members = some key :=
    JwkKey.ofMembers?_eq hsized
      (by simp [JwkKey.memberNames, RsaMembers.memberNames, hvalues])
  have hoperations : readOperations members = some [] := by
    rw [readOperations, hother "key_ops" (by decide)]
    rfl
  have hcertificates : Certificates.ofMembers? members = some .none := by
    rw [Certificates.ofMembers?]
    simp only [readOptional, hother "x5u" (by decide), hother "x5c" (by decide),
      hother "x5t" (by decide), hother "x5t#S256" (by decide)]
    rfl
  simp only [ofJson?, hplain, huse, hoperations, hkeyId, halgorithm, hkey, hcertificates]
  rfl

/-- The order in which the members of an object are written does not count. -/
theorem ofJson?_of_sameObject {left right : Value} (h : left.SameObject right) :
    ofJson? left = ofJson? right := by
  match left, right, h with
  | .object left, .object right, h =>
      have hperm : left.Perm right := h
      simp only [ofJson?, JwkKey.ofMembers?, RsaMembers.ofMembers?, Certificates.ofMembers?,
        readOperations, readOptional, readRequired, unique?_of_perm hperm, the?_of_perm hperm,
        Value.membersArePlain_of_perm hperm]

end Jwk

end SigningKeys
