import SigningKeys.Proofs.Jwk.Build
import SigningKeys.Proofs.Key.PublicText

/-!
# The numbers in signing keys

What a key for signing that is built out of texts holds: the members of an RSA key are numbers that
fit together, each in its fewest bytes, and those of a key on the curve P-256 are a scalar and the
point that belongs to it, in 32 bytes each. The main statement is `Jwk.ofTexts_isSound`.
-/

namespace SigningKeys

open BigEndian

/-! ## Keys on the curve P-256 -/

/-- The members of a key on the curve P-256: 32 bytes each, a scalar between zero and the order of
the base point, and the coordinates of its multiple of the base point. -/
structure P256.IsSound (x y d : List UInt8) : Prop where
  length_x : x.length = 32
  length_y : y.length = 32
  length_d : d.length = 32
  scalar_pos : 0 < toNat d
  scalar_lt : toNat d < order
  point_eq : multipleOfBase (toNat d) = some (toNat x, toNat y)

/-- The members that are made of a secret key are those of its point and its scalar. -/
theorem P256.SecretKey.isSound (secret : SecretKey) :
    IsSound (padded byteCount secret.point.x) (padded byteCount secret.point.y) secret.bytes ∧
      toNat secret.bytes = secret.scalar := by
  have horder : order < 256 ^ byteCount := by decide
  obtain ⟨hx, hy⟩ := secret.point.toNat_padded
  have hd : toNat secret.bytes = secret.scalar :=
    toNat_padded (Nat.lt_trans secret.scalar_lt horder)
  refine ⟨⟨length_padded _ _, length_padded _ _, length_padded _ _, ?_, ?_, ?_⟩, hd⟩
  · rw [hd]
    exact secret.scalar_pos
  · rw [hd]
    exact secret.scalar_lt
  · rw [hd, hx, hy]
    exact secret.multiple_eq

/-! ## RSA keys -/

namespace RsaMembers

/-- The private members that an RSA key has. -/
def present (secret : RsaMembers) : List (List UInt8) :=
  secret.d :: [secret.p, secret.q, secret.dp, secret.dq, secret.qi].flatMap Option.toList

/-- The members of an RSA key with the given factors: these make up the modulus, the secret exponent
inverts the common exponent modulo each of them less one, and unless they have a common divisor, the
remainders of the secret exponent and the inverse of the second factor are there. No member has a
superfluous leading zero byte. -/
structure IsSound (n : List UInt8) (secret : RsaMembers) (first second : Nat) : Prop where
  first_eq : secret.p.map toNat = some first
  second_eq : secret.q.map toNat = some second
  modulus_eq : toNat n = first * second
  inverse_first : 65537 * toNat secret.d % (first - 1) = 1
  inverse_second : 65537 * toNat secret.d % (second - 1) = 1
  common : 1 < Nat.gcd first second → secret.dp = none ∧ secret.dq = none ∧ secret.qi = none
  coprime : Nat.gcd first second ≤ 1 → ∃ dp dq qi,
    secret.dp = some dp ∧ secret.dq = some dq ∧ secret.qi = some qi ∧
      toNat dp = toNat secret.d % (first - 1) ∧ toNat dq = toNat secret.d % (second - 1) ∧
      toNat qi < first ∧ toNat qi * second % first = 1
  shortest : ∀ member ∈ n :: secret.present, IsShortest member

variable {key : Rsa.PrivateKey}

/-- The members of a key whose factors have a common divisor. -/
theorem ofKey_of_common (h : key.remainders? = none) :
    ofKey key = ⟨shortest key.secret, some (shortest key.first), some (shortest key.second),
      none, none, none⟩ := by
  simp [ofKey, h]

/-- The members of a key whose factors have no common divisor. -/
theorem ofKey_of_coprime {remainders : Rsa.Remainders} (h : key.remainders? = some remainders) :
    ofKey key = ⟨shortest key.secret, some (shortest key.first), some (shortest key.second),
      some (shortest remainders.first), some (shortest remainders.second),
      some (shortest remainders.coefficient)⟩ := by
  simp [ofKey, h, dropSign_signed]

/-- The members that are made of a key are numbers in their fewest bytes. -/
theorem exists_present_ofKey (key : Rsa.PrivateKey) :
    ∃ numbers : List Nat, (ofKey key).present = numbers.map BigEndian.shortest := by
  cases hremainders : key.remainders? with
  | none =>
      rw [ofKey_of_common hremainders]
      exact ⟨[key.secret, key.first, key.second], rfl⟩
  | some remainders =>
      rw [ofKey_of_coprime hremainders]
      exact ⟨[key.secret, key.first, key.second, remainders.first, remainders.second,
        remainders.coefficient], rfl⟩

/-- The members that are made of an RSA key with the common exponent are its numbers. -/
theorem isSound_ofKey (h : key.publicKey.exponent = Rsa.commonExponent) :
    IsSound (BigEndian.shortest key.publicKey.modulus) (ofKey key) key.first key.second := by
  obtain ⟨hfirst, hsecond, hmodulus, hfirstInverse, hsecondInverse⟩ := key.isPrivate
  rw [h] at hfirstInverse hsecondInverse
  have hgcd := Nat.gcd_pos_of_pos_left key.second (show 0 < key.first by omega)
  refine ⟨?_, ?_, ?_, ?_, ?_, ?_, ?_, ?_⟩
  · simp [ofKey]
  · simp [ofKey]
  · rw [toNat_shortest, hmodulus]
  · show 65537 * toNat (BigEndian.shortest key.secret) % _ = 1
    rw [toNat_shortest]
    exact hfirstInverse
  · show 65537 * toNat (BigEndian.shortest key.secret) % _ = 1
    rw [toNat_shortest]
    exact hsecondInverse
  · intro hcommon
    have hnone : key.remainders? = none := by
      rw [← Option.not_isSome_iff_eq_none, key.isSome_remainders?_iff, Nat.Coprime]
      omega
    simp [ofKey, hnone]
  · intro hcoprime
    obtain ⟨remainders, hremainders⟩ := Option.isSome_iff_exists.1
      (key.isSome_remainders?_iff.2 (by rw [Nat.Coprime]; omega))
    obtain ⟨hdp, hdq, hqi⟩ := Rsa.PrivateKey.remainders?_eq_some_iff.1 hremainders
    have hpos : 0 < key.first := by omega
    rw [ofKey_of_coprime hremainders]
    refine ⟨_, _, _, rfl, rfl, rfl, ?_, ?_, ?_, ?_⟩
    · simp [hdp]
    · simp [hdq]
    · simpa using Modular.inverse?_lt hpos hqi
    · rw [toNat_shortest, Modular.inverse?_mul_mod hpos hqi, Nat.mod_eq_of_lt hfirst]
  · intro member hmem
    obtain ⟨numbers, hnumbers⟩ := exists_present_ofKey key
    rw [hnumbers, ← List.map_cons, List.mem_map] at hmem
    obtain ⟨n, -, rfl⟩ := hmem
    exact isShortest_shortest n

end RsaMembers

/-! ## Keys from texts -/

namespace Jwk

/-- The key holds numbers that fit together: for the curve P-256 the scalar that the private text
stands for, and its point; for RSA a modulus, its factors, and what follows from them. -/
def IsSound (jwk : Jwk) (privateText : String) : Algorithm → Prop
  | .ec => ∃ x y d secret, jwk.key = .ec x y (some d) ∧ P256.IsSound x y d ∧
      PrivateKey.decode privateText .ec = .ok (.ec secret) ∧ toNat d = secret.scalar
  | .rsa => ∃ n secret first second, jwk.key = .rsa n (some secret) ∧
      secret.IsSound n first second

/-- A key for signing that is built out of texts holds numbers that fit together, whatever
remainders and inverse the private text states. -/
theorem ofTexts_isSound {keyId publicText privateText : String} {algorithm : Algorithm} {jwk : Jwk}
    (h : ofTexts keyId publicText (some privateText) algorithm = .ok jwk) :
    jwk.IsSound privateText algorithm := by
  obtain ⟨pair, hpair⟩ := exists_decode_pair_of_ofTexts h
  have hprivate := (KeyPair.decode_eq_ok_iff.1 hpair).2
  have halgorithm := PrivateKey.algorithm_of_decode hprivate
  rw [ofTexts_of_decode_pair hpair, ofPair_eq] at h
  clear hpair
  obtain ⟨publicKey, privateKey, rfl⟩ := pair
  cases privateKey with
  | ec secret =>
      cases halgorithm
      cases h
      obtain ⟨hsound, hscalar⟩ := secret.isSound
      exact ⟨_, _, _, secret, rfl, hsound, hprivate, hscalar⟩
  | rsa key =>
      cases halgorithm
      simp only [PrivateKey.publicKey, JwkKey.ofKeys, JwkKey.ofRsa] at h
      split at h
      · next hexponent =>
          cases h
          exact ⟨_, _, _, _, rfl, RsaMembers.isSound_ofKey hexponent⟩
      · cases h

/-- From a text of the small key that states zero for the remainders and the inverse, the key for
signing is built with the right ones; the key for signing of the scalar 1 holds the base point. -/
theorem ofTexts_isSound_small :
    let stated :=
      "MDgCAQAwDQYJKoZIhvcNAQEBBQAEJDAiAgEAAgMBCAcCAwEAAQICdQECAgEBAgIBBwIBAAIBAAIBAA=="
    let secret : RsaMembers :=
      ⟨[117, 1], some [1, 1], some [1, 7], some [1], some [85], some [43]⟩
    let jwk := signature "small" .rsa (.rsa [1, 8, 7] (some secret))
    let basePoint :=
      "MFkwEwYHKoZIzj0CAQYIKoZIzj0DAQcDQgAEaxfR8uEsQkf4vOblY6RA8ncDfYEt6zOg9KE5RdiYwpZP40" ++
        "Li/hp/m47n60p8D54WK84zV2sxXs7LtkBoN79R9Q=="
    let one :=
      "MEECAQAwEwYHKoZIzj0CAQYIKoZIzj0DAQcEJzAlAgEBBCAAAAAAAAAAAAAAAAAAAAAAAAAAAAAAAAAAAA" ++
        "AAAAAAAQ=="
    let pointJwk := signature "one" .ec
      (.ec (padded 32 P256.base.x) (padded 32 P256.base.y) (some (padded 32 1)))
    ofTexts "small" smallPublicText (some stated) .rsa = .ok jwk ∧ jwk.IsSound stated .rsa ∧
      ofTexts "one" basePoint (some one) .ec = .ok pointJwk ∧ pointJwk.IsSound one .ec := by
  intro stated secret jwk basePoint one pointJwk
  have hjwk : ofTexts "small" smallPublicText (some stated) .rsa = .ok jwk := by decide +kernel
  have hpoint : ofTexts "one" basePoint (some one) .ec = .ok pointJwk := by decide +kernel
  exact ⟨hjwk, ofTexts_isSound hjwk, hpoint, ofTexts_isSound hpoint⟩

end Jwk

end SigningKeys
