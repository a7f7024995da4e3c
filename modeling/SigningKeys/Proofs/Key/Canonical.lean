import SigningKeys.Proofs.Jwk.Build
import SigningKeys.Proofs.Key.Length

/-!
# Canonical texts

Many texts stand for one key: armoured ones, ones with a compressed point or a short scalar, and
ones with any numbers where those are expected that speed up signing. What is written for a key that
was read is one of them, and the same whichever it was read from. The main statement,
`decode_canonical`, says this of both halves, and when nothing is written for a private key.
`large_keys_not_canonical` has a key that can be read and not written, and one whose public key
cannot be read.
-/

namespace SigningKeys

open Der

/-! ## Reading what was written for a key that was read -/

/-- Let a text be read as a key. If it is a public key, something is written for it, which is read
as the same key, and then written the same. If it is a private key, this holds of what is written
for it, if anything is; and something is written for its public key, which is read as that, if there
is no modulus of more than the permitted size. Nothing is written for a private key exactly when its
primes share a factor, or when there is no room for its envelope, which takes a long text. -/
theorem decode_canonical (text : String) (algorithm : Algorithm) :
    (∀ key, PublicKey.decode text algorithm = .ok key →
      ∃ canonical, key.encode = .ok canonical ∧
        PublicKey.decode canonical algorithm = .ok key ∧
        PublicKey.decode canonical algorithm >>= PublicKey.encode = .ok canonical) ∧
    ∀ key, PrivateKey.decode text algorithm = .ok key →
      (∀ canonical, key.encode = .ok canonical →
        PrivateKey.decode canonical algorithm = .ok key ∧
          PrivateKey.decode canonical algorithm >>= PrivateKey.encode = .ok canonical) ∧
      (key.publicKey.IsReadable → ∃ canonical, key.publicKey.encode = .ok canonical ∧
        PublicKey.decode canonical algorithm = .ok key.publicKey) ∧
      ((∃ error, key.encode = .error error) ↔ key.SharesFactor ∨ key.IsTooLong) ∧
      (text.length ≤ moderateWidth → ¬ key.IsTooLong) := by
  constructor
  · intro key hkey
    have hreadable := PublicKey.isReadable_of_decode hkey
    obtain ⟨canonical, hcanonical⟩ := hreadable.exists_encode
    have hread : PublicKey.decode canonical algorithm = .ok key := by
      rw [← PublicKey.algorithm_of_decode hkey]
      exact PublicKey.decode_encode hreadable hcanonical
    exact ⟨canonical, hcanonical, hread, bind_eq_ok_iff.2 ⟨key, hread, hcanonical⟩⟩
  · intro key hkey
    have hkind : key.algorithm = algorithm := PrivateKey.algorithm_of_decode hkey
    refine ⟨fun canonical hcanonical ↦ ?_, fun hreadable ↦ ?_, PrivateKey.encode_fails_iff,
      PrivateKey.not_isTooLong_of_decode hkey⟩
    · have hread : PrivateKey.decode canonical algorithm = .ok key := by
        rw [← hkind]
        exact PrivateKey.decode_encode hcanonical
      exact ⟨hread, bind_eq_ok_iff.2 ⟨key, hread, hcanonical⟩⟩
    · obtain ⟨canonical, hcanonical⟩ := hreadable.exists_encode
      refine ⟨canonical, hcanonical, ?_⟩
      rw [← hkind, ← key.algorithm_publicKey]
      exact PublicKey.decode_encode hreadable hcanonical

/-- The small key is read from a text with zeros in place of three numbers and written with them;
its public key is read from armoured text and written without armour. -/
theorem decode_canonical_small :
    let publicText := "-----BEGIN KEY-----\n" ++ smallPublicText ++ "\n-----END KEY-----"
    let privateText :=
      "MDgCAQAwDQYJKoZIhvcNAQEBBQAEJDAiAgEAAgMBCAcCAwEAAQICdQECAgEBAgIBBwIBAAIBAAIBAA=="
    let key := PrivateKey.rsa smallKey
    PublicKey.decode publicText .rsa = .ok key.publicKey ∧
      key.publicKey.encode = .ok smallPublicText ∧
      PublicKey.decode smallPublicText .rsa = .ok key.publicKey ∧
      PrivateKey.decode privateText .rsa = .ok key ∧
      key.encode = .ok smallPrivateText ∧
      PrivateKey.decode smallPrivateText .rsa = .ok key ∧
      key.publicKey.IsReadable ∧ ¬ key.SharesFactor ∧ ¬ key.IsTooLong := by
  intro publicText privateText key
  have hpublic : PublicKey.decode publicText .rsa = .ok key.publicKey := by decide +kernel
  have hpublicText : key.publicKey.encode = .ok smallPublicText := by decide +kernel
  have hprivate : PrivateKey.decode privateText .rsa = .ok key := by decide +kernel
  have hprivateText : key.encode = .ok smallPrivateText := PrivateKey.encode_smallKey
  obtain ⟨publicCanonical, hpublicCanonical, hpublicAgain, -⟩ :=
    (decode_canonical publicText .rsa).1 key.publicKey hpublic
  obtain ⟨hprivateAgain, -, hfails, hlong⟩ := (decode_canonical privateText .rsa).2 key hprivate
  have hwritten : ¬ ∃ error, key.encode = .error error := by
    rintro ⟨error, herror⟩
    cases hprivateText.symm.trans herror
  cases hpublicText.symm.trans hpublicCanonical
  exact ⟨hpublic, hpublicText, hpublicAgain, hprivate, hprivateText,
    (hprivateAgain smallPrivateText hprivateText).1, PublicKey.isReadable_of_decode hpublic,
    fun hshares ↦ hwritten (hfails.2 (.inl hshares)), hlong (by decide +kernel)⟩

/-! ## Keys beyond the limits -/

/-- A number of digits to base 256 that is a positive multiple of four. -/
def largeWidth (words : Nat) : Nat := 4 * (words + 1)

/-- The least number with one digit more. -/
def largePower (words : Nat) : Nat := 256 ^ largeWidth words

/-- The inverse of the common exponent modulo that number. -/
def largeSecret (words : Nat) : Nat := largePower words - largePower words / Rsa.commonExponent

variable (words growth : Nat)

/-- The powers leave the remainders that their first one leaves. -/
theorem largePower_mod {divisor : Nat} (h : 256 ^ 4 % divisor = 1 % divisor) :
    largePower words % divisor = 1 % divisor := by
  rw [largePower, largeWidth, Nat.pow_mul, Nat.pow_mod, h, ← Nat.pow_mod, Nat.one_pow]

/-- The powers are even, and larger than the common exponent. -/
theorem largePower_even : largePower words % 2 = 0 ∧ Rsa.commonExponent < largePower words := by
  have hfactor : largePower words = 256 ^ (4 * words) * 256 ^ 4 := by
    rw [largePower, largeWidth, ← Nat.pow_add]
    rfl
  have hpos : 0 < 256 ^ (4 * words) := Nat.pow_pos (by decide)
  have hexponent : Rsa.commonExponent = 65537 := rfl
  omega

/-- The common exponent and its inverse multiply to one more than a multiple of the power. -/
theorem commonExponent_mul_largeSecret :
    Rsa.commonExponent * largeSecret words = largePower words * 65536 + 1 := by
  have hmod : largePower words % 65537 = 1 := largePower_mod words (by decide)
  have hexponent : Rsa.commonExponent = 65537 := rfl
  rw [largeSecret, hexponent]
  omega

/-- An RSA key with the primes 3 and one more than a power. The secret exponent grows with the given
number, which leaves it the same modulo each prime less one. -/
def largeKey : Rsa.PrivateKey where
  publicKey := ⟨3 * (largePower words + 1), Rsa.commonExponent, by
    obtain ⟨heven, hlt⟩ := largePower_even words
    exact ⟨by omega, by omega, by decide, by decide, by decide⟩⟩
  secret := largeSecret words + largePower words * growth
  first := 3
  second := largePower words + 1
  isPrivate := by
    obtain ⟨heven, hlt⟩ := largePower_even words
    have hone : 1 < largePower words := Nat.lt_trans (by decide) hlt
    have htwo : 3 - 1 ∣ largePower words := Nat.dvd_of_mod_eq_zero heven
    refine Rsa.IsPrivate.add ?_ (Nat.dvd_mul_right_of_dvd htwo growth) ?_
    · refine ⟨by decide, by omega, rfl, ?_, ?_⟩
      · rw [commonExponent_mul_largeSecret]
        omega
      · rw [commonExponent_mul_largeSecret, Nat.add_sub_cancel, Nat.mul_add_mod,
          Nat.mod_eq_of_lt hone]
    · rw [Nat.add_sub_cancel]
      exact Nat.dvd_mul_right (largePower words) growth

namespace largeKey

/-- The primes of a large key share no factor. -/
theorem coprime : Nat.Coprime (largeKey words growth).first (largeKey words growth).second := by
  have hmod : largePower words % 3 = 1 := largePower_mod words (by decide)
  show Nat.gcd 3 (largePower words + 1) = 1
  rw [Nat.gcd_rec, Nat.add_mod, hmod]
  rfl

/-- So they do not keep it from being written. -/
theorem not_sharesFactor : ¬ (PrivateKey.rsa (largeKey words growth)).SharesFactor :=
  not_not_intro (coprime words growth)

/-- The modulus and the second prime of a large key have one digit more than the width. -/
theorem mem_range :
    (256 ^ largeWidth words ≤ (largeKey words growth).publicKey.modulus ∧
      (largeKey words growth).publicKey.modulus < 256 ^ (largeWidth words + 1)) ∧
    256 ^ largeWidth words ≤ (largeKey words growth).second ∧
      (largeKey words growth).second < 256 ^ (largeWidth words + 1) := by
  have hlt := (largePower_even words).2
  rw [Nat.pow_succ, ← largePower]
  show (largePower words ≤ 3 * (largePower words + 1) ∧
    3 * (largePower words + 1) < largePower words * 256) ∧
    largePower words ≤ largePower words + 1 ∧ largePower words + 1 < largePower words * 256
  omega

/-- The secret exponent modulo the second prime less one does not grow, and has nearly as many
digits as the width. -/
theorem secret_mod :
    (largeKey words growth).secret % ((largeKey words growth).second - 1) = largeSecret words ∧
      largeSecret words < largePower words ∧ 256 ^ (largeWidth words - 1) ≤ largeSecret words := by
  have hexponent : Rsa.commonExponent = 65537 := rfl
  have hlt := (largePower_even words).2
  have hdigit : largePower words = 256 ^ (largeWidth words - 1) * 256 := by
    rw [largePower, ← Nat.pow_succ]
    rfl
  have hsecret : largeSecret words < largePower words ∧
      256 ^ (largeWidth words - 1) ≤ largeSecret words := by
    rw [largeSecret, hexponent]
    omega
  refine ⟨?_, hsecret⟩
  show (largeSecret words + largePower words * growth) % (largePower words + 1 - 1) = _
  rw [Nat.add_sub_cancel, Nat.add_mul_mod_self_left, Nat.mod_eq_of_lt hsecret.1]

/-- Growing by a power of 256 gives the secret exponent that many digits more. -/
theorem secret_mem_range (width : Nat) :
    256 ^ (width + largeWidth words) ≤ (largeKey words (256 ^ width)).secret ∧
      (largeKey words (256 ^ width)).secret < 256 ^ (width + largeWidth words + 1) := by
  have hgrowth : largePower words * 256 ^ width = 256 ^ (width + largeWidth words) := by
    rw [largePower, ← Nat.pow_add, Nat.add_comm]
  have hsecret : largeSecret words < 256 ^ (width + largeWidth words) :=
    Nat.lt_of_lt_of_le (secret_mod words 0).2.1
      (Nat.pow_le_pow_right (by decide) (Nat.le_add_left (largeWidth words) width))
  rw [Nat.pow_succ]
  show 256 ^ (width + largeWidth words) ≤ largeSecret words + largePower words * 256 ^ width ∧
    largeSecret words + largePower words * 256 ^ width < 256 ^ (width + largeWidth words) * 256
  rw [hgrowth]
  omega

variable {words} {width : Nat}

/-- There is room for the envelope of a large key with zeros for the numbers that follow from the
others. -/
theorem fits_content (h : width + 3 * largeWidth words + 138 ≤ maxLength) :
    Fits (PrivateEnvelope.content (.ofAlgorithm .rsa)
      ((largeKey words (256 ^ width)).toDer ⟨0, 0, 0⟩)) := by
  obtain ⟨⟨-, hmodulusLt⟩, -, hsecondLt⟩ := mem_range words (256 ^ width)
  have hzero := (length_integer_le Nat.one_pos (show 0 < 256 ^ 1 by decide) (by decide)).2
  have hfirst := (length_integer_le Nat.one_pos (show 3 < 256 ^ 1 by decide) (by decide)).2
  have hexponent := (length_integer_le (show 0 < 3 by decide)
    (show Rsa.commonExponent < 256 ^ 3 by decide) (by decide)).2
  have hmodulus := (length_integer_le (Nat.add_one_pos _) hmodulusLt (by omega)).2
  have hsecond := (length_integer_le (Nat.add_one_pos _) hsecondLt (by omega)).2
  have hsecret := (length_integer_le (Nat.add_one_pos _) (secret_mem_range words width).2
    (by omega)).2
  refine PrivateEnvelope.fits_content .rsa ?_
  simp only [List.length_append]
  show (integer 0).length + (integer (largeKey words (256 ^ width)).publicKey.modulus).length +
    (integer Rsa.commonExponent).length + (integer (largeKey words (256 ^ width)).secret).length +
    (integer 3).length + (integer (largeKey words (256 ^ width)).second).length +
    (integer 0).length + (integer 0).length + (integer 0).length + 64 ≤ maxLength
  omega

/-- There is no room for the envelope of a large key with the numbers that follow from the
others. -/
theorem isTooLong (h : maxLength ≤ width + 4 * largeWidth words + 10) :
    (PrivateKey.rsa (largeKey words (256 ^ width))).IsTooLong := by
  obtain ⟨remainders, hremainders⟩ := Option.isSome_iff_exists.1
    ((largeKey words (256 ^ width)).isSome_remainders?_iff.2 (coprime words _))
  refine ⟨(largeKey words (256 ^ width)).toDer remainders, ?_, fun hfits ↦ ?_⟩
  · rw [PrivateKey.innerBytes?, hremainders]
    rfl
  · obtain ⟨⟨hmodulusGe, -⟩, hsecondGe, -⟩ := mem_range words (256 ^ width)
    have hsecret := lt_length_integer (secret_mem_range words width).1
    have hmodulus := lt_length_integer hmodulusGe
    have hsecond := lt_length_integer hsecondGe
    have hremainder : largeWidth words - 1 + 2 < (integer remainders.second).length := by
      rw [(Rsa.PrivateKey.remainders?_eq_some_iff.1 hremainders).2.1, (secret_mod words _).1]
      exact lt_length_integer (secret_mod words 0).2.2
    have hlength : (PrivateEnvelope.content .rsa
        ((largeKey words (256 ^ width)).toDer remainders)).length ≤ maxLength := hfits.length_le
    have hvalues := PrivateEnvelope.length_le_content .rsa
      (integer 0 ++ integer (largeKey words (256 ^ width)).publicKey.modulus ++
        integer (largeKey words (256 ^ width)).publicKey.exponent ++
        integer (largeKey words (256 ^ width)).secret ++
        integer (largeKey words (256 ^ width)).first ++
        integer (largeKey words (256 ^ width)).second ++ integer remainders.first ++
        integer remainders.second ++ integer remainders.coefficient)
    rw [Rsa.PrivateKey.toDer] at hlength
    simp only [List.length_append] at hvalues
    omega

end largeKey

/-- So many digits that there is room for them in an envelope, and little more. -/
def longWidth : Nat := maxLength - 2000

/-- A private key with a modulus of 4002 bits and a secret exponent of hundreds of millions of
digits, whose primes share no factor, is read from a text with zeros in place of three numbers, and
cannot be written with them. A private key with a modulus of 4098 bits is written and read, and its
public key is written and not read. -/
theorem large_keys_not_canonical :
    (let key := PrivateKey.rsa (largeKey 124 (256 ^ longWidth))
      ∃ text, PrivateKey.decode text .rsa = .ok key ∧ key.publicKey.IsReadable ∧
        ¬ key.SharesFactor ∧ ∃ error, key.encode = .error error) ∧
    let key := PrivateKey.rsa (largeKey 127 0)
    ∃ text publicText, key.encode = .ok text ∧ PrivateKey.decode text .rsa = .ok key ∧
      key.publicKey.encode = .ok publicText ∧
      PublicKey.decode publicText .rsa ≠ .ok key.publicKey := by
  constructor
  · intro key
    have hfits : longWidth + 3 * largeWidth 124 + 138 ≤ maxLength := by decide
    have hlong : maxLength ≤ longWidth + 4 * largeWidth 124 + 10 := by decide
    obtain ⟨text, htext⟩ := PrivateKey.exists_decode_toDer (largeKey.fits_content hfits)
    have hreadable : BigEndian.bitLength (3 * (largePower 124 + 1)) ≤ maxModulusBits := by
      decide +kernel
    exact ⟨text, htext, hreadable, largeKey.not_sharesFactor 124 _,
      PrivateKey.encode_fails_iff.2 (.inr (largeKey.isTooLong hlong))⟩
  · intro key
    obtain ⟨⟨-, hmodulus⟩, -⟩ := largeKey.mem_range 127 0
    have hsecret : (largeKey 127 0).secret < 256 ^ (largeWidth 127 + 1) := by decide +kernel
    have hmoderate : largeWidth 127 + 1 ≤ moderateWidth := by decide
    obtain ⟨text, htext⟩ := PrivateKey.exists_encode (largeKey.not_sharesFactor 127 0)
      (PrivateKey.not_isTooLong_rsa hmoderate hmodulus hsecret)
    obtain ⟨publicText, hpublicText⟩ := PrivateKey.exists_encode_publicKey htext
    have hunreadable : ¬ BigEndian.bitLength (3 * (largePower 127 + 1)) ≤ maxModulusBits := by
      decide +kernel
    exact ⟨text, publicText, htext, PrivateKey.decode_encode htext, hpublicText,
      fun h ↦ hunreadable (PublicKey.isReadable_of_decode h)⟩

end SigningKeys
