import VaultwardenEso.Crypto

set_option autoImplicit false

/-!
# The writing side of the encrypted-string format

This crate only reads vaults. What a Bitwarden client computes when it writes
one is stated here, over the encoding half of the primitives, together with the
documented facts about the primitives that reading back rests on.
-/
namespace VaultwardenEso.Crypto
open RustStr

/-- The encoding half of the primitive crates. -/
structure Encoders where
  base64Encode : Bytes → Str
  aes256CbcEncrypt : Bytes → Bytes → Bytes → Bytes

structure Inverts (P : Primitives) (E : Encoders) : Prop where
  base64_decode : ∀ bytes, P.base64Decode (E.base64Encode bytes) = some bytes
  /-- The standard alphabet is letters, digits, `+`, `/` and the padding `=`. -/
  base64_alphabet : ∀ bytes, '|' ∉ E.base64Encode bytes
  cbc_decrypt : ∀ key iv plain, key.length = aes256KeyLength → iv.length = aesCbcIvLength →
    P.aes256CbcDecrypt key iv (E.aes256CbcEncrypt key iv plain) = some plain
  /-- PKCS#7 always pads, to a whole number of blocks. -/
  cbc_blocks : ∀ key iv plain, E.aes256CbcEncrypt key iv plain ≠ [] ∧
    (E.aes256CbcEncrypt key iv plain).length % aesCbcIvLength = 0
  hmac_length : ∀ key tag message, P.hmacSha256 key = some tag →
    (tag message).length = hmacSha256Length

variable {P : Primitives} {E : Encoders}

def serialize (E : Encoders) (iv data mac : Bytes) : Str :=
  '2' :: '.' :: (E.base64Encode iv ++ '|' :: (E.base64Encode data ++ '|' :: E.base64Encode mac))

theorem fromStr_serialize (h : Inverts P E) {iv data mac : Bytes}
    (hiv : iv.length = aesCbcIvLength) (hmac : mac.length = hmacSha256Length)
    (hne : data ≠ []) (hblocks : data.length % aesCbcIvLength = 0) :
    EncryptedString.fromStr P (serialize E iv data mac) =
      .ok ⟨.aesCbc256HmacSha256B64, iv, data, mac, hiv, hmac, hne, hblocks⟩ := by
  rw [EncryptedString.fromStr_eq_ok]
  exact ⟨['2'], _, _, _, rfl, by decide, h.base64_alphabet iv, h.base64_alphabet data,
    h.base64_alphabet mac, by decide, h.base64_decode iv, h.base64_decode data, h.base64_decode mac⟩

variable (P E)

/-- `text` is `plain` encrypted under `key` with some IV, and authenticated. -/
def SealsBytes (key : AuthenticatedSymmetricKey) (plain : Bytes) (text : Str) : Prop :=
  ∃ iv tag, iv.length = aesCbcIvLength ∧ P.hmacSha256 key.authenticationKey = some tag ∧
    text = serialize E iv (E.aes256CbcEncrypt key.encryptionKey iv plain)
      (tag (iv ++ E.aes256CbcEncrypt key.encryptionKey iv plain))

def SealsText (key : AuthenticatedSymmetricKey) (plain text : Str) : Prop :=
  SealsBytes P E key (asBytes plain) text

variable {P E}

theorem SealsBytes.decryptBytes (h : Inverts P E) {key : AuthenticatedSymmetricKey}
    {plain : Bytes} {text : Str} (hs : SealsBytes P E key plain text) :
    ∃ e, EncryptedString.fromStr P text = .ok e ∧ e.decryptBytes P key = .ok plain := by
  obtain ⟨iv, tag, hiv, htag, rfl⟩ := hs
  obtain ⟨hne, hblocks⟩ := h.cbc_blocks key.encryptionKey iv plain
  refine ⟨_, fromStr_serialize h hiv (h.hmac_length _ _ _ htag) hne hblocks, ?_⟩
  rw [EncryptedString.decryptBytes_eq_ok]
  exact ⟨⟨tag, htag, rfl⟩, h.cbc_decrypt _ _ _ key.encryptionKey_length hiv⟩

theorem SealsText.decryptUtf8 (h : Inverts P E) {key : AuthenticatedSymmetricKey}
    {plain text : Str} (hs : SealsText P E key plain text) :
    ∃ e, EncryptedString.fromStr P text = .ok e ∧ e.decryptUtf8 P key = .ok plain := by
  obtain ⟨e, he, hplain⟩ := hs.decryptBytes h
  refine ⟨e, he, ?_⟩
  rw [EncryptedString.decryptUtf8_eq_ok]
  exact ⟨asBytes plain, hplain, fromUtf8_asBytes plain⟩

end VaultwardenEso.Crypto
