import VaultwardenEso.CipherDecryption
import VaultwardenEso.CryptoRecorded

set_option autoImplicit false

/-! # Decrypting what a client wrote -/
namespace VaultwardenEso.Cipher
open RustStr RustResult BwesoCore Crypto

/-- `cipher` is `plain` written with the user key `user` and, if there is one, the item key:
    the item key is wrapped under the user key and every string is under the item key;
    without one every string is under the user key. -/
structure Seals (P : Primitives) (E : Encoders) (user : AuthenticatedSymmetricKey)
    (item : Option AuthenticatedSymmetricKey) (plain : DecryptedCipher) (cipher : EncryptedCipher) :
    Prop where
  key : Option.Rel (fun wrapped item => SealsBytes P E user item.bytes wrapped) cipher.key item
  strings : ItemRel (fun text plain => SealsText P E (item.getD user) plain text) cipher plain

/-- `selected` is the key the strings of `cipher` are read with: the user key if the item has
    no key of its own, else the 64 bytes unwrapped from an authentic string under the user key. -/
def SelectsKey (P : Primitives) (cipher : EncryptedCipher)
    (user selected : AuthenticatedSymmetricKey) :
    Prop :=
  match cipher.key with
  | none => selected = user
  | some wrapped => HasTypeHeader wrapped ∧ ∃ e, EncryptedString.fromStr P wrapped = .ok e ∧
      Authentic P user e ∧ P.aes256CbcDecrypt user.encryptionKey e.iv e.data = some selected.bytes

variable {P : Primitives} {E : Encoders}

theorem decryptionKey_eq_ok {cipher : EncryptedCipher} {user selected : AuthenticatedSymmetricKey} :
    cipher.decryptionKey P user = .ok selected ↔ SelectsKey P cipher user selected := by
  unfold EncryptedCipher.decryptionKey SelectsKey
  cases cipher.key with
  | none => simp [eq_comm]
  | some wrapped =>
    simp only [mapError_eq_ok, bind_eq_ok, EncryptedString.decryptBytes_eq_ok,
      AuthenticatedSymmetricKey.tryFrom_eq_ok]
    constructor
    · rintro ⟨e, he, plain, ⟨hauth, hplain⟩, rfl⟩
      exact ⟨EncryptedString.fromStr_hasTypeHeader P he, e, he, hauth, hplain⟩
    · rintro ⟨-, e, he, hauth, hplain⟩
      exact ⟨e, he, _, ⟨hauth, hplain⟩, rfl⟩

theorem Seals.decryptionKey (h : Inverts P E) {user : AuthenticatedSymmetricKey}
    {item : Option AuthenticatedSymmetricKey} {plain : DecryptedCipher} {cipher : EncryptedCipher}
    (hs : Seals P E user item plain cipher) :
    cipher.decryptionKey P user = .ok (item.getD user) := by
  rw [decryptionKey_eq_ok]
  unfold SelectsKey
  cases hkey : cipher.key with
  | none =>
    have hitem := hs.key
    rw [hkey] at hitem
    cases hitem
    rfl
  | some wrapped =>
    have hitem := hs.key
    rw [hkey] at hitem
    cases hitem with
    | some hw =>
      obtain ⟨e, he, hplain⟩ := hw.decryptBytes h
      obtain ⟨hauth, hplain⟩ := (EncryptedString.decryptBytes_eq_ok P).mp hplain
      exact ⟨EncryptedString.fromStr_hasTypeHeader P he, e, he, hauth, hplain⟩

theorem Seals.decrypt (h : Inverts P E) {user : AuthenticatedSymmetricKey}
    {item : Option AuthenticatedSymmetricKey} {plain : DecryptedCipher} {cipher : EncryptedCipher}
    (hs : Seals P E user item plain cipher) : cipher.decrypt P user = .ok plain := by
  rw [EncryptedCipher.decrypt_eq_ok]
  exact ⟨item.getD user, hs.decryptionKey h, hs.strings.mono fun _ _ ht => ht.decryptUtf8 h⟩

/-- A string that reads as type 2 and carries the tag of its IV and data under `key`. -/
def AuthenticString (P : Primitives) (key : AuthenticatedSymmetricKey) (text : Str) : Prop :=
  HasTypeHeader text ∧ ∃ e, EncryptedString.fromStr P text = .ok e ∧ Authentic P key e

theorem Opens.authentic {key : AuthenticatedSymmetricKey} {text plain : Str}
    (h : Opens P key text plain) : AuthenticString P key text := by
  obtain ⟨e, he, hplain⟩ := h
  obtain ⟨bytes, hbytes, -⟩ := (EncryptedString.decryptUtf8_eq_ok P).mp hplain
  exact ⟨EncryptedString.fromStr_hasTypeHeader P he, e, he,
    ((EncryptedString.decryptBytes_eq_ok P).mp hbytes).1⟩

theorem decrypt_strings_open {cipher : EncryptedCipher} {user : AuthenticatedSymmetricKey}
    {plain : DecryptedCipher} (h : cipher.decrypt P user = .ok plain) :
    ∃ selected, SelectsKey P cipher user selected ∧
      ∀ text ∈ cipher.strings, ∃ t, Opens P selected text t := by
  obtain ⟨selected, hkey, hrel⟩ := (EncryptedCipher.decrypt_eq_ok P).mp h
  exact ⟨selected, decryptionKey_eq_ok.mp hkey, fun text ht => hrel.strings ht⟩

theorem decrypt_error_of_string {cipher : EncryptedCipher} {user selected : AuthenticatedSymmetricKey}
    {text : Str} (hkey : SelectsKey P cipher user selected) (ht : text ∈ cipher.strings)
    (hfail : ∀ t, ¬ Opens P selected text t) : ∃ error, cipher.decrypt P user = .error error := by
  cases hd : cipher.decrypt P user with
  | error error => exact ⟨error, rfl⟩
  | ok plain =>
    obtain ⟨selected', hkey', hall⟩ := decrypt_strings_open hd
    have hsame : selected = selected' := by
      have h := decryptionKey_eq_ok.mpr hkey
      rw [decryptionKey_eq_ok.mpr hkey'] at h
      exact (Except.ok.inj h).symm
    subst hsame
    obtain ⟨t, hopen⟩ := hall text ht
    exact absurd hopen (hfail t)

theorem decrypt_inverts_encryption_and_authenticates (h : Inverts P E)
    (user : AuthenticatedSymmetricKey) :
    (∀ item plain cipher, Seals P E user item plain cipher → cipher.decrypt P user = .ok plain) ∧
    (∀ cipher plain, cipher.decrypt P user = .ok plain → ∃ selected,
      SelectsKey P cipher user selected ∧
        ∀ text ∈ cipher.strings, AuthenticString P selected text) ∧
    (∀ cipher, (¬ ∃ selected, SelectsKey P cipher user selected) →
      ∃ error, cipher.decrypt P user = .error error) ∧
    (∀ cipher selected text, SelectsKey P cipher user selected → text ∈ cipher.strings →
      (∀ t, ¬ Opens P selected text t) → ∃ error, cipher.decrypt P user = .error error) := by
  refine ⟨fun item plain cipher hs => hs.decrypt h, ?_, ?_, ?_⟩
  · intro cipher plain hd
    obtain ⟨selected, hkey, hall⟩ := decrypt_strings_open hd
    refine ⟨selected, hkey, fun text ht => ?_⟩
    obtain ⟨t, hopen⟩ := hall text ht
    exact hopen.authentic
  · intro cipher hnone
    cases hd : cipher.decrypt P user with
    | error error => exact ⟨error, rfl⟩
    | ok plain =>
      obtain ⟨selected, hkey, -⟩ := decrypt_strings_open hd
      exact absurd ⟨selected, hkey⟩ hnone
  · intro cipher selected text hkey ht hfail
    exact decrypt_error_of_string hkey ht hfail

/-! ## An item with a key of its own, from vectors of the real primitives -/

def sampleUserKey : AuthenticatedSymmetricKey :=
  ⟨(List.range' 0 32).map UInt8.ofNat, (List.range' 32 32).map UInt8.ofNat, by decide, by decide⟩

def sampleItemKey : AuthenticatedSymmetricKey :=
  ⟨(List.range' 64 32).map UInt8.ofNat, (List.range' 96 32).map UInt8.ofNat, by decide, by decide⟩

def sampleKeyIv : Bytes := (List.range' 0 16).map UInt8.ofNat

def sampleNameIv : Bytes := (List.range' 80 16).map UInt8.ofNat

def sampleWrappedKey : Bytes :=
  [145, 204, 247, 130, 9, 65, 124, 62, 234, 158, 155, 81, 129, 227, 222, 191, 135, 85, 79, 97, 162, 38,
    164, 235, 85, 189, 118, 43, 141, 178, 121, 75, 223, 207, 103, 239, 52, 3, 163, 208, 12, 147, 14, 245,
    135, 44, 27, 111, 101, 144, 133, 153, 46, 69, 186, 100, 15, 104, 44, 159, 0, 206, 103, 77, 149, 190,
    123, 95, 29, 221, 254, 210, 106, 207, 114, 15, 235, 127, 94, 94]

def sampleNameData : Bytes :=
  [253, 8, 216, 225, 32, 162, 129, 37, 50, 211, 91, 151, 248, 251, 248, 116]

def sampleRecording : Recording where
  cbc := [⟨sampleUserKey.encryptionKey, sampleKeyIv, sampleItemKey.bytes, sampleWrappedKey⟩,
    ⟨sampleItemKey.encryptionKey, sampleNameIv, asBytes "app/database".toList, sampleNameData⟩]
  hmac := [⟨sampleUserKey.authenticationKey, sampleKeyIv ++ sampleWrappedKey,
      [51, 255, 23, 61, 138, 29, 73, 6, 230, 105, 225, 61, 191, 19, 18, 71, 77, 51, 137, 133, 171, 204,
        26, 50, 139, 246, 244, 112, 69, 255, 37, 197]⟩,
    ⟨sampleItemKey.authenticationKey, sampleNameIv ++ sampleNameData,
      [124, 96, 28, 74, 88, 19, 110, 91, 151, 119, 191, 86, 138, 241, 116, 81, 54, 70, 192, 93, 41, 117, 228, 37, 247, 138, 53, 137, 227, 34, 155, 223]⟩]

def sampleCipher : EncryptedCipher where
  id := "cipher-login".toList
  cipherType := 1
  organizationId := none
  key := some ("2.AAECAwQFBgcICQoLDA0ODw==|k".toList ++ "cz3gglBfD7qnptRgePev4dVT2GiJ".toList ++
    "qTrVb12K42yeUvfz2fvNAOj0AyTD".toList ++ "vWHLBtvZZCFmS5FumQPaCyfAM5nT".toList ++
    "ZW+e18d3f7Sas9yD+t/Xl4=|M/8X".toList ++ "PYodSQbmaeE9vxMSR00ziYWrzBoy".toList ++
    "i/b0cEX/JcU=".toList)
  name := some ("2.UFFSU1RVVldYWVpbXF1eXw==|/".toList ++ "QjY4SCigSUy01uX+Pv4dA==|fGAc".toList ++
    "SlgTbluXd79WivF0UTZGwF0pdeQl".toList ++ "94o1ieMim98=".toList)
  notes := none
  fields := []
  login := none
  sshKey := none

def samplePlain : DecryptedCipher where
  id := "cipher-login".toList
  cipherType := 1
  organizationId := none
  name := some "app/database".toList
  notes := none
  fields := []
  login := none
  sshKey := none

theorem sampleRecording_consistent : sampleRecording.Consistent := by
  unfold Recording.Consistent
  decide +kernel

theorem sampleCipher_seals : Seals sampleRecording.primitives sampleRecording.encoders sampleUserKey
    (some sampleItemKey) samplePlain sampleCipher where
  key := .some ⟨sampleKeyIv, _, by decide, rfl, by decide +kernel⟩
  strings := ⟨rfl, rfl, rfl, .some ⟨sampleNameIv, _, by decide, rfl, by decide +kernel⟩, .none,
    .nil, .none, .none⟩

theorem sampleCipher_decrypt :
    sampleCipher.decrypt sampleRecording.primitives sampleUserKey = .ok samplePlain :=
  (decrypt_inverts_encryption_and_authenticates (Recording.inverts sampleRecording_consistent)
    sampleUserKey).1 (some sampleItemKey) samplePlain sampleCipher sampleCipher_seals

end VaultwardenEso.Cipher
