import VaultwardenEso.Lib.Str
import VaultwardenEso.Lib.Result

set_option autoImplicit false

/-!
# Symmetric crypto: `crypto.rs`

The primitives come from other crates and are a parameter. Everything this
crate adds (the text format, the length checks, the MAC over IV and data before
any decryption, the split of a 64-byte key) is computed here.
-/
namespace VaultwardenEso.Crypto
open RustStr

/-- The decoding half of the primitive crates. -/
structure Primitives where
  /-- `STANDARD.decode`. -/
  base64Decode : Str → Option Bytes
  /-- `Hmac::<Sha256>::new_from_slice`, then the tag of a message. -/
  hmacSha256 : Bytes → Option (Bytes → Bytes)
  /-- `decrypt_padded_mut::<Pkcs7>` under a key and an IV. -/
  aes256CbcDecrypt : Bytes → Bytes → Bytes → Option Bytes

def aes256KeyLength : ℕ := 32
def authenticatedKeyLength : ℕ := 64
def aesCbcIvLength : ℕ := 16
def hmacSha256Length : ℕ := 32

inductive CryptoError where
  | invalidKeyLength (actual : ℕ)
  | invalidEncryptionTypeHeader
  | legacyNoMacDisabled
  | unsupportedEncryptionType (encryptionType : ℕ)
  | invalidPartCount
  | invalidBase64 (part : String)
  | invalidIvLength (actual : ℕ)
  | invalidMacLength (actual : ℕ)
  | invalidCiphertextLength (actual : ℕ)
  | macVerificationFailed
  | decryptFailed
  | invalidUtf8
  deriving DecidableEq, Repr

inductive EncryptionType where
  | aesCbc256HmacSha256B64
  deriving DecidableEq, Repr

def EncryptionType.asU8 : EncryptionType → ℕ
  | .aesCbc256HmacSha256B64 => 2

def EncryptionType.parse (raw : Str) : Except CryptoError EncryptionType :=
  match parseUnsigned 255 raw with
  | none => .error .invalidEncryptionTypeHeader
  | some 0 => .error .legacyNoMacDisabled
  | some 2 => .ok .aesCbc256HmacSha256B64
  | some value => .error (.unsupportedEncryptionType value)

/-- The fields are private to the crate and `fromStr` is the only constructor, so the
    lengths it checks are part of the type. -/
structure EncryptedString where
  encryptionType : EncryptionType
  iv : Bytes
  data : Bytes
  mac : Bytes
  iv_length : iv.length = aesCbcIvLength
  mac_length : mac.length = hmacSha256Length
  data_ne_nil : data ≠ []
  data_blocks : data.length % aesCbcIvLength = 0
  deriving DecidableEq

structure AuthenticatedSymmetricKey where
  encryptionKey : Bytes
  authenticationKey : Bytes
  encryptionKey_length : encryptionKey.length = aes256KeyLength
  authenticationKey_length : authenticationKey.length = aes256KeyLength
  deriving DecidableEq

def AuthenticatedSymmetricKey.tryFrom (raw : Bytes) : Except CryptoError AuthenticatedSymmetricKey :=
  if h : raw.length = authenticatedKeyLength then
    .ok ⟨raw.take aes256KeyLength, raw.drop aes256KeyLength,
      by simp [h, authenticatedKeyLength, aes256KeyLength],
      by simp [h, authenticatedKeyLength, aes256KeyLength]⟩
  else .error (.invalidKeyLength raw.length)

def AuthenticatedSymmetricKey.bytes (key : AuthenticatedSymmetricKey) : Bytes :=
  key.encryptionKey ++ key.authenticationKey

theorem AuthenticatedSymmetricKey.tryFrom_eq_ok {raw : Bytes} {key : AuthenticatedSymmetricKey} :
    AuthenticatedSymmetricKey.tryFrom raw = .ok key ↔ raw = key.bytes := by
  obtain ⟨enc, auth, henc, hauth⟩ := key
  unfold tryFrom bytes
  constructor
  · intro h
    split at h
    · cases h
      simp
    · cases h
  · rintro rfl
    rw [aes256KeyLength] at henc
    have hlen : (enc ++ auth).length = authenticatedKeyLength := by
      simp [henc, hauth, authenticatedKeyLength, aes256KeyLength]
    have htake : (enc ++ auth).take 32 = enc := by rw [← henc, List.take_left]
    have hdrop : (enc ++ auth).drop 32 = auth := by rw [← henc, List.drop_left]
    simp only [dif_pos hlen, aes256KeyLength, htake, hdrop]

section Decryption
variable (P : Primitives)

def decodeBase64 (part : String) (raw : Str) : Except CryptoError Bytes :=
  match P.base64Decode raw with
  | some bytes => .ok bytes
  | none => .error (.invalidBase64 part)

def EncryptedString.fromStr (raw : Str) : Except CryptoError EncryptedString :=
  match splitOnce '.' raw with
  | none => .error .legacyNoMacDisabled
  | some (header, payload) => do
    let encryptionType ← EncryptionType.parse header
    if encryptionType ≠ .aesCbc256HmacSha256B64 then
      .error (.unsupportedEncryptionType encryptionType.asU8)
    else match split '|' payload with
      | [iv, data, mac] => do
        let iv ← decodeBase64 P "iv" iv
        let data ← decodeBase64 P "data" data
        let mac ← decodeBase64 P "mac" mac
        if hiv : iv.length = aesCbcIvLength then
          if hmac : mac.length = hmacSha256Length then
            if hdata : data ≠ [] ∧ data.length % aesCbcIvLength = 0 then
              .ok ⟨encryptionType, iv, data, mac, hiv, hmac, hdata.1, hdata.2⟩
            else .error (.invalidCiphertextLength data.length)
          else .error (.invalidMacLength mac.length)
        else .error (.invalidIvLength iv.length)
      | _ => .error .invalidPartCount

def verifyMac (authenticationKey iv data mac : Bytes) : Except CryptoError Unit :=
  match P.hmacSha256 authenticationKey with
  | none => .error (.invalidKeyLength authenticationKey.length)
  | some tag => if tag (iv ++ data) = mac then .ok () else .error .macVerificationFailed

def EncryptedString.decryptBytes (e : EncryptedString) (key : AuthenticatedSymmetricKey) :
    Except CryptoError Bytes :=
  if e.encryptionType ≠ .aesCbc256HmacSha256B64 then
    .error (.unsupportedEncryptionType e.encryptionType.asU8)
  else do
    verifyMac P key.authenticationKey e.iv e.data e.mac
    match P.aes256CbcDecrypt key.encryptionKey e.iv e.data with
    | some plain => .ok plain
    | none => .error .decryptFailed

def EncryptedString.decryptUtf8 (e : EncryptedString) (key : AuthenticatedSymmetricKey) :
    Except CryptoError Str := do
  let plain ← e.decryptBytes P key
  match fromUtf8 plain with
  | some text => .ok text
  | none => .error .invalidUtf8

/-- The MAC of `e` is the tag of IV and data under the authentication half of `key`. -/
def Authentic (key : AuthenticatedSymmetricKey) (e : EncryptedString) : Prop :=
  ∃ tag, P.hmacSha256 key.authenticationKey = some tag ∧ tag (e.iv ++ e.data) = e.mac

theorem verifyMac_eq_ok {authenticationKey iv data mac : Bytes} {u : Unit} :
    verifyMac P authenticationKey iv data mac = .ok u ↔
      ∃ tag, P.hmacSha256 authenticationKey = some tag ∧ tag (iv ++ data) = mac := by
  unfold verifyMac
  cases P.hmacSha256 authenticationKey with
  | none => simp
  | some tag => simp

theorem EncryptedString.decryptBytes_eq_ok {e : EncryptedString} {key : AuthenticatedSymmetricKey}
    {plain : Bytes} : e.decryptBytes P key = .ok plain ↔
      Authentic P key e ∧ P.aes256CbcDecrypt key.encryptionKey e.iv e.data = some plain := by
  have htype : e.encryptionType = .aesCbc256HmacSha256B64 := rfl
  unfold decryptBytes Authentic
  rw [if_neg (by simp [htype]), RustResult.bind_eq_ok]
  simp only [verifyMac_eq_ok]
  cases P.aes256CbcDecrypt key.encryptionKey e.iv e.data with
  | none => simp
  | some plain => simp

theorem EncryptedString.decryptUtf8_eq_ok {e : EncryptedString} {key : AuthenticatedSymmetricKey}
    {text : Str} : e.decryptUtf8 P key = .ok text ↔
      ∃ plain, e.decryptBytes P key = .ok plain ∧ fromUtf8 plain = some text := by
  unfold decryptUtf8
  rw [RustResult.bind_eq_ok]
  refine exists_congr fun plain => and_congr_right fun _ => ?_
  cases fromUtf8 plain <;> simp

/-- The text before the first dot reads as the number 2. -/
def HasTypeHeader (raw : Str) : Prop :=
  ∃ header payload, splitOnce '.' raw = some (header, payload) ∧ parseUnsigned 255 header = some 2

theorem EncryptionType.parse_eq_ok {raw : Str} {t : EncryptionType} :
    EncryptionType.parse raw = .ok t ↔ parseUnsigned 255 raw = some 2 := by
  unfold EncryptionType.parse
  split <;> simp_all

def joinParts (header iv data mac : Str) : Str :=
  header ++ '.' :: (iv ++ '|' :: (data ++ '|' :: mac))

structure Parses (raw header iv data mac : Str) (e : EncryptedString) : Prop where
  raw_eq : raw = joinParts header iv data mac
  header_dot : '.' ∉ header
  iv_bar : '|' ∉ iv
  data_bar : '|' ∉ data
  mac_bar : '|' ∉ mac
  header_value : parseUnsigned 255 header = some 2
  iv_bytes : P.base64Decode iv = some e.iv
  data_bytes : P.base64Decode data = some e.data
  mac_bytes : P.base64Decode mac = some e.mac

theorem decodeBase64_eq_ok {part : String} {raw : Str} {bytes : Bytes} :
    decodeBase64 P part raw = .ok bytes ↔ P.base64Decode raw = some bytes := by
  unfold decodeBase64
  cases P.base64Decode raw with
  | none => simp
  | some decoded => simp

theorem split_three {payload iv data mac : Str} : split '|' payload = [iv, data, mac] ↔
    payload = iv ++ '|' :: (data ++ '|' :: mac) ∧ '|' ∉ iv ∧ '|' ∉ data ∧ '|' ∉ mac := by
  constructor
  · intro h
    have hpieces : ∀ piece ∈ [iv, data, mac], '|' ∉ piece := by
      intro piece hpiece
      rw [← h] at hpiece
      exact not_mem_of_mem_split hpiece
    have hjoin := intercalate_split '|' payload
    rw [h] at hjoin
    refine ⟨?_, hpieces iv (by simp), hpieces data (by simp), hpieces mac (by simp)⟩
    rw [← hjoin]
    simp [List.intercalate, List.intersperse]
  · rintro ⟨rfl, hiv, hdata, hmac⟩
    rw [split, List.splitOn_append_cons_self_of_not_mem hiv,
      List.splitOn_append_cons_self_of_not_mem hdata, List.splitOn_eq_singleton hmac]

theorem EncryptedString.fromStr_eq_ok {raw : Str} {e : EncryptedString} :
    EncryptedString.fromStr P raw = .ok e ↔ ∃ header iv data mac, Parses P raw header iv data mac e := by
  constructor
  · intro h
    unfold fromStr at h
    split at h
    · cases h
    rename_i header payload hsplit
    obtain ⟨hraw, hdot⟩ := splitOnce_eq_some hsplit
    obtain ⟨t, ht, h⟩ := RustResult.bind_eq_ok.mp h
    split at h
    · cases h
    split at h
    · rename_i iv data mac hpieces
      obtain ⟨hpayload, hivbar, hdatabar, hmacbar⟩ := split_three.mp hpieces
      obtain ⟨ivBytes, hiv, h⟩ := RustResult.bind_eq_ok.mp h
      obtain ⟨dataBytes, hdata, h⟩ := RustResult.bind_eq_ok.mp h
      obtain ⟨macBytes, hmac, h⟩ := RustResult.bind_eq_ok.mp h
      rw [decodeBase64_eq_ok] at hiv hdata hmac
      rw [hpayload] at hraw
      split at h
      · split at h
        · split at h
          · cases h
            exact ⟨header, iv, data, mac, hraw, hdot, hivbar, hdatabar, hmacbar,
              EncryptionType.parse_eq_ok.mp ht, hiv, hdata, hmac⟩
          · cases h
        · cases h
      · cases h
    · cases h
  · rintro ⟨header, iv, data, mac, h⟩
    obtain ⟨t, ivBytes, dataBytes, macBytes, hiv, hmac, hne, hblocks⟩ := e
    have hsplit : splitOnce '.' raw = some (header, iv ++ '|' :: (data ++ '|' :: mac)) := by
      rw [h.raw_eq]
      exact splitOnce_append h.header_dot
    have hheader : EncryptionType.parse header = .ok t := EncryptionType.parse_eq_ok.mpr h.header_value
    have hpieces := split_three.mpr ⟨rfl, h.iv_bar, h.data_bar, h.mac_bar⟩
    have hdecode : ∀ part text bytes, P.base64Decode text = some bytes →
        decodeBase64 P part text = .ok bytes :=
      fun part text bytes => (decodeBase64_eq_ok P).mpr
    unfold fromStr
    simp only [hsplit, hheader, hpieces, hdecode _ _ _ h.iv_bytes, hdecode _ _ _ h.data_bytes,
      hdecode _ _ _ h.mac_bytes, bind, Except.bind, ne_eq, not_true_eq_false, ↓reduceIte, hiv, hmac,
      hne, hblocks, ↓reduceDIte, not_false_eq_true, and_self]

theorem EncryptedString.fromStr_hasTypeHeader {raw : Str} {e : EncryptedString}
    (h : EncryptedString.fromStr P raw = .ok e) : HasTypeHeader raw := by
  obtain ⟨header, iv, data, mac, hparts⟩ := (EncryptedString.fromStr_eq_ok P).mp h
  refine ⟨header, iv ++ '|' :: (data ++ '|' :: mac), ?_, hparts.header_value⟩
  rw [hparts.raw_eq]
  exact splitOnce_append hparts.header_dot

end Decryption

end VaultwardenEso.Crypto
