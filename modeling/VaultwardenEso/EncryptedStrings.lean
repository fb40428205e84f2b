import VaultwardenEso.CryptoRecorded

set_option autoImplicit false

/-!
# The texts that are encrypted strings

Which texts `from_str` accepts, what they can be decrypted to without a panic, and in
how many ways one value can be written. The base64 crate is taken at its word.
-/
namespace VaultwardenEso.Crypto
open RustStr

/-- `STANDARD.decode` reads exactly the canonical padded encodings. -/
def ReadsStandard (P : Primitives) : Prop :=
  ∀ text bytes, P.base64Decode text = some bytes ↔ text = Base64.encode bytes

def spelling (iv data mac : Bytes) : Str :=
  joinParts "2".toList (Base64.encode iv) (Base64.encode data) (Base64.encode mac)

theorem bar_not_mem_encode (bytes : Bytes) : '|' ∉ Base64.encode bytes := by
  intro h
  exact absurd (Base64.encode_subset bytes _ h) (by decide)

/-! ## Reading -/

section Reading
variable {P : Primitives}

theorem fromStr_joinParts (hP : ReadsStandard P) (header : Str) (hdot : '.' ∉ header)
    (hvalue : parseUnsigned 255 header = some 2) (e : EncryptedString) :
    EncryptedString.fromStr P (joinParts header (Base64.encode e.iv) (Base64.encode e.data)
      (Base64.encode e.mac)) = .ok e := by
  rw [EncryptedString.fromStr_eq_ok]
  exact ⟨header, _, _, _, rfl, hdot, bar_not_mem_encode _, bar_not_mem_encode _,
    bar_not_mem_encode _, hvalue, (hP _ _).mpr rfl, (hP _ _).mpr rfl, (hP _ _).mpr rfl⟩

theorem fromStr_spelling (hP : ReadsStandard P) (e : EncryptedString) :
    EncryptedString.fromStr P (spelling e.iv e.data e.mac) = .ok e :=
  fromStr_joinParts hP "2".toList (by decide) (by decide) e

theorem fromStr_header (hP : ReadsStandard P) {raw : Str} {e : EncryptedString}
    (h : EncryptedString.fromStr P raw = .ok e) :
    ∃ sign zeros, (sign = [] ∨ sign = ['+']) ∧
      raw = sign ++ (List.replicate zeros '0' ++ spelling e.iv e.data e.mac) := by
  obtain ⟨header, iv, data, mac, hparts⟩ := (EncryptedString.fromStr_eq_ok P).mp h
  obtain ⟨sign, zeros, hsign, hheader⟩ := (parseUnsigned_eq_digit (by omega) (by omega)
    (by omega)).mp hparts.header_value
  refine ⟨sign, zeros, hsign, ?_⟩
  rw [hparts.raw_eq, hheader, (hP _ _).mp hparts.iv_bytes, (hP _ _).mp hparts.data_bytes,
    (hP _ _).mp hparts.mac_bytes]
  simp [joinParts, spelling]

end Reading

/-! ## Decrypting what was read -/

/-- A slice as an array of `n` bytes; at any other length the conversion panics, as `none`. -/
def arrayFromSlice (n : ℕ) (slice : Bytes) : Option (Vector UInt8 n) :=
  if h : slice.length = n then some ⟨slice.toArray, by rwa [List.size_toArray]⟩ else none

/-- `decrypt_bytes` over parts of any length, with the conversion of the IV where the code
    makes it; `none` is a panic. -/
def decryptParts (P : Primitives) (key : AuthenticatedSymmetricKey) (iv data mac : Bytes) :
    Option (Except CryptoError Bytes) :=
  match verifyMac P key.authenticationKey iv data mac with
  | .error error => some (.error error)
  | .ok () => do
    let iv ← arrayFromSlice aesCbcIvLength iv
    match P.aes256CbcDecrypt key.encryptionKey iv.toList data with
    | some plain => some (.ok plain)
    | none => some (.error .decryptFailed)

theorem arrayFromSlice_toList {n : ℕ} {slice : Bytes} (h : slice.length = n) :
    ∃ array, arrayFromSlice n slice = some array ∧ array.toList = slice := by
  refine ⟨⟨slice.toArray, by rwa [List.size_toArray]⟩, dif_pos h, ?_⟩
  simp

theorem decryptParts_eq (P : Primitives) (key : AuthenticatedSymmetricKey) (e : EncryptedString) :
    decryptParts P key e.iv e.data e.mac = some (e.decryptBytes P key) := by
  have htype : e.encryptionType = .aesCbc256HmacSha256B64 := rfl
  obtain ⟨iv, hiv, hbytes⟩ := arrayFromSlice_toList e.iv_length
  unfold decryptParts EncryptedString.decryptBytes
  rw [if_neg (not_not_intro htype)]
  cases verifyMac P key.authenticationKey e.iv e.data e.mac with
  | error error => rfl
  | ok _ =>
    simp only [hiv, hbytes, bind, Option.bind, Except.bind]
    cases P.aes256CbcDecrypt key.encryptionKey e.iv e.data with
    | none => rfl
    | some plain => rfl

/-- Every well-formed value is read back, and nothing else is read. -/
theorem encrypted_strings_are_complete_and_safe (P : Primitives) (hP : ReadsStandard P) :
    (∀ iv data mac : Bytes, iv.length = 16 → mac.length = 32 → 0 < data.length →
      data.length % 16 = 0 → ∃ e, EncryptedString.fromStr P (spelling iv data mac) = .ok e ∧
        e.iv = iv ∧ e.data = data ∧ e.mac = mac) ∧
    (∀ raw e, EncryptedString.fromStr P raw = .ok e →
      (∃ header iv data mac, Parses P raw header iv data mac e ∧ iv = Base64.encode e.iv ∧
        data = Base64.encode e.data ∧ mac = Base64.encode e.mac) ∧
      (e.iv.length = 16 ∧ (0 < e.data.length ∧ e.data.length % 16 = 0) ∧ e.mac.length = 32) ∧
      ∀ key, decryptParts P key e.iv e.data e.mac = some (e.decryptBytes P key)) ∧
    ∀ raw raw' e e', EncryptedString.fromStr P raw = .ok e →
      EncryptedString.fromStr P raw' = .ok e' → e.iv ++ e.data = e'.iv ++ e'.data →
        e.iv = e'.iv ∧ e.data = e'.data := by
  refine ⟨?_, ?_, ?_⟩
  · intro iv data mac hiv hmac hpos hblocks
    let e : EncryptedString := ⟨.aesCbc256HmacSha256B64, iv, data, mac, hiv, hmac,
      List.ne_nil_of_length_pos hpos, hblocks⟩
    exact ⟨e, fromStr_spelling hP e, rfl, rfl, rfl⟩
  · intro raw e h
    obtain ⟨header, iv, data, mac, hparts⟩ := (EncryptedString.fromStr_eq_ok P).mp h
    refine ⟨⟨header, iv, data, mac, hparts, (hP _ _).mp hparts.iv_bytes,
      (hP _ _).mp hparts.data_bytes, (hP _ _).mp hparts.mac_bytes⟩, ?_, ?_⟩
    · exact ⟨e.iv_length, ⟨List.length_pos_of_ne_nil e.data_ne_nil, e.data_blocks⟩, e.mac_length⟩
    · intro key
      exact decryptParts_eq P key e
  · intro raw raw' e e' _ _ hinput
    exact List.append_inj hinput (e.iv_length.trans e'.iv_length.symm)

def plainPrimitives : Primitives := (⟨[], []⟩ : Recording).primitives

theorem plainPrimitives_readsStandard : ReadsStandard plainPrimitives := by
  intro text bytes
  exact Base64.decode_eq_some

def zeroString : EncryptedString :=
  ⟨.aesCbc256HmacSha256B64, List.replicate 16 0, List.replicate 16 0, List.replicate 32 0,
    by decide, by decide, by decide, by decide⟩

theorem zeroString_is_read : ReadsStandard plainPrimitives ∧
    ∃ e, EncryptedString.fromStr plainPrimitives
        (spelling (List.replicate 16 0) (List.replicate 16 0) (List.replicate 32 0)) = .ok e ∧
      e.iv = List.replicate 16 0 ∧ e.data = List.replicate 16 0 ∧ e.mac = List.replicate 32 0 := by
  have h := encrypted_strings_are_complete_and_safe plainPrimitives plainPrimitives_readsStandard
  exact ⟨plainPrimitives_readsStandard, h.1 _ _ _ (by decide) (by decide) (by decide) (by decide)⟩

/-! ## Spellings -/

/-- An accepted text is the one spelling of its value exactly when its header is the bare 2. -/
theorem accepted_string_is_canonical_iff (P : Primitives) (hP : ReadsStandard P) (raw : Str)
    (e : EncryptedString) (h : EncryptedString.fromStr P raw = .ok e) :
    (raw = spelling e.iv e.data e.mac ↔ "2.".toList <+: raw) ∧
      ∀ raw', EncryptedString.fromStr P raw' = .ok e → "2.".toList <+: raw →
        "2.".toList <+: raw' → raw' = raw := by
  have hspelling : ∀ text, EncryptedString.fromStr P text = .ok e → "2.".toList <+: text →
      text = spelling e.iv e.data e.mac := by
    intro text htext hheader
    obtain ⟨sign, zeros, hsign, rfl⟩ := fromStr_header hP htext
    rcases hsign with rfl | rfl
    · cases zeros with
      | zero => rfl
      | succ zeros =>
        have hfirst := List.cons_prefix_cons.mp hheader
        exact absurd hfirst.1 (by decide)
    · have hfirst := List.cons_prefix_cons.mp hheader
      exact absurd hfirst.1 (by decide)
  refine ⟨⟨?_, hspelling raw h⟩, ?_⟩
  · intro hraw
    rw [hraw]
    exact ⟨_, rfl⟩
  · intro raw' h' hheader hheader'
    rw [hspelling raw h hheader, hspelling raw' h' hheader']

theorem zeroString_is_canonical :
    EncryptedString.fromStr plainPrimitives
        (spelling zeroString.iv zeroString.data zeroString.mac) = .ok zeroString ∧
      "2.".toList <+: spelling zeroString.iv zeroString.data zeroString.mac := by
  have hread := fromStr_spelling plainPrimitives_readsStandard zeroString
  exact ⟨hread, (accepted_string_is_canonical_iff plainPrimitives plainPrimitives_readsStandard _ _
    hread).1.mp rfl⟩

/-- The number parser takes a sign, so the same value has a second spelling. -/
theorem signed_header_is_accepted :
    ¬ ∀ raw e, EncryptedString.fromStr plainPrimitives raw = .ok e →
      raw = spelling e.iv e.data e.mac := by
  intro h
  have hread := fromStr_joinParts plainPrimitives_readsStandard "+2".toList (by decide) (by decide)
    zeroString
  have hfirst := congrArg List.head? (h _ _ hread)
  exact absurd hfirst (by decide)

end VaultwardenEso.Crypto
