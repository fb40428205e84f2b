import VaultwardenEso.Cipher

set_option autoImplicit false

/-!
# What the decryption of an item computes

`ItemRel R` relates an encrypted and a decrypted item of the same shape with
`R` between the strings at each place. Decryption is this relation at `Opens`,
under the one key the item selects; encryption, in `CipherSealing`, is it at
`SealsText`.
-/
namespace VaultwardenEso.Cipher
open RustStr RustResult BwesoCore Crypto

section Related
variable (R : Str → Str → Prop)

structure FieldRel (e : EncryptedField) (d : DecryptedField) : Prop where
  name : Option.Rel R e.name d.name
  value : Option.Rel R e.value d.value
  fieldType : e.fieldType = d.fieldType

structure LoginRel (e : EncryptedLogin) (d : DecryptedLogin) : Prop where
  username : Option.Rel R e.username d.username
  password : Option.Rel R e.password d.password
  totp : Option.Rel R e.totp d.totp

structure SshKeyRel (e : EncryptedSshKey) (d : DecryptedSshKey) : Prop where
  privateKey : Option.Rel R e.privateKey d.privateKey
  publicKey : Option.Rel R e.publicKey d.publicKey
  keyFingerprint : Option.Rel R e.keyFingerprint d.keyFingerprint

/-- The same shape on both sides, with `R` between the strings at each place. -/
structure ItemRel (e : EncryptedCipher) (d : DecryptedCipher) : Prop where
  id : e.id = d.id
  cipherType : e.cipherType = d.cipherType
  organizationId : e.organizationId = d.organizationId
  name : Option.Rel R e.name d.name
  notes : Option.Rel R e.notes d.notes
  fields : List.Forall₂ (FieldRel R) e.fields d.fields
  login : Option.Rel (LoginRel R) e.login d.login
  sshKey : Option.Rel (SshKeyRel R) e.sshKey d.sshKey

end Related

section Monotone
variable {R S : Str → Str → Prop} (hRS : ∀ text plain, R text plain → S text plain)
include hRS

theorem FieldRel.mono {e : EncryptedField} {d : DecryptedField} (h : FieldRel R e d) :
    FieldRel S e d :=
  ⟨optionRel_mono hRS h.name, optionRel_mono hRS h.value, h.fieldType⟩

theorem LoginRel.mono {e : EncryptedLogin} {d : DecryptedLogin} (h : LoginRel R e d) :
    LoginRel S e d :=
  ⟨optionRel_mono hRS h.username, optionRel_mono hRS h.password, optionRel_mono hRS h.totp⟩

theorem SshKeyRel.mono {e : EncryptedSshKey} {d : DecryptedSshKey} (h : SshKeyRel R e d) :
    SshKeyRel S e d :=
  ⟨optionRel_mono hRS h.privateKey, optionRel_mono hRS h.publicKey,
    optionRel_mono hRS h.keyFingerprint⟩

theorem ItemRel.mono {e : EncryptedCipher} {d : DecryptedCipher} (h : ItemRel R e d) :
    ItemRel S e d where
  id := h.id
  cipherType := h.cipherType
  organizationId := h.organizationId
  name := optionRel_mono hRS h.name
  notes := optionRel_mono hRS h.notes
  fields := h.fields.imp (fun _ _ => FieldRel.mono hRS)
  login := optionRel_mono (fun _ _ => LoginRel.mono hRS) h.login
  sshKey := optionRel_mono (fun _ _ => SshKeyRel.mono hRS) h.sshKey

end Monotone

/-! ## The strings of an item -/

def EncryptedField.strings (e : EncryptedField) : List Str := e.name.toList ++ e.value.toList

def EncryptedLogin.strings (e : EncryptedLogin) : List Str :=
  e.username.toList ++ e.password.toList ++ e.totp.toList

def EncryptedSshKey.strings (e : EncryptedSshKey) : List Str :=
  e.privateKey.toList ++ e.publicKey.toList ++ e.keyFingerprint.toList

/-- Every encrypted string present in an item, except the wrapped item key. -/
def EncryptedCipher.strings (e : EncryptedCipher) : List Str :=
  e.name.toList ++ e.notes.toList ++ e.fields.flatMap EncryptedField.strings ++
    e.login.toList.flatMap EncryptedLogin.strings ++ e.sshKey.toList.flatMap EncryptedSshKey.strings

section Strings
variable {R : Str → Str → Prop} {text : Str}

theorem FieldRel.strings {e : EncryptedField} {d : DecryptedField} (h : FieldRel R e d)
    (ht : text ∈ e.strings) : ∃ plain, R text plain := by
  simp only [EncryptedField.strings, List.mem_append] at ht
  rcases ht with ht | ht
  · exact optionRel_mem h.name ht
  · exact optionRel_mem h.value ht

theorem LoginRel.strings {e : EncryptedLogin} {d : DecryptedLogin} (h : LoginRel R e d)
    (ht : text ∈ e.strings) : ∃ plain, R text plain := by
  simp only [EncryptedLogin.strings, List.mem_append] at ht
  rcases ht with (ht | ht) | ht
  · exact optionRel_mem h.username ht
  · exact optionRel_mem h.password ht
  · exact optionRel_mem h.totp ht

theorem SshKeyRel.strings {e : EncryptedSshKey} {d : DecryptedSshKey} (h : SshKeyRel R e d)
    (ht : text ∈ e.strings) : ∃ plain, R text plain := by
  simp only [EncryptedSshKey.strings, List.mem_append] at ht
  rcases ht with (ht | ht) | ht
  · exact optionRel_mem h.privateKey ht
  · exact optionRel_mem h.publicKey ht
  · exact optionRel_mem h.keyFingerprint ht

theorem ItemRel.strings {e : EncryptedCipher} {d : DecryptedCipher} (h : ItemRel R e d)
    (ht : text ∈ e.strings) : ∃ plain, R text plain := by
  simp only [EncryptedCipher.strings, List.mem_append, List.mem_flatMap] at ht
  rcases ht with (((ht | ht) | ⟨field, hfield, ht⟩) | ⟨login, hlogin, ht⟩) | ⟨sshKey, hssh, ht⟩
  · exact optionRel_mem h.name ht
  · exact optionRel_mem h.notes ht
  · obtain ⟨d', -, hd⟩ := forall₂_mem h.fields hfield
    exact hd.strings ht
  · obtain ⟨d', hd⟩ := optionRel_mem h.login hlogin
    exact hd.strings ht
  · obtain ⟨d', hd⟩ := optionRel_mem h.sshKey hssh
    exact hd.strings ht

end Strings

section Decryption
variable (P : Primitives)

/-- `text` parses and decrypts to `plain` under `key`. -/
def Opens (key : AuthenticatedSymmetricKey) (text plain : Str) : Prop :=
  ∃ e, EncryptedString.fromStr P text = .ok e ∧ e.decryptUtf8 P key = .ok plain

theorem decryptOptional_eq_ok {value result : Option Str} {key : AuthenticatedSymmetricKey} :
    decryptOptional P value key = .ok result ↔ Option.Rel (Opens P key) value result := by
  cases value with
  | none => cases result <;> simp [decryptOptional]
  | some text =>
    rw [decryptOptional, mapError_eq_ok, bind_eq_ok]
    constructor
    · rintro ⟨e, he, h⟩
      obtain ⟨plain, hplain, h⟩ := bind_eq_ok.mp h
      cases h
      exact .some ⟨e, he, hplain⟩
    · rintro ⟨e, he, hplain⟩
      exact ⟨e, he, bind_eq_ok.mpr ⟨_, hplain, rfl⟩⟩

theorem transposeMap_eq_ok {α β : Type} {f : α → Except CipherError β} {a : Option α}
    {b : Option β} : transposeMap f a = .ok b ↔ Option.Rel (fun a b => f a = .ok b) a b := by
  cases a with
  | none => cases b <;> simp [transposeMap]
  | some a =>
    rw [transposeMap, bind_eq_ok]
    constructor
    · rintro ⟨b', hb, h⟩
      cases h
      exact .some hb
    · rintro ⟨hb⟩
      exact ⟨_, hb, rfl⟩

theorem EncryptedField.decrypt_eq_ok {e : EncryptedField} {d : DecryptedField}
    {key : AuthenticatedSymmetricKey} :
    e.decrypt P key = .ok d ↔ FieldRel (Opens P key) e d := by
  simp only [EncryptedField.decrypt, bind_eq_ok, pure_eq_ok,
    decryptOptional_eq_ok]
  constructor
  · rintro ⟨name, hname, value, hvalue, rfl⟩
    exact ⟨hname, hvalue, rfl⟩
  · rintro ⟨hname, hvalue, htype⟩
    exact ⟨_, hname, _, hvalue, by rw [htype]⟩

theorem EncryptedLogin.decrypt_eq_ok {e : EncryptedLogin} {d : DecryptedLogin}
    {key : AuthenticatedSymmetricKey} :
    e.decrypt P key = .ok d ↔ LoginRel (Opens P key) e d := by
  simp only [EncryptedLogin.decrypt, bind_eq_ok, pure_eq_ok,
    decryptOptional_eq_ok]
  constructor
  · rintro ⟨username, husername, password, hpassword, totp, htotp, rfl⟩
    exact ⟨husername, hpassword, htotp⟩
  · rintro ⟨husername, hpassword, htotp⟩
    exact ⟨_, husername, _, hpassword, _, htotp, rfl⟩

theorem EncryptedSshKey.decrypt_eq_ok {e : EncryptedSshKey} {d : DecryptedSshKey}
    {key : AuthenticatedSymmetricKey} :
    e.decrypt P key = .ok d ↔ SshKeyRel (Opens P key) e d := by
  simp only [EncryptedSshKey.decrypt, bind_eq_ok, pure_eq_ok,
    decryptOptional_eq_ok]
  constructor
  · rintro ⟨privateKey, hprivate, publicKey, hpublic, keyFingerprint, hfingerprint, rfl⟩
    exact ⟨hprivate, hpublic, hfingerprint⟩
  · rintro ⟨hprivate, hpublic, hfingerprint⟩
    exact ⟨_, hprivate, _, hpublic, _, hfingerprint, rfl⟩

theorem EncryptedCipher.decrypt_eq_ok {e : EncryptedCipher} {d : DecryptedCipher}
    {key : AuthenticatedSymmetricKey} : e.decrypt P key = .ok d ↔
      ∃ selected, e.decryptionKey P key = .ok selected ∧ ItemRel (Opens P selected) e d := by
  simp only [EncryptedCipher.decrypt, bind_eq_ok, pure_eq_ok,
    decryptOptional_eq_ok, mapM_eq_ok, transposeMap_eq_ok,
    EncryptedField.decrypt_eq_ok, EncryptedLogin.decrypt_eq_ok, EncryptedSshKey.decrypt_eq_ok]
  refine exists_congr fun selected => and_congr_right fun _ => ?_
  constructor
  · rintro ⟨name, hname, notes, hnotes, fields, hfields, login, hlogin, sshKey, hssh, rfl⟩
    exact ⟨rfl, rfl, rfl, hname, hnotes, hfields, hlogin, hssh⟩
  · intro h
    refine ⟨_, h.name, _, h.notes, _, h.fields, _, h.login, _, h.sshKey, ?_⟩
    rw [h.id, h.cipherType, h.organizationId]

theorem EncryptedCipher.decrypt_id {e : EncryptedCipher} {d : DecryptedCipher}
    {key : AuthenticatedSymmetricKey} (h : e.decrypt P key = .ok d) :
    d.id = e.id ∧ d.organizationId = e.organizationId := by
  obtain ⟨selected, -, hrel⟩ := (EncryptedCipher.decrypt_eq_ok P).mp h
  exact ⟨hrel.id.symm, hrel.organizationId.symm⟩

end Decryption

end VaultwardenEso.Cipher
