import VaultwardenEso.CachedVault
import VaultwardenEso.Lib.BTreeMap

set_option autoImplicit false

/-! # Where the contents of a resolved document come from -/
namespace VaultwardenEso.Cipher
open RustStr BwesoCore

def DecryptedLogin.values (login : DecryptedLogin) : List Str :=
  login.username.toList ++ login.password.toList ++ login.totp.toList

def DecryptedSshKey.values (sshKey : DecryptedSshKey) : List Str :=
  sshKey.privateKey.toList ++ sshKey.publicKey.toList ++ sshKey.keyFingerprint.toList

def DecryptedCipher.values (cipher : DecryptedCipher) : List Str :=
  cipher.name.toList ++ cipher.notes.toList ++ cipher.login.toList.flatMap DecryptedLogin.values ++
    cipher.sshKey.toList.flatMap DecryptedSshKey.values ++
    cipher.fields.flatMap (fun field => field.value.toList)

theorem DecryptedCipher.login_values {cipher : DecryptedCipher} {f : DecryptedLogin → Option Str}
    {value : Str} (h : cipher.login.bind f = some value)
    (hf : ∀ login, f login = some value → value ∈ login.values) :
    value ∈ cipher.values := by
  obtain ⟨login, hlogin, hvalue⟩ := Option.bind_eq_some_iff.mp h
  have hmem : value ∈ cipher.login.toList.flatMap DecryptedLogin.values :=
    List.mem_flatMap.mpr ⟨login, by rw [hlogin]; simp, hf login hvalue⟩
  simp [values, hmem]

theorem DecryptedCipher.sshKey_values {cipher : DecryptedCipher} {f : DecryptedSshKey → Option Str}
    {value : Str} (h : cipher.sshKey.bind f = some value)
    (hf : ∀ sshKey, f sshKey = some value → value ∈ sshKey.values) :
    value ∈ cipher.values := by
  obtain ⟨sshKey, hsshKey, hvalue⟩ := Option.bind_eq_some_iff.mp h
  have hmem : value ∈ cipher.sshKey.toList.flatMap DecryptedSshKey.values :=
    List.mem_flatMap.mpr ⟨sshKey, by rw [hsshKey]; simp, hf sshKey hvalue⟩
  simp [values, hmem]

theorem DecryptedCipher.conventional_mem {cipher : DecryptedCipher} {property value : Str}
    (h : cipher.conventional property = some (some value)) : value ∈ cipher.values := by
  unfold conventional at h
  split at h
  · have hname : cipher.name = some value := Option.some.inj h
    simp [values, hname]
  split at h
  · have hnotes : cipher.notes = some value := Option.some.inj h
    simp [values, hnotes]
  split at h
  · exact login_values (Option.some.inj h) (fun login hv => by simp [DecryptedLogin.values, hv])
  split at h
  · exact login_values (Option.some.inj h) (fun login hv => by simp [DecryptedLogin.values, hv])
  split at h
  · exact login_values (Option.some.inj h) (fun login hv => by simp [DecryptedLogin.values, hv])
  split at h
  · exact sshKey_values (Option.some.inj h) (fun sshKey hv => by simp [DecryptedSshKey.values, hv])
  split at h
  · exact sshKey_values (Option.some.inj h) (fun sshKey hv => by simp [DecryptedSshKey.values, hv])
  split at h
  · exact sshKey_values (Option.some.inj h) (fun sshKey hv => by simp [DecryptedSshKey.values, hv])
  · cases h

theorem existing_eq_ok {property value : Str} {stored : Option Str}
    (h : existing property stored = .ok value) :
    stored = some value := by
  cases stored with
  | none => cases h
  | some v =>
    cases h
    rfl

theorem DecryptedCipher.extractProperty_mem {cipher : DecryptedCipher} {property value : Str}
    (h : cipher.extractProperty property = .ok value) : value ∈ cipher.values := by
  unfold extractProperty at h
  dsimp only at h
  split at h
  · cases h
  · split at h
    · cases h
    · split at h
      · rename_i stored hconventional
        rw [existing_eq_ok h] at hconventional
        exact conventional_mem hconventional
      · obtain ⟨field, hfind, hvalue⟩ := Option.bind_eq_some_iff.mp (existing_eq_ok h)
        have hfield : field ∈ cipher.fields := List.mem_of_find?_eq_some hfind
        simp only [values, List.mem_append, List.mem_flatMap]
        exact .inr ⟨field, hfield, by rw [hvalue]; simp⟩

/-! ## The whole document -/

def named (name : String) (value : Option Str) : List (Str × Str) :=
  value.toList.map (fun value => (name.toList, value))

def DecryptedLogin.pairs (login : DecryptedLogin) : List (Str × Str) :=
  named "username" login.username ++ named "password" login.password ++ named "totp" login.totp

def DecryptedSshKey.pairs (sshKey : DecryptedSshKey) : List (Str × Str) :=
  named "privateKey" sshKey.privateKey ++ named "publicKey" sshKey.publicKey ++
    named "keyFingerprint" sshKey.keyFingerprint

def DecryptedCipher.conventionalPairs (cipher : DecryptedCipher) : List (Str × Str) :=
  named "notes" cipher.notes ++ cipher.login.toList.flatMap DecryptedLogin.pairs ++
    cipher.sshKey.toList.flatMap DecryptedSshKey.pairs

/-- The custom field as a pair, if it has a name and a value. -/
def DecryptedField.pairs (field : DecryptedField) : List (Str × Str) :=
  match field.name, field.value with
  | some name, some value => [(name, value)]
  | _, _ => []

def DecryptedCipher.customPairs (cipher : DecryptedCipher) : List (Str × Str) :=
  cipher.fields.flatMap DecryptedField.pairs

/-- Every pair of the document is one of `pairs`. -/
def Shows (document : SecretDocument) (pairs : List (Str × Str)) : Prop :=
  ∀ key value, document.data[key]? = some value → (key, value) ∈ pairs

theorem shows_empty : Shows SecretDocument.empty [] := by
  intro key value h
  simp [SecretDocument.empty] at h

theorem Shows.insert {data metadata : StringMap} {pairs : List (Str × Str)}
    (h : Shows ⟨data, metadata⟩ pairs) (key value : Str) :
    Shows ⟨data.insert key value, metadata⟩ (pairs ++ [(key, value)]) := by
  intro k v hk
  rw [BTreeMap.getElem?_insert_eq] at hk
  split at hk
  · rename_i hkey
    cases hk
    rw [hkey]
    exact List.mem_append_right _ List.mem_cons_self
  · exact List.mem_append_left _ (h k v hk)

theorem Shows.insertOptional {document : SecretDocument} {pairs : List (Str × Str)}
    (h : Shows document pairs) (name : String) (value : Option Str) :
    Shows (insertOptional document name.toList value) (pairs ++ named name value) := by
  cases value with
  | none =>
    intro k v hk
    exact List.mem_append_left _ (h k v hk)
  | some value => exact h.insert name.toList value

theorem Shows.insertLogin {document : SecretDocument} {pairs : List (Str × Str)}
    (h : Shows document pairs) (login : DecryptedLogin) :
    Shows (Cipher.insertOptional (Cipher.insertOptional (Cipher.insertOptional document "username".toList
      login.username) "password".toList login.password) "totp".toList login.totp)
        (pairs ++ login.pairs) := by
  have hall := ((h.insertOptional "username" login.username).insertOptional "password"
    login.password).insertOptional "totp" login.totp
  rw [List.append_assoc, List.append_assoc] at hall
  rw [DecryptedLogin.pairs, List.append_assoc]
  exact hall

theorem Shows.insertSshKey {document : SecretDocument} {pairs : List (Str × Str)}
    (h : Shows document pairs) (sshKey : DecryptedSshKey) :
    Shows (Cipher.insertOptional (Cipher.insertOptional (Cipher.insertOptional document "privateKey".toList
      sshKey.privateKey) "publicKey".toList sshKey.publicKey) "keyFingerprint".toList sshKey.keyFingerprint)
      (pairs ++ sshKey.pairs) := by
  have hall := ((h.insertOptional "privateKey" sshKey.privateKey).insertOptional "publicKey"
    sshKey.publicKey).insertOptional "keyFingerprint" sshKey.keyFingerprint
  rw [List.append_assoc, List.append_assoc] at hall
  rw [DecryptedSshKey.pairs, List.append_assoc]
  exact hall

theorem Shows.insertField {document : SecretDocument} {pairs : List (Str × Str)}
    (h : Shows document pairs) (field : DecryptedField) :
    Shows (insertField document field) (pairs ++ field.pairs) := by
  unfold Cipher.insertField DecryptedField.pairs
  cases field.name with
  | none => simpa using h
  | some name =>
    cases field.value with
    | none => simpa using h
    | some value =>
      dsimp only
      split
      · exact h.insert name value
      · intro k v hk
        exact List.mem_append_left _ (h k v hk)

theorem Shows.insertFields {document : SecretDocument} {pairs : List (Str × Str)}
    (h : Shows document pairs) (fields : List DecryptedField) :
    Shows (fields.foldl Cipher.insertField document) (pairs ++ fields.flatMap DecryptedField.pairs) := by
  induction fields generalizing document pairs with
  | nil => simpa using h
  | cons field fields ih =>
    rw [List.foldl_cons, List.flatMap_cons, ← List.append_assoc]
    exact ih (h.insertField field)

theorem DecryptedCipher.conventionalDocument_shows (cipher : DecryptedCipher) :
    Shows cipher.conventionalDocument cipher.conventionalPairs := by
  have hnotes := shows_empty.insertOptional "notes" cipher.notes
  unfold conventionalDocument conventionalPairs
  dsimp only
  rw [List.nil_append] at hnotes
  cases cipher.login with
  | none =>
    cases cipher.sshKey with
    | none => simpa only [Option.toList_none, List.flatMap_nil, List.append_nil] using hnotes
    | some sshKey =>
      simpa only [Option.toList_none, Option.toList_some, List.flatMap_nil, List.flatMap_singleton,
        List.append_nil] using hnotes.insertSshKey sshKey
  | some login =>
    have hlogin := hnotes.insertLogin login
    cases cipher.sshKey with
    | none =>
      simpa only [Option.toList_none, Option.toList_some, List.flatMap_nil, List.flatMap_singleton,
        List.append_nil] using hlogin
    | some sshKey =>
      simpa only [Option.toList_some, List.flatMap_singleton] using hlogin.insertSshKey sshKey

theorem DecryptedCipher.toSecretDocument_shows {cipher : DecryptedCipher} {document : SecretDocument}
    (h : cipher.toSecretDocument = .ok document) :
    Shows document (cipher.conventionalPairs ++ cipher.customPairs) := by
  unfold toSecretDocument at h
  dsimp only at h
  split at h
  · cases h
  · cases h
    exact cipher.conventionalDocument_shows.insertFields cipher.fields

theorem named_values {name : String} {stored : Option Str} {key value : Str}
    (h : (key, value) ∈ named name stored) : stored = some value := by
  simp only [named, List.mem_map, Option.mem_toList, Prod.mk.injEq] at h
  obtain ⟨v, hv, -, rfl⟩ := h
  exact hv

theorem DecryptedLogin.pairs_values {login : DecryptedLogin} {key value : Str}
    (h : (key, value) ∈ login.pairs) : value ∈ login.values := by
  simp only [pairs, List.mem_append] at h
  simp only [values, List.mem_append, Option.mem_toList]
  exact h.imp (Or.imp named_values named_values) named_values

theorem DecryptedSshKey.pairs_values {sshKey : DecryptedSshKey} {key value : Str}
    (h : (key, value) ∈ sshKey.pairs) : value ∈ sshKey.values := by
  simp only [pairs, List.mem_append] at h
  simp only [values, List.mem_append, Option.mem_toList]
  exact h.imp (Or.imp named_values named_values) named_values

theorem DecryptedField.pairs_values {field : DecryptedField} {key value : Str}
    (h : (key, value) ∈ field.pairs) : field.value = some value := by
  unfold pairs at h
  split at h
  · rename_i hvalue
    cases List.mem_singleton.mp h
    exact hvalue
  · cases h

theorem DecryptedCipher.pairs_values {cipher : DecryptedCipher} {key value : Str}
    (h : (key, value) ∈ cipher.conventionalPairs ++ cipher.customPairs) : value ∈ cipher.values := by
  simp only [conventionalPairs, customPairs, List.mem_append, List.mem_flatMap] at h
  simp only [values, List.mem_append, List.mem_flatMap, Option.mem_toList] at h ⊢
  obtain ((hnotes | ⟨login, hlogin, hpair⟩) | ⟨sshKey, hsshKey, hpair⟩) | ⟨field, hfield, hpair⟩ := h
  · exact .inl (.inl (.inl (.inr (named_values hnotes))))
  · exact .inl (.inl (.inr ⟨login, hlogin, login.pairs_values hpair⟩))
  · exact .inl (.inr ⟨sshKey, hsshKey, sshKey.pairs_values hpair⟩)
  · exact .inr ⟨field, hfield, field.pairs_values hpair⟩

end VaultwardenEso.Cipher

namespace VaultwardenEso.Client
open RustStr RustResult BwesoCore Crypto Cipher

/-- The document shows nothing but one personal item of the vault, the one that the key names: the one
property asked for, or pairs of its own fields. -/
def Confined (P : Primitives) (cached : CachedVault) (selector : BitwardenSelector)
    (document : SecretDocument) : Prop :=
  ∃ encrypted ∈ cached.sync.ciphers, ∃ cipher, encrypted.organizationId = none ∧
    encrypted.decrypt P cached.session.userKey = .ok cipher ∧
    (selector.key = "id:".toList ++ cipher.id ∨
      ∃ name, cipher.name = some name ∧ selector.key = "name:".toList ++ name) ∧
    (∀ key value : Str, document.data[key]? = some value → value ∈ cipher.values) ∧
    match selector.property with
    | some property => ∃ value, cipher.extractProperty property = .ok value ∧
        ∀ key : Str, document.data[key]? =
          if key = "value".toList ∨ key = property then some value else none
    | none => Shows document (cipher.conventionalPairs ++ cipher.customPairs)

variable {P : Primitives} {cached : CachedVault} {selector : BitwardenSelector}
  {document : SecretDocument}

theorem resolveSyncedCipher_names {sync : SyncResponse} {userKey : AuthenticatedSymmetricKey}
    {key : Str} {cipher : DecryptedCipher} (h : resolveSyncedCipher P sync userKey key = .ok cipher) :
    ∃ encrypted ∈ sync.ciphers, encrypted.organizationId = none ∧
      encrypted.decrypt P userKey = .ok cipher ∧
      (key = "id:".toList ++ cipher.id ∨ ∃ name, cipher.name = some name ∧ key = "name:".toList ++ name) := by
  obtain ⟨lookup, hlookup, h⟩ := bind_eq_ok.mp h
  obtain ⟨id, rfl, hkey⟩ | ⟨name, rfl, hkey⟩ := CipherLookup.fromKey_eq_ok hlookup
  · obtain ⟨encrypted, hfind, horg, hdecrypt⟩ := resolveSyncedCipherById_eq_ok.mp h
    have hid : encrypted.id = id := by simpa using List.find?_some hfind
    refine ⟨encrypted, List.mem_of_find?_eq_some hfind, horg, hdecrypt, .inl ?_⟩
    rw [(EncryptedCipher.decrypt_id P hdecrypt).1, hid, hkey]
  · obtain ⟨encrypted, hmatches, horg⟩ := resolveSyncedCipherByName_eq_ok.mp h
    have hmem : (encrypted, cipher) ∈ nameMatches P userKey name sync.ciphers := by
      rw [hmatches]
      exact List.mem_cons_self
    obtain ⟨hmem, hdecrypt, hname⟩ := mem_nameMatches.mp hmem
    exact ⟨encrypted, hmem, horg, hdecrypt, .inr ⟨name, hname, hkey⟩⟩

theorem getElem?_single (key value k : Str) :
    (SecretDocument.single key value).data[k]? = if k = key then some value else none := by
  rw [SecretDocument.single, BTreeMap.getElem?_insert_eq, Std.ExtTreeMap.getElem?_empty]

theorem resolveCached_confined (h : resolveCached P cached selector = .ok document) :
    Confined P cached selector document := by
  obtain ⟨cipher, hcipher, h⟩ := bind_eq_ok.mp h
  obtain ⟨encrypted, hmem, horg, hdecrypt, hkey⟩ := resolveSyncedCipher_names hcipher
  refine ⟨encrypted, hmem, cipher, horg, hdecrypt, hkey, ?_⟩
  split at h
  · cases h
  · cases hproperty : selector.property with
    | none =>
      rw [hproperty] at h
      have hshows := DecryptedCipher.toSecretDocument_shows (mapError_eq_ok.mp h)
      exact ⟨fun key value hk => DecryptedCipher.pairs_values (hshows key value hk), hshows⟩
    | some property =>
      rw [hproperty] at h
      obtain ⟨value, hvalue, h⟩ := bind_eq_ok.mp h
      have hextract := mapError_eq_ok.mp hvalue
      have hexact : ∀ key : Str, document.data[key]? =
          if key = "value".toList ∨ key = property then some value else none := by
        intro key
        dsimp only at h
        split at h
        · rw [pure_eq_ok] at h
          rw [← h, BTreeMap.getElem?_insert_eq, getElem?_single]
          by_cases hk : key = property
          · rw [if_pos hk, if_pos (.inr hk)]
          · rw [if_neg hk]
            simp only [hk, or_false]
        · rename_i hsame
          rw [pure_eq_ok] at h
          rw [← h, getElem?_single]
          have hproperty' : property = "value".toList := by simpa using hsame
          simp only [hproperty', or_self]
      refine ⟨?_, value, hextract, hexact⟩
      intro key v hv
      rw [hexact key] at hv
      split at hv
      · cases hv
        exact DecryptedCipher.extractProperty_mem hextract
      · cases hv

end VaultwardenEso.Client
