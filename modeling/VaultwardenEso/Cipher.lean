import VaultwardenEso.BwesoCore
import VaultwardenEso.Crypto

set_option autoImplicit false

/-! # Vault items: `cipher.rs` -/
namespace VaultwardenEso.Cipher
open RustStr BwesoCore Crypto

structure EncryptedField where
  name : Option Str
  value : Option Str
  fieldType : Option UInt8
  deriving DecidableEq

structure EncryptedLogin where
  username : Option Str
  password : Option Str
  totp : Option Str
  deriving DecidableEq

structure EncryptedSshKey where
  privateKey : Option Str
  publicKey : Option Str
  keyFingerprint : Option Str
  deriving DecidableEq

/-- An item as sync returns it: every text below is an encrypted string. -/
structure EncryptedCipher where
  id : Str
  cipherType : UInt8
  organizationId : Option Str
  key : Option Str
  name : Option Str
  notes : Option Str
  fields : List EncryptedField
  login : Option EncryptedLogin
  sshKey : Option EncryptedSshKey
  deriving DecidableEq

structure DecryptedField where
  name : Option Str
  value : Option Str
  fieldType : Option UInt8
  deriving DecidableEq

structure DecryptedLogin where
  username : Option Str
  password : Option Str
  totp : Option Str
  deriving DecidableEq

structure DecryptedSshKey where
  privateKey : Option Str
  publicKey : Option Str
  keyFingerprint : Option Str
  deriving DecidableEq

structure DecryptedCipher where
  id : Str
  cipherType : UInt8
  organizationId : Option Str
  name : Option Str
  notes : Option Str
  fields : List DecryptedField
  login : Option DecryptedLogin
  sshKey : Option DecryptedSshKey
  deriving DecidableEq

inductive CipherError where
  | crypto (error : CryptoError)
  | blankProperty
  | missingProperty (property : Str)
  | noExtractableFields (id : Str)
  | unsupportedAttachment
  deriving DecidableEq, Repr

section Decryption
variable (P : Primitives)

def decryptOptional (value : Option Str) (key : AuthenticatedSymmetricKey) :
    Except CipherError (Option Str) :=
  match value with
  | none => .ok none
  | some encrypted =>
    ((do
      let parsed ← EncryptedString.fromStr P encrypted
      let text ← parsed.decryptUtf8 P key
      pure (some text)) : Except CryptoError (Option Str)).mapError .crypto

def EncryptedField.decrypt (field : EncryptedField) (key : AuthenticatedSymmetricKey) :
    Except CipherError DecryptedField := do
  let name ← decryptOptional P field.name key
  let value ← decryptOptional P field.value key
  pure ⟨name, value, field.fieldType⟩

def EncryptedLogin.decrypt (login : EncryptedLogin) (key : AuthenticatedSymmetricKey) :
    Except CipherError DecryptedLogin := do
  let username ← decryptOptional P login.username key
  let password ← decryptOptional P login.password key
  let totp ← decryptOptional P login.totp key
  pure ⟨username, password, totp⟩

def EncryptedSshKey.decrypt (sshKey : EncryptedSshKey) (key : AuthenticatedSymmetricKey) :
    Except CipherError DecryptedSshKey := do
  let privateKey ← decryptOptional P sshKey.privateKey key
  let publicKey ← decryptOptional P sshKey.publicKey key
  let keyFingerprint ← decryptOptional P sshKey.keyFingerprint key
  pure ⟨privateKey, publicKey, keyFingerprint⟩

def transposeMap {α β : Type} (f : α → Except CipherError β) : Option α → Except CipherError (Option β)
  | none => .ok none
  | some a => do
    let b ← f a
    pure (some b)

/-- The key every other string of the item is under: the unwrapped item key if there is
    a wrapped one, else the key that was passed in. -/
def EncryptedCipher.decryptionKey (cipher : EncryptedCipher) (key : AuthenticatedSymmetricKey) :
    Except CipherError AuthenticatedSymmetricKey :=
  match cipher.key with
  | some wrappedKey =>
    ((do
      let parsed ← EncryptedString.fromStr P wrappedKey
      let plain ← parsed.decryptBytes P key
      AuthenticatedSymmetricKey.tryFrom plain) :
        Except CryptoError AuthenticatedSymmetricKey).mapError .crypto
  | none => .ok key

def EncryptedCipher.decrypt (cipher : EncryptedCipher) (key : AuthenticatedSymmetricKey) :
    Except CipherError DecryptedCipher := do
  let decryptionKey ← cipher.decryptionKey P key
  let name ← decryptOptional P cipher.name decryptionKey
  let notes ← decryptOptional P cipher.notes decryptionKey
  let fields ← cipher.fields.mapM (fun field => field.decrypt P decryptionKey)
  let login ← transposeMap (fun login => login.decrypt P decryptionKey) cipher.login
  let sshKey ← transposeMap (fun sshKey => sshKey.decrypt P decryptionKey) cipher.sshKey
  pure ⟨cipher.id, cipher.cipherType, cipher.organizationId, name, notes, fields, login, sshKey⟩

end Decryption

def existing (property : Str) (value : Option Str) : Except CipherError Str :=
  match value with
  | some value => .ok value
  | none => .error (.missingProperty property)

/-- The reserved property names and aliases, with the member each one selects. -/
def DecryptedCipher.conventional (cipher : DecryptedCipher) (property : Str) : Option (Option Str) :=
  if property = "name".toList then some cipher.name
  else if property = "notes".toList then some cipher.notes
  else if property = "username".toList ∨ property = "login.username".toList then
    some (cipher.login.bind (·.username))
  else if property = "password".toList ∨ property = "login.password".toList then
    some (cipher.login.bind (·.password))
  else if property = "totp".toList ∨ property = "login.totp".toList then
    some (cipher.login.bind (·.totp))
  else if property = "privateKey".toList ∨ property = "sshPrivateKey".toList ∨
      property = "sshKey.privateKey".toList then
    some (cipher.sshKey.bind (·.privateKey))
  else if property = "publicKey".toList ∨ property = "sshPublicKey".toList ∨
      property = "sshKey.publicKey".toList then
    some (cipher.sshKey.bind (·.publicKey))
  else if property = "keyFingerprint".toList ∨ property = "sshKey.keyFingerprint".toList then
    some (cipher.sshKey.bind (·.keyFingerprint))
  else none

def DecryptedCipher.extractProperty (cipher : DecryptedCipher) (property : Str) :
    Except CipherError Str :=
  let property := trim property
  if property = [] then .error .blankProperty
  else if "attachment.".toList.isPrefixOf property || "attachments.".toList.isPrefixOf property then
    .error .unsupportedAttachment
  else match cipher.conventional property with
    | some value => existing property value
    | none =>
      let customName :=
        ((stripPrefix "field.".toList property).or (stripPrefix "custom.".toList property)).getD property
      existing property ((cipher.fields.find? (fun field => field.name = some customName)).bind (·.value))

def insertOptional (document : SecretDocument) (key : Str) (value : Option Str) : SecretDocument :=
  match value with
  | some value => { document with data := document.data.insert key value }
  | none => document

def insertField (document : SecretDocument) (field : DecryptedField) : SecretDocument :=
  match field.name, field.value with
  | some name, some value =>
    if trim name ≠ [] then { document with data := document.data.insert name value } else document
  | _, _ => document

def DecryptedCipher.conventionalDocument (cipher : DecryptedCipher) : SecretDocument :=
  let document := insertOptional SecretDocument.empty "notes".toList cipher.notes
  let document := match cipher.login with
    | some login =>
      let document := insertOptional document "username".toList login.username
      let document := insertOptional document "password".toList login.password
      insertOptional document "totp".toList login.totp
    | none => document
  match cipher.sshKey with
    | some sshKey =>
      let document := insertOptional document "privateKey".toList sshKey.privateKey
      let document := insertOptional document "publicKey".toList sshKey.publicKey
      insertOptional document "keyFingerprint".toList sshKey.keyFingerprint
    | none => document

def DecryptedCipher.toSecretDocument (cipher : DecryptedCipher) : Except CipherError SecretDocument :=
  let document := cipher.fields.foldl insertField cipher.conventionalDocument
  if document.data.isEmpty then .error (.noExtractableFields cipher.id) else .ok document

end VaultwardenEso.Cipher
