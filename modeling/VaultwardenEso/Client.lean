import VaultwardenEso.CipherDecryption

set_option autoImplicit false

/-! # Errors and selectors of the client boundary: `lib.rs`, `api.rs`, `keys.rs` -/
namespace VaultwardenEso.Client
open RustStr BwesoCore Crypto Cipher

inductive KeyDerivationError where
  | emptyPassword
  | kdfDowngrade (parameter : String) (actual minimum : ℕ)
  | kdfTooExpensive (parameter : String) (actual maximum : ℕ)
  | invalidArgon2Parameters
  | argon2Failed
  | invalidMasterKeyLength (actual : ℕ)
  | hkdfExpandFailed
  | crypto (error : CryptoError)
  deriving DecidableEq, Repr

inductive BitwardenApiError where
  | http
  | invalidBaseUrl
  | httpStatus (endpoint : String) (status : ℕ)
  | unsupportedKdfType (kdfType : ℕ)
  | missingKdfParameter (parameter : String)
  | missingMasterPasswordUnlock
  | missingMasterKeyWrappedUserKey
  | missingCachedSync
  | cipherNotFound
  | ambiguousCipherName
  | unsupportedSharedItem
  deriving DecidableEq, Repr

inductive BitwardenClientError where
  | validation (error : ValidationError)
  | crypto (error : CryptoError)
  | cipher (error : CipherError)
  | keyDerivation (error : KeyDerivationError)
  | api (error : BitwardenApiError)
  | invalidEndpoint
  | insecureEndpoint
  | unsupportedVersionSelector
  | unprefixedSelectorKey
  deriving DecidableEq, Repr

structure BitwardenSelector where
  key : Str
  property : Option Str
  deriving DecidableEq, Repr

def validateSelectorKey (key : Str) : Except BitwardenClientError Unit :=
  match (stripPrefix "id:".toList key).or (stripPrefix "name:".toList key) with
  | some value => (requireNonEmpty value "remote_ref.key").mapError .validation
  | none => .error .unprefixedSelectorKey

def BitwardenSelector.tryFrom (remoteRef : RemoteRef) :
    Except BitwardenClientError BitwardenSelector := do
  (requireNonEmpty remoteRef.key "remote_ref.key").mapError .validation
  if remoteRef.version.any (fun version => trim version ≠ []) then
    .error .unsupportedVersionSelector
  else do
    let property ← match remoteRef.property with
      | some property => do
        (requireNonEmpty property "remote_ref.property").mapError .validation
        pure (some (trim property))
      | none => pure none
    let key := trim remoteRef.key
    validateSelectorKey key
    pure ⟨key, property⟩

structure SyncResponse where
  ciphers : List EncryptedCipher
  deriving DecidableEq

structure BitwardenSession where
  accessToken : Str
  expiresIn : Option ℕ
  tokenType : Str
  userKey : AuthenticatedSymmetricKey
  deriving DecidableEq

end VaultwardenEso.Client
