import VaultwardenEso.Lib.Serde
import VaultwardenEso.Client
import VaultwardenEso.Policy

set_option autoImplicit false

/-! # The pieces of the webhook handler that touch no shared state: `main.rs` -/
namespace VaultwardenEso.Provider
open RustStr Serde BwesoCore Cipher Client

inductive StatusCode where
  | ok
  | badRequest
  | unauthorized
  | forbidden
  | notFound
  | conflict
  | payloadTooLarge
  | unsupportedMediaType
  | unprocessableEntity
  | internalServerError
  | badGateway
  | serviceUnavailable
  deriving DecidableEq

/-- The error kinds, which the source spells as strings. -/
inductive ErrorKind where
  | auth
  | overloaded
  | validation
  | policyDenied
  | notFound
  | unsupportedAttachment
  | ambiguousSelector
  | unsupportedSharedItem
  | upstreamHttp
  | upstreamStatus
  | crypto
  | keyDerivation
  | kdfParameters
  | syncPayload
  | endpoint
  | unsupportedVersion
  deriving DecidableEq

def publicErrorMessage : ErrorKind → String
  | .auth => "provider authentication failed"
  | .validation => "invalid resolve request"
  | .unsupportedVersion => "remoteRef.version is not supported"
  | .policyDenied => "requested Bitwarden item is not allowed by provider policy"
  | .notFound => "requested Bitwarden item or property was not found"
  | .ambiguousSelector => "requested Bitwarden item name is ambiguous; use the item ID"
  | .unsupportedAttachment => "Bitwarden attachment extraction is not supported"
  | .unsupportedSharedItem => "shared organization Bitwarden items are not supported"
  | .upstreamHttp => "Bitwarden-compatible upstream request failed"
  | .upstreamStatus => "Bitwarden-compatible upstream returned an error status"
  | .crypto => "failed to decrypt selected Bitwarden item"
  | .keyDerivation => "failed to unlock Bitwarden vault key"
  | .kdfParameters => "Bitwarden-compatible KDF parameters are unsupported"
  | .syncPayload => "Bitwarden-compatible sync payload is missing required unlock data"
  | .endpoint => "provider endpoint configuration is invalid"
  | .overloaded => "provider is at concurrency limit; retry shortly"

def providerStatusAndKind : BitwardenClientError → StatusCode × ErrorKind
  | .validation _ | .cipher .blankProperty => (.badRequest, .validation)
  | .cipher (.missingProperty _) | .api .cipherNotFound => (.notFound, .notFound)
  | .cipher .unsupportedAttachment => (.unprocessableEntity, .unsupportedAttachment)
  | .api .ambiguousCipherName => (.conflict, .ambiguousSelector)
  | .api .unsupportedSharedItem => (.unprocessableEntity, .unsupportedSharedItem)
  | .api .http => (.badGateway, .upstreamHttp)
  | .api (.httpStatus _ _) => (.badGateway, .upstreamStatus)
  | .crypto _ | .cipher (.crypto _) | .cipher (.noExtractableFields _) =>
    (.internalServerError, .crypto)
  | .keyDerivation _ => (.internalServerError, .keyDerivation)
  | .api (.unsupportedKdfType _) | .api (.missingKdfParameter _) =>
    (.internalServerError, .kdfParameters)
  | .api .missingMasterPasswordUnlock | .api .missingMasterKeyWrappedUserKey | .api .missingCachedSync =>
    (.internalServerError, .syncPayload)
  | .api .invalidBaseUrl | .invalidEndpoint | .insecureEndpoint => (.internalServerError, .endpoint)
  | .unsupportedVersionSelector => (.badRequest, .unsupportedVersion)
  | .unprefixedSelectorKey => (.badRequest, .validation)

/-- What the handler returns: a document with 200, or a status with a message. -/
inductive Response where
  | document (document : SecretDocument)
  | error (status : StatusCode) (message : String)

def publicError (status : StatusCode) (errorKind : ErrorKind) : Response :=
  .error status (publicErrorMessage errorKind)

/-! ## Reading a request -/

/-- The parts of the HTTP stack outside this repository: the text of a header value, and the
tree that a JSON text parses to. -/
structure HttpStack where
  toStr : Bytes → Option Str
  parseJson : Bytes → Option Json

/-- A request as the handler sees it: the values that `headers.get` finds, and what reading the
body gives unless the transport fails. -/
structure Request where
  authorization : Option Bytes
  contentType : Option Bytes
  body : Option Bytes

inductive WebhookAuth where
  | required (expected : Str)
  | disabledInsecure

def WebhookAuth.isAuthorized (auth : WebhookAuth) (http : HttpStack) (request : Request) : Bool :=
  match auth with
  | .disabledInsecure => true
  | .required expected =>
    match request.authorization.bind http.toStr with
    | none => false
    | some raw => match splitOnce ' ' raw with
      | none => false
      | some (scheme, token) =>
        eqIgnoreAsciiCase scheme "Bearer".toList && token ≠ [] && trim token == token &&
          asBytes expected == asBytes token

def isJsonContentType (http : HttpStack) (request : Request) : Bool :=
  match request.contentType.bind http.toStr with
  | none => false
  | some contentType =>
    let mediaType := trim ((split ';' contentType).headD [])
    match rsplitOnce '/' mediaType with
    | none => false
    | some (_, subtype) =>
      eqIgnoreAsciiCase subtype "json".toList || "+json".toList.isSuffixOf (toAsciiLowercase subtype)

def resolveBodyLimitBytes : ℕ := 16 * 1024

def keyMember : Member := ⟨"key".toList, []⟩

def propertyMember : Member := ⟨"property".toList, []⟩

def versionMember : Member := ⟨"version".toList, []⟩

def remoteRefMember : Member := ⟨"remoteRef".toList, []⟩

def deserializeRemoteRef (j : Json) : Option RemoteRef := do
  let slots ← record [keyMember, propertyMember, versionMember] j
  let key ← required string (slots keyMember)
  let property ← optional string (slots propertyMember)
  let version ← optional string (slots versionMember)
  return ⟨key, property, version⟩

def deserializeResolveRequest (j : Json) : Option RemoteRef := do
  let slots ← record [remoteRefMember] j
  required deserializeRemoteRef (slots remoteRefMember)

def decodeBody (http : HttpStack) (request : Request) : Except StatusCode RemoteRef :=
  match request.body with
  | none => .error .payloadTooLarge
  | some body =>
    if body.length > resolveBodyLimitBytes then .error .payloadTooLarge
    else match (http.parseJson body).bind deserializeResolveRequest with
      | some remoteRef => .ok remoteRef
      | none => .error .badRequest

def decodeResolveRequest (http : HttpStack) (request : Request) : Except StatusCode RemoteRef :=
  if isJsonContentType http request then decodeBody http request else .error .unsupportedMediaType

def selectorOf (decoded : Except StatusCode RemoteRef) :
    Except (StatusCode × ErrorKind) BitwardenSelector :=
  match decoded with
  | .error status => .error (status, .validation)
  | .ok remoteRef => (BitwardenSelector.tryFrom remoteRef).mapError providerStatusAndKind

theorem selectorOf_eq_ok {decoded : Except StatusCode RemoteRef} {selector : BitwardenSelector}
    (h : selectorOf decoded = .ok selector) :
    ∃ remoteRef, decoded = .ok remoteRef ∧ BitwardenSelector.tryFrom remoteRef = .ok selector := by
  cases decoded with
  | error status => cases h
  | ok remoteRef => exact ⟨remoteRef, rfl, RustResult.mapError_eq_ok.mp h⟩

end VaultwardenEso.Provider
