import VaultwardenEso.Documents
import VaultwardenEso.SealedVault
import VaultwardenEso.Selectors

set_option autoImplicit false

/-!
# From the bytes of a request to the bytes of its response

The layers together: JSON on both sides of the handler, the handler between other requests, the
cache, and the vault that the upstream keeps sealed.
-/
namespace VaultwardenEso.Provider
open RustStr RustResult BwesoCore Crypto Cipher Client Serde

theorem resolve_eq_document {cfg : ServerConfig} {r : ℕ} {full : Bool} {rules : PolicyRules}
    {provider : BitwardenSelector → Except BitwardenClientError SecretDocument}
    {document : SecretDocument} (h : .document document = resolve cfg r full rules provider) :
    cfg.authorized r = true ∧ full = false ∧ ∃ selector, cfg.selection r = .ok selector ∧
      rules.allows selector.key = true ∧ provider selector = .ok document := by
  unfold resolve at h
  split at h
  · rename_i hauthorized
    split at h
    · cases h
    · rename_i hfull
      split at h
      · cases h
      · rename_i selector hselector
        split at h
        · rename_i hallows
          refine ⟨hauthorized, Bool.eq_false_iff.mpr hfull, selector, hselector, hallows, ?_⟩
          cases hresult : provider selector with
          | ok served =>
            rw [hresult, resultResponse, Response.document.injEq] at h
            rw [h]
          | error error =>
            rw [hresult] at h
            cases h
        · cases h
  · cases h

theorem read_data {serde : SerdeJson} (hserde : serde.RoundTrips) {response : Response} {key : Str}
    {j : Json} (h : (response.render serde).read serde ["data".toList, key] = some j) :
    ∃ document, response = .document document ∧ (document.data[key]?).map .str = some j := by
  cases response with
  | document document =>
    rw [read_document hserde, jsonPath_data] at h
    exact ⟨document, rfl, h⟩
  | error status message =>
    rw [read_error hserde] at h
    cases h

def Request.remoteRef (http : HttpStack) (request : Request) : Option RemoteRef :=
  (request.body.bind http.parseJson).bind deserializeResolveRequest

theorem selection_remoteRef {cfg : ServerConfig} {r : ℕ} {selector : BitwardenSelector}
    (h : cfg.selection r = .ok selector) :
    ∃ remoteRef, (cfg.request r).remoteRef cfg.http = some remoteRef ∧
      BitwardenSelector.tryFrom remoteRef = .ok selector := by
  obtain ⟨remoteRef, hdecoded, hselector⟩ := selectorOf_eq_ok h
  refine ⟨remoteRef, ?_, hselector⟩
  unfold decodeResolveRequest at hdecoded
  split at hdecoded
  · unfold decodeBody at hdecoded
    unfold Request.remoteRef
    split at hdecoded
    · cases hdecoded
    · rename_i body hbody
      split at hdecoded
      · cases hdecoded
      · split at hdecoded
        · rename_i found hfound
          cases hdecoded
          rw [hbody]
          exact hfound
        · cases hdecoded
  · cases hdecoded

/-- What a document says of the item: the value asked for, or all of it. -/
def SaysOf (plain : DecryptedCipher) (property : Option Str) (key value : Str) : Prop :=
  match property with
  | some property => plain.extractProperty property = .ok value ∧
      (key = "value".toList ∨ key = property)
  | none => ∃ document, plain.toSecretDocument = .ok document ∧ document.data[key]? = some value

theorem plainDocument_says {plain : DecryptedCipher} {property : Option Str}
    {document : SecretDocument} (h : plainDocument plain property = .ok document) {key value : Str}
    (hvalue : document.data[key]? = some value) : SaysOf plain property key value := by
  cases property with
  | none =>
    rw [plainDocument, mapError_eq_ok] at h
    exact ⟨document, h, hvalue⟩
  | some property =>
    rw [plainDocument, bind_eq_ok] at h
    obtain ⟨extracted, hextracted, h⟩ := h
    rw [mapError_eq_ok] at hextracted
    rw [pure_eq_ok] at h
    subst h
    suffices hfound : (key = "value".toList ∨ key = property) ∧ extracted = value by
      rw [← hfound.2]
      exact ⟨hextracted, hfound.1⟩
    split at hvalue
    · rw [BTreeMap.getElem?_insert_eq, getElem?_single] at hvalue
      split_ifs at hvalue with hproperty hname
      · exact ⟨.inr hproperty, Option.some.inj hvalue⟩
      · exact ⟨.inl hname, Option.some.inj hvalue⟩
    · rw [getElem?_single] at hvalue
      split_ifs at hvalue with hname
      exact ⟨.inl hname, Option.some.inj hvalue⟩

end VaultwardenEso.Provider
