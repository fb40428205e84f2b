import VaultwardenEso.CachedVault
import VaultwardenEso.NameLookup

set_option autoImplicit false

/-!
# The vault as its owner sees it

Without ids of keys, IVs and tags a vault is a list of items, some of which the user cannot open.
A request names an item and says which of its values it wants. This is stated on that list, and
reading a synced vault is shown to be it.
-/
namespace VaultwardenEso.Client
open RustStr RustResult BwesoCore Crypto Cipher

/-- An item for the holder of the user key: open, or closed for a reason. -/
inductive VaultItem where
  | opened (plain : DecryptedCipher)
  | closed (id : Str) (organizationId : Option Str) (error : CipherError)

def VaultItem.id : VaultItem → Str
  | .opened plain => plain.id
  | .closed id _ _ => id

def VaultItem.organizationId : VaultItem → Option Str
  | .opened plain => plain.organizationId
  | .closed _ organizationId _ => organizationId

def VaultItem.reveal : VaultItem → Except CipherError DecryptedCipher
  | .opened plain => .ok plain
  | .closed _ _ error => .error error

def VaultItem.named (name : Str) : VaultItem → Option DecryptedCipher
  | .opened plain => if plain.name = some name then some plain else none
  | .closed _ _ _ => none

def plainById (vault : List VaultItem) (id : Str) : Except BitwardenClientError DecryptedCipher :=
  match vault.find? (fun item => item.id = id) with
  | none => .error (.api .cipherNotFound)
  | some item =>
    if item.organizationId.isSome then .error (.api .unsupportedSharedItem)
    else item.reveal.mapError .cipher

/-- The one open item of the name, if it is personal. -/
def onlyPersonal : List DecryptedCipher → Except BitwardenClientError DecryptedCipher
  | [] => .error (.api .cipherNotFound)
  | [plain] =>
    if plain.organizationId.isSome then .error (.api .unsupportedSharedItem) else .ok plain
  | first :: second :: _ =>
    if first.organizationId.isSome || second.organizationId.isSome then
      .error (.api .unsupportedSharedItem)
    else .error (.api .ambiguousCipherName)

def plainByName (vault : List VaultItem) (name : Str) :
    Except BitwardenClientError DecryptedCipher :=
  onlyPersonal (vault.filterMap (VaultItem.named name))

def plainItem (vault : List VaultItem) (key : Str) :
    Except BitwardenClientError DecryptedCipher := do
  match ← CipherLookup.fromKey key with
  | .id id => plainById vault id
  | .name name => plainByName vault name

def plainDocument (plain : DecryptedCipher) : Option Str →
    Except BitwardenClientError SecretDocument
  | some property => do
    let value ← (plain.extractProperty property).mapError .cipher
    let document := SecretDocument.single "value".toList value
    pure (if property ≠ "value".toList then
      { document with data := document.data.insert property value } else document)
  | none => plain.toSecretDocument.mapError .cipher

def resolvePlain (vault : List VaultItem) (selector : BitwardenSelector) :
    Except BitwardenClientError SecretDocument := do
  let plain ← plainItem vault selector.key
  plainDocument plain selector.property

/-! ## A synced vault stands for a plain one -/

/-- The item is `item` written with the user key, or it does not open under that key. -/
def Stores (P : Primitives) (E : Encoders) (userKey : AuthenticatedSymmetricKey)
    (cipher : EncryptedCipher) : VaultItem → Prop
  | .opened plain => ∃ itemKey, Seals P E userKey itemKey plain cipher
  | .closed id organizationId error => cipher.id = id ∧ cipher.organizationId = organizationId ∧
      cipher.decrypt P userKey = .error error

variable {P : Primitives} {E : Encoders} {userKey : AuthenticatedSymmetricKey}

/-- What the lookups see of an item. -/
structure StandsFor (P : Primitives) (userKey : AuthenticatedSymmetricKey) (cipher : EncryptedCipher)
    (item : VaultItem) : Prop where
  id : cipher.id = item.id
  organizationId : cipher.organizationId = item.organizationId
  decrypt : cipher.decrypt P userKey = item.reveal

theorem Stores.standsFor (hE : Inverts P E) {cipher : EncryptedCipher} {item : VaultItem}
    (h : Stores P E userKey cipher item) : StandsFor P userKey cipher item := by
  cases item with
  | opened plain =>
    obtain ⟨itemKey, hseals⟩ := h
    exact ⟨hseals.strings.id, hseals.strings.organizationId, hseals.decrypt hE⟩
  | closed id organizationId error =>
    obtain ⟨hid, horg, herror⟩ := h
    exact ⟨hid, horg, herror⟩

theorem find?_standsFor {ciphers : List EncryptedCipher} {vault : List VaultItem}
    (h : List.Forall₂ (StandsFor P userKey) ciphers vault) (id : Str) :
    Option.Rel (StandsFor P userKey) (ciphers.find? (fun cipher => cipher.id = id))
      (vault.find? (fun item => item.id = id)) := by
  induction h with
  | nil => exact .none
  | @cons cipher item ciphers vault hshows _ ih =>
    rw [List.find?_cons, List.find?_cons, hshows.id]
    by_cases hid : item.id = id
    · simp only [hid, decide_true]
      exact .some hshows
    · simp only [hid, decide_false]
      exact ih

theorem resolveSyncedCipherById_eq_plainById {sync : SyncResponse} {vault : List VaultItem}
    (h : List.Forall₂ (StandsFor P userKey) sync.ciphers vault) (id : Str) :
    resolveSyncedCipherById P sync userKey id = plainById vault id := by
  have hfind := find?_standsFor h id
  unfold resolveSyncedCipherById findCipherById plainById
  cases hplain : vault.find? (fun item => item.id = id) with
  | none =>
    rw [hplain] at hfind
    have hnone : sync.ciphers.find? (fun cipher => cipher.id = id) = none := by
      cases hcipher : sync.ciphers.find? (fun cipher => cipher.id = id) with
      | none => rfl
      | some cipher =>
        rw [hcipher] at hfind
        cases hfind
    rw [hnone]
    rfl
  | some item =>
    rw [hplain] at hfind
    cases hcipher : sync.ciphers.find? (fun cipher => cipher.id = id) with
    | none =>
      rw [hcipher] at hfind
      cases hfind
    | some cipher =>
      rw [hcipher] at hfind
      cases hfind with
      | some hshows =>
        change (if cipher.organizationId.isSome then _ else _) =
          if item.organizationId.isSome then _ else _
        rw [hshows.organizationId, hshows.decrypt]

theorem nameMatches_standsFor {ciphers : List EncryptedCipher} {vault : List VaultItem}
    (h : List.Forall₂ (StandsFor P userKey) ciphers vault) (name : Str) :
    List.Forall₂ (fun found plain => found.2 = plain ∧
        found.1.organizationId = plain.organizationId)
      (nameMatches P userKey name ciphers) (vault.filterMap (VaultItem.named name)) := by
  induction h with
  | nil => exact .nil
  | @cons cipher item ciphers vault hshows _ ih =>
    rw [nameMatches, List.filterMap_cons, List.filterMap_cons]
    rw [nameMatches] at ih
    have hdecrypt := hshows.decrypt
    cases item with
    | closed id organizationId error =>
      simp only [nameMatch, hdecrypt, VaultItem.reveal, VaultItem.named]
      exact ih
    | opened plain =>
      by_cases hname : plain.name = some name
      · simp only [nameMatch, hdecrypt, VaultItem.reveal, VaultItem.named, if_pos hname]
        exact .cons ⟨rfl, hshows.organizationId⟩ ih
      · simp only [nameMatch, hdecrypt, VaultItem.reveal, VaultItem.named, if_neg hname]
        exact ih

theorem outcomeOf_eq_onlyPersonal {found : List (EncryptedCipher × DecryptedCipher)}
    {plains : List DecryptedCipher} (h : List.Forall₂ (fun found plain => found.2 = plain ∧
      found.1.organizationId = plain.organizationId) found plains) :
    outcomeOf found = onlyPersonal plains := by
  cases h with
  | nil => rfl
  | @cons first plain _ _ hfirst hrest =>
    obtain ⟨e, d⟩ := first
    obtain ⟨rfl, horg⟩ := hfirst
    cases hrest with
    | nil =>
      dsimp only [outcomeOf, onlyPersonal]
      rw [horg]
    | @cons second plain' _ _ hsecond _ =>
      obtain ⟨e', d'⟩ := second
      obtain ⟨rfl, horg'⟩ := hsecond
      dsimp only [outcomeOf, onlyPersonal]
      rw [horg, horg']

theorem resolveSyncedCipher_eq_plainItem {sync : SyncResponse} {vault : List VaultItem}
    (h : List.Forall₂ (StandsFor P userKey) sync.ciphers vault) (key : Str) :
    resolveSyncedCipher P sync userKey key = plainItem vault key := by
  unfold resolveSyncedCipher plainItem
  refine congrArg _ (funext fun lookup => ?_)
  cases lookup with
  | id id => exact resolveSyncedCipherById_eq_plainById h id
  | name name =>
    change resolveSyncedCipherByName P sync userKey name =
      onlyPersonal (vault.filterMap (VaultItem.named name))
    rw [resolveSyncedCipherByName_eq]
    exact outcomeOf_eq_onlyPersonal (nameMatches_standsFor h name)

theorem plainItem_personal {vault : List VaultItem} {key : Str} {plain : DecryptedCipher}
    (h : plainItem vault key = .ok plain) : plain.organizationId = none := by
  obtain ⟨lookup, -, h⟩ := bind_eq_ok.mp h
  cases lookup with
  | id id =>
    dsimp only [plainById] at h
    split at h
    · cases h
    · rename_i item _
      split at h
      · cases h
      · rename_i hpersonal
        rw [mapError_eq_ok] at h
        cases item with
        | opened plain' =>
          cases h
          simpa [VaultItem.organizationId] using hpersonal
        | closed id organizationId error => cases h
  | name name =>
    dsimp only [plainByName] at h
    unfold onlyPersonal at h
    split at h
    · cases h
    · split at h
      · cases h
      · rename_i hpersonal
        cases h
        simpa using hpersonal
    · split at h <;> cases h

theorem resolveCached_eq_resolvePlain (hE : Inverts P E) (cached : CachedVault)
    (vault : List VaultItem)
    (h : List.Forall₂ (Stores P E cached.session.userKey) cached.sync.ciphers vault)
    (selector : BitwardenSelector) :
    resolveCached P cached selector = resolvePlain vault selector := by
  have hshows : List.Forall₂ (StandsFor P cached.session.userKey) cached.sync.ciphers vault :=
    h.imp (fun _ _ hstores => hstores.standsFor hE)
  unfold resolveCached resolvePlain
  rw [resolveSyncedCipher_eq_plainItem hshows]
  cases hplain : plainItem vault selector.key with
  | error error => rfl
  | ok plain =>
    have hpersonal := plainItem_personal hplain
    change (if plain.organizationId.isSome then _ else _) = plainDocument plain selector.property
    rw [hpersonal]
    cases selector.property with
    | none => rfl
    | some property =>
      dsimp only [plainDocument]
      cases plain.extractProperty property with
      | error error => rfl
      | ok value =>
        change (if property ≠ "value".toList then pure _ else pure _) = pure (if _ then _ else _)
        split <;> rfl

/-- Whatever keys and IVs a vault is written with, reading it is reading the plain vault: another
user key or another encryption of the items changes no result. -/
theorem sealed_vault_reads_as_plain (hE : Inverts P E) (vault : List VaultItem)
    (cached cached' : CachedVault)
    (h : List.Forall₂ (Stores P E cached.session.userKey) cached.sync.ciphers vault)
    (h' : List.Forall₂ (Stores P E cached'.session.userKey) cached'.sync.ciphers vault)
    (selector : BitwardenSelector) :
    resolveCached P cached selector = resolvePlain vault selector ∧
      resolveCached P cached' selector = resolveCached P cached selector := by
  have hplain := resolveCached_eq_resolvePlain hE cached vault h selector
  refine ⟨hplain, ?_⟩
  rw [hplain]
  exact resolveCached_eq_resolvePlain hE cached' vault h' selector

theorem sampleVault_reads_as_plain :
    let cached := CachedVault.new 0 ⟨"access-token".toList, none, "Bearer".toList, sampleUserKey⟩
      ⟨[sampleCipher, sampleCopy]⟩ 0
    let vault := [VaultItem.opened samplePlain,
      .closed "cipher-copy".toList none (.crypto .invalidPartCount)]
    resolveCached sampleRecording.primitives cached ⟨"name:app/database".toList, none⟩ =
        resolvePlain vault ⟨"name:app/database".toList, none⟩ ∧
      resolveCached sampleRecording.primitives cached ⟨"id:cipher-copy".toList, none⟩ =
        .error (.cipher (.crypto .invalidPartCount)) := by
  intro cached vault
  have hstores : List.Forall₂ (Stores sampleRecording.primitives sampleRecording.encoders
      cached.session.userKey) cached.sync.ciphers vault :=
    .cons ⟨some sampleItemKey, sampleCipher_seals⟩
      (.cons ⟨rfl, rfl, by decide +kernel⟩ .nil)
  have hreads := sealed_vault_reads_as_plain (Recording.inverts sampleRecording_consistent) vault
    cached cached hstores hstores
  refine ⟨(hreads _).1, ?_⟩
  rw [(hreads _).1]
  rfl

end VaultwardenEso.Client
