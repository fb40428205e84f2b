import VaultwardenEso.Client
import VaultwardenEso.CipherSealing

set_option autoImplicit false

/-! # Finding an item of a synced vault: `resolve_synced_cipher` and its two paths -/
namespace VaultwardenEso.Client
open RustStr RustResult BwesoCore Crypto Cipher

inductive CipherLookup where
  | id (id : Str)
  | name (name : Str)
  deriving DecidableEq, Repr

def CipherLookup.fromKey (key : Str) : Except BitwardenClientError CipherLookup :=
  match stripPrefix "id:".toList key with
  | some itemId => .ok (.id itemId)
  | none => match stripPrefix "name:".toList key with
    | some itemName => .ok (.name itemName)
    | none => .error .unprefixedSelectorKey

@[simp] theorem CipherLookup.fromKey_id (id : Str) :
    CipherLookup.fromKey ("id:".toList ++ id) = .ok (.id id) := by
  simp only [CipherLookup.fromKey, stripPrefix_append]

@[simp] theorem CipherLookup.fromKey_name (name : Str) :
    CipherLookup.fromKey ("name:".toList ++ name) = .ok (.name name) := by
  have hid : stripPrefix "id:".toList ("name:".toList ++ name) = none := by rfl
  simp only [CipherLookup.fromKey, hid, stripPrefix_append]

theorem CipherLookup.fromKey_eq_ok {key : Str} {lookup : CipherLookup}
    (h : CipherLookup.fromKey key = .ok lookup) :
    (∃ id, lookup = .id id ∧ key = "id:".toList ++ id) ∨
      ∃ name, lookup = .name name ∧ key = "name:".toList ++ name := by
  unfold CipherLookup.fromKey at h
  split at h
  · rename_i id hid
    cases h
    exact .inl ⟨id, rfl, stripPrefix_eq_some.mp hid⟩
  · split at h
    · rename_i name hname
      cases h
      exact .inr ⟨name, rfl, stripPrefix_eq_some.mp hname⟩
    · cases h

section Paths
variable (P : Primitives) (sync : SyncResponse) (userKey : AuthenticatedSymmetricKey)

def findCipherById (id : Str) : Except BitwardenApiError EncryptedCipher :=
  match sync.ciphers.find? (fun cipher => cipher.id = id) with
  | some cipher => .ok cipher
  | none => .error .cipherNotFound

def resolveSyncedCipherById (id : Str) : Except BitwardenClientError DecryptedCipher := do
  let cipher ← (findCipherById sync id).mapError .api
  if cipher.organizationId.isSome then .error (.api .unsupportedSharedItem)
  else (cipher.decrypt P userKey).mapError .cipher

/-- The loop of `resolve_synced_cipher_by_name` over the rest of the items, with the match
    found so far. An item that does not decrypt is skipped. -/
def scanByName (name : Str) : Option DecryptedCipher → List EncryptedCipher →
    Except BitwardenClientError (Option DecryptedCipher)
  | nameMatch, [] => .ok nameMatch
  | nameMatch, cipher :: rest =>
    match cipher.decrypt P userKey with
    | .error _ => scanByName name nameMatch rest
    | .ok decrypted =>
      if decrypted.name = some name then
        if cipher.organizationId.isSome then .error (.api .unsupportedSharedItem)
        else if nameMatch.isSome then .error (.api .ambiguousCipherName)
        else scanByName name (some decrypted) rest
      else scanByName name nameMatch rest

def resolveSyncedCipherByName (name : Str) : Except BitwardenClientError DecryptedCipher := do
  match ← scanByName P userKey name none sync.ciphers with
  | some decrypted => .ok decrypted
  | none => .error (.api .cipherNotFound)

def resolveSyncedCipher (key : Str) : Except BitwardenClientError DecryptedCipher := do
  match ← CipherLookup.fromKey key with
  | .id id => resolveSyncedCipherById P sync userKey id
  | .name name => resolveSyncedCipherByName P sync userKey name

/-- `cipher` with its decryption, if it decrypts and the decrypted name is `name`. -/
def nameMatch (name : Str) (cipher : EncryptedCipher) : Option (EncryptedCipher × DecryptedCipher) :=
  match cipher.decrypt P userKey with
  | .error _ => none
  | .ok decrypted => if decrypted.name = some name then some (cipher, decrypted) else none

def nameMatches (name : Str) (ciphers : List EncryptedCipher) :
    List (EncryptedCipher × DecryptedCipher) :=
  ciphers.filterMap (nameMatch P userKey name)

end Paths

variable {P : Primitives} {sync : SyncResponse} {userKey : AuthenticatedSymmetricKey}

theorem resolveSyncedCipher_id (id : Str) :
    resolveSyncedCipher P sync userKey ("id:".toList ++ id) =
      resolveSyncedCipherById P sync userKey id := by
  simp only [resolveSyncedCipher, CipherLookup.fromKey_id]
  rfl

theorem resolveSyncedCipher_name (name : Str) :
    resolveSyncedCipher P sync userKey ("name:".toList ++ name) =
      resolveSyncedCipherByName P sync userKey name := by
  simp only [resolveSyncedCipher, CipherLookup.fromKey_name]
  rfl

theorem resolveSyncedCipherById_eq_ok {id : Str} {c : DecryptedCipher} :
    resolveSyncedCipherById P sync userKey id = .ok c ↔
      ∃ cipher, sync.ciphers.find? (fun cipher => cipher.id = id) = some cipher ∧
        cipher.organizationId = none ∧ cipher.decrypt P userKey = .ok c := by
  rw [resolveSyncedCipherById, bind_eq_ok]
  constructor
  · rintro ⟨cipher, hfind, h⟩
    rw [mapError_eq_ok, findCipherById] at hfind
    split at hfind
    · rename_i found hfound
      cases hfind
      split at h
      · cases h
      · rename_i horg
        exact ⟨cipher, hfound, by simpa using horg, mapError_eq_ok.mp h⟩
    · cases hfind
  · rintro ⟨cipher, hfound, horg, hd⟩
    refine ⟨cipher, ?_, ?_⟩
    · simp only [findCipherById, hfound]
      rfl
    · simp [horg, hd, Except.mapError]

theorem nameMatch_eq_some {name : Str} {cipher e : EncryptedCipher} {d : DecryptedCipher} :
    nameMatch P userKey name cipher = some (e, d) ↔
      cipher = e ∧ e.decrypt P userKey = .ok d ∧ d.name = some name := by
  unfold nameMatch
  split
  · rename_i error herr
    constructor
    · rintro ⟨⟩
    · rintro ⟨rfl, hd, -⟩
      rw [hd] at herr
      cases herr
  · rename_i decrypted hok
    constructor
    · intro h
      split at h
      · cases h
        exact ⟨rfl, hok, ‹_›⟩
      · cases h
    · rintro ⟨rfl, hd, hname⟩
      rw [hd] at hok
      cases hok
      simp [hname]

theorem mem_nameMatches {name : Str} {e : EncryptedCipher} {d : DecryptedCipher}
    {ciphers : List EncryptedCipher} : (e, d) ∈ nameMatches P userKey name ciphers ↔
      e ∈ ciphers ∧ e.decrypt P userKey = .ok d ∧ d.name = some name := by
  simp only [nameMatches, List.mem_filterMap, nameMatch_eq_some]
  constructor
  · rintro ⟨cipher, hmem, rfl, hd⟩
    exact ⟨hmem, hd⟩
  · rintro ⟨hmem, hd⟩
    exact ⟨e, hmem, rfl, hd⟩

/-- The scan sees the matching items only: a first one is kept if it is personal, and a
    second one is an error, of a kind that depends on which of the two is shared. -/
theorem scanByName_eq (name : Str) (found : Option DecryptedCipher) (ciphers : List EncryptedCipher) :
    scanByName P userKey name found ciphers =
      match found, nameMatches P userKey name ciphers with
      | found, [] => .ok found
      | none, [(e, d)] =>
        if e.organizationId.isSome then .error (.api .unsupportedSharedItem) else .ok (some d)
      | none, (e, _) :: (e', _) :: _ =>
        if e.organizationId.isSome || e'.organizationId.isSome then
          .error (.api .unsupportedSharedItem)
        else .error (.api .ambiguousCipherName)
      | some _, (e, _) :: _ =>
        if e.organizationId.isSome then .error (.api .unsupportedSharedItem)
        else .error (.api .ambiguousCipherName) := by
  induction ciphers generalizing found with
  | nil => cases found <;> rfl
  | cons cipher rest ih =>
    rw [scanByName, nameMatches, List.filterMap_cons]
    cases hd : cipher.decrypt P userKey with
    | error error =>
      have hskip : nameMatch P userKey name cipher = none := by simp only [nameMatch, hd]
      simp only [hskip]
      exact ih found
    | ok decrypted =>
      by_cases hname : decrypted.name = some name
      · have hmatch : nameMatch P userKey name cipher = some (cipher, decrypted) := by
          simp only [nameMatch, hd, if_pos hname]
        simp only [hmatch, if_pos hname]
        cases found with
        | some c => split <;> simp_all
        | none =>
          rw [ih (some decrypted)]
          cases hrest : nameMatches P userKey name rest with
          | nil =>
            rw [nameMatches] at hrest
            simp [hrest]
          | cons second others =>
            rw [nameMatches] at hrest
            cases horg : cipher.organizationId <;> simp [hrest, horg]
      · have hskip : nameMatch P userKey name cipher = none := by
          simp only [nameMatch, hd, if_neg hname]
        simp only [hskip, if_neg hname]
        exact ih found

theorem resolveSyncedCipherByName_eq_ok {name : Str} {c : DecryptedCipher} :
    resolveSyncedCipherByName P sync userKey name = .ok c ↔
      ∃ e, nameMatches P userKey name sync.ciphers = [(e, c)] ∧ e.organizationId = none := by
  rw [resolveSyncedCipherByName, bind_eq_ok, scanByName_eq]
  constructor
  · rintro ⟨found, hscan, h⟩
    split at hscan
    · cases hscan
      cases h
    · rename_i e d _ hmatches
      split at hscan
      · cases hscan
      · rename_i horg
        cases hscan
        cases h
        exact ⟨e, hmatches, by simpa using horg⟩
    · split at hscan <;> cases hscan
    · split at hscan <;> cases hscan
  · rintro ⟨e, hmatches, horg⟩
    exact ⟨some c, by simp [hmatches, horg], rfl⟩

theorem resolveSyncedCipherByName_of_match {name : Str} {e : EncryptedCipher} {d : DecryptedCipher}
    (h : (e, d) ∈ nameMatches P userKey name sync.ciphers) :
    (∃ c, resolveSyncedCipherByName P sync userKey name = .ok c) ∨
      resolveSyncedCipherByName P sync userKey name = .error (.api .ambiguousCipherName) ∨
      resolveSyncedCipherByName P sync userKey name = .error (.api .unsupportedSharedItem) := by
  rw [resolveSyncedCipherByName, scanByName_eq]
  split
  · rename_i hnil
    rw [hnil] at h
    simp at h
  · split
    · exact .inr (.inr rfl)
    · exact .inl ⟨_, rfl⟩
  · split
    · exact .inr (.inr rfl)
    · exact .inr (.inl rfl)
  · split
    · exact .inr (.inr rfl)
    · exact .inr (.inl rfl)

theorem find?_id_eq_some {ciphers : List EncryptedCipher} {e : EncryptedCipher}
    (hids : (ciphers.map (·.id)).Nodup) (he : e ∈ ciphers) :
    ciphers.find? (fun cipher => cipher.id = e.id) = some e := by
  induction ciphers with
  | nil => simp at he
  | cons first rest ih =>
    simp only [List.map_cons, List.nodup_cons, List.mem_map, not_exists, not_and] at hids
    rcases List.mem_cons.mp he with rfl | he
    · simp
    · have hne : first.id ≠ e.id := fun h => hids.1 e he h.symm
      simpa [hne] using ih hids.2 he

theorem lookup_paths_agree (P : Primitives) (sync : SyncResponse) (userKey : AuthenticatedSymmetricKey)
    (hids : (sync.ciphers.map (·.id)).Nodup) :
    (∀ n c, resolveSyncedCipher P sync userKey ("name:".toList ++ n) = .ok c →
      resolveSyncedCipher P sync userKey ("id:".toList ++ c.id) = .ok c) ∧
    (∀ i c n, resolveSyncedCipher P sync userKey ("id:".toList ++ i) = .ok c → c.name = some n →
      resolveSyncedCipher P sync userKey ("name:".toList ++ n) = .ok c ∨
      resolveSyncedCipher P sync userKey ("name:".toList ++ n) = .error (.api .ambiguousCipherName) ∨
      resolveSyncedCipher P sync userKey ("name:".toList ++ n) =
        .error (.api .unsupportedSharedItem)) := by
  simp only [resolveSyncedCipher_id, resolveSyncedCipher_name]
  constructor
  · intro n c h
    obtain ⟨e, hmatches, horg⟩ := resolveSyncedCipherByName_eq_ok.mp h
    have hmem : (e, c) ∈ nameMatches P userKey n sync.ciphers := by simp [hmatches]
    obtain ⟨he, hd, -⟩ := mem_nameMatches.mp hmem
    rw [resolveSyncedCipherById_eq_ok, (EncryptedCipher.decrypt_id P hd).1]
    exact ⟨e, find?_id_eq_some hids he, horg, hd⟩
  · intro i c n h hname
    obtain ⟨e, hfind, -, hd⟩ := resolveSyncedCipherById_eq_ok.mp h
    have hmem : (e, c) ∈ nameMatches P userKey n sync.ciphers :=
      mem_nameMatches.mpr ⟨List.mem_of_find?_eq_some hfind, hd, hname⟩
    rcases resolveSyncedCipherByName_of_match hmem with ⟨c', h'⟩ | herr
    · obtain ⟨e', hmatches, -⟩ := resolveSyncedCipherByName_eq_ok.mp h'
      rw [hmatches, List.mem_singleton] at hmem
      cases hmem
      exact .inl h'
    · exact .inr herr

def sampleSync : SyncResponse := ⟨[sampleCipher]⟩

def mixedSync : SyncResponse :=
  ⟨[{ sampleCipher with
        id := "cipher-shared".toList, organizationId := some "team".toList, name := none },
    { sampleCipher with id := "cipher-broken".toList, name := some "2.invalid".toList },
    sampleCipher, { sampleCipher with id := "cipher-unnamed".toList, name := none }]⟩

theorem mixedSync_paths_agree :
    resolveSyncedCipher sampleRecording.primitives mixedSync sampleUserKey "id:cipher-login".toList =
      .ok samplePlain :=
  (lookup_paths_agree sampleRecording.primitives mixedSync sampleUserKey (by decide)).1
    "app/database".toList samplePlain (by decide +kernel)

end VaultwardenEso.Client
