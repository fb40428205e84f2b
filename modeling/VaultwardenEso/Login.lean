import VaultwardenEso.EncryptedStrings
import VaultwardenEso.Endpoints
import VaultwardenEso.Keys
import VaultwardenEso.SyncDocument

set_option autoImplicit false

/-!
# Prelogin, login, unlock and sync: `api.rs`

The server is a function from request URLs to answers. What it says of the KDF passes
through the decoder and `kdf_from_parts` before a master key is derived from it.
-/
namespace VaultwardenEso.Client
open RustStr RustResult RustUrl BwesoCore Crypto Serde

/-! ## Answers -/

/-- What comes of a request: no answer, or a status and then a body, unless reading it fails. -/
inductive HttpAnswer where
  | failed
  | answered (status : ℕ) (body : Option Bytes)

structure Transport where
  /-- `serde_json`, up to the tree. -/
  parseJson : Bytes → Option Json
  server : Url → HttpAnswer

def decodeJson {α : Type} (http : Transport) (decode : Json → Option α) (endpoint : String)
    (answer : HttpAnswer) : Except BitwardenApiError α :=
  match answer with
  | .failed => .error .http
  | .answered status body =>
    if ¬ (200 ≤ status ∧ status < 300) then .error (.httpStatus endpoint status)
    else match (body.bind http.parseJson).bind decode with
      | some value => .ok value
      | none => .error .http

def aliased (name other : String) : Member := ⟨name.toList, [other.toList]⟩

/-! ## KDF parameters -/

def kdfFromParts (kdfType : UInt8) (iterations : UInt32) (memory parallelism : Option UInt32) :
    Except BitwardenApiError KdfConfig :=
  if kdfType = 0 then .ok (.pbkdf2Sha256 iterations)
  else if kdfType = 1 then
    match memory with
    | none => .error (.missingKdfParameter "memory")
    | some memoryMib =>
      match parallelism with
      | none => .error (.missingKdfParameter "parallelism")
      | some parallelism => .ok (.argon2id iterations memoryMib parallelism)
  else .error (.unsupportedKdfType kdfType.toNat)

structure PreloginResponse where
  kdf : UInt8
  kdfIterations : UInt32
  kdfMemory : Option UInt32
  kdfParallelism : Option UInt32
  deriving DecidableEq

def preloginTable : List Member :=
  [aliased "kdf" "Kdf", aliased "kdfIterations" "KdfIterations", aliased "kdfMemory" "KdfMemory",
    aliased "kdfParallelism" "KdfParallelism"]

def deserializePrelogin (j : Json) : Option PreloginResponse := do
  let slots ← record preloginTable j
  let kdf ← required u8 (slots (aliased "kdf" "Kdf"))
  let kdfIterations ← required u32 (slots (aliased "kdfIterations" "KdfIterations"))
  let kdfMemory ← optional u32 (slots (aliased "kdfMemory" "KdfMemory"))
  let kdfParallelism ← optional u32 (slots (aliased "kdfParallelism" "KdfParallelism"))
  return ⟨kdf, kdfIterations, kdfMemory, kdfParallelism⟩

def PreloginResponse.tryInto (response : PreloginResponse) : Except BitwardenApiError KdfConfig :=
  kdfFromParts response.kdf response.kdfIterations response.kdfMemory response.kdfParallelism

def prelogin (crate : UrlCrate) (http : Transport) (endpoints : BitwardenEndpoints) :
    Except BitwardenClientError KdfConfig := do
  let url ← (preloginUrl crate endpoints).mapError .api
  let response ← (decodeJson http deserializePrelogin "prelogin" (http.server url)).mapError .api
  response.tryInto.mapError .api

/-! ## Login -/

structure TokenKdfResponse where
  kdfType : UInt8
  iterations : UInt32
  memory : Option UInt32
  parallelism : Option UInt32
  deriving DecidableEq

structure MasterPasswordUnlockResponse where
  kdf : TokenKdfResponse
  masterKeyWrappedUserKey : Option Str
  masterKeyEncryptedUserKey : Option Str
  salt : Str
  deriving DecidableEq

structure UserDecryptionOptionsResponse where
  masterPasswordUnlock : Option MasterPasswordUnlockResponse
  deriving DecidableEq

structure TokenResponse where
  accessToken : Str
  expiresIn : Option UInt64
  tokenType : Option Str
  userDecryptionOptions : Option UserDecryptionOptionsResponse
  deriving DecidableEq

def tokenKdfTable : List Member :=
  [aliased "kdfType" "KdfType", aliased "iterations" "Iterations", aliased "memory" "Memory",
    aliased "parallelism" "Parallelism"]

def masterPasswordUnlockTable : List Member :=
  [aliased "kdf" "Kdf", aliased "masterKeyWrappedUserKey" "MasterKeyWrappedUserKey",
    aliased "masterKeyEncryptedUserKey" "MasterKeyEncryptedUserKey", aliased "salt" "Salt"]

def userDecryptionOptionsTable : List Member :=
  [aliased "masterPasswordUnlock" "MasterPasswordUnlock"]

def tokenTable : List Member :=
  [aliased "access_token" "accessToken", aliased "expires_in" "expiresIn",
    aliased "token_type" "tokenType", aliased "userDecryptionOptions" "UserDecryptionOptions"]

def deserializeTokenKdf (j : Json) : Option TokenKdfResponse := do
  let slots ← record tokenKdfTable j
  let kdfType ← required u8 (slots (aliased "kdfType" "KdfType"))
  let iterations ← required u32 (slots (aliased "iterations" "Iterations"))
  let memory ← optional u32 (slots (aliased "memory" "Memory"))
  let parallelism ← optional u32 (slots (aliased "parallelism" "Parallelism"))
  return ⟨kdfType, iterations, memory, parallelism⟩

def deserializeMasterPasswordUnlock (j : Json) : Option MasterPasswordUnlockResponse := do
  let slots ← record masterPasswordUnlockTable j
  let kdf ← required deserializeTokenKdf (slots (aliased "kdf" "Kdf"))
  let masterKeyWrappedUserKey ←
    optional string (slots (aliased "masterKeyWrappedUserKey" "MasterKeyWrappedUserKey"))
  let masterKeyEncryptedUserKey ←
    optional string (slots (aliased "masterKeyEncryptedUserKey" "MasterKeyEncryptedUserKey"))
  let salt ← required string (slots (aliased "salt" "Salt"))
  return ⟨kdf, masterKeyWrappedUserKey, masterKeyEncryptedUserKey, salt⟩

def deserializeUserDecryptionOptions (j : Json) : Option UserDecryptionOptionsResponse := do
  let slots ← record userDecryptionOptionsTable j
  let masterPasswordUnlock ← optional deserializeMasterPasswordUnlock
    (slots (aliased "masterPasswordUnlock" "MasterPasswordUnlock"))
  return ⟨masterPasswordUnlock⟩

def deserializeToken (j : Json) : Option TokenResponse := do
  let slots ← record tokenTable j
  let accessToken ← required string (slots (aliased "access_token" "accessToken"))
  let expiresIn ← optional u64 (slots (aliased "expires_in" "expiresIn"))
  let tokenType ← optional string (slots (aliased "token_type" "tokenType"))
  let userDecryptionOptions ← optional deserializeUserDecryptionOptions
    (slots (aliased "userDecryptionOptions" "UserDecryptionOptions"))
  return ⟨accessToken, expiresIn, tokenType, userDecryptionOptions⟩

def MasterPasswordUnlockData.tryFrom (response : MasterPasswordUnlockResponse) :
    Except BitwardenApiError MasterPasswordUnlockData :=
  match response.masterKeyWrappedUserKey.or response.masterKeyEncryptedUserKey with
  | none => .error .missingMasterKeyWrappedUserKey
  | some masterKeyWrappedUserKey => do
    let kdf ← kdfFromParts response.kdf.kdfType response.kdf.iterations response.kdf.memory
      response.kdf.parallelism
    pure ⟨response.salt, kdf, masterKeyWrappedUserKey⟩

section Unlock
variable (K : KdfPrimitives) (P : Primitives)

/-- The session or the error, and the derivations that were run for it. -/
def unlockSession (masterPassword : Str) (response : TokenResponse) :
    Except BitwardenClientError BitwardenSession × List Derivation :=
  match response.userDecryptionOptions.bind (·.masterPasswordUnlock) with
  | none => (.error (.api .missingMasterPasswordUnlock), [])
  | some unlock =>
    match MasterPasswordUnlockData.tryFrom unlock with
    | .error error => (.error (.api error), [])
    | .ok unlockData =>
      let (userKey, derivations) := unlockData.unlockUserKey K P masterPassword
      (do
        let userKey ← userKey.mapError .keyDerivation
        pure ⟨response.accessToken, response.expiresIn.map UInt64.toNat,
          response.tokenType.getD "Bearer".toList, userKey⟩, derivations)

def loginWithApiKey (crate : UrlCrate) (http : Transport) (endpoints : BitwardenEndpoints)
    (masterPassword : Str) : Except BitwardenClientError BitwardenSession × List Derivation :=
  match tokenUrl crate endpoints with
  | .error error => (.error (.api error), [])
  | .ok url =>
    match decodeJson http deserializeToken "token" (http.server url) with
    | .error error => (.error (.api error), [])
    | .ok response => unlockSession K P masterPassword response

end Unlock

def sync (crate : UrlCrate) (http : Transport) (endpoints : BitwardenEndpoints) :
    Except BitwardenClientError SyncResponse := do
  let url ← (syncUrl crate endpoints).mapError .api
  (decodeJson http SyncDocument.deserializeSync "sync" (http.server url)).mapError .api

/-! ## What is derived -/

def Derivation.InBounds : Derivation → Prop
  | .pbkdf2 iterations => 5000 ≤ iterations.toNat ∧ iterations.toNat ≤ 2000000
  | .argon2id memoryKib iterations parallelism =>
    (2 ≤ iterations.toNat ∧ iterations.toNat ≤ 10) ∧
      (∃ memoryMib, 16 ≤ memoryMib ∧ memoryMib ≤ 1024 ∧ memoryKib.toNat = memoryMib * 1024) ∧
      (1 ≤ parallelism.toNat ∧ parallelism.toNat ≤ 16)

section Bounds
variable {K : KdfPrimitives} {P : Primitives}

theorem KdfConfig.InBounds.derivation {kdf : KdfConfig} (h : kdf.InBounds) :
    kdf.derivation.InBounds := by
  cases kdf with
  | pbkdf2Sha256 iterations => exact h
  | argon2id iterations memoryMib parallelism =>
    obtain ⟨hiterations, hmemory, hparallelism⟩ := h
    refine ⟨hiterations, ⟨memoryMib.toNat, hmemory.1, hmemory.2, ?_⟩, hparallelism⟩
    rw [UInt32.toNat_mul]
    exact Nat.mod_eq_of_lt (by
      change memoryMib.toNat * 1024 < 2 ^ 32
      omega)

/-- What a call says of the KDF: one derivation within the bounds, or an error without any, and
    never that the parameters were invalid. -/
structure Bounded {ε α : Type} (invalid : ε) (outcome : Except ε α × List Derivation) : Prop where
  runs : (∃ d, outcome.2 = [d] ∧ d.InBounds) ∨ outcome.2 = [] ∧ ∃ error, outcome.1 = .error error
  valid : outcome.1 ≠ .error invalid

theorem bounded_error {ε α : Type} {invalid error : ε} (h : error ≠ invalid) :
    Bounded invalid ((.error error, []) : Except ε α × List Derivation) where
  runs := .inr ⟨rfl, error, rfl⟩
  valid := fun heq => h (Except.error.inj heq)

theorem MasterPasswordUnlockData.unlockUserKey_bounded (hK : K.TakesParams)
    (unlock : MasterPasswordUnlockData) (password : Str) :
    Bounded .invalidArgon2Parameters (unlock.unlockUserKey K P password) := by
  unfold MasterPasswordUnlockData.unlockUserKey
  obtain ⟨-, h⟩ | ⟨-, -, error, herror, h⟩ | ⟨-, hbounds, h⟩ :=
    deriveMasterKey_eq hK password unlock.salt unlock.kdf
  · rw [h]
    exact bounded_error nofun
  · rw [h]
    exact bounded_error (KdfConfig.validateForPrelogin_error herror)
  · rw [h]
    refine ⟨.inl ⟨_, rfl, hbounds.derivation⟩, ?_⟩
    intro heq
    obtain heq | ⟨masterKey, -, heq⟩ := bind_eq_error.mp heq
    · cases KdfConfig.derive_error heq
    · exact unwrapUserKeyWithMasterKey_error heq rfl

theorem unlockSession_bounded (hK : K.TakesParams) (masterPassword : Str)
    (response : TokenResponse) :
    Bounded (.keyDerivation .invalidArgon2Parameters)
      (unlockSession K P masterPassword response) := by
  unfold unlockSession
  split
  · exact bounded_error nofun
  · split
    · exact bounded_error nofun
    · rename_i unlockData _
      have hunlock := unlockData.unlockUserKey_bounded (P := P) hK masterPassword
      refine ⟨?_, ?_⟩
      · rcases hunlock.runs with hrun | ⟨hnone, error, herror⟩
        · exact .inl hrun
        · refine .inr ⟨hnone, .keyDerivation error, ?_⟩
          dsimp only
          rw [herror]
          rfl
      · intro heq
        obtain heq | ⟨_, -, heq⟩ := bind_eq_error.mp heq
        · obtain ⟨error, herror, hkind⟩ := mapError_eq_error.mp heq
          cases hkind
          exact hunlock.valid herror
        · cases heq

theorem loginWithApiKey_bounded (hK : K.TakesParams) (crate : UrlCrate) (http : Transport)
    (endpoints : BitwardenEndpoints) (masterPassword : Str) :
    Bounded (.keyDerivation .invalidArgon2Parameters)
      (loginWithApiKey K P crate http endpoints masterPassword) := by
  unfold loginWithApiKey
  split
  · exact bounded_error nofun
  · split
    · exact bounded_error nofun
    · exact unlockSession_bounded hK masterPassword _

/-- No response makes the client derive outside the bounds. -/
theorem kdf_parameters_are_bounded (K : KdfPrimitives) (hK : K.TakesParams) (P : Primitives)
    (masterPassword : Str) (response : TokenResponse) :
    ((∃ d, (unlockSession K P masterPassword response).2 = [d] ∧ d.InBounds) ∨
      (unlockSession K P masterPassword response).2 = [] ∧
        ∃ error, (unlockSession K P masterPassword response).1 = .error error) ∧
    (unlockSession K P masterPassword response).1 ≠
      .error (.keyDerivation .invalidArgon2Parameters) ∧
    ∀ iterations memoryMib parallelism,
      (KdfConfig.argon2id iterations memoryMib parallelism).validateForPrelogin = .ok () →
        checkedMul memoryMib 1024 = some (memoryMib * 1024) ∧
          (memoryMib * 1024).toNat = memoryMib.toNat * 1024 := by
  have hbounded := unlockSession_bounded (P := P) hK masterPassword response
  refine ⟨hbounded.runs, hbounded.valid, ?_⟩
  intro iterations memoryMib parallelism hvalid
  have hbounds := KdfConfig.validateForPrelogin_eq_ok.mp hvalid
  obtain ⟨hmul, hkib, -⟩ := KdfConfig.memory_accepted hK hbounds
  exact ⟨hmul, hkib⟩

end Bounds

def argon2Response (memoryMib : UInt32) : TokenResponse :=
  ⟨"token".toList, some 3600, none,
    some ⟨some ⟨⟨1, 2, some memoryMib, some 1⟩, some "2.invalid".toList, none, "a@b.cd".toList⟩⟩⟩

theorem least_memory_is_derived : zeroKdf.TakesParams ∧
    ∃ d, (unlockSession zeroKdf plainPrimitives "secret".toList (argon2Response 16)).2 = [d] ∧
      d.InBounds ∧ d = .argon2id 16384 2 1 := by
  refine ⟨zeroKdf_takesParams, ?_⟩
  obtain ⟨d, hd, hbounds⟩ | ⟨hnone, -⟩ := (kdf_parameters_are_bounded zeroKdf zeroKdf_takesParams
    plainPrimitives "secret".toList (argon2Response 16)).1
  · refine ⟨d, hd, hbounds, ?_⟩
    have hrun : (unlockSession zeroKdf plainPrimitives "secret".toList (argon2Response 16)).2 =
        [.argon2id 16384 2 1] := by decide
    rw [hrun] at hd
    exact (List.cons.inj hd).1.symm
  · exact absurd hnone (by decide)

/-! ## What prelogin hands out -/

/-- The parameters that the response gives for its KDF are within the bounds, if it gives them all. -/
def PreloginResponse.InBounds (response : PreloginResponse) : Prop :=
  (response.kdf = 0 →
    5000 ≤ response.kdfIterations.toNat ∧ response.kdfIterations.toNat ≤ 2000000) ∧
  (response.kdf = 1 → ∀ memoryMib parallelism, response.kdfMemory = some memoryMib →
    response.kdfParallelism = some parallelism →
      (2 ≤ response.kdfIterations.toNat ∧ response.kdfIterations.toNat ≤ 10) ∧
        (16 ≤ memoryMib.toNat ∧ memoryMib.toNat ≤ 1024) ∧
        (1 ≤ parallelism.toNat ∧ parallelism.toNat ≤ 16))

def PreloginResponse.OutOfBounds (response : PreloginResponse) : Prop :=
  (response.kdf = 0 ∧
    ¬ (5000 ≤ response.kdfIterations.toNat ∧ response.kdfIterations.toNat ≤ 2000000)) ∨
  (response.kdf = 1 ∧
    (¬ (2 ≤ response.kdfIterations.toNat ∧ response.kdfIterations.toNat ≤ 10) ∨
      (∃ memoryMib, response.kdfMemory = some memoryMib ∧
        ¬ (16 ≤ memoryMib.toNat ∧ memoryMib.toNat ≤ 1024)) ∨
      ∃ parallelism, response.kdfParallelism = some parallelism ∧
        ¬ (1 ≤ parallelism.toNat ∧ parallelism.toNat ≤ 16)))

theorem kdfFromParts_eq_ok {kdfType : UInt8} {iterations : UInt32}
    {memory parallelism : Option UInt32} {kdf : KdfConfig} :
    kdfFromParts kdfType iterations memory parallelism = .ok kdf ↔
      (kdfType = 0 ∧ kdf = .pbkdf2Sha256 iterations) ∨
      (kdfType = 1 ∧ ∃ m p, memory = some m ∧ parallelism = some p ∧
        kdf = .argon2id iterations m p) := by
  unfold kdfFromParts
  split
  · rename_i hzero
    subst hzero
    simp [eq_comm]
  · rename_i hzero
    split
    · rename_i hone
      subst hone
      cases memory with
      | none => simp
      | some m =>
        cases parallelism with
        | none => simp
        | some p => simp [eq_comm]
    · rename_i hone
      simp [hzero, hone]

theorem prelogin_eq_ok {crate : UrlCrate} {http : Transport} {endpoints : BitwardenEndpoints}
    {kdf : KdfConfig} :
    prelogin crate http endpoints = .ok kdf ↔
      ∃ url response, preloginUrl crate endpoints = .ok url ∧
        decodeJson http deserializePrelogin "prelogin" (http.server url) = .ok response ∧
        response.tryInto = .ok kdf := by
  unfold prelogin
  simp only [bind_eq_ok, mapError_eq_ok]
  constructor
  · rintro ⟨url, hurl, response, hresponse, hkdf⟩
    exact ⟨url, response, hurl, hresponse, hkdf⟩
  · rintro ⟨url, response, hurl, hresponse, hkdf⟩
    exact ⟨url, hurl, response, hresponse, hkdf⟩

theorem PreloginResponse.inBounds_iff {response : PreloginResponse} :
    response.InBounds ↔ ∀ kdf, response.tryInto = .ok kdf → kdf.InBounds := by
  constructor
  · rintro ⟨hpbkdf2, hargon2⟩ kdf hkdf
    obtain ⟨hzero, rfl⟩ | ⟨hone, m, p, hm, hp, rfl⟩ := kdfFromParts_eq_ok.mp hkdf
    · exact hpbkdf2 hzero
    · exact hargon2 hone m p hm hp
  · intro h
    refine ⟨?_, ?_⟩
    · intro hzero
      exact h (.pbkdf2Sha256 response.kdfIterations) (kdfFromParts_eq_ok.mpr (.inl ⟨hzero, rfl⟩))
    · intro hone m p hm hp
      exact h (.argon2id response.kdfIterations m p)
        (kdfFromParts_eq_ok.mpr (.inr ⟨hone, m, p, hm, hp, rfl⟩))

theorem PreloginResponse.not_outOfBounds {response : PreloginResponse} {kdf : KdfConfig}
    (hkdf : response.tryInto = .ok kdf) (hbounds : kdf.InBounds) : ¬ response.OutOfBounds := by
  obtain ⟨hzero, rfl⟩ | ⟨hone, m, p, hm, hp, rfl⟩ := kdfFromParts_eq_ok.mp hkdf
  · rintro (⟨-, hout⟩ | ⟨hone, -⟩)
    · exact hout hbounds
    · rw [hzero] at hone
      cases hone
  · obtain ⟨hiterations, hmemory, hparallelism⟩ := hbounds
    rintro (⟨hzero, -⟩ | ⟨-, hout | ⟨memoryMib, hm', hout⟩ | ⟨parallelism, hp', hout⟩⟩)
    · rw [hone] at hzero
      cases hzero
    · exact hout hiterations
    · obtain rfl : m = memoryMib := Option.some.inj (hm.symm.trans hm')
      exact hout hmemory
    · obtain rfl : p = parallelism := Option.some.inj (hp.symm.trans hp')
      exact hout hparallelism

/-- `prelogin` returns what it decodes: the server alone decides whether it is validated. -/
theorem prelogin_hands_out_validated_iff (crate : UrlCrate) (http : Transport)
    (endpoints : BitwardenEndpoints) :
    ((∀ kdf, prelogin crate http endpoints = .ok kdf → kdf.validateForPrelogin = .ok ()) ∧
      ∀ url response, preloginUrl crate endpoints = .ok url →
        decodeJson http deserializePrelogin "prelogin" (http.server url) = .ok response →
        response.OutOfBounds → ∃ error, prelogin crate http endpoints = .error error) ↔
    ∀ url response, preloginUrl crate endpoints = .ok url →
      decodeJson http deserializePrelogin "prelogin" (http.server url) = .ok response →
      response.InBounds := by
  constructor
  · rintro ⟨hvalid, -⟩ url response hurl hresponse
    refine PreloginResponse.inBounds_iff.mpr ?_
    intro kdf hkdf
    have hprelogin := prelogin_eq_ok.mpr ⟨url, response, hurl, hresponse, hkdf⟩
    exact KdfConfig.validateForPrelogin_eq_ok.mp (hvalid kdf hprelogin)
  · intro h
    refine ⟨?_, ?_⟩
    · intro kdf hprelogin
      obtain ⟨url, response, hurl, hresponse, hkdf⟩ := prelogin_eq_ok.mp hprelogin
      have hbounds := PreloginResponse.inBounds_iff.mp (h url response hurl hresponse) kdf hkdf
      exact KdfConfig.validateForPrelogin_eq_ok.mpr hbounds
    · intro url response hurl hresponse hout
      cases hprelogin : prelogin crate http endpoints with
      | error error => exact ⟨error, rfl⟩
      | ok kdf =>
        obtain ⟨url', response', hurl', hresponse', hkdf⟩ := prelogin_eq_ok.mp hprelogin
        obtain rfl : url = url' := Except.ok.inj (hurl.symm.trans hurl')
        obtain rfl : response = response' := Except.ok.inj (hresponse.symm.trans hresponse')
        have hbounds := PreloginResponse.inBounds_iff.mp (h url response hurl hresponse) kdf hkdf
        exact absurd hout (PreloginResponse.not_outOfBounds hkdf hbounds)

def answering (body : Bytes) (tree : Json) : Transport where
  parseJson := fun bytes => if bytes = body then some tree else none
  server := fun _ => .answered 200 (some body)

def downgraded : Transport :=
  answering (asBytes "\x7b\"kdf\":0,\"kdfIterations\":1\x7d".toList)
    (.obj [("kdf".toList, .int 0), ("kdfIterations".toList, .int 1)])

theorem downgraded_kdf_is_handed_out :
    let endpoints := BitwardenEndpoints.fromSingleOrigin vaultCrate ⟨vaultUrl⟩
    prelogin vaultCrate downgraded endpoints = .ok (.pbkdf2Sha256 1) ∧
      (KdfConfig.pbkdf2Sha256 1).validateForPrelogin ≠ .ok () := by
  decide

end VaultwardenEso.Client
