import VaultwardenEso.CryptoRecorded
import VaultwardenEso.Login

set_option autoImplicit false

/-!
# What a login opens

The user key never travels in the clear: the server keeps it wrapped under a key that is
stretched from the master password. A login hands out a session for exactly the keys that such
a string authenticates.
-/
namespace VaultwardenEso.Client
open RustStr RustResult RustUrl BwesoCore Crypto Serde

/-- The wrapped user key that is read: the newer member before the older one. -/
def MasterPasswordUnlockResponse.wrappedUserKey (unlock : MasterPasswordUnlockResponse) :
    Option Str :=
  unlock.masterKeyWrappedUserKey.or unlock.masterKeyEncryptedUserKey

def MasterPasswordUnlockResponse.kdfConfig (unlock : MasterPasswordUnlockResponse) :
    Except BitwardenApiError KdfConfig :=
  kdfFromParts unlock.kdf.kdfType unlock.kdf.iterations unlock.kdf.memory unlock.kdf.parallelism

def TokenResponse.unlock (response : TokenResponse) : Option MasterPasswordUnlockResponse :=
  response.userDecryptionOptions.bind (·.masterPasswordUnlock)

def TokenResponse.session (response : TokenResponse) (userKey : AuthenticatedSymmetricKey) :
    BitwardenSession :=
  ⟨response.accessToken, response.expiresIn.map UInt64.toNat,
    response.tokenType.getD "Bearer".toList, userKey⟩

section Keys
variable (K : KdfPrimitives) (P : Primitives)

/-- `wrappingKey` is stretched from the password, at costs within the bounds. -/
def StretchesTo (password : Str) (unlock : MasterPasswordUnlockResponse)
    (wrappingKey : AuthenticatedSymmetricKey) : Prop :=
  password ≠ [] ∧ ∃ kdf masterKey, unlock.kdfConfig = .ok kdf ∧ kdf.InBounds ∧
    kdf.derive K password unlock.salt = .ok masterKey ∧
    stretchMasterKey K masterKey = .ok wrappingKey

/-- `wrapped` is an authentic string under `wrappingKey`, of the 64 bytes of `key`. -/
def Wraps (wrappingKey key : AuthenticatedSymmetricKey) (wrapped : Str) : Prop :=
  ∃ e, EncryptedString.fromStr P wrapped = .ok e ∧ Authentic P wrappingKey e ∧
    P.aes256CbcDecrypt wrappingKey.encryptionKey e.iv e.data = some key.bytes

/-- The password opens the wrapped user key of the response, and `userKey` is in it. -/
def OpensUserKey (password : Str) (unlock : MasterPasswordUnlockResponse)
    (userKey : AuthenticatedSymmetricKey) : Prop :=
  ∃ wrapped wrappingKey, unlock.wrappedUserKey = some wrapped ∧
    StretchesTo K password unlock wrappingKey ∧ Wraps P wrappingKey userKey wrapped

end Keys

variable {K : KdfPrimitives} {P : Primitives} {E : Encoders}

/-! ## Each function -/

theorem deriveMasterKey_eq_ok (hK : K.TakesParams) {password salt : Str} {kdf : KdfConfig}
    {masterKey : MasterKey} :
    (deriveMasterKey K password salt kdf).1 = .ok masterKey ↔
      password ≠ [] ∧ kdf.InBounds ∧ kdf.derive K password salt = .ok masterKey := by
  obtain ⟨hempty, h⟩ | ⟨-, hbounds, error, -, h⟩ | ⟨hpassword, hbounds, h⟩ :=
    deriveMasterKey_eq hK password salt kdf
  · rw [h]
    simp [hempty]
  · rw [h]
    simp [hbounds]
  · rw [h]
    simp [hpassword, hbounds]

theorem unwrapUserKeyWithMasterKey_eq_ok {masterKey : MasterKey} {wrapped : Str}
    {userKey : AuthenticatedSymmetricKey} :
    unwrapUserKeyWithMasterKey K P masterKey wrapped = .ok userKey ↔
      ∃ wrappingKey, stretchMasterKey K masterKey = .ok wrappingKey ∧
        Wraps P wrappingKey userKey wrapped := by
  unfold unwrapUserKeyWithMasterKey Wraps
  simp only [bind_eq_ok, mapError_eq_ok, EncryptedString.decryptBytes_eq_ok,
    AuthenticatedSymmetricKey.tryFrom_eq_ok]
  refine exists_congr fun wrappingKey => and_congr_right fun _ => exists_congr fun e =>
    and_congr_right fun _ => ?_
  constructor
  · intro h
    obtain ⟨plain, ⟨hauthentic, hplain⟩, rfl⟩ := h
    exact ⟨hauthentic, hplain⟩
  · intro h
    exact ⟨userKey.bytes, h, rfl⟩

theorem MasterPasswordUnlockData.unlockUserKey_eq_ok (hK : K.TakesParams)
    {unlock : MasterPasswordUnlockData} {password : Str} {userKey : AuthenticatedSymmetricKey} :
    (unlock.unlockUserKey K P password).1 = .ok userKey ↔
      password ≠ [] ∧ unlock.kdf.InBounds ∧ ∃ masterKey wrappingKey,
        unlock.kdf.derive K password unlock.salt = .ok masterKey ∧
        stretchMasterKey K masterKey = .ok wrappingKey ∧
        Wraps P wrappingKey userKey unlock.masterKeyWrappedUserKey := by
  have hbind : (unlock.unlockUserKey K P password).1 =
      (deriveMasterKey K password unlock.salt unlock.kdf).1 >>= fun masterKey =>
        unwrapUserKeyWithMasterKey K P masterKey unlock.masterKeyWrappedUserKey := rfl
  rw [hbind, bind_eq_ok]
  simp only [deriveMasterKey_eq_ok hK, unwrapUserKeyWithMasterKey_eq_ok]
  constructor
  · intro h
    obtain ⟨masterKey, ⟨hpassword, hbounds, hderive⟩, wrappingKey, hstretch, hwraps⟩ := h
    exact ⟨hpassword, hbounds, masterKey, wrappingKey, hderive, hstretch, hwraps⟩
  · intro h
    obtain ⟨hpassword, hbounds, masterKey, wrappingKey, hderive, hstretch, hwraps⟩ := h
    exact ⟨masterKey, ⟨hpassword, hbounds, hderive⟩, wrappingKey, hstretch, hwraps⟩

theorem MasterPasswordUnlockData.tryFrom_eq_ok {unlock : MasterPasswordUnlockResponse}
    {data : MasterPasswordUnlockData} :
    MasterPasswordUnlockData.tryFrom unlock = .ok data ↔
      unlock.wrappedUserKey = some data.masterKeyWrappedUserKey ∧
        unlock.kdfConfig = .ok data.kdf ∧ unlock.salt = data.salt := by
  unfold MasterPasswordUnlockData.tryFrom MasterPasswordUnlockResponse.wrappedUserKey
    MasterPasswordUnlockResponse.kdfConfig
  cases unlock.masterKeyWrappedUserKey.or unlock.masterKeyEncryptedUserKey with
  | none => simp
  | some wrapped =>
    simp only [bind_eq_ok, pure_eq_ok, Option.some.injEq]
    constructor
    · intro h
      obtain ⟨kdf, hkdf, rfl⟩ := h
      exact ⟨rfl, hkdf, rfl⟩
    · intro h
      obtain ⟨rfl, hkdf, hsalt⟩ := h
      exact ⟨data.kdf, hkdf, by rw [hsalt]⟩

theorem unlockSession_eq_ok (hK : K.TakesParams) {password : Str} {response : TokenResponse}
    {session : BitwardenSession} :
    (unlockSession K P password response).1 = .ok session ↔
      ∃ unlock, response.unlock = some unlock ∧ OpensUserKey K P password unlock session.userKey ∧
        session = response.session session.userKey := by
  unfold unlockSession
  change _ ↔ ∃ unlock, response.userDecryptionOptions.bind (·.masterPasswordUnlock) = some unlock ∧ _
  cases response.userDecryptionOptions.bind (·.masterPasswordUnlock) with
  | none => simp
  | some unlock =>
    simp only [Option.some.injEq, exists_eq_left']
    cases hdata : MasterPasswordUnlockData.tryFrom unlock with
    | error error =>
      simp only [reduceCtorEq, false_iff]
      intro h
      obtain ⟨⟨wrapped, wrappingKey, hwrapped, ⟨-, kdf, -, hkdf, -⟩, -⟩, -⟩ := h
      have hok : MasterPasswordUnlockData.tryFrom unlock = .ok ⟨unlock.salt, kdf, wrapped⟩ :=
        MasterPasswordUnlockData.tryFrom_eq_ok.mpr ⟨hwrapped, hkdf, rfl⟩
      rw [hdata] at hok
      cases hok
    | ok data =>
      obtain ⟨hwrapped, hkdf, hsalt⟩ := MasterPasswordUnlockData.tryFrom_eq_ok.mp hdata
      dsimp only
      rw [bind_eq_ok]
      simp only [mapError_eq_ok, data.unlockUserKey_eq_ok hK, pure_eq_ok]
      constructor
      · intro h
        obtain ⟨userKey, ⟨hpassword, hbounds, masterKey, wrappingKey, hderive, hstretch, hwraps⟩,
          rfl⟩ := h
        rw [← hsalt] at hderive
        exact ⟨⟨_, wrappingKey, hwrapped, ⟨hpassword, data.kdf, masterKey, hkdf, hbounds, hderive,
          hstretch⟩, hwraps⟩, rfl⟩
      · intro h
        obtain ⟨⟨wrapped, wrappingKey, hwrapped', ⟨hpassword, kdf, masterKey, hkdf', hbounds,
          hderive, hstretch⟩, hwraps⟩, hsession⟩ := h
        obtain rfl : data.kdf = kdf := Except.ok.inj (hkdf.symm.trans hkdf')
        obtain rfl : data.masterKeyWrappedUserKey = wrapped :=
          Option.some.inj (hwrapped.symm.trans hwrapped')
        rw [hsalt] at hderive
        exact ⟨session.userKey, ⟨hpassword, hbounds, masterKey, wrappingKey, hderive, hstretch,
          hwraps⟩, hsession.symm⟩

theorem loginWithApiKey_eq_ok (hK : K.TakesParams) {crate : UrlCrate} {http : Transport}
    {endpoints : BitwardenEndpoints} {masterPassword : Str} {session : BitwardenSession} :
    (loginWithApiKey K P crate http endpoints masterPassword).1 = .ok session ↔
      ∃ url response unlock, tokenUrl crate endpoints = .ok url ∧
        decodeJson http deserializeToken "token" (http.server url) = .ok response ∧
        response.unlock = some unlock ∧ OpensUserKey K P masterPassword unlock session.userKey ∧
        session = response.session session.userKey := by
  unfold loginWithApiKey
  cases tokenUrl crate endpoints with
  | error error => simp
  | ok url =>
    cases hanswer : decodeJson http deserializeToken "token" (http.server url) with
    | error error => simp [hanswer]
    | ok response =>
      simp only [hanswer, unlockSession_eq_ok hK, Except.ok.injEq]
      constructor
      · intro h
        obtain ⟨unlock, hunlock, hopens, hsession⟩ := h
        exact ⟨url, response, unlock, rfl, hanswer, hunlock, hopens, hsession⟩
      · intro h
        obtain ⟨_, response', unlock, rfl, hanswer', hunlock, hopens, hsession⟩ := h
        obtain rfl : response = response' := Except.ok.inj (hanswer.symm.trans hanswer')
        exact ⟨unlock, hunlock, hopens, hsession⟩

/-! ## Keys that were wrapped -/

theorem wraps_of_seals (hE : Inverts P E) {wrappingKey key : AuthenticatedSymmetricKey}
    {wrapped : Str} (h : SealsBytes P E wrappingKey key.bytes wrapped) :
    Wraps P wrappingKey key wrapped := by
  obtain ⟨e, he, hplain⟩ := h.decryptBytes hE
  exact ⟨e, he, (EncryptedString.decryptBytes_eq_ok P).mp hplain⟩

theorem login_opens_wrapped_keys (hK : K.TakesParams) (hE : Inverts P E) (crate : UrlCrate)
    (http : Transport) (endpoints : BitwardenEndpoints) (masterPassword : Str) :
    (∀ session, (loginWithApiKey K P crate http endpoints masterPassword).1 = .ok session ↔
      ∃ url response unlock, tokenUrl crate endpoints = .ok url ∧
        decodeJson http deserializeToken "token" (http.server url) = .ok response ∧
        response.unlock = some unlock ∧ OpensUserKey K P masterPassword unlock session.userKey ∧
        session = response.session session.userKey) ∧
    ∀ url response unlock wrapped wrappingKey userKey, tokenUrl crate endpoints = .ok url →
      decodeJson http deserializeToken "token" (http.server url) = .ok response →
      response.unlock = some unlock → unlock.wrappedUserKey = some wrapped →
      StretchesTo K masterPassword unlock wrappingKey →
      SealsBytes P E wrappingKey userKey.bytes wrapped →
        (loginWithApiKey K P crate http endpoints masterPassword).1 =
          .ok (response.session userKey) := by
  refine ⟨fun session => loginWithApiKey_eq_ok hK, ?_⟩
  intro url response unlock wrapped wrappingKey userKey hurl hresponse hunlock hwrapped hstretches
    hseals
  have hopens : OpensUserKey K P masterPassword unlock userKey :=
    ⟨wrapped, wrappingKey, hwrapped, hstretches, wraps_of_seals hE hseals⟩
  exact (loginWithApiKey_eq_ok hK).mpr ⟨url, response, unlock, hurl, hresponse, hunlock, hopens, rfl⟩

/-! ## The account of the repository's fixtures -/

def fixturePassword : Str := "correct horse battery staple".toList

def fixtureMasterKey : Bytes :=
  [82, 206, 45, 51, 224, 7, 167, 193, 91, 62, 48, 131, 197, 81, 252, 255, 151, 218, 131, 4, 95, 168,
    12, 198, 187, 189, 44, 188, 82, 198, 240, 132]

def fixtureWrappingKey : AuthenticatedSymmetricKey where
  encryptionKey := [131, 183, 157, 140, 79, 87, 242, 230, 171, 4, 228, 66, 124, 63, 204, 13, 155,
    222, 255, 152, 18, 84, 165, 53, 163, 223, 43, 210, 164, 223, 132, 167]
  authenticationKey := [1, 97, 73, 169, 235, 145, 42, 61, 154, 65, 196, 179, 135, 138, 131, 62, 60,
    172, 136, 254, 239, 153, 220, 75, 26, 98, 88, 113, 97, 19, 232, 129]
  encryptionKey_length := by decide
  authenticationKey_length := by decide

def fixtureUserKey : AuthenticatedSymmetricKey :=
  ⟨(List.range' 128 32).map UInt8.ofNat, (List.range' 160 32).map UInt8.ofNat, by decide, by decide⟩

def fixtureKeyIv : Bytes := (List.range' 192 16).map UInt8.ofNat

def fixtureWrapped : Bytes :=
  [59, 52, 147, 205, 11, 20, 188, 97, 38, 210, 195, 199, 147, 250, 255, 235, 240, 1, 60, 94, 167, 145,
    224, 121, 220, 241, 142, 192, 183, 15, 170, 212, 102, 15, 126, 240, 21, 251, 20, 141, 44, 14, 111,
    245, 223, 139, 233, 55, 64, 157, 6, 176, 29, 84, 149, 97, 36, 169, 222, 112, 209, 51, 13, 105, 159,
    253, 156, 235, 241, 221, 96, 212, 143, 189, 196, 204, 49, 201, 31, 140]

def fixtureNameIv : Bytes := (List.range' 208 16).map UInt8.ofNat

def fixtureName : Bytes := [127, 23, 251, 85, 35, 8, 138, 187, 59, 42, 0, 153, 170, 79, 23, 72]

def fixtureRecording : Recording where
  cbc := [⟨fixtureWrappingKey.encryptionKey, fixtureKeyIv, fixtureUserKey.bytes, fixtureWrapped⟩,
    ⟨fixtureUserKey.encryptionKey, fixtureNameIv, asBytes "app/database".toList, fixtureName⟩]
  hmac := [⟨fixtureWrappingKey.authenticationKey, fixtureKeyIv ++ fixtureWrapped,
      [236, 150, 213, 121, 188, 167, 174, 165, 136, 200, 211, 46, 127, 10, 228, 224, 173, 122, 116, 28,
        104, 92, 160, 117, 60, 21, 254, 11, 19, 96, 56, 97]⟩,
    ⟨fixtureUserKey.authenticationKey, fixtureNameIv ++ fixtureName,
      [119, 201, 198, 232, 149, 101, 26, 184, 55, 101, 165, 68, 153, 35, 36, 33, 64, 110, 255, 17, 151,
        192, 190, 67, 164, 139, 228, 155, 234, 117, 228, 158]⟩]

theorem fixtureRecording_consistent : fixtureRecording.Consistent := by
  unfold Recording.Consistent
  decide +kernel

def toKey (bytes : Bytes) : Vector UInt8 32 := Vector.ofFn (fun i => bytes.getD i 0)

/-- The derivations of the fixtures, and zeros off them. -/
def fixtureKdf : KdfPrimitives :=
  { zeroKdf with
    pbkdf2HmacSha256 := fun password salt iterations =>
      if password = asBytes fixturePassword ∧ salt = asBytes "user@example.com".toList ∧
          iterations = 5000 then toKey fixtureMasterKey
      else toKey []
    hkdfSha256 := fun prk => some (fun info => some (
      if prk = fixtureMasterKey ∧ info = asBytes "enc".toList then
        toKey fixtureWrappingKey.encryptionKey
      else if prk = fixtureMasterKey ∧ info = asBytes "mac".toList then
        toKey fixtureWrappingKey.authenticationKey
      else toKey [])) }

def fixtureUnlock : MasterPasswordUnlockResponse where
  kdf := ⟨0, 5000, none, none⟩
  masterKeyWrappedUserKey := some ("2.wMHCw8TFxsfIycrLzM3Ozw==|O".toList ++
    "zSTzQsUvGEm0sPHk/r/6/ABPF6nk".toList ++ "eB53PGOwLcPqtRmD37wFfsUjSwOb".toList ++
    "/Xfi+k3QJ0GsB1UlWEkqd5w0TMNa".toList ++ "Z/9nOvx3WDUj73EzDHJH4w=|7JbV".toList ++
    "ebynrqWIyNMufwrk4K16dBxoXKB1".toList ++ "PBX+CxNgOGE=".toList)
  masterKeyEncryptedUserKey := none
  salt := " User@Example.COM ".toList

def fixtureResponse : TokenResponse :=
  ⟨"access-token".toList, some 3600, none, some ⟨some fixtureUnlock⟩⟩

def tokenDocument : Json :=
  .obj [("access_token".toList, .str "access-token".toList), ("expires_in".toList, .int 3600),
    ("UserDecryptionOptions".toList, .obj [("masterPasswordUnlock".toList, .obj [
      ("kdf".toList, .obj [("kdfType".toList, .int 0), ("iterations".toList, .int 5000)]),
      ("masterKeyWrappedUserKey".toList, .str (fixtureUnlock.masterKeyWrappedUserKey.getD [])),
      ("salt".toList, .str fixtureUnlock.salt)])])]

def fixtureServer (other : Json) : Transport where
  parseJson := fun bytes => if bytes = asBytes "token".toList then some tokenDocument else some other
  server := fun url => .answered 200 (some (asBytes (
    if url.path = "/base/identity/connect/token".toList then "token".toList else "other".toList)))

theorem fixtureKdf_takesParams : fixtureKdf.TakesParams := zeroKdf_takesParams

theorem fixture_stretches : StretchesTo fixtureKdf fixturePassword fixtureUnlock fixtureWrappingKey :=
  ⟨by decide, .pbkdf2Sha256 5000, ⟨toKey fixtureMasterKey⟩, rfl,
    KdfConfig.validateForPrelogin_eq_ok.mp (by decide), by decide +kernel, by decide +kernel⟩

theorem fixture_logs_in :
    (loginWithApiKey fixtureKdf fixtureRecording.primitives vaultCrate (fixtureServer .null)
      (.fromSingleOrigin vaultCrate ⟨vaultUrl⟩) fixturePassword).1 =
        .ok ⟨"access-token".toList, some 3600, "Bearer".toList, fixtureUserKey⟩ :=
  (login_opens_wrapped_keys fixtureKdf_takesParams
    (Recording.inverts fixtureRecording_consistent) vaultCrate (fixtureServer .null)
    (.fromSingleOrigin vaultCrate ⟨vaultUrl⟩) fixturePassword).2
      (withPath vaultUrl "/base/identity/connect/token".toList) fixtureResponse fixtureUnlock _
      fixtureWrappingKey fixtureUserKey (by decide) (by decide +kernel) rfl rfl fixture_stretches
      ⟨fixtureKeyIv, _, by decide, rfl, by decide +kernel⟩

end VaultwardenEso.Client
