import VaultwardenEso.Client

set_option autoImplicit false

/-!
# Master keys: `keys.rs`

The derivation functions are other crates' and a parameter. Every run of a password KDF is
noted with the costs it was given.
-/
namespace VaultwardenEso.Client
open RustStr RustResult Crypto

def masterKeyLength : ℕ := 32
def pbkdf2PreloginIterationsMin : UInt32 := 5000
def pbkdf2PreloginIterationsMax : UInt32 := 2000000
def argon2PreloginIterationsMin : UInt32 := 2
def argon2PreloginIterationsMax : UInt32 := 10
def argon2PreloginMemoryMibMin : UInt32 := 16
def argon2PreloginMemoryMibMax : UInt32 := 1024
def argon2PreloginParallelismMin : UInt32 := 1
def argon2PreloginParallelismMax : UInt32 := 16

inductive KdfConfig where
  | pbkdf2Sha256 (iterations : UInt32)
  | argon2id (iterations memoryMib parallelism : UInt32)
  deriving DecidableEq, Repr

def validateKdfBounds (parameter : String) (actual minimum maximum : UInt32) :
    Except KeyDerivationError Unit :=
  if actual < minimum then .error (.kdfDowngrade parameter actual.toNat minimum.toNat)
  else if actual > maximum then .error (.kdfTooExpensive parameter actual.toNat maximum.toNat)
  else .ok ()

def KdfConfig.validateForPrelogin : KdfConfig → Except KeyDerivationError Unit
  | .pbkdf2Sha256 iterations => validateKdfBounds "pbkdf2_iterations" iterations
      pbkdf2PreloginIterationsMin pbkdf2PreloginIterationsMax
  | .argon2id iterations memoryMib parallelism => do
    validateKdfBounds "argon2_iterations" iterations
      argon2PreloginIterationsMin argon2PreloginIterationsMax
    validateKdfBounds "argon2_memory_mib" memoryMib
      argon2PreloginMemoryMibMin argon2PreloginMemoryMibMax
    validateKdfBounds "argon2_parallelism" parallelism
      argon2PreloginParallelismMin argon2PreloginParallelismMax

/-- The key derivation crates, and the case mapping of Unicode. -/
structure KdfPrimitives where
  /-- `str::to_lowercase`. -/
  toLowercase : Str → Str
  /-- `pbkdf2_hmac::<Sha256>` of a password and a salt, into 32 bytes. -/
  pbkdf2HmacSha256 : Bytes → Bytes → UInt32 → Vector UInt8 masterKeyLength
  /-- Whether `argon2::Params::new` takes a memory cost in KiB, a time cost, a number of lanes
      and an output length. -/
  argon2Params : UInt32 → UInt32 → UInt32 → ℕ → Bool
  /-- `hash_password_into` of Argon2id with such parameters, into 32 bytes. -/
  argon2id : UInt32 → UInt32 → UInt32 → Bytes → Bytes → Option (Vector UInt8 masterKeyLength)
  /-- `Hkdf::<Sha256>::from_prk`, then `expand` of an info text into 32 bytes. -/
  hkdfSha256 : Bytes → Option (Bytes → Option (Vector UInt8 aes256KeyLength))

inductive Derivation where
  | pbkdf2 (iterations : UInt32)
  | argon2id (memoryKib iterations parallelism : UInt32)
  deriving DecidableEq, Repr

structure MasterKey where
  bytes : Vector UInt8 masterKeyLength
  deriving DecidableEq

def checkedMul (a b : UInt32) : Option UInt32 :=
  if a.toNat * b.toNat < 2 ^ 32 then some (a * b) else none

section Derive
variable (K : KdfPrimitives)

def normalizeMasterPasswordSalt (salt : Str) : Str := K.toLowercase (trim salt)

/-- The master key or the error, and the derivations that were run for it. -/
def deriveMasterKey (password salt : Str) (kdf : KdfConfig) :
    Except KeyDerivationError MasterKey × List Derivation :=
  if password = [] then (.error .emptyPassword, [])
  else match kdf.validateForPrelogin with
    | .error error => (.error error, [])
    | .ok () => match kdf with
      | .pbkdf2Sha256 iterations =>
        let normalizedSalt := normalizeMasterPasswordSalt K salt
        let derived := K.pbkdf2HmacSha256 (asBytes password) (asBytes normalizedSalt) iterations
        (.ok ⟨derived⟩, [.pbkdf2 iterations])
      | .argon2id iterations memoryMib parallelism =>
        match checkedMul memoryMib 1024 with
        | none => (.error .invalidArgon2Parameters, [])
        | some memoryKib =>
          if K.argon2Params memoryKib iterations parallelism masterKeyLength then
            let normalizedSalt := normalizeMasterPasswordSalt K salt
            let derived := K.argon2id memoryKib iterations parallelism (asBytes password)
              (asBytes normalizedSalt)
            (match derived with
              | some derived => .ok ⟨derived⟩
              | none => .error .argon2Failed,
              [.argon2id memoryKib iterations parallelism])
          else (.error .invalidArgon2Parameters, [])

def stretchMasterKey (masterKey : MasterKey) :
    Except KeyDerivationError AuthenticatedSymmetricKey :=
  match K.hkdfSha256 masterKey.bytes.toList with
  | none => .error (.invalidMasterKeyLength masterKeyLength)
  | some expand =>
    match expand (asBytes "enc".toList), expand (asBytes "mac".toList) with
    | some enc, some mac =>
      (AuthenticatedSymmetricKey.tryFrom (enc.toList ++ mac.toList)).mapError .crypto
    | _, _ => .error .hkdfExpandFailed

variable (P : Primitives)

def unwrapUserKeyWithMasterKey (masterKey : MasterKey) (encryptedUserKey : Str) :
    Except KeyDerivationError AuthenticatedSymmetricKey := do
  let wrappingKey ← stretchMasterKey K masterKey
  let encrypted ← (EncryptedString.fromStr P encryptedUserKey).mapError .crypto
  let plain ← (encrypted.decryptBytes P wrappingKey).mapError .crypto
  (AuthenticatedSymmetricKey.tryFrom plain).mapError .crypto

structure MasterPasswordUnlockData where
  salt : Str
  kdf : KdfConfig
  masterKeyWrappedUserKey : Str
  deriving DecidableEq

def MasterPasswordUnlockData.unlockUserKey (unlock : MasterPasswordUnlockData) (password : Str) :
    Except KeyDerivationError AuthenticatedSymmetricKey × List Derivation :=
  let (masterKey, derivations) := deriveMasterKey K password unlock.salt unlock.kdf
  (do
    let masterKey ← masterKey
    unwrapUserKeyWithMasterKey K P masterKey unlock.masterKeyWrappedUserKey, derivations)

end Derive

/-! ## Bounds -/

def KdfConfig.InBounds : KdfConfig → Prop
  | .pbkdf2Sha256 iterations => 5000 ≤ iterations.toNat ∧ iterations.toNat ≤ 2000000
  | .argon2id iterations memoryMib parallelism =>
    (2 ≤ iterations.toNat ∧ iterations.toNat ≤ 10) ∧
      (16 ≤ memoryMib.toNat ∧ memoryMib.toNat ≤ 1024) ∧
      (1 ≤ parallelism.toNat ∧ parallelism.toNat ≤ 16)

theorem validateKdfBounds_eq_ok {parameter : String} {actual minimum maximum : UInt32} :
    validateKdfBounds parameter actual minimum maximum = .ok () ↔
      minimum.toNat ≤ actual.toNat ∧ actual.toNat ≤ maximum.toNat := by
  unfold validateKdfBounds
  split
  · rename_i hlow
    rw [UInt32.lt_iff_toNat_lt] at hlow
    simp only [reduceCtorEq, false_iff]
    omega
  · rename_i hlow
    rw [UInt32.lt_iff_toNat_lt] at hlow
    split
    · rename_i hhigh
      rw [gt_iff_lt, UInt32.lt_iff_toNat_lt] at hhigh
      simp only [reduceCtorEq, false_iff]
      omega
    · rename_i hhigh
      rw [gt_iff_lt, UInt32.lt_iff_toNat_lt] at hhigh
      simp only [true_iff]
      omega

theorem KdfConfig.validateForPrelogin_eq_ok {kdf : KdfConfig} :
    kdf.validateForPrelogin = .ok () ↔ kdf.InBounds := by
  cases kdf with
  | pbkdf2Sha256 iterations => exact validateKdfBounds_eq_ok
  | argon2id iterations memoryMib parallelism =>
    constructor
    · intro h
      obtain ⟨_, hiterations, h⟩ := bind_eq_ok.mp h
      obtain ⟨_, hmemory, hparallelism⟩ := bind_eq_ok.mp h
      exact ⟨validateKdfBounds_eq_ok.mp hiterations, validateKdfBounds_eq_ok.mp hmemory,
        validateKdfBounds_eq_ok.mp hparallelism⟩
    · rintro ⟨hiterations, hmemory, hparallelism⟩
      exact bind_eq_ok.mpr ⟨(), validateKdfBounds_eq_ok.mpr hiterations,
        bind_eq_ok.mpr ⟨(), validateKdfBounds_eq_ok.mpr hmemory,
          validateKdfBounds_eq_ok.mpr hparallelism⟩⟩

theorem checkedMul_eq_some {a b : UInt32} (h : a.toNat * b.toNat < 2 ^ 32) :
    checkedMul a b = some (a * b) ∧ (a * b).toNat = a.toNat * b.toNat := by
  refine ⟨if_pos h, ?_⟩
  rw [UInt32.toNat_mul, Nat.mod_eq_of_lt h]

/-- What `Params::new` is documented to take. -/
def KdfPrimitives.TakesParams (K : KdfPrimitives) : Prop :=
  ∀ memoryKib iterations parallelism : UInt32, 8 * parallelism.toNat ≤ memoryKib.toNat →
    1 ≤ iterations.toNat → 1 ≤ parallelism.toNat → parallelism.toNat < 2 ^ 24 →
      K.argon2Params memoryKib iterations parallelism masterKeyLength = true

def KdfConfig.derivation : KdfConfig → Derivation
  | .pbkdf2Sha256 iterations => .pbkdf2 iterations
  | .argon2id iterations memoryMib parallelism => .argon2id (memoryMib * 1024) iterations parallelism

def KdfConfig.derive (K : KdfPrimitives) (password salt : Str) :
    KdfConfig → Except KeyDerivationError MasterKey
  | .pbkdf2Sha256 iterations =>
    .ok ⟨K.pbkdf2HmacSha256 (asBytes password) (asBytes (normalizeMasterPasswordSalt K salt))
      iterations⟩
  | .argon2id iterations memoryMib parallelism =>
    match K.argon2id (memoryMib * 1024) iterations parallelism (asBytes password)
        (asBytes (normalizeMasterPasswordSalt K salt)) with
    | some derived => .ok ⟨derived⟩
    | none => .error .argon2Failed

theorem KdfConfig.memory_accepted {K : KdfPrimitives} (hK : K.TakesParams)
    {iterations memoryMib parallelism : UInt32}
    (h : (KdfConfig.argon2id iterations memoryMib parallelism).InBounds) :
    checkedMul memoryMib 1024 = some (memoryMib * 1024) ∧
      (memoryMib * 1024).toNat = memoryMib.toNat * 1024 ∧
      K.argon2Params (memoryMib * 1024) iterations parallelism masterKeyLength = true := by
  obtain ⟨hiterations, hmemory, hparallelism⟩ := h
  obtain ⟨hmul, hkib⟩ := checkedMul_eq_some (a := memoryMib) (b := 1024) (by
    change memoryMib.toNat * 1024 < 2 ^ 32
    omega)
  change (memoryMib * 1024).toNat = memoryMib.toNat * 1024 at hkib
  exact ⟨hmul, hkib, hK _ _ _ (by omega) (by omega) (by omega) (by omega)⟩

theorem deriveMasterKey_eq {K : KdfPrimitives} (hK : K.TakesParams) (password salt : Str)
    (kdf : KdfConfig) :
    (password = [] ∧ deriveMasterKey K password salt kdf = (.error .emptyPassword, [])) ∨
    (password ≠ [] ∧ ¬ kdf.InBounds ∧ ∃ error, kdf.validateForPrelogin = .error error ∧
      deriveMasterKey K password salt kdf = (.error error, [])) ∨
    (password ≠ [] ∧ kdf.InBounds ∧
      deriveMasterKey K password salt kdf = (kdf.derive K password salt, [kdf.derivation])) := by
  by_cases hpassword : password = []
  · exact .inl ⟨hpassword, if_pos hpassword⟩
  · refine .inr ?_
    unfold deriveMasterKey
    rw [if_neg hpassword]
    cases hvalid : kdf.validateForPrelogin with
    | error error =>
      refine .inl ⟨hpassword, ?_, error, rfl, rfl⟩
      intro hbounds
      rw [KdfConfig.validateForPrelogin_eq_ok.mpr hbounds] at hvalid
      cases hvalid
    | ok _ =>
      have hbounds : kdf.InBounds := KdfConfig.validateForPrelogin_eq_ok.mp hvalid
      refine .inr ⟨hpassword, hbounds, ?_⟩
      cases kdf with
      | pbkdf2Sha256 iterations => rfl
      | argon2id iterations memoryMib parallelism =>
        obtain ⟨hmul, -, hparams⟩ := KdfConfig.memory_accepted hK hbounds
        simp only [hmul, hparams, if_true]
        rfl

/-! ## Errors -/

theorem validateKdfBounds_error {parameter : String} {actual minimum maximum : UInt32}
    {error : KeyDerivationError}
    (h : validateKdfBounds parameter actual minimum maximum = .error error) :
    error ≠ .invalidArgon2Parameters := by
  unfold validateKdfBounds at h
  split at h
  · cases h
    nofun
  · split at h
    · cases h
      nofun
    · cases h

theorem KdfConfig.validateForPrelogin_error {kdf : KdfConfig} {error : KeyDerivationError}
    (h : kdf.validateForPrelogin = .error error) : error ≠ .invalidArgon2Parameters := by
  cases kdf with
  | pbkdf2Sha256 iterations => exact validateKdfBounds_error h
  | argon2id iterations memoryMib parallelism =>
    obtain h | ⟨_, -, h⟩ := bind_eq_error.mp h
    · exact validateKdfBounds_error h
    · obtain h | ⟨_, -, h⟩ := bind_eq_error.mp h
      · exact validateKdfBounds_error h
      · exact validateKdfBounds_error h

theorem KdfConfig.derive_error {K : KdfPrimitives} {password salt : Str} {kdf : KdfConfig}
    {error : KeyDerivationError} (h : kdf.derive K password salt = .error error) :
    error = .argon2Failed := by
  cases kdf with
  | pbkdf2Sha256 iterations => cases h
  | argon2id iterations memoryMib parallelism =>
    simp only [KdfConfig.derive] at h
    split at h
    · cases h
    · cases h
      rfl

theorem stretchMasterKey_error {K : KdfPrimitives} {masterKey : MasterKey}
    {error : KeyDerivationError} (h : stretchMasterKey K masterKey = .error error) :
    error ≠ .invalidArgon2Parameters := by
  unfold stretchMasterKey at h
  split at h
  · cases h
    nofun
  · split at h
    · obtain ⟨_, -, rfl⟩ := mapError_eq_error.mp h
      nofun
    · cases h
      nofun

theorem unwrapUserKeyWithMasterKey_error {K : KdfPrimitives} {P : Primitives}
    {masterKey : MasterKey} {encryptedUserKey : Str} {error : KeyDerivationError}
    (h : unwrapUserKeyWithMasterKey K P masterKey encryptedUserKey = .error error) :
    error ≠ .invalidArgon2Parameters := by
  obtain h | ⟨_, -, h⟩ := bind_eq_error.mp h
  · exact stretchMasterKey_error h
  obtain h | ⟨_, -, h⟩ := bind_eq_error.mp h
  · obtain ⟨_, -, rfl⟩ := mapError_eq_error.mp h
    nofun
  obtain h | ⟨_, -, h⟩ := bind_eq_error.mp h
  · obtain ⟨_, -, rfl⟩ := mapError_eq_error.mp h
    nofun
  · obtain ⟨_, -, rfl⟩ := mapError_eq_error.mp h
    nofun

/-! ## Salts -/

/-- `hash_password_into` fails exactly for salts of fewer than 8 or of 2^32 bytes and more, as
    long as the password itself is not too long. -/
def KdfPrimitives.HashesSalts (K : KdfPrimitives) : Prop :=
  ∀ memoryKib iterations parallelism password salt,
    K.argon2Params memoryKib iterations parallelism masterKeyLength = true →
      password.length < 2 ^ 32 →
        ((K.argon2id memoryKib iterations parallelism password salt).isSome = true ↔
          8 ≤ salt.length ∧ salt.length < 2 ^ 32)

/-- PBKDF2 takes any salt, Argon2id only one of at least 8 bytes. -/
theorem derive_master_key_succeeds_iff (K : KdfPrimitives) (hparams : K.TakesParams)
    (hsalts : K.HashesSalts) (password salt : Str) (kdf : KdfConfig) (hpassword : password ≠ [])
    (hlength : (asBytes password).length < 2 ^ 32) (hkdf : kdf.validateForPrelogin = .ok ()) :
    (∃ masterKey, (deriveMasterKey K password salt kdf).1 = .ok masterKey) ↔
      (∃ iterations, kdf = .pbkdf2Sha256 iterations) ∨
        8 ≤ (asBytes (normalizeMasterPasswordSalt K salt)).length ∧
          (asBytes (normalizeMasterPasswordSalt K salt)).length < 2 ^ 32 := by
  have hbounds : kdf.InBounds := KdfConfig.validateForPrelogin_eq_ok.mp hkdf
  obtain ⟨hempty, -⟩ | ⟨-, hout, -⟩ | ⟨-, -, hderive⟩ :=
    deriveMasterKey_eq hparams password salt kdf
  · exact absurd hempty hpassword
  · exact absurd hbounds hout
  rw [hderive]
  cases kdf with
  | pbkdf2Sha256 iterations =>
    simp only [KdfConfig.derive, Except.ok.injEq, exists_eq', KdfConfig.pbkdf2Sha256.injEq, true_or]
  | argon2id iterations memoryMib parallelism =>
    obtain ⟨-, -, hmemory⟩ := KdfConfig.memory_accepted hparams hbounds
    rw [← hsalts _ _ _ _ _ hmemory hlength]
    simp only [KdfConfig.derive, reduceCtorEq, exists_false, false_or]
    cases K.argon2id (memoryMib * 1024) iterations parallelism (asBytes password)
        (asBytes (normalizeMasterPasswordSalt K salt)) with
    | none => simp
    | some derived => simp

/-- Crates that take and refuse what the real ones do, and derive zeros. -/
def zeroKdf : KdfPrimitives where
  toLowercase := toAsciiLowercase
  pbkdf2HmacSha256 := fun _ _ _ => Vector.replicate masterKeyLength 0
  argon2Params := fun memoryKib iterations parallelism length =>
    8 * parallelism.toNat ≤ memoryKib.toNat ∧ 1 ≤ iterations.toNat ∧ 1 ≤ parallelism.toNat ∧
      parallelism.toNat < 2 ^ 24 ∧ 4 ≤ length
  argon2id := fun _ _ _ _ salt =>
    if 8 ≤ salt.length ∧ salt.length < 2 ^ 32 then some (Vector.replicate masterKeyLength 0)
    else none
  hkdfSha256 := fun _ => some (fun _ => some (Vector.replicate aes256KeyLength 0))

theorem zeroKdf_takesParams : zeroKdf.TakesParams := by
  intro memoryKib iterations parallelism hmemory hiterations hparallelism hlanes
  exact decide_eq_true ⟨hmemory, hiterations, hparallelism, hlanes, by decide⟩

theorem zeroKdf_hashesSalts : zeroKdf.HashesSalts := by
  intro memoryKib iterations parallelism password salt _ _
  unfold zeroKdf
  dsimp only
  split
  · rename_i htaken
    exact iff_of_true rfl htaken
  · rename_i hrefused
    exact iff_of_false Bool.false_ne_true hrefused

theorem long_email_derives :
    ∃ masterKey, (deriveMasterKey zeroKdf "correct horse battery staple".toList
      " User@Example.COM ".toList (.argon2id 2 16 1)).1 = .ok masterKey :=
  (derive_master_key_succeeds_iff zeroKdf zeroKdf_takesParams zeroKdf_hashesSalts _ _ _ (by decide)
    (by decide) (by decide)).mpr (.inr (by decide))

theorem short_email_fails_under_argon2id :
    ¬ ∀ (password salt : Str) (kdf : KdfConfig), password ≠ [] →
      kdf.validateForPrelogin = .ok () → trim salt ≠ [] →
        ∃ masterKey, (deriveMasterKey zeroKdf password salt kdf).1 = .ok masterKey := by
  intro h
  obtain ⟨masterKey, hderived⟩ := h "correct horse battery staple".toList "a@b.cd".toList
    (.argon2id 2 16 1) (by decide) (by decide) (by decide)
  have hfailed : (deriveMasterKey zeroKdf "correct horse battery staple".toList "a@b.cd".toList
      (.argon2id 2 16 1)).1 = .error .argon2Failed := by decide
  rw [hfailed] at hderived
  cases hderived

end VaultwardenEso.Client
