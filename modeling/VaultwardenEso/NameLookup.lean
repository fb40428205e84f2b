import VaultwardenEso.Lookup

set_option autoImplicit false

/-!
# What a lookup by name returns

The scan only sees the items that decrypt as a whole. Its outcome is a function of the
items among those that have the name, in order; an item whose name alone decrypts
is not seen at all.
-/
namespace VaultwardenEso.Client
open RustStr RustResult BwesoCore Crypto Cipher

variable {P : Primitives} {sync : SyncResponse} {userKey : AuthenticatedSymmetricKey} {name : Str}

/-- Some shared item of the list comes after at most one personal item. -/
def SharedBeforeSecond (found : List (EncryptedCipher × DecryptedCipher)) : Prop :=
  ∃ before e d after, found = before ++ (e, d) :: after ∧ e.organizationId.isSome = true ∧
    (before.filter (fun m => m.1.organizationId.isNone)).length ≤ 1

theorem sharedBeforeSecond_cons {e : EncryptedCipher} {d : DecryptedCipher}
    {rest : List (EncryptedCipher × DecryptedCipher)} (he : e.organizationId.isSome = true) :
    SharedBeforeSecond ((e, d) :: rest) :=
  ⟨[], e, d, rest, rfl, he, by simp⟩

theorem sharedBeforeSecond_cons_cons {e e' : EncryptedCipher} {d d' : DecryptedCipher}
    {rest : List (EncryptedCipher × DecryptedCipher)} (he : e'.organizationId.isSome = true) :
    SharedBeforeSecond ((e, d) :: (e', d') :: rest) :=
  ⟨[(e, d)], e', d', rest, rfl, he, List.length_filter_le _ _⟩

theorem not_sharedBeforeSecond {e e' : EncryptedCipher} {d d' : DecryptedCipher}
    {rest : List (EncryptedCipher × DecryptedCipher)} (he : e.organizationId = none)
    (he' : e'.organizationId = none) : ¬ SharedBeforeSecond ((e, d) :: (e', d') :: rest) := by
  rintro ⟨before, s, c, after, hsplit, hs, hfew⟩
  cases before with
  | nil =>
    cases hsplit
    rw [he] at hs
    cases hs
  | cons first before =>
    rw [List.cons_append, List.cons.injEq] at hsplit
    obtain ⟨rfl, hsplit⟩ := hsplit
    cases before with
    | nil =>
      cases hsplit
      rw [he'] at hs
      cases hs
    | cons second before =>
      rw [List.cons_append, List.cons.injEq] at hsplit
      obtain ⟨rfl, -⟩ := hsplit
      simp [he, he'] at hfew

/-- What the scan makes of the items that have the name. -/
def outcomeOf : List (EncryptedCipher × DecryptedCipher) → Except BitwardenClientError DecryptedCipher
  | [] => .error (.api .cipherNotFound)
  | [(e, d)] => if e.organizationId.isSome then .error (.api .unsupportedSharedItem) else .ok d
  | (e, _) :: (e', _) :: _ =>
    if e.organizationId.isSome || e'.organizationId.isSome then .error (.api .unsupportedSharedItem)
    else .error (.api .ambiguousCipherName)

theorem resolveSyncedCipherByName_eq :
    resolveSyncedCipherByName P sync userKey name =
      outcomeOf (nameMatches P userKey name sync.ciphers) := by
  rw [resolveSyncedCipherByName, scanByName_eq]
  rcases nameMatches P userKey name sync.ciphers with _ | ⟨⟨e, d⟩, _ | ⟨⟨e', d'⟩, rest⟩⟩
  · rfl
  · dsimp only [outcomeOf]
    split <;> rfl
  · dsimp only [outcomeOf]
    split <;> rfl

theorem outcomeOf_notFound (found : List (EncryptedCipher × DecryptedCipher)) :
    outcomeOf found = .error (.api .cipherNotFound) ↔ found = [] := by
  match found with
  | [] => simp [outcomeOf]
  | [(e, d)] =>
    dsimp only [outcomeOf]
    split <;> simp
  | (e, _) :: (e', _) :: _ =>
    dsimp only [outcomeOf]
    split <;> simp

theorem outcomeOf_refused {found : List (EncryptedCipher × DecryptedCipher)} (hne : found ≠ [])
    (hmany : ¬ ∃ e c, found = [(e, c)] ∧ e.organizationId = none) :
    (SharedBeforeSecond found → outcomeOf found = .error (.api .unsupportedSharedItem)) ∧
      (¬ SharedBeforeSecond found → outcomeOf found = .error (.api .ambiguousCipherName)) := by
  match found with
  | [] => exact absurd rfl hne
  | [(e, d)] =>
    have hshared : e.organizationId.isSome = true := by
      rw [Option.isSome_iff_ne_none]
      intro hnone
      exact hmany ⟨e, d, rfl, hnone⟩
    refine ⟨fun _ => if_pos hshared, ?_⟩
    intro hnot
    exact absurd (sharedBeforeSecond_cons hshared) hnot
  | (e, d) :: (e', d') :: rest =>
    by_cases he : e.organizationId.isSome = true
    · refine ⟨fun _ => by simp [outcomeOf, he], ?_⟩
      intro hnot
      exact absurd (sharedBeforeSecond_cons he) hnot
    · by_cases he' : e'.organizationId.isSome = true
      · refine ⟨fun _ => by simp [outcomeOf, he'], ?_⟩
        intro hnot
        exact absurd (sharedBeforeSecond_cons_cons he') hnot
      · rw [Option.not_isSome_iff_eq_none] at he he'
        refine ⟨?_, fun _ => by simp [outcomeOf, he, he']⟩
        intro hshared
        exact absurd hshared (not_sharedBeforeSecond he he')

theorem name_lookup_outcome (P : Primitives) (sync : SyncResponse) (userKey : AuthenticatedSymmetricKey)
    (name : Str) :
    (resolveSyncedCipherByName P sync userKey name = .error (.api .cipherNotFound) ↔
      nameMatches P userKey name sync.ciphers = []) ∧
    (∀ c, resolveSyncedCipherByName P sync userKey name = .ok c ↔
      ∃ e, nameMatches P userKey name sync.ciphers = [(e, c)] ∧ e.organizationId = none) ∧
    (nameMatches P userKey name sync.ciphers ≠ [] →
      (¬ ∃ e c, nameMatches P userKey name sync.ciphers = [(e, c)] ∧ e.organizationId = none) →
      (SharedBeforeSecond (nameMatches P userKey name sync.ciphers) →
        resolveSyncedCipherByName P sync userKey name = .error (.api .unsupportedSharedItem)) ∧
      (¬ SharedBeforeSecond (nameMatches P userKey name sync.ciphers) →
        resolveSyncedCipherByName P sync userKey name = .error (.api .ambiguousCipherName))) ∧
    (∀ sync', sync.ciphers.Perm sync'.ciphers → ∀ c,
      resolveSyncedCipherByName P sync userKey name = .ok c ↔
        resolveSyncedCipherByName P sync' userKey name = .ok c) ∧
    (∀ c, resolveSyncedCipherByName P sync userKey name = .ok c → c.organizationId = none) := by
  refine ⟨?_, fun c => resolveSyncedCipherByName_eq_ok, ?_, ?_, ?_⟩
  · rw [resolveSyncedCipherByName_eq]
    exact outcomeOf_notFound _
  · intro hne hmany
    rw [resolveSyncedCipherByName_eq]
    exact outcomeOf_refused hne hmany
  · intro sync' hperm c
    have hmatches : (nameMatches P userKey name sync.ciphers).Perm
        (nameMatches P userKey name sync'.ciphers) := hperm.filterMap _
    simp only [resolveSyncedCipherByName_eq_ok]
    constructor
    · rintro ⟨e, he, horg⟩
      rw [he] at hmatches
      exact ⟨e, List.perm_singleton.mp hmatches.symm, horg⟩
    · rintro ⟨e, he, horg⟩
      rw [he] at hmatches
      exact ⟨e, List.perm_singleton.mp hmatches, horg⟩
  · intro c h
    obtain ⟨e, he, horg⟩ := resolveSyncedCipherByName_eq_ok.mp h
    have hmem : (e, c) ∈ nameMatches P userKey name sync.ciphers := by simp [he]
    obtain ⟨-, hd, -⟩ := mem_nameMatches.mp hmem
    rw [(EncryptedCipher.decrypt_id P hd).2, horg]

/-! ## Items whose name alone decrypts -/

section Names
variable (P : Primitives) (userKey : AuthenticatedSymmetricKey)

/-- The name of an item under the item's own key, whatever its other strings are. -/
def ownName (cipher : EncryptedCipher) : Except CipherError (Option Str) := do
  let key ← cipher.decryptionKey P userKey
  decryptOptional P cipher.name key

def namedItems (name : Str) (ciphers : List EncryptedCipher) : List EncryptedCipher :=
  ciphers.filter (fun cipher => ownName P userKey cipher = .ok (some name))

def decrypts (cipher : EncryptedCipher) : Bool := (cipher.decrypt P userKey).isOk

end Names

theorem ownName_of_decrypt {cipher : EncryptedCipher} {decrypted : DecryptedCipher}
    (h : cipher.decrypt P userKey = .ok decrypted) : ownName P userKey cipher = .ok decrypted.name := by
  obtain ⟨key, hkey, h⟩ := bind_eq_ok.mp h
  obtain ⟨itemName, hname, h⟩ := bind_eq_ok.mp h
  obtain ⟨notes, -, h⟩ := bind_eq_ok.mp h
  obtain ⟨fields, -, h⟩ := bind_eq_ok.mp h
  obtain ⟨login, -, h⟩ := bind_eq_ok.mp h
  obtain ⟨sshKey, -, h⟩ := bind_eq_ok.mp h
  rw [pure_eq_ok] at h
  subst h
  exact bind_eq_ok.mpr ⟨key, hkey, hname⟩

theorem decrypts_of_ok {cipher : EncryptedCipher} {decrypted : DecryptedCipher}
    (h : cipher.decrypt P userKey = .ok decrypted) : decrypts P userKey cipher = true := by
  rw [decrypts, h]
  rfl

theorem decrypts_of_error {cipher : EncryptedCipher} {error : CipherError}
    (h : cipher.decrypt P userKey = .error error) : decrypts P userKey cipher = false := by
  rw [decrypts, h]
  rfl

/-- What the scan sees of the items that have the name: those that decrypt as a whole. -/
theorem nameMatches_fst (ciphers : List EncryptedCipher) :
    (nameMatches P userKey name ciphers).map (·.1) =
      (namedItems P userKey name ciphers).filter (decrypts P userKey) := by
  induction ciphers with
  | nil => rfl
  | cons cipher rest ih =>
    rw [nameMatches] at ih
    rw [nameMatches, List.filterMap_cons, namedItems, List.filter_cons]
    cases hd : cipher.decrypt P userKey with
    | error error =>
      have hskip : nameMatch P userKey name cipher = none := by simp only [nameMatch, hd]
      simp only [hskip]
      split
      · rw [List.filter_cons_of_neg (by simp [decrypts_of_error hd]), ih, namedItems]
      · rw [ih, namedItems]
    | ok decrypted =>
      have hown := ownName_of_decrypt hd
      by_cases hname : decrypted.name = some name
      · have hmatch : nameMatch P userKey name cipher = some (cipher, decrypted) := by
          simp only [nameMatch, hd, if_pos hname]
        simp only [hmatch, hown, hname, decide_true, if_true]
        rw [List.map_cons, List.filter_cons_of_pos (decrypts_of_ok hd), ih, namedItems]
      · have hskip : nameMatch P userKey name cipher = none := by
          simp only [nameMatch, hd, if_neg hname]
        have hother : ¬ ownName P userKey cipher = .ok (some name) := by
          rw [hown]
          intro heq
          exact hname (Except.ok.inj heq)
        simp only [hskip, hother, decide_false, Bool.false_eq_true, if_false]
        rw [ih, namedItems]

theorem duplicate_names_are_detected (P : Primitives) (sync : SyncResponse)
    (userKey : AuthenticatedSymmetricKey) (name : Str) :
    ((∀ c, resolveSyncedCipherByName P sync userKey name = .ok c →
        ∃ e, namedItems P userKey name sync.ciphers = [e]) ∧
      (resolveSyncedCipherByName P sync userKey name = .error (.api .cipherNotFound) →
        namedItems P userKey name sync.ciphers = [])) ↔
    ((∀ e ∈ namedItems P userKey name sync.ciphers, decrypts P userKey e = true) ∨
      2 ≤ ((namedItems P userKey name sync.ciphers).filter (decrypts P userKey)).length ∨
      ∃ e, (namedItems P userKey name sync.ciphers).filter (decrypts P userKey) = [e] ∧
        e.organizationId.isSome = true) := by
  rw [resolveSyncedCipherByName_eq, ← List.filter_eq_self, ← nameMatches_fst]
  have hseen : (nameMatches P userKey name sync.ciphers).map Prod.fst =
      (namedItems P userKey name sync.ciphers).filter (decrypts P userKey) :=
    nameMatches_fst sync.ciphers
  generalize namedItems P userKey name sync.ciphers = named at hseen ⊢
  generalize nameMatches P userKey name sync.ciphers = found at hseen ⊢
  match found with
  | [] =>
    simp only [outcomeOf, List.map_nil, reduceCtorEq, false_implies, implies_true, true_and,
      true_implies, List.length_nil, false_and, exists_false, or_false, nonpos_iff_eq_zero, OfNat.ofNat_ne_zero]
    exact eq_comm
  | [(e, d)] =>
    simp only [List.map_cons, List.map_nil] at hseen ⊢
    cases horg : e.organizationId with
    | some organization =>
      simp [outcomeOf, horg]
    | none =>
      simp only [outcomeOf, horg, Option.isSome_none, Bool.false_eq_true, if_false, Except.ok.injEq,
        reduceCtorEq, false_implies, and_true, List.length_singleton, List.cons.injEq]
      constructor
      · intro hone
        obtain ⟨e', rfl⟩ := hone d rfl
        refine .inl ?_
        have hmem : e ∈ [e'].filter (decrypts P userKey) := by simp [← hseen]
        rw [List.mem_singleton.mp (List.mem_of_mem_filter hmem)]
      · rintro (hall | htwo | ⟨e', ⟨rfl, -⟩, hshared⟩)
        · intro c _
          exact ⟨e, hall.symm⟩
        · omega
        · rw [horg] at hshared
          cases hshared
  | (e, d) :: (e', d') :: rest =>
    have herror : ∀ c, outcomeOf ((e, d) :: (e', d') :: rest) ≠ .ok c ∧
        outcomeOf ((e, d) :: (e', d') :: rest) ≠ .error (.api .cipherNotFound) := by
      intro c
      dsimp only [outcomeOf]
      split <;> exact ⟨nofun, nofun⟩
    constructor
    · intro _
      refine .inr (.inl ?_)
      simp
    · intro _
      exact ⟨fun c hc => absurd hc (herror c).1, fun hc => absurd hc (herror d).2⟩

def sampleCopy : EncryptedCipher :=
  { sampleCipher with id := "cipher-copy".toList, notes := some "2.invalid".toList }

/-- The first item is served although two have the name, and the second is not found at all. -/
theorem broken_duplicate_is_missed :
    namedItems sampleRecording.primitives sampleUserKey "app/database".toList [sampleCipher, sampleCopy] =
        [sampleCipher, sampleCopy] ∧
      resolveSyncedCipherByName sampleRecording.primitives ⟨[sampleCipher, sampleCopy]⟩ sampleUserKey
        "app/database".toList = .ok samplePlain ∧
      resolveSyncedCipherByName sampleRecording.primitives ⟨[sampleCopy]⟩ sampleUserKey
        "app/database".toList = .error (.api .cipherNotFound) := by
  refine ⟨?_, ?_, ?_⟩
  · decide +kernel
  · decide +kernel
  · decide +kernel

end VaultwardenEso.Client
