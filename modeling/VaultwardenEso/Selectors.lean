import VaultwardenEso.Login
import VaultwardenEso.Refresh

set_option autoImplicit false

/-!
# Selectors in normal form

A selector is validated when a request is decoded and taken apart again when its item is
looked up. Both read the trimmed key, so a selector that was accepted is found by the kind it
was accepted with.
-/
namespace VaultwardenEso.Client
open RustStr RustResult RustUrl BwesoCore Crypto Cipher

/-! ## Validation -/

/-- The key is one of the two prefixes and a payload that is not blank. -/
def Addresses (key payload : Str) : Prop :=
  trim payload ≠ [] ∧ (key = "id:".toList ++ payload ∨ key = "name:".toList ++ payload)

theorem Addresses.ne_nil {key payload : Str} (h : Addresses key payload) : key ≠ [] := by
  rcases h.2 with rfl | rfl
  · exact List.cons_ne_nil _ _
  · exact List.cons_ne_nil _ _

theorem Addresses.unique {key payload other : Str} (h : Addresses key payload)
    (hkey : key = "id:".toList ++ other ∨ key = "name:".toList ++ other) : payload = other := by
  rcases h.2 with rfl | rfl
  · rcases hkey with hkey | hkey
    · exact List.append_cancel_left hkey
    · cases hkey
  · rcases hkey with hkey | hkey
    · cases hkey
    · exact List.append_cancel_left hkey

theorem not_addresses {key : Str} :
    (¬ ∃ payload, Addresses key payload) ↔
      (stripPrefix "id:".toList key = none ∧ stripPrefix "name:".toList key = none) ∨
      ∃ payload, trim payload = [] ∧
        (key = "id:".toList ++ payload ∨ key = "name:".toList ++ payload) := by
  constructor
  · intro h
    cases hid : stripPrefix "id:".toList key with
    | some payload =>
      have hkey := stripPrefix_eq_some.mp hid
      refine .inr ⟨payload, ?_, .inl hkey⟩
      by_contra hne
      exact h ⟨payload, hne, .inl hkey⟩
    | none =>
      cases hname : stripPrefix "name:".toList key with
      | some payload =>
        have hkey := stripPrefix_eq_some.mp hname
        refine .inr ⟨payload, ?_, .inr hkey⟩
        by_contra hne
        exact h ⟨payload, hne, .inr hkey⟩
      | none => exact .inl ⟨rfl, rfl⟩
  · rintro (⟨hid, hname⟩ | ⟨payload, hblank, hkey⟩) ⟨other, haddresses⟩
    · rcases haddresses.2 with rfl | rfl
      · rw [stripPrefix_append] at hid
        cases hid
      · rw [stripPrefix_append] at hname
        cases hname
    · obtain rfl := haddresses.unique hkey
      exact haddresses.1 hblank

theorem validateSelectorKey_eq_ok {key : Str} :
    validateSelectorKey key = .ok () ↔ ∃ payload, Addresses key payload := by
  unfold validateSelectorKey
  cases hid : stripPrefix "id:".toList key with
  | some payload =>
    rw [Option.some_or]
    dsimp only
    rw [mapError_eq_ok, requireNonEmpty_eq_ok]
    have hkey := stripPrefix_eq_some.mp hid
    constructor
    · intro hne
      exact ⟨payload, hne, .inl hkey⟩
    · rintro ⟨other, haddresses⟩
      obtain rfl := haddresses.unique (.inl hkey)
      exact haddresses.1
  | none =>
    rw [Option.none_or]
    cases hname : stripPrefix "name:".toList key with
    | some payload =>
      dsimp only
      rw [mapError_eq_ok, requireNonEmpty_eq_ok]
      have hkey := stripPrefix_eq_some.mp hname
      constructor
      · intro hne
        exact ⟨payload, hne, .inr hkey⟩
      · rintro ⟨other, haddresses⟩
        obtain rfl := haddresses.unique (.inr hkey)
        exact haddresses.1
    | none => exact iff_of_false nofun (not_addresses.mpr (.inl ⟨hid, hname⟩))

theorem BitwardenSelector.tryFrom_eq_ok {remoteRef : RemoteRef} {selector : BitwardenSelector} :
    BitwardenSelector.tryFrom remoteRef = .ok selector ↔
      (∀ version, remoteRef.version = some version → trim version = []) ∧
      (∀ property, remoteRef.property = some property → trim property ≠ []) ∧
      (∃ payload, Addresses (trim remoteRef.key) payload) ∧
      selector = ⟨trim remoteRef.key, remoteRef.property.map trim⟩ := by
  obtain ⟨key, property, version⟩ := remoteRef
  rw [← validateSelectorKey_eq_ok]
  have hunversioned : ¬ version.any (fun version => trim version ≠ []) = true ↔
      ∀ text, version = some text → trim text = [] := by
    cases version with
    | none => simp
    | some text => simp
  constructor
  · intro h
    obtain ⟨_, -, h⟩ := bind_eq_ok.mp h
    split at h
    · cases h
    · rename_i hversion
      refine ⟨hunversioned.mp hversion, ?_⟩
      cases property with
      | none =>
        obtain ⟨_, hpure, h⟩ := bind_eq_ok.mp h
        obtain rfl := pure_eq_ok.mp hpure
        obtain ⟨_, hvalid, h⟩ := bind_eq_ok.mp h
        exact ⟨nofun, hvalid, (pure_eq_ok.mp h).symm⟩
      | some text =>
        obtain ⟨_, hne, h⟩ := bind_eq_ok.mp h
        obtain ⟨_, hpure, h⟩ := bind_eq_ok.mp h
        obtain rfl := pure_eq_ok.mp hpure
        obtain ⟨_, hvalid, h⟩ := bind_eq_ok.mp h
        refine ⟨?_, hvalid, (pure_eq_ok.mp h).symm⟩
        rintro _ ⟨⟩
        exact requireNonEmpty_eq_ok.mp (mapError_eq_ok.mp hne)
  · rintro ⟨hversion, hproperty, hvalid, rfl⟩
    obtain ⟨payload, haddresses⟩ := validateSelectorKey_eq_ok.mp hvalid
    have hkey : requireNonEmpty key "remote_ref.key" = .ok () :=
      requireNonEmpty_eq_ok.mpr haddresses.ne_nil
    refine bind_eq_ok.mpr ⟨(), mapError_eq_ok.mpr hkey, ?_⟩
    dsimp only
    rw [if_neg (hunversioned.mpr hversion)]
    cases property with
    | none => exact bind_eq_ok.mpr ⟨none, rfl, bind_eq_ok.mpr ⟨(), hvalid, rfl⟩⟩
    | some text =>
      have htext : requireNonEmpty text "remote_ref.property" = .ok () :=
        requireNonEmpty_eq_ok.mpr (hproperty text rfl)
      refine bind_eq_ok.mpr ⟨(), mapError_eq_ok.mpr htext, ?_⟩
      exact bind_eq_ok.mpr ⟨some (trim text), rfl, bind_eq_ok.mpr ⟨(), hvalid, rfl⟩⟩

/-- A selector is its own normal form. -/
theorem BitwardenSelector.tryFrom_resubmit {remoteRef : RemoteRef} {selector : BitwardenSelector}
    (h : BitwardenSelector.tryFrom remoteRef = .ok selector) :
    BitwardenSelector.tryFrom ⟨selector.key, selector.property, none⟩ = .ok selector := by
  obtain ⟨-, hproperty, haddresses, rfl⟩ := tryFrom_eq_ok.mp h
  refine tryFrom_eq_ok.mpr ⟨nofun, ?_, ?_, ?_⟩
  · intro property heq
    obtain ⟨text, htext, rfl⟩ := Option.map_eq_some_iff.mp heq
    rw [trim_trim]
    exact hproperty text htext
  · rw [trim_trim]
    exact haddresses
  · rw [trim_trim, Option.map_map]
    congr 1
    cases remoteRef.property with
    | none => rfl
    | some text => exact congrArg some (trim_trim text).symm

theorem BitwardenSelector.tryFrom_eq_error {remoteRef : RemoteRef} :
    (∃ error, BitwardenSelector.tryFrom remoteRef = .error error) ↔
      ¬ ((∀ version, remoteRef.version = some version → trim version = []) ∧
        (∀ property, remoteRef.property = some property → trim property ≠ []) ∧
        ∃ payload, Addresses (trim remoteRef.key) payload) := by
  cases h : BitwardenSelector.tryFrom remoteRef with
  | ok selector =>
    obtain ⟨hversion, hproperty, haddresses, -⟩ := tryFrom_eq_ok.mp h
    simp only [reduceCtorEq, exists_false, false_iff, not_not]
    exact ⟨hversion, hproperty, haddresses⟩
  | error error =>
    refine iff_of_true ⟨error, rfl⟩ ?_
    rintro ⟨hversion, hproperty, haddresses⟩
    rw [tryFrom_eq_ok.mpr ⟨hversion, hproperty, haddresses, rfl⟩] at h
    cases h

/-! ## Lookup -/

theorem Addresses.fromKey {key payload : Str} (h : Addresses key payload) :
    (stripPrefix "id:".toList key = some payload ∧ CipherLookup.fromKey key = .ok (.id payload)) ∨
      (stripPrefix "id:".toList key = none ∧ stripPrefix "name:".toList key = some payload ∧
        CipherLookup.fromKey key = .ok (.name payload)) := by
  rcases h.2 with rfl | rfl
  · exact .inl ⟨stripPrefix_append _ _, CipherLookup.fromKey_id payload⟩
  · exact .inr ⟨rfl, stripPrefix_append _ _, CipherLookup.fromKey_name payload⟩

theorem DecryptedCipher.extractProperty_blank {cipher : DecryptedCipher} {property : Str}
    (h : cipher.extractProperty property = .error .blankProperty) : trim property = [] := by
  have hexisting : ∀ (property : Str) (value : Option Str),
      existing property value ≠ .error .blankProperty := by
    intro property value
    unfold existing
    split <;> nofun
  unfold DecryptedCipher.extractProperty at h
  dsimp only at h
  split at h
  · assumption
  · split at h
    · cases h
    · split at h
      · exact absurd h (hexisting _ _)
      · exact absurd h (hexisting _ _)

/-! ## Calls of the provider -/

/-- Not the answer to a key without a prefix. -/
def Prefixed {α : Type} (result : Except BitwardenClientError α) : Prop :=
  result ≠ .error .unprefixedSelectorKey

section Prefixed
variable {ε α β : Type}

theorem prefixed_ok (a : α) : Prefixed (.ok a) := nofun

theorem prefixed_error {error : BitwardenClientError} (h : error ≠ .unprefixedSelectorKey) :
    Prefixed (.error error : Except BitwardenClientError α) := by
  intro heq
  exact h (Except.error.inj heq)

theorem prefixed_mapError {f : ε → BitwardenClientError} (hf : ∀ e, f e ≠ .unprefixedSelectorKey)
    (x : Except ε α) : Prefixed (x.mapError f) := by
  intro heq
  obtain ⟨e, -, he⟩ := mapError_eq_error.mp heq
  exact hf e he

theorem Prefixed.bind {x : Except BitwardenClientError α} {f : α → Except BitwardenClientError β}
    (hx : Prefixed x) (hf : ∀ a, x = .ok a → Prefixed (f a)) : Prefixed (x >>= f) := by
  intro heq
  obtain heq | ⟨a, ha, heq⟩ := bind_eq_error.mp heq
  · exact hx heq
  · exact hf a ha heq

end Prefixed

theorem prefixed_resolveSyncedCipher (P : Primitives) (sync : SyncResponse)
    (userKey : AuthenticatedSymmetricKey) {key payload : Str} (h : Addresses key payload) :
    Prefixed (resolveSyncedCipher P sync userKey key) := by
  rcases h.2 with rfl | rfl
  · rw [resolveSyncedCipher_id, resolveSyncedCipherById]
    apply Prefixed.bind (prefixed_mapError (by simp) _)
    intro cipher _
    split
    · exact prefixed_error (by simp)
    · exact prefixed_mapError (by simp) _
  · rw [resolveSyncedCipher_name, resolveSyncedCipherByName]
    apply Prefixed.bind
    · rw [scanByName_eq]
      rcases nameMatches P userKey payload sync.ciphers with _ | ⟨⟨e, d⟩, _ | ⟨⟨e', d'⟩, rest⟩⟩
      · exact prefixed_ok none
      · dsimp only
        split
        · exact prefixed_error (by simp)
        · exact prefixed_ok (some d)
      · dsimp only
        split
        · exact prefixed_error (by simp)
        · exact prefixed_error (by simp)
    · intro found _
      cases found with
      | none => exact prefixed_error (by simp)
      | some decrypted => exact prefixed_ok decrypted

theorem prefixed_resolveCached (P : Primitives) (cached : CachedVault)
    {selector : BitwardenSelector} {payload : Str} (h : Addresses selector.key payload) :
    Prefixed (resolveCached P cached selector) := by
  unfold resolveCached
  apply Prefixed.bind (prefixed_resolveSyncedCipher P _ _ h)
  intro cipher _
  split
  · exact prefixed_error nofun
  · split
    · apply Prefixed.bind (prefixed_mapError nofun _)
      intro value _
      dsimp only
      split <;> nofun
    · exact prefixed_mapError nofun _

theorem prefixed_readCache (P : Primitives) (cache : Option CachedVault)
    {selector : BitwardenSelector} {payload : Str} (h : Addresses selector.key payload) :
    Prefixed (readCache P cache selector) := by
  cases cache with
  | none => exact prefixed_error nofun
  | some cached => exact prefixed_resolveCached P cached h

theorem prefixed_loginWithApiKey (K : KdfPrimitives) (P : Primitives) (crate : UrlCrate)
    (http : Transport) (endpoints : BitwardenEndpoints) (masterPassword : Str) :
    Prefixed (loginWithApiKey K P crate http endpoints masterPassword).1 := by
  unfold loginWithApiKey
  split
  · exact prefixed_error nofun
  · split
    · exact prefixed_error nofun
    · unfold unlockSession
      split
      · exact prefixed_error nofun
      · split
        · exact prefixed_error nofun
        · apply Prefixed.bind (prefixed_mapError nofun _)
          intro userKey _
          nofun

theorem prefixed_sync (crate : UrlCrate) (http : Transport) (endpoints : BitwardenEndpoints) :
    Prefixed (sync crate http endpoints) := by
  apply Prefixed.bind (prefixed_mapError nofun _)
  intro url _
  exact prefixed_mapError nofun _

/-- The answers of the upstream are what `login_with_api_key` and `sync` made of them. -/
def Label.Upstream : Label → Prop
  | .loginAnswer _ answer => ∃ K P crate http endpoints masterPassword,
      answer = (loginWithApiKey K P crate http endpoints masterPassword).1
  | .syncAnswer _ answer _ => ∃ crate http endpoints, answer = sync crate http endpoints
  | _ => True

def SelectorsFound (s : State) : Prop :=
  ∀ r payload result, Addresses (s.call r).selector.key payload → s.pc r = .finished result →
    Prefixed result

theorem step_finishes {cfg : Config} {s u : State} {l : Label} {r : ℕ}
    {result : Except BitwardenClientError SecretDocument} (h : step cfg s l = some u)
    (hmover : l.caller = some r) (hfinished : u.pc r = .finished result) :
    (∃ error, l = .loginAnswer r (.error error) ∧ result = .error error) ∨
    (∃ error unixNow, l = .syncAnswer r (.error error) unixNow ∧ result = .error error) ∨
    s.pc r = .read ∧
      result = readCache cfg.primitives (s.cache.map (·.vault)) (s.call r).selector := by
  cases step_cases h with
  | tick elapsed => cases hmover
  | lockCache r' pc hfree hpc =>
    cases hmover
    simp only [State.goto, Function.update_self] at hfinished
    subst hfinished
    cases hold : s.pc r <;> rw [hold] at hpc <;> cases hpc
  | loginError r' began error hpc =>
    cases hmover
    simp only [State.fail, State.goto, Function.update_self, Pc.finished.injEq] at hfinished
    exact .inl ⟨error, rfl, hfinished.symm⟩
  | syncError r' began session error unixNow hpc =>
    cases hmover
    simp only [State.fail, State.goto, Function.update_self, Pc.finished.injEq] at hfinished
    exact .inr (.inl ⟨error, unixNow, rfl, hfinished.symm⟩)
  | read r' hpc =>
    cases hmover
    simp only [State.goto, Function.update_self, Pc.finished.injEq] at hfinished
    exact .inr (.inr ⟨hpc, hfinished.symm⟩)
  | _ =>
    cases hmover
    simp only [State.goto, Function.update_self, reduceCtorEq] at hfinished

theorem step_selectorsFound {cfg : Config} {s u : State} {l : Label} (hl : l.Upstream)
    (hs : SelectorsFound s) (h : step cfg s l = some u) : SelectorsFound u := by
  intro r payload result haddresses hfinished
  by_cases hmover : l.caller = some r
  · obtain ⟨error, rfl, rfl⟩ | ⟨error, unixNow, rfl, rfl⟩ | ⟨hread, rfl⟩ :=
      step_finishes h hmover hfinished
    · obtain ⟨K, P, crate, http, endpoints, masterPassword, hanswer⟩ := hl
      rintro ⟨⟩
      exact prefixed_loginWithApiKey K P crate http endpoints masterPassword hanswer.symm
    · obtain ⟨crate, http, endpoints, hanswer⟩ := hl
      rintro ⟨⟩
      exact prefixed_sync crate http endpoints hanswer.symm
    · have hstarted : s.pc r ≠ .idle := by
        rw [hread]
        nofun
      rw [step_call h hstarted] at haddresses
      exact prefixed_readCache _ _ haddresses
  · obtain ⟨hpc, hcall⟩ := step_frame h hmover
    rw [hcall] at haddresses
    rw [hpc] at hfinished
    exact hs r payload result haddresses hfinished

theorem run_selectorsFound {cfg : Config} {start : ℕ} :
    ∀ ls s, Machine.run (step cfg) (State.initial start) ls = some s → (∀ l ∈ ls, l.Upstream) →
      SelectorsFound s := by
  apply Machine.run_history
  · intro _ r payload result _ hfinished
    cases hfinished
  · intro ls u l v _ ih hstep hupstream
    have hl : l.Upstream := hupstream l (by simp)
    have hls : ∀ l ∈ ls, l.Upstream := by
      intro l' hl'
      exact hupstream l' (by simp [hl'])
    exact step_selectorsFound hl (ih hls) hstep

/-- An accepted selector is in normal form, and every later reading of it agrees with the
validation; every other reference is refused. -/
theorem selector_is_in_normal_form (remoteRef : RemoteRef) :
    (∀ selector, BitwardenSelector.tryFrom remoteRef = .ok selector →
      (selector.key ≠ [] ∧ trim selector.key = selector.key) ∧
      (∀ property, selector.property = some property → property ≠ [] ∧ trim property = property) ∧
      BitwardenSelector.tryFrom ⟨selector.key, selector.property, none⟩ = .ok selector ∧
      (∃ payload, trim payload ≠ [] ∧
        ((stripPrefix "id:".toList selector.key = some payload ∧
            CipherLookup.fromKey selector.key = .ok (.id payload)) ∨
          (stripPrefix "id:".toList selector.key = none ∧
            stripPrefix "name:".toList selector.key = some payload ∧
            CipherLookup.fromKey selector.key = .ok (.name payload)))) ∧
      (∀ cfg start ls s, Machine.run (step cfg) (State.initial start) ls = some s →
        (∀ l ∈ ls, l.Upstream) → ∀ r, (s.call r).selector = selector →
          s.pc r ≠ .finished (.error .unprefixedSelectorKey)) ∧
      ∀ property, selector.property = some property → ∀ cipher : DecryptedCipher,
        cipher.extractProperty property ≠ .error .blankProperty) ∧
    ((∃ error, BitwardenSelector.tryFrom remoteRef = .error error) ↔
      trim remoteRef.key = [] ∨
      (∃ version, remoteRef.version = some version ∧ trim version ≠ []) ∨
      (∃ property, remoteRef.property = some property ∧ trim property = []) ∨
      (stripPrefix "id:".toList (trim remoteRef.key) = none ∧
        stripPrefix "name:".toList (trim remoteRef.key) = none) ∨
      ∃ payload, trim payload = [] ∧ (trim remoteRef.key = "id:".toList ++ payload ∨
        trim remoteRef.key = "name:".toList ++ payload)) := by
  refine ⟨?_, ?_⟩
  · intro selector h
    obtain ⟨-, hproperty, ⟨payload, haddresses⟩, hselector⟩ := BitwardenSelector.tryFrom_eq_ok.mp h
    have hkey : selector.key = trim remoteRef.key := by rw [hselector]
    have htrimmed : ∀ property, selector.property = some property →
        property ≠ [] ∧ trim property = property := by
      intro property heq
      rw [hselector] at heq
      obtain ⟨text, htext, rfl⟩ := Option.map_eq_some_iff.mp heq
      exact ⟨hproperty text htext, trim_trim text⟩
    rw [← hkey] at haddresses
    refine ⟨⟨haddresses.ne_nil, ?_⟩, htrimmed, BitwardenSelector.tryFrom_resubmit h,
      ⟨payload, haddresses.1, haddresses.fromKey⟩, ?_, ?_⟩
    · rw [hkey, trim_trim]
    · intro cfg start ls s hrun hupstream r hr hfinished
      rw [← hr] at haddresses
      exact run_selectorsFound ls s hrun hupstream r payload _ haddresses hfinished rfl
    · intro property heq cipher hblank
      obtain ⟨hne, htrim⟩ := htrimmed property heq
      rw [← htrim] at hne
      exact hne (DecryptedCipher.extractProperty_blank hblank)
  · rw [BitwardenSelector.tryFrom_eq_error, ← not_addresses]
    constructor
    · intro h
      by_contra hnone
      simp only [not_or, not_exists, not_and, not_forall, not_not] at hnone
      obtain ⟨-, hversion, hproperty, haddresses⟩ := hnone
      exact h ⟨hversion, hproperty, haddresses⟩
    · rintro hfault ⟨hversion, hproperty, payload, haddresses⟩
      rcases hfault with hblank | ⟨version, heq, hne⟩ | ⟨property, heq, hblank⟩ | hnone
      · exact haddresses.ne_nil hblank
      · exact hne (hversion version heq)
      · exact hproperty property heq hblank
      · exact hnone ⟨payload, haddresses⟩

theorem padded_selector_is_trimmed :
    let selector : BitwardenSelector := ⟨"id: 7".toList, some "password".toList⟩
    BitwardenSelector.tryFrom ⟨" id: 7\n".toList, some " password\t".toList, some " ".toList⟩ =
        .ok selector ∧
      BitwardenSelector.tryFrom ⟨selector.key, selector.property, none⟩ = .ok selector := by
  have h : BitwardenSelector.tryFrom
      ⟨" id: 7\n".toList, some " password\t".toList, some " ".toList⟩ =
        .ok ⟨"id: 7".toList, some "password".toList⟩ := by decide
  exact ⟨h, ((selector_is_in_normal_form _).1 _ h).2.2.1⟩

end VaultwardenEso.Client
