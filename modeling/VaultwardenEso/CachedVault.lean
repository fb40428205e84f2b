import VaultwardenEso.Lookup

set_option autoImplicit false

/-!
# The cached vault, its freshness and the cache metrics: `api.rs`

An `Instant` is the number of nanoseconds since the earliest instant that the
platform represents, a `Duration` a number of nanoseconds.
-/
namespace VaultwardenEso.Client
open RustStr BwesoCore Crypto Cipher

def Duration.fromSecs (seconds : ℕ) : ℕ := seconds * 1000000000

def tokenExpiryRefreshSkew : ℕ := Duration.fromSecs 30

def Instant.checkedAdd (latest i : ℕ) (d : ℕ) : Option ℕ :=
  if i + d ≤ latest then some (i + d) else none

def Instant.checkedSub (i : ℕ) (d : ℕ) : Option ℕ :=
  if d ≤ i then some (i - d) else none

/-- `duration_since`, which is zero for a later instant. -/
def Instant.durationSince (i earlier : ℕ) : ℕ := i - earlier

structure CachedVault where
  session : BitwardenSession
  sync : SyncResponse
  fetchedAt : ℕ
  expiresAt : Option ℕ
  deriving DecidableEq

def CachedVault.new (latest : ℕ) (session : BitwardenSession) (sync : SyncResponse)
    (fetchedAt : ℕ) : CachedVault :=
  { session, sync, fetchedAt
    expiresAt := session.expiresIn.bind (fun seconds =>
      Instant.checkedAdd latest fetchedAt (Duration.fromSecs seconds)) }

def CachedVault.isFreshAt (cached : CachedVault) (ttl : ℕ) (now : ℕ) : Bool :=
  if ttl = 0 ∨ Instant.durationSince now cached.fetchedAt ≥ ttl then false
  else match cached.expiresAt with
    | some expiresAt =>
      (Instant.checkedSub expiresAt tokenExpiryRefreshSkew).any
        (fun refreshDeadline => now < refreshDeadline)
    | none => true

@[simp] theorem CachedVault.isFreshAt_zero (cached : CachedVault) (now : ℕ) :
    cached.isFreshAt 0 now = false := by
  simp [isFreshAt]

theorem Instant.before_checkedSub {i d now : ℕ} :
    (Instant.checkedSub i d).any (fun deadline => now < deadline) = true ↔ now + d < i := by
  unfold checkedSub
  split
  · simp only [Option.any_some, decide_eq_true_eq]
    omega
  · simp only [Option.any_none, Bool.false_eq_true, false_iff]
    omega

theorem CachedVault.isFreshAt_eq_true {cached : CachedVault} {ttl now : ℕ} :
    cached.isFreshAt ttl now = true ↔ now - cached.fetchedAt < ttl ∧
      ∀ expiresAt, cached.expiresAt = some expiresAt → now + tokenExpiryRefreshSkew < expiresAt := by
  unfold isFreshAt Instant.durationSince
  split
  · rename_i hold
    simp only [Bool.false_eq_true, false_iff, not_and]
    omega
  · rename_i hyoung
    have hage : now - cached.fetchedAt < ttl := by omega
    rw [and_iff_right hage]
    cases cached.expiresAt with
    | none => simp
    | some expiresAt => simp only [Instant.before_checkedSub, Option.some.injEq, forall_eq']

theorem CachedVault.isFreshAt_mono {cached : CachedVault} {ttl t now : ℕ}
    (ht : t ≤ now) (h : cached.isFreshAt ttl now = true) : cached.isFreshAt ttl t = true := by
  rw [isFreshAt_eq_true] at h ⊢
  obtain ⟨hyoung, hexpiry⟩ := h
  refine ⟨by omega, ?_⟩
  intro expiresAt heq
  have hbefore := hexpiry expiresAt heq
  omega

/-! ## The freshness window -/

theorem CachedVault.new_expiresAt {latest fetchedAt instant : ℕ} {session : BitwardenSession}
    {sync : SyncResponse} :
    (CachedVault.new latest session sync fetchedAt).expiresAt = some instant ↔
      ∃ e, session.expiresIn = some e ∧ fetchedAt + Duration.fromSecs e ≤ latest ∧
        fetchedAt + Duration.fromSecs e = instant := by
  simp only [CachedVault.new, Option.bind_eq_some_iff, Instant.checkedAdd,
    Option.ite_none_right_eq_some, Option.some.injEq]

theorem CachedVault.isFreshAt_new {latest fetchedAt ttl now : ℕ} {session : BitwardenSession}
    {sync : SyncResponse} (hnow : fetchedAt ≤ now) :
    (CachedVault.new latest session sync fetchedAt).isFreshAt ttl now = true ↔
      now - fetchedAt < ttl ∧ ∀ e, session.expiresIn = some e →
        fetchedAt + Duration.fromSecs e ≤ latest →
          now - fetchedAt + tokenExpiryRefreshSkew < Duration.fromSecs e := by
  rw [isFreshAt_eq_true]
  generalize tokenExpiryRefreshSkew = skew
  refine and_congr_right' ?_
  constructor
  · intro h e he hrepresentable
    have hbefore := h _ (new_expiresAt.mpr ⟨e, he, hrepresentable, rfl⟩)
    omega
  · intro h expiresAt hexpires
    obtain ⟨e, he, hrepresentable, rfl⟩ := new_expiresAt.mp hexpires
    have hbefore := h e he hrepresentable
    omega

/-- The fresh instants are an initial interval, which a TTL bounds from above and a
representable expiry the skew before it. -/
theorem freshness_window (latest : ℕ) (session : BitwardenSession) (sync : SyncResponse)
    (fetchedAt : ℕ) :
    let cached := CachedVault.new latest session sync fetchedAt
    (∀ ttl now, fetchedAt ≤ now → (cached.isFreshAt ttl now = true ↔
      now - fetchedAt < ttl ∧ ∀ e, session.expiresIn = some e →
        fetchedAt + Duration.fromSecs e ≤ latest →
          now - fetchedAt + Duration.fromSecs 30 < Duration.fromSecs e)) ∧
    (∀ ttl t now, fetchedAt ≤ t → t ≤ now →
      (cached.isFreshAt ttl now = true → cached.isFreshAt ttl t = true) ∧
      (cached.isFreshAt ttl t = false → cached.isFreshAt ttl now = false)) ∧
    (∀ ttl ttl' now, fetchedAt ≤ now → ttl' ≤ ttl →
      cached.isFreshAt ttl' now = true → cached.isFreshAt ttl now = true) ∧
    (∀ now, fetchedAt ≤ now → cached.isFreshAt 0 now = false) ∧
    (∀ e ttl now, session.expiresIn = some e → e ≤ 30 →
      fetchedAt + Duration.fromSecs e ≤ latest → fetchedAt ≤ now →
        cached.isFreshAt ttl now = false) ∧
    ∀ e ttl now, session.expiresIn = some e → fetchedAt + Duration.fromSecs e ≤ now →
      now ≤ latest → cached.isFreshAt ttl now = false := by
  intro cached
  refine ⟨?_, ?_, ?_, ?_, ?_, ?_⟩
  · intro ttl now hnow
    exact CachedVault.isFreshAt_new hnow
  · intro ttl t now _ ht
    refine ⟨CachedVault.isFreshAt_mono ht, ?_⟩
    intro hstale
    by_contra hfresh
    rw [CachedVault.isFreshAt_mono ht (Bool.of_not_eq_false hfresh)] at hstale
    cases hstale
  · intro ttl ttl' now hnow hle hfresh
    obtain ⟨hyoung, hexpiry⟩ := (CachedVault.isFreshAt_new hnow).mp hfresh
    exact (CachedVault.isFreshAt_new hnow).mpr ⟨hyoung.trans_le hle, hexpiry⟩
  · intro now _
    exact cached.isFreshAt_zero now
  · intro e ttl now he hshort hrepresentable hnow
    rw [← Bool.not_eq_true, CachedVault.isFreshAt_new hnow]
    rintro ⟨-, hexpiry⟩
    have hwindow := hexpiry e he hrepresentable
    unfold tokenExpiryRefreshSkew Duration.fromSecs at hwindow
    omega
  · intro e ttl now he hexpired hnow
    rw [← Bool.not_eq_true, CachedVault.isFreshAt_new (by omega)]
    rintro ⟨-, hexpiry⟩
    have hwindow := hexpiry e he (hexpired.trans hnow)
    omega

theorem short_expiry_past_the_last_instant :
    let session : BitwardenSession := ⟨"token".toList, some 30, "Bearer".toList, sampleUserKey⟩
    let fetchedAt := Duration.fromSecs 90
    let cached := CachedVault.new (Duration.fromSecs 100) session ⟨[]⟩ fetchedAt
    session.expiresIn = some 30 ∧ cached.expiresAt = none ∧
      cached.isFreshAt (Duration.fromSecs 60) fetchedAt = true := by
  decide

/-! ## Reading the cache -/

/-- The last part of `resolve_with_cached_sync`, on the vault it finds in the cache. -/
def resolveCached (P : Primitives) (cached : CachedVault) (selector : BitwardenSelector) :
    Except BitwardenClientError SecretDocument := do
  let cipher ← resolveSyncedCipher P cached.sync cached.session.userKey selector.key
  if cipher.organizationId.isSome then .error (.api .unsupportedSharedItem)
  else match selector.property with
    | some property => do
      let value ← (cipher.extractProperty property).mapError .cipher
      let document := SecretDocument.single "value".toList value
      if property ≠ "value".toList then pure { document with data := document.data.insert property value }
      else pure document
    | none => cipher.toSecretDocument.mapError .cipher

def readCache (P : Primitives) (cache : Option CachedVault) (selector : BitwardenSelector) :
    Except BitwardenClientError SecretDocument :=
  match cache with
  | none => .error (.api .missingCachedSync)
  | some cached => resolveCached P cached selector

/-! ## Metrics -/

/-- The counters are atomics: additions wrap around. -/
structure CacheMetricState where
  cacheHits : UInt64
  refreshSuccesses : UInt64
  refreshFailures : UInt64
  lastSuccessUnixSeconds : UInt64
  deriving DecidableEq

def CacheMetricState.default : CacheMetricState := ⟨0, 0, 0, 0⟩

def CacheMetricState.hit (m : CacheMetricState) : CacheMetricState :=
  { m with cacheHits := m.cacheHits + 1 }

def CacheMetricState.success (m : CacheMetricState) (unixNow : UInt64) : CacheMetricState :=
  { m with refreshSuccesses := m.refreshSuccesses + 1, lastSuccessUnixSeconds := unixNow }

def CacheMetricState.failure (m : CacheMetricState) : CacheMetricState :=
  { m with refreshFailures := m.refreshFailures + 1 }

structure BitwardenCacheMetrics where
  cacheHits : UInt64
  refreshSuccesses : UInt64
  refreshFailures : UInt64
  lastSuccessUnixSeconds : Option UInt64
  lastSuccessAgeSeconds : Option UInt64
  deriving DecidableEq

def CacheMetricState.snapshot (m : CacheMetricState) (unixNow : UInt64) : BitwardenCacheMetrics :=
  let lastSuccessUnixSeconds :=
    if m.lastSuccessUnixSeconds > 0 then some m.lastSuccessUnixSeconds else none
  { cacheHits := m.cacheHits
    refreshSuccesses := m.refreshSuccesses
    refreshFailures := m.refreshFailures
    lastSuccessUnixSeconds
    lastSuccessAgeSeconds := lastSuccessUnixSeconds.map (fun timestamp =>
      if timestamp ≤ unixNow then unixNow - timestamp else 0) }

end VaultwardenEso.Client
