import VaultwardenEso.SingleFlight
import VaultwardenEso.Unlock

set_option autoImplicit false

/-!
# The cache beside the plain path

Without the cache a call would log in, sync and look the item up. Whatever the calls do
between each other, each of them returns what that plain path returns, with the server as it
was at the login and at the sync of one fetch.
-/
namespace VaultwardenEso.Client
open RustStr RustResult RustUrl BwesoCore Crypto Cipher

def Settles (cfg : Config) (r : ℕ) (selector : BitwardenSelector)
    (result : Except BitwardenClientError SecretDocument) (s : State) (l : Label) : Prop :=
  (l = .read r ∧ result = readCache cfg.primitives (s.cache.map (·.vault)) selector) ∨
    ∃ error, FailedAnswer r error l ∧ result = .error error

theorem step_settles {cfg : Config} {s u : State} {l : Label} {r : ℕ}
    {result : Except BitwardenClientError SecretDocument} (h : step cfg s l = some u)
    (hu : u.pc r = .finished result) :
    s.pc r = .finished result ∨ Settles cfg r (s.call r).selector result s l := by
  by_cases hmover : l.caller = some r
  · cases step_cases h with
    | tick elapsed => cases hmover
    | read r' hpc =>
      cases hmover
      simp only [State.goto, Function.update_self, Pc.finished.injEq] at hu
      exact .inr (.inl ⟨rfl, hu.symm⟩)
    | loginError r' began error hpc =>
      cases hmover
      simp only [State.fail, State.goto, Function.update_self, Pc.finished.injEq] at hu
      exact .inr (.inr ⟨error, .inl rfl, hu.symm⟩)
    | syncError r' began session error unixNow hpc =>
      cases hmover
      simp only [State.fail, State.goto, Function.update_self, Pc.finished.injEq] at hu
      exact .inr (.inr ⟨error, .inr ⟨unixNow, rfl⟩, hu.symm⟩)
    | lockCache r' pc _ hpc =>
      cases hmover
      simp only [State.goto, Function.update_self] at hu
      rw [hu] at hpc
      cases hp : s.pc r <;> rw [hp] at hpc <;> cases hpc
    | _ =>
      cases hmover
      simp [State.goto] at hu
  · rw [(step_frame h hmover).1] at hu
    exact .inl hu

/-! ## The plain path -/

/-- What a fetch needs besides the server: the derivation crates, the `url` crate, the endpoints
and the password of the account. -/
structure Account where
  kdf : KdfPrimitives
  crate : UrlCrate
  endpoints : BitwardenEndpoints
  masterPassword : Str

def Account.login (account : Account) (P : Primitives) (http : Transport) :
    Except BitwardenClientError BitwardenSession :=
  (loginWithApiKey account.kdf P account.crate http account.endpoints account.masterPassword).1

def Account.sync (account : Account) (http : Transport) : Except BitwardenClientError SyncResponse :=
  Client.sync account.crate http account.endpoints

/-- `fetch_vault`; the server may be another one when the sync is sent. -/
def Account.fetchVault (account : Account) (cfg : Config) (atLogin atSync : Transport) (now : ℕ) :
    Except BitwardenClientError CachedVault := do
  let session ← account.login cfg.primitives atLogin
  let sync ← account.sync atSync
  pure (CachedVault.new cfg.latest session sync now)

def Account.resolveDirect (account : Account) (cfg : Config) (atLogin atSync : Transport) (now : ℕ)
    (selector : BitwardenSelector) : Except BitwardenClientError SecretDocument := do
  let cached ← account.fetchVault cfg atLogin atSync now
  resolveCached cfg.primitives cached selector

def Label.AnsweredBy (account : Account) (cfg : Config) (http : Transport) : Label → Prop
  | .loginAnswer _ answer => answer = account.login cfg.primitives http
  | .syncAnswer _ answer _ => answer = account.sync http
  | _ => True

/-- `server` is the server at each step of the run. -/
def AnsweredBy (account : Account) (cfg : Config) (server : ℕ → Transport) (ls : List Label) : Prop :=
  ∀ (i : ℕ) (l : Label), ls[i]? = some l → l.AnsweredBy account cfg (server i)

section Direct
variable {account : Account} {cfg : Config} {server : ℕ → Transport}

theorem AnsweredBy.snoc {ls : List Label} {l : Label} (h : AnsweredBy account cfg server (ls ++ [l])) :
    AnsweredBy account cfg server ls ∧ l.AnsweredBy account cfg (server ls.length) := by
  constructor
  · intro i l' hi
    refine h i l' ?_
    rw [List.getElem?_append_left]
    · exact hi
    · exact (List.getElem?_eq_some_iff.mp hi).1
  · refine h ls.length l ?_
    rw [List.getElem?_append_right (le_refl _), Nat.sub_self]
    rfl

def LoggedIn (account : Account) (cfg : Config) (server : ℕ → Transport) (n : ℕ)
    (session : BitwardenSession) : Prop :=
  ∃ i, i < n ∧ account.login cfg.primitives (server i) = .ok session

def FetchedDirectly (account : Account) (cfg : Config) (server : ℕ → Transport) (n : ℕ)
    (vault : CachedVault) : Prop :=
  ∃ i j now, i < j ∧ j < n ∧ account.fetchVault cfg (server i) (server j) now = .ok vault

/-- A plain resolution before step `n` gave the result. -/
def ResolvedDirectly (account : Account) (cfg : Config) (server : ℕ → Transport) (n : ℕ)
    (selector : BitwardenSelector) (result : Except BitwardenClientError SecretDocument) : Prop :=
  ∃ i j now, i ≤ j ∧ j < n ∧
    result = account.resolveDirect cfg (server i) (server j) now selector

structure DirectInv (account : Account) (cfg : Config) (server : ℕ → Transport) (n : ℕ)
    (s : State) : Prop where
  session : ∀ r began session, s.pc r = .syncing began session →
    LoggedIn account cfg server n session
  slot : ∀ fetched, s.cache = some fetched → FetchedDirectly account cfg server n fetched.vault
  fetched : ∀ r fetched, (s.pc r).fetched = some fetched →
    FetchedDirectly account cfg server n fetched.vault
  finished : ∀ r result, s.pc r = .finished result →
    ResolvedDirectly account cfg server n (s.call r).selector result

theorem LoggedIn.later {n : ℕ} {session : BitwardenSession}
    (h : LoggedIn account cfg server n session) : LoggedIn account cfg server (n + 1) session := by
  obtain ⟨i, hi, hlogin⟩ := h
  exact ⟨i, by omega, hlogin⟩

theorem FetchedDirectly.later {n : ℕ} {vault : CachedVault}
    (h : FetchedDirectly account cfg server n vault) :
    FetchedDirectly account cfg server (n + 1) vault := by
  obtain ⟨i, j, now, hij, hj, hfetch⟩ := h
  exact ⟨i, j, now, hij, by omega, hfetch⟩

theorem ResolvedDirectly.later {n : ℕ} {selector : BitwardenSelector}
    {result : Except BitwardenClientError SecretDocument}
    (h : ResolvedDirectly account cfg server n selector result) :
    ResolvedDirectly account cfg server (n + 1) selector result := by
  obtain ⟨i, j, now, hij, hj, hresult⟩ := h
  exact ⟨i, j, now, hij, by omega, hresult⟩

theorem FetchedDirectly.resolved {n : ℕ} {vault : CachedVault}
    (h : FetchedDirectly account cfg server n vault) (selector : BitwardenSelector) :
    ResolvedDirectly account cfg server n selector
      (resolveCached cfg.primitives vault selector) := by
  obtain ⟨i, j, now, hij, hj, hfetch⟩ := h
  refine ⟨i, j, now, hij.le, hj, ?_⟩
  rw [Account.resolveDirect, hfetch]
  rfl

theorem resolvedDirectly_of_login {n : ℕ} {error : BitwardenClientError}
    (h : account.login cfg.primitives (server n) = .error error) (selector : BitwardenSelector) :
    ResolvedDirectly account cfg server (n + 1) selector (.error error) := by
  refine ⟨n, n, 0, le_refl n, Nat.lt_succ_self n, ?_⟩
  rw [Account.resolveDirect, Account.fetchVault, h]
  rfl

theorem resolvedDirectly_of_sync {n : ℕ} {session : BitwardenSession} {error : BitwardenClientError}
    (hsession : LoggedIn account cfg server n session)
    (h : account.sync (server n) = .error error) (selector : BitwardenSelector) :
    ResolvedDirectly account cfg server (n + 1) selector (.error error) := by
  obtain ⟨i, hi, hlogin⟩ := hsession
  refine ⟨i, n, 0, hi.le, Nat.lt_succ_self n, ?_⟩
  rw [Account.resolveDirect, Account.fetchVault, hlogin, h]
  rfl

theorem fetchedDirectly_of_sync {n now : ℕ} {session : BitwardenSession} {sync : SyncResponse}
    (hsession : LoggedIn account cfg server n session) (h : account.sync (server n) = .ok sync) :
    FetchedDirectly account cfg server (n + 1) (CachedVault.new cfg.latest session sync now) := by
  obtain ⟨i, hi, hlogin⟩ := hsession
  refine ⟨i, n, now, hi, Nat.lt_succ_self n, ?_⟩
  rw [Account.fetchVault, hlogin, h]
  rfl

theorem directInv_initial (start : ℕ) :
    DirectInv account cfg server 0 (State.initial start) where
  session := nofun
  slot := nofun
  fetched := nofun
  finished := nofun

theorem DirectInv.goto {n : ℕ} {s : State} (hs : DirectInv account cfg server n s) {r : ℕ} {p : Pc}
    (cacheLock refreshLock : Option ℕ) (metrics : CacheMetricState)
    (hsession : ∀ began session, p = .syncing began session →
      LoggedIn account cfg server (n + 1) session)
    (hfetched : ∀ fetched, p.fetched = some fetched →
      FetchedDirectly account cfg server (n + 1) fetched.vault)
    (hfinished : ∀ result, p = .finished result →
      ResolvedDirectly account cfg server (n + 1) (s.call r).selector result) :
    DirectInv account cfg server (n + 1)
      { s.goto r p with cacheLock, refreshLock, metrics } where
  session := by
    intro r' began session h
    by_cases hr : r' = r
    · exact hsession began session (by simpa [State.goto, hr] using h)
    · exact (hs.session r' began session (by simpa [State.goto, hr] using h)).later
  slot := fun fetched h => (hs.slot fetched h).later
  fetched := by
    intro r' fetched h
    by_cases hr : r' = r
    · exact hfetched fetched (by simpa [State.goto, hr] using h)
    · exact (hs.fetched r' fetched (by simpa [State.goto, hr] using h)).later
  finished := by
    intro r' result h
    by_cases hr : r' = r
    · rw [hr]
      exact hfinished result (by simpa [State.goto, hr] using h)
    · exact (hs.finished r' result (by simpa [State.goto, hr] using h)).later

theorem DirectInv.keep {n : ℕ} {s : State} (hs : DirectInv account cfg server n s) {r : ℕ} {p : Pc}
    (cacheLock refreshLock : Option ℕ) (metrics : CacheMetricState)
    (hsession : ∀ began session, p ≠ .syncing began session)
    (hfetched : p.fetched = none ∨ p.fetched = (s.pc r).fetched)
    (hfinished : ∀ result, p ≠ .finished result) :
    DirectInv account cfg server (n + 1)
      { s.goto r p with cacheLock, refreshLock, metrics } := by
  apply hs.goto cacheLock refreshLock metrics
  · intro began session h
    exact absurd h (hsession began session)
  · intro fetched h
    rcases hfetched with hnone | hsame
    · rw [hnone] at h
      cases h
    · rw [hsame] at h
      exact (hs.fetched r fetched h).later
  · intro result h
    exact absurd h (hfinished result)

theorem Pc.entered_keeps {p p' : Pc} (h : p.entered = some p') :
    p'.fetched = p.fetched ∧ (∀ began session, p' ≠ .syncing began session) ∧
      ∀ result, p' ≠ .finished result := by
  cases p <;> cases h <;> exact ⟨rfl, nofun, nofun⟩

theorem step_directInv {n : ℕ} {s u : State} {l : Label} (hs : DirectInv account cfg server n s)
    (hread : ∀ r, (s.pc r).reading = true → ∃ fetched, s.cache = some fetched)
    (hl : l.AnsweredBy account cfg (server n)) (h : step cfg s l = some u) :
    DirectInv account cfg server (n + 1) u := by
  cases step_cases h with
  | tick elapsed =>
    exact ⟨fun r began session h => (hs.session r began session h).later,
      fun fetched h => (hs.slot fetched h).later,
      fun r fetched h => (hs.fetched r fetched h).later,
      fun r result h => (hs.finished r result h).later⟩
  | call r selector hidle =>
    have hother : ∀ r', s.pc r' ≠ .idle → r' ≠ r := by
      rintro r' hne rfl
      exact hne hidle
    refine ⟨?_, fun fetched h => (hs.slot fetched h).later, ?_, ?_⟩
    · intro r' began session h
      by_cases hr : r' = r
      · simp [State.goto, hr] at h
      · exact (hs.session r' began session (by simpa [State.goto, hr] using h)).later
    · intro r' fetched h
      by_cases hr : r' = r
      · simp [State.goto, hr, Pc.fetched] at h
      · exact (hs.fetched r' fetched (by simpa [State.goto, hr] using h)).later
    · intro r' result h
      by_cases hr : r' = r
      · simp [State.goto, hr] at h
      · simp only [Function.update_of_ne hr]
        exact (hs.finished r' result (by simpa [State.goto, hr] using h)).later
  | lockCache r pc hfree hpc =>
    obtain ⟨hfetched, hsession, hfinished⟩ := Pc.entered_keeps hpc
    exact hs.keep _ _ _ hsession (.inr hfetched) hfinished
  | loginOk r began session hpc =>
    refine hs.goto _ _ _ ?_ (by simp [Pc.fetched]) (by simp)
    intro began' session' h
    cases h
    exact ⟨n, Nat.lt_succ_self n, hl.symm⟩
  | loginError r began error hpc =>
    refine hs.goto _ _ _ (by simp) (by simp [Pc.fetched]) ?_
    intro result h
    cases h
    exact resolvedDirectly_of_login hl.symm _
  | syncOk r began session sync unixNow hpc =>
    refine hs.goto _ _ _ (by simp) ?_ (by simp)
    intro fetched h
    cases h
    exact fetchedDirectly_of_sync (hs.session r began session hpc) hl.symm
  | syncError r began session error unixNow hpc =>
    refine hs.goto _ _ _ (by simp) (by simp [Pc.fetched]) ?_
    intro result h
    cases h
    exact resolvedDirectly_of_sync (hs.session r began session hpc) hl.symm _
  | install r fetched hpc =>
    have hkept : DirectInv account cfg server (n + 1) { s.goto r .waitRead with
        cacheLock := none, refreshLock := none } := hs.keep _ _ _ (by simp) (.inl rfl) (by simp)
    refine ⟨hkept.session, ?_, hkept.fetched, hkept.finished⟩
    intro fetched' h
    cases h
    exact (hs.fetched r fetched (by rw [hpc]; rfl)).later
  | read r hpc =>
    refine hs.goto _ _ _ (by simp) (by simp [Pc.fetched]) ?_
    intro result h
    cases h
    obtain ⟨fetched, hcache⟩ := hread r (by rw [hpc]; rfl)
    rw [hcache]
    exact ((hs.slot fetched hcache).resolved _).later
  | lockRefresh r hfree hpc | hit1 r hpc hfresh | stale1 r hpc hstale | hit2 r hpc hfresh
  | stale2 r hpc hstale | beginFetch r hpc | drop r hpc =>
    exact hs.keep _ _ _ (by simp) (.inl rfl) (by simp)

theorem run_directInv {start : ℕ} :
    ∀ ls s, Machine.run (step cfg) (State.initial start) ls = some s →
      AnsweredBy account cfg server ls → DirectInv account cfg server ls.length s := by
  apply Machine.run_history
  · intro _
    exact directInv_initial start
  · intro ls u l v hrun hu hstep hanswered
    obtain ⟨hpast, hl⟩ := hanswered.snoc
    rw [List.length_append, List.length_singleton]
    refine step_directInv (hu hpast) ?_ hl hstep
    intro r hreading
    obtain ⟨fetched, hcache, -⟩ := (reachable_freshnessInv ⟨ls, hrun⟩).reading r hreading
    exact ⟨fetched, hcache⟩

end Direct

theorem Account.resolveDirect_now (account : Account) (cfg : Config) (atLogin atSync : Transport)
    (now now' : ℕ) (selector : BitwardenSelector) :
    account.resolveDirect cfg atLogin atSync now selector =
      account.resolveDirect cfg atLogin atSync now' selector := by
  unfold resolveDirect fetchVault
  cases account.login cfg.primitives atLogin with
  | error error => rfl
  | ok session =>
    cases account.sync atSync with
    | error error => rfl
    | ok sync => rfl

theorem cached_results_are_direct (account : Account) (cfg : Config) (server : ℕ → Transport)
    (start : ℕ) (ls : List Label) (s : State) (r : ℕ)
    (result : Except BitwardenClientError SecretDocument)
    (hrun : Machine.run (step cfg) (State.initial start) ls = some s)
    (hanswered : AnsweredBy account cfg server ls) (hpc : s.pc r = .finished result) :
    ∃ i j, i ≤ j ∧ j < ls.length ∧ ∀ now,
      result = account.resolveDirect cfg (server i) (server j) now (s.call r).selector := by
  obtain ⟨i, j, now, hij, hj, hresult⟩ := (run_directInv ls s hrun hanswered).finished r result hpc
  refine ⟨i, j, hij, hj, ?_⟩
  intro now'
  rw [hresult]
  exact account.resolveDirect_now cfg _ _ now now' _

def fixtureAccount : Account :=
  ⟨fixtureKdf, vaultCrate, .fromSingleOrigin vaultCrate ⟨vaultUrl⟩, fixturePassword⟩

def fixtureItem : Str :=
  "2.0NHS09TV1tfY2drb3N3e3w==|fx".toList ++ "f7VSMIirs7KgCZqk8XSA==|d8nG6J".toList ++
    "VlGrg3ZaVEmSMkIUBu/xGXwL5DpI".toList ++ "vkm+p15J4=".toList

def fixtureSyncDocument : Serde.Json :=
  .obj [("ciphers".toList, .arr [.obj [("id".toList, .str "cipher-login".toList),
    ("type".toList, .int 1), ("name".toList, .str fixtureItem)]])]

def fixtureSync : SyncResponse :=
  ⟨[⟨"cipher-login".toList, 1, none, none, some fixtureItem, none, [], none, none⟩]⟩

def fixtureSession : BitwardenSession :=
  ⟨"access-token".toList, some 3600, "Bearer".toList, fixtureUserKey⟩

def fixtureConfig : Config :=
  ⟨fixtureRecording.primitives, Duration.fromSecs 60, Duration.fromSecs 100000⟩

theorem fixtureAccount_login :
    fixtureAccount.login fixtureRecording.primitives (fixtureServer fixtureSyncDocument) =
      .ok fixtureSession := by
  decide +kernel

theorem fixtureAccount_sync :
    fixtureAccount.sync (fixtureServer fixtureSyncDocument) = .ok fixtureSync := by
  decide +kernel

def fixtureReads : List Label :=
  toSecondCheck 0 ++ [.beginFetch 0, .loginAnswer 0 (.ok fixtureSession),
    .syncAnswer 0 (.ok fixtureSync) 1767225600, .lockCache 0, .install 0, .lockCache 0, .read 0,
    .call 1 sampleSelector, .lockCache 1, .check 1, .lockCache 1, .read 1]

theorem fixtureReads_answered : AnsweredBy fixtureAccount fixtureConfig
    (fun _ => fixtureServer fixtureSyncDocument) fixtureReads := by
  intro i l hi
  have hmem : l ∈ fixtureReads := List.mem_of_getElem? hi
  simp only [fixtureReads, toSecondCheck, List.cons_append, List.nil_append, List.mem_cons,
    List.not_mem_nil, or_false] at hmem
  rcases hmem with rfl | rfl | rfl | rfl | rfl | rfl | rfl | rfl | rfl | rfl | rfl | rfl | rfl | rfl |
    rfl | rfl | rfl | rfl
  all_goals first | exact fixtureAccount_login.symm | exact fixtureAccount_sync.symm | trivial

theorem cache_hit_is_direct : ∃ s document,
    Machine.run (step fixtureConfig) (State.initial 0) fixtureReads = some s ∧
      s.metrics.cacheHits = 1 ∧ s.writes = 1 ∧ s.pc 1 = .finished (.ok document) ∧
      ∀ now, .ok document = fixtureAccount.resolveDirect fixtureConfig
        (fixtureServer fixtureSyncDocument) (fixtureServer fixtureSyncDocument) now
        (s.call 1).selector := by
  have hrun : ∃ s, Machine.run (step fixtureConfig) (State.initial 0) fixtureReads = some s ∧
      s.metrics.cacheHits = 1 ∧ s.writes = 1 ∧ ∃ result, s.pc 1 = .finished result ∧
        result.isOk = true := by
    refine ⟨_, rfl, rfl, rfl, _, rfl, ?_⟩
    decide +kernel
  obtain ⟨s, hs, hhits, hwrites, result, hpc, hok⟩ := hrun
  cases result with
  | error error => cases hok
  | ok document =>
    obtain ⟨i, j, -, -, hresult⟩ := cached_results_are_direct fixtureAccount fixtureConfig
      (fun _ => fixtureServer fixtureSyncDocument) 0 fixtureReads s 1 _ hs fixtureReads_answered hpc
    exact ⟨s, document, hs, hhits, hwrites, hpc, hresult⟩

end VaultwardenEso.Client
