import VaultwardenEso.PlainVault
import VaultwardenEso.Provenance

set_option autoImplicit false

/-!
# A vault kept for the webhook

As long as the server of the vault keeps a vault for its owner, every response is what the handler
makes of that vault, as it was at one moment of the run: at most the time to live before the
request reached the provider.
-/
namespace VaultwardenEso.Client
open RustStr BwesoCore Crypto Cipher

/-! ## What a step makes of the fetched vaults -/

section Steps
variable {cfg : Config} {s u : State} {l : Label}

theorem step_fetchBegan {r began : ℕ} (h : step cfg s l = some u)
    (hu : (u.pc r).fetchBegan = some began) :
    (s.pc r).fetchBegan = some began ∨ began = s.started := by
  by_cases hmover : l.caller = some r
  · cases step_cases h with
    | tick elapsed => cases hmover
    | beginFetch r' hpc =>
      cases hmover
      simp only [State.goto, Function.update_self, Pc.fetchBegan, Option.some.injEq] at hu
      exact .inr hu.symm
    | lockCache r' pc _ hpc =>
      cases hmover
      simp only [State.goto, Function.update_self, (Pc.entered_fetch hpc).1] at hu
      exact .inl hu
    | loginOk r' began' session hpc | syncOk r' began' session sync unixNow hpc =>
      cases hmover
      simp only [State.goto, Function.update_self, Pc.fetchBegan, Option.some.injEq] at hu
      rw [hpc, ← hu]
      exact .inl rfl
    | _ =>
      cases hmover
      simp [State.goto, State.fail, Pc.fetchBegan] at hu
  · rw [(step_frame h hmover).1] at hu
    exact .inl hu

theorem step_fetched {r : ℕ} {fetched : Fetched} (h : step cfg s l = some u)
    (hu : (u.pc r).fetched = some fetched) :
    (s.pc r).fetched = some fetched ∨ ∃ session sync unixNow, l = .syncAnswer r (.ok sync) unixNow ∧
      (s.pc r).fetchBegan = some fetched.began ∧
      fetched.vault = CachedVault.new cfg.latest session sync s.now := by
  by_cases hmover : l.caller = some r
  · cases step_cases h with
    | tick elapsed => cases hmover
    | lockCache r' pc _ hpc =>
      cases hmover
      simp only [State.goto, Function.update_self, (Pc.entered_fetch hpc).2.1] at hu
      exact .inl hu
    | syncOk r' began session sync unixNow hpc =>
      cases hmover
      simp only [State.goto, Function.update_self, Pc.fetched, Option.some.injEq] at hu
      rw [← hu, hpc]
      exact .inr ⟨session, sync, unixNow, rfl, rfl, rfl⟩
    | _ =>
      cases hmover
      simp [State.goto, State.fail, Pc.fetched] at hu
  · rw [(step_frame h hmover).1] at hu
    exact .inl hu

theorem step_slot {fetched : Fetched} (h : step cfg s l = some u) (hu : u.cache = some fetched) :
    s.cache = some fetched ∨ ∃ r, (s.pc r).fetched = some fetched := by
  cases step_cases h with
  | install r fetched' hpc =>
    cases hu
    exact .inr ⟨r, by rw [hpc]; rfl⟩
  | _ => exact .inl hu

theorem step_calls (h : step cfg s l = some u) (w : ℕ) (hw : u.pc w ≠ .idle) :
    (s.pc w ≠ .idle ∧ u.call w = s.call w) ∨
      ((u.call w).startedAt = s.now ∧ (u.call w).number = s.started) := by
  by_cases hidle : s.pc w = .idle
  · refine .inr ?_
    by_cases hmover : l.caller = some w
    · cases step_cases h with
      | tick elapsed => cases hmover
      | call r selector hpc =>
        cases hmover
        simp
      | lockCache r pc _ hpc =>
        cases hmover
        rw [hidle] at hpc
        cases hpc
      | drop r hpc =>
        cases hmover
        rw [hidle] at hpc
        cases hpc
      | lockRefresh r _ hpc | hit1 r hpc _ | stale1 r hpc _ | hit2 r hpc _ | stale2 r hpc _
      | beginFetch r hpc | loginOk r _ _ hpc | loginError r _ _ hpc | syncOk r _ _ _ _ hpc
      | syncError r _ _ _ _ hpc | install r _ hpc | read r hpc =>
        cases hmover
        rw [hidle] at hpc
        cases hpc
    · rw [(step_frame h hmover).1] at hw
      exact absurd hidle hw
  · exact .inl ⟨hidle, step_call h hidle⟩

theorem step_started_le (h : step cfg s l = some u) : s.started ≤ u.started := by
  cases step_cases h with
  | call r selector hpc => exact Nat.le_succ _
  | _ => exact le_refl _

theorem step_read {r : ℕ} (h : step cfg s (.read r) = some u) : s.pc r = .read := by
  cases step_cases h with
  | read r' hpc => exact hpc

end Steps

/-! ## When the vaults were synced -/

/-- The vault was synced at its time, and after the start of every call that its fetch came after. -/
structure Dated (synced : ℕ → SyncResponse → Prop) (s : State) (fetched : Fetched) : Prop where
  synced : synced fetched.vault.fetchedAt fetched.vault.sync
  began : fetched.began ≤ s.started
  after : ∀ r, s.pc r ≠ .idle → (s.call r).number < fetched.began →
    (s.call r).startedAt ≤ fetched.vault.fetchedAt

structure DatedInv (synced : ℕ → SyncResponse → Prop) (s : State) : Prop where
  began : ∀ r began, (s.pc r).fetchBegan = some began → began ≤ s.started
  slot : ∀ fetched, s.cache = some fetched → Dated synced s fetched
  fetched : ∀ r fetched, (s.pc r).fetched = some fetched → Dated synced s fetched

section Dated
variable {cfg : Config} {synced synced' : ℕ → SyncResponse → Prop} {s u : State} {l : Label}

theorem datedInv_initial (now : ℕ) : DatedInv synced (State.initial now) := by
  constructor
  · intro r began h
    cases h
  · intro fetched h
    cases h
  · intro r fetched h
    cases h

theorem Dated.step {fetched : Fetched} (hd : Dated synced s fetched)
    (hpast : ∀ t sync, synced t sync → synced' t sync) (h : step cfg s l = some u) :
    Dated synced' u fetched := by
  refine ⟨hpast _ _ hd.synced, hd.began.trans (step_started_le h), ?_⟩
  intro r hr hnumber
  obtain ⟨hidle, hcall⟩ | ⟨-, hnew⟩ := step_calls h r hr
  · rw [hcall] at hnumber ⊢
    exact hd.after r hidle hnumber
  · have hbegan := hd.began
    omega

theorem step_datedInv (hs : DatedInv synced s) (hfresh : FreshnessInv cfg s)
    (hpast : ∀ t sync, synced t sync → synced' t sync)
    (hnow : ∀ r sync unixNow, l = .syncAnswer r (.ok sync) unixNow → synced' s.now sync)
    (h : step cfg s l = some u) : DatedInv synced' u := by
  have hfetched : ∀ r fetched, (u.pc r).fetched = some fetched → Dated synced' u fetched := by
    intro r fetched hu
    obtain hbefore | ⟨session, sync, unixNow, rfl, hbegan, hvault⟩ := step_fetched h hu
    · exact (hs.fetched r fetched hbefore).step hpast h
    · have hdated : Dated synced' s fetched := by
        refine ⟨?_, hs.began r _ hbegan, ?_⟩
        · rw [hvault]
          exact hnow r sync unixNow rfl
        · intro r' hr' _
          rw [hvault]
          exact hfresh.startedAt r' hr'
      exact hdated.step (fun _ _ hsync => hsync) h
  refine ⟨?_, ?_, hfetched⟩
  · intro r began hu
    have hle := step_started_le h
    obtain hbefore | rfl := step_fetchBegan h hu
    · exact (hs.began r began hbefore).trans hle
    · exact hle
  · intro fetched hu
    obtain hbefore | ⟨r, hbefore⟩ := step_slot h hu
    · exact (hs.slot fetched hbefore).step hpast h
    · exact (hs.fetched r fetched hbefore).step hpast h

/-- What is read was synced at most the time to live before the call started. -/
theorem Dated.recent {fetched : Fetched} (hd : Dated synced s fetched) {r : ℕ}
    (hr : s.pc r ≠ .idle) (hacceptable : Acceptable cfg s.now (s.call r) fetched) :
    (s.call r).startedAt ≤ fetched.vault.fetchedAt + cfg.ttl := by
  obtain ⟨t, hstarted, hfetched, -, hfresh⟩ | hbegan := hacceptable
  · obtain ⟨hage, -⟩ := CachedVault.isFreshAt_eq_true.mp hfresh
    omega
  · exact (hd.after r hr hbegan).trans (Nat.le_add_right _ _)

end Dated

end VaultwardenEso.Client

namespace VaultwardenEso.Provider
open RustStr BwesoCore Crypto Cipher Client

/-- Whenever the server answers, it is with the user key, and with the vault written under it. -/
structure Keeps (account : Account) (P : Primitives) (E : Encoders) (server : ℕ → Transport)
    (userKey : AuthenticatedSymmetricKey) (vault : ℕ → List VaultItem) : Prop where
  login : ∀ n session, account.login P (server n) = .ok session → session.userKey = userKey
  sync : ∀ n sync, account.sync (server n) = .ok sync →
    List.Forall₂ (Stores P E userKey) sync.ciphers (vault n)

/-- After a part of the run the clock showed `t`, and the server held the sync document. -/
def Synced (account : Account) (cfg : ServerConfig) (server : ℕ → Transport) (initial : Server)
    (ls : List Label) (t : ℕ) (sync : SyncResponse) : Prop :=
  ∃ ms u, ms <+: ls ∧ Machine.run (step cfg) initial ms = some u ∧ u.core.client.now = t ∧
    account.sync (server ms.length) = .ok sync

theorem step_provider {cfg : ServerConfig} {s u : Server} {r : ℕ} {l : Client.Label}
    (h : step cfg s (.act r (.provider l)) = some u) :
    Client.step cfg.client s.core.client l = some u.core.client := by
  obtain ⟨outcome, houtcome, rfl⟩ := Option.map_eq_some_iff.mp h
  cases hphase : s.phase r with
  | calling selector =>
    rw [hphase] at houtcome
    simp only [handle, Option.ite_none_right_eq_some] at houtcome
    obtain ⟨-, houtcome⟩ := houtcome
    obtain ⟨client, hclient, rfl⟩ := Option.map_eq_some_iff.mp houtcome
    exact hclient
  | _ =>
    rw [hphase] at houtcome
    cases houtcome

section Runs
variable {account : Account} {cfg : ServerConfig} {server : ℕ → Transport} {now : ℕ}
  {policy : SelectorPolicy} {permits : Option ℕ}

theorem run_datedInv :
    ∀ ls s, Machine.run (step cfg) (.initial now policy permits) ls = some s →
      AnsweredBy account cfg server ls →
        DatedInv (Synced account cfg server (.initial now policy permits) ls) s.core.client := by
  apply Machine.run_history
  · intro _
    exact datedInv_initial now
  · intro ls u l v hrun hu hstep hanswered
    have hpast := hu (hanswered.of_prefix (List.prefix_append ls [l]))
    have hgrows : ∀ t sync, Synced account cfg server (.initial now policy permits) ls t sync →
        Synced account cfg server (.initial now policy permits) (ls ++ [l]) t sync := by
      intro t sync h
      obtain ⟨ms, w, hms, hw, ht, hsync⟩ := h
      exact ⟨ms, w, hms.trans (List.prefix_append ls [l]), hw, ht, hsync⟩
    obtain hsame | ⟨l', hl', hclient⟩ := step_answers hstep hanswered.last
    · rw [hsame]
      refine ⟨hpast.began, ?_, ?_⟩
      · intro fetched h
        have hdated := hpast.slot fetched h
        exact ⟨hgrows _ _ hdated.synced, hdated.began, hdated.after⟩
      · intro r fetched h
        have hdated := hpast.fetched r fetched h
        exact ⟨hgrows _ _ hdated.synced, hdated.began, hdated.after⟩
    · refine step_datedInv hpast (reachable_freshnessInv (reachable_client ⟨ls, hrun⟩)) hgrows ?_
        hclient
      intro r sync unixNow hsync
      subst hsync
      exact ⟨ls, u, List.prefix_append ls [l], hrun, rfl, hl'.symm⟩

theorem run_call {s u : Server} {ls : List Label} {r : ℕ}
    (hrun : Machine.run (step cfg) s ls = some u) (hstarted : s.core.client.pc r ≠ .idle) :
    u.core.client.call r = s.core.client.call r := by
  have hkept := Machine.run_invariant (I := fun u => u.core.client.pc r ≠ .idle ∧
    u.core.client.call r = s.core.client.call r) ?_ ⟨hstarted, rfl⟩ hrun
  · exact hkept.2
  · intro u l v hu hstep
    by_cases hmover : l.request = some r
    · cases server_cases hstep with
      | arrive => exact hu
      | act r' action outcome houtcome =>
        obtain hsame | ⟨l', -, hclient⟩ := handle_client houtcome
        · rw [Server.take, hsame]
          exact hu
        · exact ⟨step_started hclient hu.1, (step_call hclient hu.1).trans hu.2⟩
      | tick | reload => cases hmover
    · obtain ⟨hpc, hcall⟩ := step_client hstep hmover
      rw [hpc, hcall]
      exact hu

theorem slot_userKey {E : Encoders} {userKey : AuthenticatedSymmetricKey}
    {vault : ℕ → List VaultItem} {s : Server} {ls : List Label}
    (hkeeps : Keeps account cfg.client.primitives E server userKey vault)
    (hrun : Machine.run (step cfg) (.initial now policy permits) ls = some s)
    (hanswered : AnsweredBy account cfg server ls) {fetched : Fetched}
    (hcache : s.core.client.cache = some fetched) : fetched.vault.session.userKey = userKey := by
  obtain ⟨calls, moment, hcalls, hanswers, -, -⟩ := run_client ls s hrun hanswered
  obtain ⟨i, j, fetchedAt, -, -, hfetch⟩ := (run_directInv calls _ hcalls hanswers).slot fetched hcache
  obtain ⟨hlogin, -⟩ := fetchVault_eq_ok hfetch
  exact hkeeps.login _ _ hlogin

end Runs

/-- The result is that of the vault, as it was at most the time to live before `startedAt`. -/
def OfVault (cfg : ServerConfig) (initial : Server) (ls : List Label) (vault : ℕ → List VaultItem)
    (startedAt : ℕ) (selector : BitwardenSelector)
    (result : Except BitwardenClientError SecretDocument) : Prop :=
  ∃ ms u, ms <+: ls ∧ Machine.run (step cfg) initial ms = some u ∧
    result = resolvePlain (vault ms.length) selector ∧ startedAt ≤ u.core.client.now + cfg.client.ttl

/-- The server has refused a login or a sync with this error. -/
def OfOutage (account : Account) (cfg : ServerConfig) (server : ℕ → Transport) (ls : List Label)
    (result : Except BitwardenClientError SecretDocument) : Prop :=
  ∃ n error, n < ls.length ∧ result = .error error ∧
    (account.login cfg.client.primitives (server n) = .error error ∨
      account.sync (server n) = .error error)

section Served
variable {account : Account} {cfg : ServerConfig} {E : Encoders} {server : ℕ → Transport}
  {userKey : AuthenticatedSymmetricKey} {vault : ℕ → List VaultItem} {now : ℕ}
  {policy : SelectorPolicy} {permits : Option ℕ} {ls : List Label} {s : Server} {r : ℕ}
  {selector : BitwardenSelector} {result : Except BitwardenClientError SecretDocument}

theorem provides_ofVault (hE : Inverts cfg.client.primitives E)
    (hkeeps : Keeps account cfg.client.primitives E server userKey vault)
    (hrun : Machine.run (step cfg) (.initial now policy permits) ls = some s)
    (hanswered : AnsweredBy account cfg server ls)
    (hprovides : Machine.Stepped (step cfg) (.initial now policy permits) ls
      (Provides cfg r selector result)) :
    OfVault cfg (.initial now policy permits) ls vault (s.core.client.call r).startedAt selector
        result ∨ OfOutage account cfg server ls result := by
  obtain ⟨ms, v, l, hms, hv, l', rfl, hsettles⟩ := hprovides
  have hlength : ms.length < ls.length := by
    have hle := hms.length_le
    rw [List.length_append, List.length_singleton] at hle
    omega
  obtain ⟨rfl, hresult⟩ | ⟨error, hfailed, hresult⟩ := hsettles
  · left
    have hpast : ms <+: ls := (List.prefix_append ms _).trans hms
    have hpastAnswered := hanswered.of_prefix hpast
    obtain ⟨w, hstep⟩ := Machine.next_of_run hrun hms hv
    have hpc : v.core.client.pc r = .read := step_read (step_provider hstep)
    have hstarted : v.core.client.pc r ≠ .idle := by
      rw [hpc]
      simp
    obtain ⟨fetched, hcache, hacceptable⟩ :=
      (reachable_freshnessInv (reachable_client ⟨ms, hv⟩)).reading r (by rw [hpc]; rfl)
    have hdated := (run_datedInv ms v hv hpastAnswered).slot fetched hcache
    have hkey := slot_userKey hkeeps hv hpastAnswered hcache
    have hrecent := hdated.recent hstarted hacceptable
    obtain ⟨qs, u, hqs, hu, hnow, hsync⟩ := hdated.synced
    refine ⟨qs, u, hqs.trans hpast, hu, ?_, ?_⟩
    · have hstores := hkeeps.sync _ _ hsync
      rw [← hkey] at hstores
      rw [hresult, hcache]
      exact resolveCached_eq_resolvePlain hE fetched.vault (vault qs.length) hstores selector
    · obtain ⟨rest, rfl⟩ := hpast
      obtain ⟨v', hv', hrest⟩ := Machine.run_append.mp hrun
      obtain rfl : v = v' := Option.some.inj (hv.symm.trans hv')
      rw [run_call hrest hstarted, hnow]
      exact hrecent
  · right
    refine ⟨ms.length, error, hlength, hresult, ?_⟩
    have hanswer := (hanswered.of_prefix hms).last
    obtain rfl | ⟨unixNow, rfl⟩ := hfailed
    · exact .inl hanswer.symm
    · exact .inr hanswer.symm

end Served

/-- Every response is what the handler makes of the kept vault. -/
theorem responses_show_the_kept_vault (account : Account) (cfg : ServerConfig) (E : Encoders)
    (hE : Inverts cfg.client.primitives E) (server : ℕ → Transport)
    (userKey : AuthenticatedSymmetricKey) (vault : ℕ → List VaultItem)
    (hkeeps : Keeps account cfg.client.primitives E server userKey vault) (now : ℕ)
    (policy : SelectorPolicy) (permits : Option ℕ) (ls : List Label) (s : Server) (r : ℕ)
    (response : Response)
    (hrun : Machine.run (step cfg) (.initial now policy permits) ls = some s)
    (hanswered : AnsweredBy account cfg server ls) (hresponse : s.phase r = .responded response) :
    ∃ full rules provider, response = resolve cfg r full rules provider ∧
      (cfg.authorized r = true →
        Machine.Stepped (step cfg) (.initial now policy permits) ls (Acquires r full) ∧
        (full = false → ∀ selector, cfg.selection r = .ok selector →
          Machine.Stepped (step cfg) (.initial now policy permits) ls (Checks r rules) ∧
          (rules.allows selector.key = true →
            OfVault cfg (.initial now policy permits) ls vault (s.core.client.call r).startedAt
                selector (provider selector) ∨
              OfOutage account cfg server ls (provider selector)))) := by
  have htraced := (run_traced r ls s hrun).2
  rw [hresponse] at htraced
  obtain ⟨full, rules, provider, hresolve, hsteps⟩ := htraced
  refine ⟨full, rules, provider, hresolve, ?_⟩
  intro hauthorized
  obtain ⟨hacquires, hfound⟩ := hsteps hauthorized
  refine ⟨hacquires, ?_⟩
  intro hfull selector hselection
  obtain ⟨hchecks, hprovides⟩ := hfound hfull selector hselection
  refine ⟨hchecks, ?_⟩
  intro hallows
  exact provides_ofVault hE hkeeps hrun hanswered (hprovides hallows)

def fixturePlain : DecryptedCipher :=
  ⟨"cipher-login".toList, 1, none, some "app/database".toList, none, [], none, none⟩

theorem fixture_seals : Seals fixtureRecording.primitives fixtureRecording.encoders fixtureUserKey
    none fixturePlain ⟨"cipher-login".toList, 1, none, none, some fixtureItem, none, [], none, none⟩
    where
  key := .none
  strings := ⟨rfl, rfl, rfl, .some ⟨fixtureNameIv, _, by decide, rfl, by decide +kernel⟩, .none,
    .nil, .none, .none⟩

theorem fixtureServer_keeps : Keeps fixtureAccount fixtureRecording.primitives
    fixtureRecording.encoders (fun _ => fixtureServer fixtureSyncDocument) fixtureUserKey
    (fun _ => [.opened fixturePlain]) := by
  constructor
  · intro _ session h
    obtain rfl : fixtureSession = session := Except.ok.inj (fixtureAccount_login.symm.trans h)
    rfl
  · intro _ sync h
    obtain rfl : fixtureSync = sync := Except.ok.inj (fixtureAccount_sync.symm.trans h)
    exact .cons ⟨none, fixture_seals⟩ .nil

theorem fixture_serves_the_kept_vault : ∃ s document,
    Machine.run (step fixtureServerConfig) (.initial 0 sampleServerPolicy (some 1)) fixtureServed =
        some s ∧ s.phase 2 = .responded (.document document) ∧
      ∃ rules provider,
        .document document = resolve fixtureServerConfig 2 false rules provider ∧
          ∀ selector, fixtureServerConfig.selection 2 = .ok selector →
            Machine.Stepped (step fixtureServerConfig) (.initial 0 sampleServerPolicy (some 1))
              fixtureServed (Checks 2 rules) ∧
            (rules.allows selector.key = true →
              provider selector = resolvePlain [.opened fixturePlain] selector) := by
  have heval : (Machine.run (step fixtureServerConfig) (.initial 0 sampleServerPolicy (some 1))
      fixtureServed).bind (fun s => (s.phase 2).value) = some "app/database".toList := by
    decide +kernel
  obtain ⟨s, hs, hvalue⟩ := Option.bind_eq_some_iff.mp heval
  obtain ⟨document, hphase, -⟩ := Phase.value_eq_some hvalue
  obtain ⟨full, rules, provider, hresolve, hprovider⟩ := responses_show_the_kept_vault
    fixtureAccount fixtureServerConfig fixtureRecording.encoders
    (Recording.inverts fixtureRecording_consistent) (fun _ => fixtureServer fixtureSyncDocument)
    fixtureUserKey (fun _ => [.opened fixturePlain]) fixtureServer_keeps 0 sampleServerPolicy
    (some 1) fixtureServed s 2 (.document document) hs fixtureServed_answered hphase
  have hauthorized : fixtureServerConfig.authorized 2 = true := rfl
  have hfull : full = false := by
    cases full with
    | false => rfl
    | true => simp [resolve, hauthorized, publicError] at hresolve
  subst hfull
  refine ⟨s, document, hs, hphase, rules, provider, hresolve, ?_⟩
  intro selector hselection
  obtain ⟨hchecks, hprovides⟩ := (hprovider hauthorized).2 rfl selector hselection
  refine ⟨hchecks, ?_⟩
  intro hallows
  obtain ⟨_, _, -, -, hresult, -⟩ | ⟨_, _, -, -, hlogin | hsync⟩ := hprovides hallows
  · exact hresult
  · rw [show fixtureServerConfig.client.primitives = fixtureRecording.primitives from rfl,
      fixtureAccount_login] at hlogin
    cases hlogin
  · rw [fixtureAccount_sync] at hsync
    cases hsync

end VaultwardenEso.Provider
