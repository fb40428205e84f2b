import VaultwardenEso.CacheCounters
import VaultwardenEso.Coalescing

set_option autoImplicit false

/-!
# How often the upstream is asked

However many calls there are and whenever they come: vaults that reach the slot are a period
apart, where a period is covered by the TTL and by the lifetime of every token. So the
logins are bounded by the time that has passed, the failures and the dropped calls.
-/
namespace VaultwardenEso.Client
open RustStr BwesoCore Crypto Cipher

/-- A token of this session outlives the period by the skew. -/
def BitwardenSession.Lasts (period : ℕ) (session : BitwardenSession) : Prop :=
  ∀ e, session.expiresIn = some e → period + tokenExpiryRefreshSkew ≤ Duration.fromSecs e

def CachedVault.Lasts (period : ℕ) (cached : CachedVault) : Prop :=
  ∀ expiresAt, cached.expiresAt = some expiresAt →
    cached.fetchedAt + period + tokenExpiryRefreshSkew ≤ expiresAt

theorem CachedVault.lasts_new {period latest fetchedAt : ℕ} {session : BitwardenSession}
    {sync : SyncResponse} (h : session.Lasts period) :
    (CachedVault.new latest session sync fetchedAt).Lasts period := by
  intro expiresAt hexpires
  obtain ⟨e, he, -, rfl⟩ := new_expiresAt.mp hexpires
  have hlasts := h e he
  simp only [CachedVault.new]
  omega

theorem CachedVault.Lasts.old {period ttl t : ℕ} {cached : CachedVault} (h : cached.Lasts period)
    (hperiod : 0 < period) (httl : period ≤ ttl) (hstale : ¬ cached.isFreshAt ttl t = true) :
    cached.fetchedAt + period ≤ t := by
  rw [isFreshAt_eq_true] at hstale
  by_contra hyoung
  apply hstale
  refine ⟨by omega, ?_⟩
  intro expiresAt hexpires
  have hlasts := h expiresAt hexpires
  omega

def Pc.pending (pc : Pc) : Bool := pc.fetchBegan.isSome

theorem Pc.pending_refreshing {p : Pc} (h : p.pending = true) : p.refreshing = true := by
  obtain ⟨began, hbegan⟩ := Option.isSome_iff_exists.mp h
  exact Pc.fetchBegan_refreshing hbegan

theorem Pc.entered_pending {p p' : Pc} (h : p.entered = some p') : p'.pending = p.pending := by
  cases p <;> cases h <;> rfl

/-- The fetches begun are stored, failed, given up or pending. -/
def Counted (ls : List Label) (s : State) : Prop :=
  ∃ pending, Census.Counts (fun r => (s.pc r).pending) pending ∧
    ls.countP Label.isLogin ≤
      s.writes + (failedCalls ls).length + ls.countP Label.isDrop + pending

section Steps
variable {cfg : Config} {s u : State} {l : Label} {ls : List Label}

theorem counted_initial (start : ℕ) : Counted [] (State.initial start) :=
  ⟨0, Census.counts_none, le_refl _⟩

theorem Counted.move (hs : Counted ls s) {r : ℕ} {p : Pc} (written : ℕ)
    (hpc : u.pc = Function.update s.pc r p) (hwrites : u.writes = s.writes + written)
    (hbalance : l.isLogin.toNat + (s.pc r).pending.toNat ≤
      written + l.failed.toList.length + l.isDrop.toNat + p.pending.toNat) :
    Counted (ls ++ [l]) u := by
  obtain ⟨pending, hcount, hbound⟩ := hs
  obtain ⟨pending', hcount', hmoved⟩ := hcount.move r p.pending
  refine ⟨pending', ?_, ?_⟩
  · simp only [hpc, update_pc]
    exact hcount'
  · have hone : ∀ f : Label → Bool, [l].countP f = (f l).toNat := by
      intro f
      rw [List.countP_singleton]
      cases f l <;> rfl
    rw [List.countP_append, List.countP_append, failedCalls_snoc, List.length_append, hone, hone,
      hwrites]
    omega

theorem step_counted (hs : Counted ls s) (h : step cfg s l = some u) : Counted (ls ++ [l]) u := by
  cases step_cases h with
  | tick elapsed => exact hs.move (r := 0) 0 (Function.update_eq_self 0 s.pc).symm rfl (by simp [Label.isLogin])
  | lockCache r pc hfree hpc =>
    refine hs.move 0 rfl rfl ?_
    rw [Pc.entered_pending hpc]
    simp [Label.isLogin]
  | drop r hpc =>
    refine hs.move 0 rfl rfl ?_
    cases (s.pc r).pending <;> simp [Label.isLogin, Label.failed, Label.isDrop]
  | install r fetched hpc =>
    refine hs.move 1 rfl rfl ?_
    rw [hpc]
    simp [Label.isLogin, Label.failed, Label.isDrop, Pc.pending, Pc.fetchBegan]
  | call r selector hpc | lockRefresh r hfree hpc | hit1 r hpc hfresh | stale1 r hpc hstale
  | hit2 r hpc hfresh | stale2 r hpc hstale | beginFetch r hpc | loginOk r began session hpc
  | loginError r began error hpc | syncOk r began session sync unixNow hpc
  | syncError r began session error unixNow hpc | read r hpc =>
    refine hs.move 0 rfl rfl ?_
    rw [hpc]
    simp [Label.isLogin, Label.failed, Pc.pending, Pc.fetchBegan]

/-! ## The vaults of the slot are a period apart -/

structure SpacedInv (cfg : Config) (period start : ℕ) (s : State) : Prop where
  started : start ≤ s.now
  session : ∀ r began session, s.pc r = .syncing began session → session.Lasts period
  slot : ∀ fetched, s.cache = some fetched → fetched.vault.Lasts period ∧
    start + s.writes * period ≤ fetched.vault.fetchedAt + period
  fetched : ∀ r fetched, (s.pc r).fetched = some fetched → fetched.vault.Lasts period ∧
    start ≤ fetched.vault.fetchedAt ∧ ∀ cached, s.cache = some cached →
      ¬ cached.vault.isFreshAt cfg.ttl fetched.vault.fetchedAt = true
  empty : s.cache = none → s.writes = 0

variable {period start : ℕ}

theorem spacedInv_initial : SpacedInv cfg period start (State.initial start) where
  started := le_refl _
  session := nofun
  slot := nofun
  fetched := nofun
  empty := fun _ => rfl

theorem SpacedInv.goto (hs : SpacedInv cfg period start s) {r : ℕ} {p : Pc}
    (cacheLock refreshLock : Option ℕ) (metrics : CacheMetricState)
    (hsession : ∀ began session, p = .syncing began session → session.Lasts period)
    (hfetched : ∀ fetched, p.fetched = some fetched → fetched.vault.Lasts period ∧
      start ≤ fetched.vault.fetchedAt ∧ ∀ cached, s.cache = some cached →
        ¬ cached.vault.isFreshAt cfg.ttl fetched.vault.fetchedAt = true) :
    SpacedInv cfg period start { s.goto r p with cacheLock, refreshLock, metrics } where
  started := hs.started
  session := by
    intro r' began session h
    by_cases hr : r' = r
    · exact hsession began session (by simpa [State.goto, hr] using h)
    · exact hs.session r' began session (by simpa [State.goto, hr] using h)
  slot := hs.slot
  fetched := by
    intro r' fetched h
    by_cases hr : r' = r
    · exact hfetched fetched (by simpa [State.goto, hr] using h)
    · exact hs.fetched r' fetched (by simpa [State.goto, hr] using h)
  empty := hs.empty

theorem SpacedInv.keep (hs : SpacedInv cfg period start s) {r : ℕ} {p : Pc}
    (cacheLock refreshLock : Option ℕ) (metrics : CacheMetricState)
    (hsession : ∀ began session, p ≠ .syncing began session)
    (hfetched : p.fetched = none ∨ p.fetched = (s.pc r).fetched) :
    SpacedInv cfg period start { s.goto r p with cacheLock, refreshLock, metrics } := by
  refine hs.goto cacheLock refreshLock metrics ?_ ?_
  · intro began session h
    exact absurd h (hsession began session)
  · intro fetched h
    rcases hfetched with hnone | hsame
    · rw [hnone] at h
      cases h
    · rw [hsame] at h
      exact hs.fetched r fetched h

theorem SpacedInv.install (hs : SpacedInv cfg period start s) (hlocks : LocksOwned s)
    (hperiod : 0 < period) (httl : period ≤ cfg.ttl) {r : ℕ} {fetched : Fetched}
    (hpc : s.pc r = .install fetched) :
    SpacedInv cfg period start { s.goto r .waitRead with
      cache := some fetched, cacheLock := none, refreshLock := none, writes := s.writes + 1 } := by
  obtain ⟨hlasts, hstart, hstale⟩ := hs.fetched r fetched (by rw [hpc]; rfl)
  have halone : ∀ r' fetched', r' ≠ r → (s.pc r').fetched ≠ some fetched' := by
    intro r' fetched' hr h
    have hheld' := Pc.refreshing_holdsRefresh (Pc.fetched_refreshing h)
    have hheld : (s.pc r).holdsRefresh = true := by
      rw [hpc]
      rfl
    exact hr (hlocks.refresh.unique hheld' hheld)
  refine ⟨hs.started, ?_, ?_, ?_, nofun⟩
  · intro r' began session h
    by_cases hr : r' = r
    · simp [State.goto, hr] at h
    · exact hs.session r' began session (by simpa [State.goto, hr] using h)
  · intro fetched' h
    cases h
    refine ⟨hlasts, ?_⟩
    dsimp only
    rw [Nat.add_mul, Nat.one_mul]
    cases hcache : s.cache with
    | none =>
      rw [hs.empty hcache, Nat.zero_mul]
      omega
    | some cached =>
      obtain ⟨hcached, hspaced⟩ := hs.slot cached hcache
      have hold := hcached.old hperiod httl (hstale cached hcache)
      omega
  · intro r' fetched' h
    by_cases hr : r' = r
    · simp [State.goto, hr, Pc.fetched] at h
    · exact absurd (by simpa [State.goto, hr] using h) (halone r' fetched' hr)

theorem step_spacedInv (hlocks : LocksOwned s) (hslot : s.slot.Guarded cfg.fresh)
    (hperiod : 0 < period) (httl : period ≤ cfg.ttl) (hs : SpacedInv cfg period start s)
    (hl : ∀ r session, l = .loginAnswer r (.ok session) → session.Lasts period)
    (h : step cfg s l = some u) : SpacedInv cfg period start u := by
  cases step_cases h with
  | tick elapsed =>
    exact ⟨hs.started.trans (Nat.le_add_right _ _), hs.session, hs.slot, hs.fetched, hs.empty⟩
  | call r selector hpc =>
    have hkept : SpacedInv cfg period start { s.goto r .waitCheck1 with metrics := s.metrics } :=
      hs.keep _ _ _ nofun (.inl rfl)
    exact ⟨hkept.started, hkept.session, hkept.slot, hkept.fetched, hkept.empty⟩
  | lockCache r pc hfree hpc =>
    refine hs.keep _ _ _ ?_ ?_
    · intro began session hsyncing
      rw [hsyncing] at hpc
      cases hp : s.pc r <;> rw [hp] at hpc <;> cases hpc
    · exact .inr (Pc.entered_fetched hpc)
  | loginOk r began session hpc =>
    refine hs.goto _ _ _ ?_ nofun
    intro began' session' h
    cases h
    exact hl r session rfl
  | syncOk r began session sync unixNow hpc =>
    refine hs.goto _ _ _ nofun ?_
    intro fetched h
    cases h
    refine ⟨CachedVault.lasts_new (hs.session r began session hpc), hs.started, ?_⟩
    intro cached hcache
    have hrefresher : s.slot.refresher = some r := (hlocks.refresher r).mpr (by rw [hpc]; rfl)
    exact hslot r hrefresher cached hcache
  | install r fetched hpc => exact hs.install hlocks hperiod httl hpc
  | lockRefresh r hfree hpc | hit1 r hpc hfresh | stale1 r hpc hstale | hit2 r hpc hfresh
  | stale2 r hpc hstale | beginFetch r hpc | loginError r began error hpc
  | syncError r began session error unixNow hpc | read r hpc | drop r hpc =>
    exact hs.keep _ _ _ nofun (.inl rfl)

end Steps

section Runs
variable {cfg : Config} {start period : ℕ} {ls : List Label} {s : State}

theorem run_counted (h : Machine.run (step cfg) (State.initial start) ls = some s) : Counted ls s := by
  refine Machine.run_history (P := Counted) (counted_initial start) ?_ ls s h
  intro ls u l v _ hu hstep
  exact step_counted hu hstep

theorem run_spacedInv (hperiod : 0 < period) (httl : period ≤ cfg.ttl)
    (h : Machine.run (step cfg) (State.initial start) ls = some s)
    (hlasts : ∀ r session, .loginAnswer r (.ok session) ∈ ls → session.Lasts period) :
    SpacedInv cfg period start s := by
  revert hlasts
  refine Machine.run_history
    (P := fun ls s => (∀ r (session : BitwardenSession), .loginAnswer r (.ok session) ∈ ls →
      session.Lasts period) → SpacedInv cfg period start s) ?_ ?_ ls s h
  · intro _
    exact spacedInv_initial
  · intro ls u l v hrun ih hstep hlasts
    have hu := ih (fun r session hmem => hlasts r session (List.mem_append_left _ hmem))
    refine step_spacedInv (reachable_locksOwned ⟨ls, hrun⟩) (reachable_guarded ⟨ls, hrun⟩) hperiod
      httl hu ?_ hstep
    rintro r session rfl
    exact hlasts r session (List.mem_append_right _ (List.mem_singleton_self _))

/-- A pending fetch has the place of the next vault: the slot has been stale for it. -/
theorem SpacedInv.fetches_le (hs : SpacedInv cfg period start s) (hlocks : LocksOwned s)
    (hslot : s.slot.Guarded cfg.fresh) (htime : ∀ fetched, s.cache = some fetched →
      fetched.vault.fetchedAt ≤ s.now) (hperiod : 0 < period) (httl : period ≤ cfg.ttl)
    {pending : ℕ} (hpending : Census.Counts (fun r => (s.pc r).pending) pending) :
    start + (s.writes + pending) * period ≤ s.now + period := by
  have hstarted := hs.started
  by_cases hnone : ∀ r, (s.pc r).pending = false
  · rw [hpending.eq_zero hnone, Nat.add_zero]
    cases hcache : s.cache with
    | none =>
      rw [hs.empty hcache, Nat.zero_mul]
      omega
    | some fetched =>
      have hspaced := (hs.slot fetched hcache).2
      have hfetched := htime fetched hcache
      omega
  · obtain ⟨r, hr⟩ := not_forall.mp hnone
    rw [Bool.not_eq_false] at hr
    have hrefreshing := Pc.pending_refreshing hr
    have hone : pending = 1 := by
      refine hpending.unique ⟨{r}, Finset.card_singleton r, ?_⟩
      intro r'
      rw [Finset.mem_singleton]
      constructor
      · rintro rfl
        exact hr
      · intro hr'
        exact hlocks.refresh.unique
          (Pc.refreshing_holdsRefresh (Pc.pending_refreshing hr'))
          (Pc.refreshing_holdsRefresh hrefreshing)
    rw [hone, Nat.add_mul, Nat.one_mul]
    cases hcache : s.cache with
    | none =>
      rw [hs.empty hcache, Nat.zero_mul]
      omega
    | some fetched =>
      obtain ⟨hlasts, hspaced⟩ := hs.slot fetched hcache
      have hstale := hslot r ((hlocks.refresher r).mpr hrefreshing) fetched hcache
      have hold : fetched.vault.fetchedAt + period ≤ s.now := hlasts.old hperiod httl hstale
      omega

/-- The upstream sees one login a period, and besides at most one for every failure and one for
every dropped call. -/
theorem upstream_load_is_bounded (hperiod : 0 < period) (httl : period ≤ cfg.ttl)
    (hrun : Machine.run (step cfg) (State.initial start) ls = some s)
    (hlasts : ∀ r session, .loginAnswer r (.ok session) ∈ ls → session.Lasts period) :
    ls.countP Label.isLogin ≤
      (s.now - start) / period + 1 + (failedCalls ls).length + ls.countP Label.isDrop := by
  have hlocks : LocksOwned s := reachable_locksOwned ⟨ls, hrun⟩
  have hspaced := run_spacedInv hperiod httl hrun hlasts
  obtain ⟨pending, hpending, hbound⟩ := run_counted hrun
  have hfetches := hspaced.fetches_le hlocks (reachable_guarded ⟨ls, hrun⟩)
    (reachable_freshnessInv ⟨ls, hrun⟩).slotTime hperiod httl hpending
  have hstarted := hspaced.started
  have hperiods : s.writes + pending ≤ (s.now - start) / period + 1 := by
    rw [← Nat.sub_le_iff_le_add, Nat.le_div_iff_mul_le hperiod, Nat.sub_mul, Nat.one_mul]
    omega
  omega

end Runs

theorem sampleHit_logs_in_once : ∃ s,
    Machine.run (step sampleConfig) (State.initial 0) (.tick 5 :: sampleHit) = some s ∧
      (.tick 5 :: sampleHit : List Label).countP Label.isLogin ≤
        (s.now - 0) / Duration.fromSecs 60 + 1 + 0 + 0 := by
  have hrun : ∃ s, Machine.run (step sampleConfig) (State.initial 0) (.tick 5 :: sampleHit) = some s :=
    ⟨_, rfl⟩
  obtain ⟨s, hs⟩ := hrun
  refine ⟨s, hs, upstream_load_is_bounded (by decide) (le_refl _) hs ?_⟩
  intro r session hmem
  have hsession : r = 0 ∧ session = sampleSession 3600 := by
    simpa [sampleHit, sampleRun, toSecondCheck, fetchOnce] using hmem
  rw [hsession.2]
  intro e he
  cases he
  decide

end VaultwardenEso.Client
