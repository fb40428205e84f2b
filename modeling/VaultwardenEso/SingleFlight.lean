import VaultwardenEso.Freshness

set_option autoImplicit false

/-! # What holds of every run of concurrent calls -/
namespace VaultwardenEso.Client
open RustStr BwesoCore Crypto Cipher

section Runs
variable {cfg : Config} {start : ℕ} {s u : State} {l : Label}

theorem reachable_locksOwned (h : Machine.Reachable (step cfg) (State.initial start) s) :
    LocksOwned s := by
  apply h.invariant (locksOwned_initial start)
  intro s l u hs hstep
  exact step_locksOwned hs hstep

/-- Every run of the calls is, at the cache, a run of a slot with one refresher. -/
theorem reachable_refines_slot (h : Machine.Reachable (step cfg) (State.initial start) s) :
    Relation.ReflTransGen (OneSlot.Move cfg.fresh) ⟨start, none, none⟩ s.slot := by
  obtain ⟨ls, hls⟩ := h
  refine Machine.run_history (P := fun _ s =>
    Relation.ReflTransGen (OneSlot.Move cfg.fresh) ⟨start, none, none⟩ s.slot) .refl ?_ ls s hls
  intro ls u l v hrun hu hstep
  exact hu.tail (step_refines_slot (reachable_locksOwned ⟨ls, hrun⟩) hstep)

theorem reachable_guarded (h : Machine.Reachable (step cfg) (State.initial start) s) :
    s.slot.Guarded cfg.fresh := by
  apply OneSlot.guarded_of_moves cfg.fresh_antitone (reachable_refines_slot h)
  nofun

theorem reachable_freshnessInv (h : Machine.Reachable (step cfg) (State.initial start) s) :
    FreshnessInv cfg s := by
  obtain ⟨ls, hls⟩ := h
  refine Machine.run_history (P := fun _ s => FreshnessInv cfg s)
    (freshnessInv_initial cfg start) ?_ ls s hls
  intro ls u l v hrun hu hstep
  exact step_freshnessInv (reachable_locksOwned ⟨ls, hrun⟩) (reachable_guarded ⟨ls, hrun⟩) hu hstep

theorem step_finished {r : ℕ} {result : Except BitwardenClientError SecretDocument}
    (hpc : s.pc r = .finished result) (h : step cfg s l = some u) : u.pc r = .finished result := by
  by_cases hmover : l.caller = some r
  · cases step_cases h with
    | tick elapsed => cases hmover
    | lockCache r' pc _ hr' | drop r' hr' =>
      cases hmover
      rw [hpc] at hr'
      cases hr'
    | call r' _ hr' | lockRefresh r' _ hr' | hit1 r' hr' _ | stale1 r' hr' _ | hit2 r' hr' _ | stale2 r' hr' _
    | beginFetch r' hr' | loginOk r' _ _ hr' | loginError r' _ _ hr' | syncOk r' _ _ _ _ hr'
    | syncError r' _ _ _ _ hr' | install r' _ hr' | read r' hr' =>
      cases hmover
      rw [hpc] at hr'
      cases hr'
  · rw [(step_frame h hmover).1, hpc]

/-! ## No stale secret -/

/-- The upstream refused one of the two requests of a fetch of the call `r`. -/
def FailedAnswer (r : ℕ) (error : BitwardenClientError) (l : Label) : Prop :=
  l = .loginAnswer r (.error error) ∨ ∃ unixNow, l = .syncAnswer r (.error error) unixNow

theorem step_failedAnswer {r : ℕ} {error : BitwardenClientError} (hl : FailedAnswer r error l)
    (h : step cfg s l = some u) : u = s.fail r error := by
  obtain rfl | ⟨unixNow, rfl⟩ := hl
  · cases step_cases h
    rfl
  · cases step_cases h
    rfl

theorem no_stale_vault_is_read (h : Machine.Reachable (step cfg) (State.initial start) s) :
    (∀ r u, step cfg s (.read r) = some u → ∃ fetched, s.cache = some fetched ∧
      u.pc r = .finished (resolveCached cfg.primitives fetched.vault (s.call r).selector) ∧
      Acceptable cfg s.now (s.call r) fetched ∧
      (cfg.ttl = 0 → (s.call r).number < fetched.began)) ∧
    (∀ r error l u, FailedAnswer r error l → step cfg s l = some u → u.cache = s.cache ∧
      ∀ ls v, Machine.run (step cfg) u ls = some v → v.pc r = .finished (.error error)) := by
  constructor
  · intro r u hread
    cases step_cases hread with
    | read r hpc =>
      obtain ⟨fetched, hcache, hacc⟩ := (reachable_freshnessInv h).reading r (by rw [hpc]; rfl)
      refine ⟨fetched, hcache, ?_, hacc, ?_⟩
      · simp [State.goto, hcache, readCache]
      · intro httl
        obtain ⟨t, -, -, -, hfresh⟩ | hbegan := hacc
        · rw [httl, CachedVault.isFreshAt_zero] at hfresh
          cases hfresh
        · exact hbegan
  · intro r error l u hl hstep
    have hu : u = s.fail r error := step_failedAnswer hl hstep
    constructor
    · rw [hu]
      rfl
    · intro ls v hrun
      apply Machine.run_invariant (fun s l u hs hstep => step_finished hs hstep) _ hrun
      rw [hu]
      simp [State.fail, State.goto]

end Runs

/-! A run of one call, with a token of an hour. -/

def sampleConfig : Config :=
  ⟨sampleRecording.primitives, Duration.fromSecs 60, Duration.fromSecs 100000⟩

def sampleSelector : BitwardenSelector := ⟨"name:app/database".toList, some "name".toList⟩

def sampleSession (expiresIn : ℕ) : BitwardenSession :=
  ⟨"access-token".toList, some expiresIn, "Bearer".toList, sampleUserKey⟩

def toSecondCheck (r : ℕ) : List Label :=
  [.call r sampleSelector, .lockCache r, .check r, .lockRefresh r, .lockCache r, .check r]

def fetchOnce (r expiresIn : ℕ) (unixNow : UInt64) : List Label :=
  [.beginFetch r, .loginAnswer r (.ok (sampleSession expiresIn)),
    .syncAnswer r (.ok sampleSync) unixNow]

def sampleRun : List Label :=
  toSecondCheck 0 ++ fetchOnce 0 3600 1767225600 ++ [.lockCache 0, .install 0, .lockCache 0]

theorem sampleRun_reads_its_vault : ∃ s u fetched,
    Machine.run (step sampleConfig) (State.initial 0) sampleRun = some s ∧
      step sampleConfig s (.read 0) = some u ∧ s.cache = some fetched ∧
      Acceptable sampleConfig s.now (s.call 0) fetched := by
  have hrun : ∃ s, Machine.run (step sampleConfig) (State.initial 0) sampleRun = some s ∧
      s.pc 0 = .read :=
    ⟨_, rfl, rfl⟩
  obtain ⟨s, hs, hpc⟩ := hrun
  have hread : ∃ u, step sampleConfig s (.read 0) = some u := by
    simp only [step, hpc]
    exact ⟨_, rfl⟩
  obtain ⟨u, hu⟩ := hread
  obtain ⟨fetched, hcache, -, hacc, -⟩ := (no_stale_vault_is_read ⟨sampleRun, hs⟩).1 0 u hu
  exact ⟨s, u, fetched, hs, hu, hcache, hacc⟩

/-! ## One fetch at a time, and no deadlock -/

def Pc.inFetchVault : Pc → Bool
  | .login _ | .syncing _ _ => true
  | _ => false

def Pc.unfinished : Pc → Bool
  | .idle | .finished _ | .dropped => false
  | _ => true

def Label.advances : Label → Option ℕ
  | .lockCache r | .lockRefresh r | .check r | .beginFetch r | .loginAnswer r _ | .syncAnswer r _ _
  | .install r | .read r => some r
  | .tick _ | .call _ _ | .drop _ => none

theorem Label.caller_of_advances {l : Label} {r : ℕ} (h : l.advances = some r) :
    l.caller = some r := by
  cases l <;> first | exact h | cases h

section Runs
variable {cfg : Config} {start : ℕ} {s u : State} {l : Label}

theorem Pc.inFetchVault_holdsRefresh {p : Pc} (h : p.inFetchVault = true) : p.holdsRefresh = true := by
  cases p <;> first | rfl | cases h

/-- Only the refresh lock keeps a call waiting while the cache lock is free or its own. -/
theorem can_advance (cfg : Config) {r : ℕ} (hunfinished : (s.pc r).unfinished = true)
    (hwait : s.pc r ≠ .waitRefresh) (hfree : s.cacheLock = none ∨ (s.pc r).holdsCache = true) :
    ∃ l u, l.advances = some r ∧ step cfg s l = some u := by
  have hlock : ∀ pc, (s.pc r).holdsCache = false → (s.pc r).entered = some pc →
      ∃ l u, l.advances = some r ∧ step cfg s l = some u := by
    intro pc hnot hentered
    have hnone : s.cacheLock = none := by
      rcases hfree with h | h
      · exact h
      · rw [hnot] at h
        cases h
    refine ⟨.lockCache r, { s.goto r pc with cacheLock := some r }, rfl, ?_⟩
    simp only [step, hnone, hentered]
  cases hpc : s.pc r with
  | waitCheck1 | waitCheck2 | waitInstall fetched | waitRead =>
    exact hlock _ (by rw [hpc]; rfl) (by rw [hpc]; rfl)
  | check1 | check2 =>
    cases hfresh : s.hasFreshCache cfg with
    | true | false =>
      refine ⟨.check r, ?_⟩
      simp only [step, hpc, hfresh]
      exact ⟨_, rfl, rfl⟩
  | waitRefresh => exact absurd hpc hwait
  | fetchStart =>
    refine ⟨.beginFetch r, ?_⟩
    simp only [step, hpc]
    exact ⟨_, rfl, rfl⟩
  | login began =>
    refine ⟨.loginAnswer r (.error (.api .http)), ?_⟩
    simp only [step, hpc]
    exact ⟨_, rfl, rfl⟩
  | syncing began session =>
    refine ⟨.syncAnswer r (.error (.api .http)) 0, ?_⟩
    simp only [step, hpc]
    exact ⟨_, rfl, rfl⟩
  | install fetched =>
    refine ⟨.install r, ?_⟩
    simp only [step, hpc]
    exact ⟨_, rfl, rfl⟩
  | read =>
    refine ⟨.read r, ?_⟩
    simp only [step, hpc]
    exact ⟨_, rfl, rfl⟩
  | idle | finished result | dropped =>
    rw [hpc] at hunfinished
    cases hunfinished

theorem Pc.holdsCache_unfinished {p : Pc} (h : p.holdsCache = true) :
    p.unfinished = true ∧ p ≠ .waitRefresh := by
  cases p <;> first | (cases h; done) | exact ⟨rfl, nofun⟩

theorem Pc.holdsRefresh_unfinished {p : Pc} (h : p.holdsRefresh = true) :
    p.unfinished = true ∧ p ≠ .waitRefresh := by
  cases p <;> first | (cases h; done) | exact ⟨rfl, nofun⟩

theorem some_call_can_advance (hlocks : LocksOwned s) {r : ℕ}
    (hunfinished : (s.pc r).unfinished = true) :
    ∃ r' l u, (s.pc r').unfinished = true ∧ l.advances = some r' ∧ step cfg s l = some u := by
  cases hcache : s.cacheLock with
  | some holder =>
    have hheld : (s.pc holder).holdsCache = true := (hlocks.cache holder).mp hcache
    obtain ⟨hun, hwait⟩ := Pc.holdsCache_unfinished hheld
    obtain ⟨l, u, hl, hu⟩ := can_advance cfg hun hwait (.inr hheld)
    exact ⟨holder, l, u, hun, hl, hu⟩
  | none =>
    by_cases hwait : s.pc r = .waitRefresh
    · cases hrefresh : s.refreshLock with
      | none =>
        refine ⟨r, .lockRefresh r, { s.goto r .waitCheck2 with refreshLock := some r },
          hunfinished, rfl, ?_⟩
        simp only [step, hrefresh, hwait]
      | some holder =>
        have hheld : (s.pc holder).holdsRefresh = true := (hlocks.refresh holder).mp hrefresh
        obtain ⟨hun, hnot⟩ := Pc.holdsRefresh_unfinished hheld
        obtain ⟨l, u, hl, hu⟩ := can_advance cfg hun hnot (.inl hcache)
        exact ⟨holder, l, u, hun, hl, hu⟩
    · obtain ⟨l, u, hl, hu⟩ := can_advance cfg hunfinished hwait (.inl hcache)
      exact ⟨r, l, u, hunfinished, hl, hu⟩

/-- The slot is written by `install` alone, and so by the holder of the refresh lock. -/
theorem step_writes (hlocks : LocksOwned s) (h : step cfg s l = some u) :
    (u.cache = s.cache ∧ u.writes = s.writes) ∨
      ∃ r fetched, l = .install r ∧ s.pc r = .install fetched ∧ s.refreshLock = some r ∧
        u.cache = some fetched ∧ u.writes = s.writes + 1 := by
  cases step_cases h with
  | install r fetched hpc =>
    have hheld : s.refreshLock = some r := hlocks.refresh.eq_some (by simp only [hpc]; rfl)
    exact .inr ⟨r, fetched, rfl, hpc, hheld, rfl, rfl⟩
  | _ => exact .inl ⟨rfl, rfl⟩

theorem refresh_is_single_flight (h : Machine.Reachable (step cfg) (State.initial start) s) :
    (∀ r r', (s.pc r).inFetchVault = true → (s.pc r').inFetchVault = true → r = r') ∧
    (∀ r u, step cfg s (.beginFetch r) = some u → s.hasFreshCache cfg = false) ∧
    (∀ l u, step cfg s l = some u → u.cache ≠ s.cache ∨ u.writes ≠ s.writes →
      ∃ r, l = .install r ∧ s.refreshLock = some r) ∧
    ((∃ r, (s.pc r).unfinished = true) →
      ∃ r l u, (s.pc r).unfinished = true ∧ l.advances = some r ∧ step cfg s l = some u) := by
  have hlocks := reachable_locksOwned h
  refine ⟨?_, ?_, ?_, ?_⟩
  · intro r r' hr hr'
    exact hlocks.refresh.unique (Pc.inFetchVault_holdsRefresh hr) (Pc.inFetchVault_holdsRefresh hr')
  · intro r u hstep
    cases step_cases hstep with
    | beginFetch r hpc =>
      rw [← Bool.not_eq_true]
      intro hhit
      obtain ⟨fetched, hcache, hnow⟩ := hasFreshCache_eq_true hhit
      have hquiet := hlocks.refresher_none.mp ((reachable_guarded h).quiet hcache hnow) r
      rw [hpc] at hquiet
      cases hquiet
  · intro l u hstep hwrite
    obtain hsame | ⟨r, fetched, hl, -, hheld, -⟩ := step_writes hlocks hstep
    · rcases hwrite with hcache | hwrites
      · exact absurd hsame.1 hcache
      · exact absurd hsame.2 hwrites
    · exact ⟨r, hl, hheld⟩
  · intro hex
    obtain ⟨r, hr⟩ := hex
    exact some_call_can_advance hlocks hr

end Runs

theorem sampleRun_single_flight : ∃ s,
    Machine.run (step sampleConfig) (State.initial 0) (toSecondCheck 0 ++ [.call 1 sampleSelector]) = some s ∧
      s.hasFreshCache sampleConfig = false ∧ ∃ r l u, (s.pc r).unfinished = true ∧
      l.advances = some r ∧ step sampleConfig s l = some u := by
  have hrun : ∃ s, Machine.run (step sampleConfig) (State.initial 0)
      (toSecondCheck 0 ++ [.call 1 sampleSelector]) = some s ∧ s.pc 0 = .fetchStart :=
    ⟨_, rfl, rfl⟩
  obtain ⟨s, hs, hpc⟩ := hrun
  obtain ⟨-, hbegin, -, hprogress⟩ := refresh_is_single_flight ⟨_, hs⟩
  have hstep : ∃ u, step sampleConfig s (.beginFetch 0) = some u := by
    simp only [step, hpc]
    exact ⟨_, rfl⟩
  obtain ⟨u, hu⟩ := hstep
  exact ⟨s, hs, hbegin 0 u hu, hprogress ⟨0, by rw [hpc]; rfl⟩⟩

end VaultwardenEso.Client
