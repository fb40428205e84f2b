import VaultwardenEso.SingleFlight

set_option autoImplicit false

/-! # What becomes of a fetch: the calls that wait for it, and the success it records -/
namespace VaultwardenEso.Client
open RustStr BwesoCore Crypto Cipher

/-- No future is dropped while it waits to store the vault that it fetched. -/
def storesFetched (s : State) : Label → Bool
  | .drop r => (s.pc r).fetched.isNone
  | _ => true

def Label.sends : Label → Bool
  | .beginFetch _ | .loginAnswer _ (.ok _) => true
  | _ => false

/-- The call `f` is about to store `fetched`, or has done so and nobody refreshes. -/
structure Shared (f : ℕ) (fetched : Fetched) (s : State) : Prop where
  locks : LocksOwned s
  stored : (s.pc f).fetched = some fetched ∨
    (s.cache = some fetched ∧ ∀ r, (s.pc r).refreshing = false)

section Sharing
variable {cfg : Config} {s u : State} {l : Label} {f : ℕ} {fetched : Fetched}

theorem Pc.fetched_refreshing {p : Pc} (h : p.fetched = some fetched) : p.refreshing = true := by
  cases p <;> first | rfl | cases h

theorem Pc.entered_fetched {p p' : Pc} (h : p.entered = some p') : p'.fetched = p.fetched :=
  (Pc.entered_fetch h).2.1

theorem step_pending (hlocks : LocksOwned s) (hf : (s.pc f).fetched = some fetched)
    (hok : storesFetched s l = true) (h : step cfg s l = some u) :
    ((u.pc f).fetched = some fetched ∨ (u.cache = some fetched ∧ ∀ r, (u.pc r).refreshing = false)) ∧
      l.sends = false := by
  have hheld : (s.pc f).holdsRefresh = true := Pc.refreshing_holdsRefresh (Pc.fetched_refreshing hf)
  have hother : ∀ {r : ℕ} (p : Pc), (s.pc r).fetched = none →
      (Function.update s.pc r p f).fetched = some fetched := by
    intro r p hr
    have hne : f ≠ r := by
      intro heq
      rw [heq, hr] at hf
      cases hf
    rw [Function.update_of_ne hne, hf]
  have hexcluded : ∀ {r : ℕ}, (s.pc r).holdsRefresh = true → (s.pc r).fetched = none → False := by
    intro r hr hnone
    rw [hlocks.refresh.unique hr hheld, hf] at hnone
    cases hnone
  cases step_cases h with
  | tick elapsed => exact ⟨.inl hf, rfl⟩
  | lockCache r pc hfree hpc =>
    refine ⟨.inl ?_, rfl⟩
    by_cases hr : f = r
    · subst hr
      simp only [State.goto, Function.update_self]
      rw [Pc.entered_fetched hpc, hf]
    · simp only [State.goto, Function.update_of_ne hr]
      exact hf
  | install r fetched' hpc =>
    have hr : r = f := hlocks.refresh.unique (by rw [hpc]; rfl) hheld
    subst hr
    rw [hpc] at hf
    cases hf
    refine ⟨.inr ⟨rfl, ?_⟩, rfl⟩
    intro r'
    by_cases hr' : r' = r
    · simp [State.goto, hr', Pc.refreshing]
    · simp only [State.goto, Function.update_of_ne hr']
      by_contra hrefreshing
      rw [Bool.not_eq_false] at hrefreshing
      exact hr' (hlocks.refresh.unique (Pc.refreshing_holdsRefresh hrefreshing) hheld)
  | drop r hpc => exact ⟨.inl (hother _ (Option.isNone_iff_eq_none.mp hok)), rfl⟩
  | beginFetch r hpc => exact (hexcluded (r := r) (by rw [hpc]; rfl) (by rw [hpc]; rfl)).elim
  | loginOk r began session hpc => exact (hexcluded (r := r) (by rw [hpc]; rfl) (by rw [hpc]; rfl)).elim
  | call r _ hpc | lockRefresh r _ hpc | hit1 r hpc _ | stale1 r hpc _ | hit2 r hpc _ | stale2 r hpc _
  | loginError r _ _ hpc | syncOk r _ _ _ _ hpc | syncError r _ _ _ _ hpc | read r hpc =>
    exact ⟨.inl (hother _ (by rw [hpc]; rfl)), rfl⟩

theorem sends_refreshing (h : step cfg s l = some u) (hsends : l.sends = true) :
    ∃ r, (s.pc r).refreshing = true := by
  cases step_cases h with
  | beginFetch r hpc | loginOk r _ _ hpc => exact ⟨r, by rw [hpc]; rfl⟩
  | _ => cases hsends

theorem step_stored (hlocks : LocksOwned s) (hcache : s.cache = some fetched)
    (hquiet : ∀ r, (s.pc r).refreshing = false) (hfresh : fetched.vault.isFreshAt cfg.ttl s.now = true)
    (h : step cfg s l = some u) :
    (u.cache = some fetched ∧ ∀ r, (u.pc r).refreshing = false) ∧ l.sends = false := by
  obtain ⟨hcache', hquiet'⟩ :=
    (step_refines_slot hlocks h).kept (hlocks.refresher_none.mpr hquiet) hcache hfresh
  refine ⟨⟨hcache', (step_locksOwned hlocks h).refresher_none.mp hquiet'⟩, ?_⟩
  rw [← Bool.not_eq_true]
  intro hsends
  obtain ⟨r, hr⟩ := sends_refreshing h hsends
  rw [hquiet r] at hr
  cases hr

theorem step_shared (hs : Shared f fetched s) (hfresh : fetched.vault.isFreshAt cfg.ttl s.now = true)
    (hok : storesFetched s l = true) (h : step cfg s l = some u) :
    Shared f fetched u ∧ l.sends = false := by
  have hlocks := step_locksOwned hs.locks h
  obtain hpending | ⟨hcache, hquiet⟩ := hs.stored
  · obtain ⟨hstored, hsends⟩ := step_pending hs.locks hpending hok h
    exact ⟨⟨hlocks, hstored⟩, hsends⟩
  · obtain ⟨hstored, hsends⟩ := step_stored hs.locks hcache hquiet hfresh h
    exact ⟨⟨hlocks, .inr hstored⟩, hsends⟩

theorem step_now (h : step cfg s l = some u) : s.now ≤ u.now := by
  cases step_cases h with
  | tick elapsed => exact Nat.le_add_right _ _
  | _ => exact le_refl _

/-- Where a call that waited for a fetch can be: it still waits or checks, it was dropped, it reads
the vault of the fetch from the slot, or it has returned what that vault gives. -/
def Pc.follows (cfg : Config) (fetched : Fetched) (selector : BitwardenSelector)
    (cache : Option Fetched) : Pc → Prop
  | .waitRefresh | .waitCheck2 | .check2 | .dropped => True
  | .waitRead | .read => cache = some fetched
  | .finished result => result = resolveCached cfg.primitives fetched.vault selector
  | _ => False

def Follows (cfg : Config) (fetched : Fetched) (selector : BitwardenSelector) (w : ℕ)
    (s : State) : Prop :=
  (s.call w).selector = selector ∧ (s.pc w).follows cfg fetched selector s.cache

variable {w : ℕ} {selector : BitwardenSelector}

theorem Pc.follows_entered {p p' : Pc} {cache : Option Fetched} (h : p.entered = some p')
    (hp : p.follows cfg fetched selector cache) : p'.follows cfg fetched selector cache := by
  cases p <;> cases h <;> exact hp

theorem Follows.other (hs : Shared f fetched s) (h : step cfg s l = some u)
    (hw : Follows cfg fetched selector w s) (hpc : u.pc w = s.pc w) (hcall : u.call w = s.call w) :
    Follows cfg fetched selector w u := by
  refine ⟨by rw [hcall]; exact hw.1, ?_⟩
  have hcache : s.cache = some fetched → u.cache = some fetched := by
    intro hslot
    obtain hsame | ⟨r, fetched', -, hr, -, hnew, -⟩ := step_writes hs.locks h
    · rw [hsame.1, hslot]
    · have hrefreshing : (s.pc r).refreshing = true := by
        rw [hr]
        rfl
      obtain hpending | hstored := hs.stored
      · have heq : r = f := hs.locks.refresh.unique (Pc.refreshing_holdsRefresh hrefreshing)
          (Pc.refreshing_holdsRefresh (Pc.fetched_refreshing hpending))
        rw [← heq, hr] at hpending
        cases hpending
        exact hnew
      · rw [hstored.2 r] at hrefreshing
        cases hrefreshing
  have hfollows := hw.2
  rw [hpc]
  cases hp : s.pc w with
  | waitRead | read =>
    rw [hp] at hfollows
    exact hcache hfollows
  | _ =>
    rw [hp] at hfollows
    exact hfollows

theorem step_follows (hs : Shared f fetched s) (hfresh : fetched.vault.isFreshAt cfg.ttl s.now = true)
    (h : step cfg s l = some u) (hw : Follows cfg fetched selector w s) :
    Follows cfg fetched selector w u := by
  have hfollows := hw.2
  have hslot : s.pc w = .check2 → s.cache = some fetched := by
    intro hpc
    obtain hpending | hstored := hs.stored
    · have heq : w = f := hs.locks.refresh.unique (by rw [hpc]; rfl)
        (Pc.refreshing_holdsRefresh (Pc.fetched_refreshing hpending))
      rw [← heq, hpc] at hpending
      cases hpending
    · exact hstored.1
  have hmoves : ∀ {r : ℕ} (p : Pc), (r = w → p.follows cfg fetched selector s.cache) →
      (u.pc = Function.update s.pc r p) → u.call = s.call → u.cache = s.cache →
      Follows cfg fetched selector w u := by
    intro r p hp hpc hcall hcache
    by_cases hr : w = r
    · refine ⟨by rw [hcall]; exact hw.1, ?_⟩
      rw [hpc, hr, Function.update_self, hcache]
      exact hp hr.symm
    · exact hw.other hs h (by rw [hpc, Function.update_of_ne hr]) (by rw [hcall])
  cases step_cases h with
  | tick elapsed => exact hw.other hs h rfl rfl
  | call r _ hpc =>
    have hne : w ≠ r := by
      intro heq
      rw [heq, hpc] at hfollows
      exact hfollows
    exact hw.other hs h (by simp [State.goto, hne]) (by simp [hne])
  | lockCache r pc hfree hpc =>
    refine hmoves pc ?_ rfl rfl rfl
    intro hr
    rw [hr] at hpc
    exact Pc.follows_entered hpc hfollows
  | hit2 r hpc _ =>
    refine hmoves _ ?_ rfl rfl rfl
    intro hr
    exact hslot (hr ▸ hpc)
  | stale2 r hpc hstale =>
    refine hmoves _ ?_ rfl rfl rfl
    intro hr
    simp only [State.hasFreshCache, hslot (hr ▸ hpc), Option.any_some, hfresh] at hstale
    cases hstale
  | read r hpc =>
    refine hmoves _ ?_ rfl rfl rfl
    intro hr
    subst hr
    rw [hpc] at hfollows
    have hcache : s.cache = some fetched := hfollows
    simp only [Pc.follows, hcache, hw.1]
    rfl
  | lockRefresh r _ hpc => exact hmoves .waitCheck2 (fun _ => trivial) rfl rfl rfl
  | drop r hpc => exact hmoves .dropped (fun _ => trivial) rfl rfl rfl
  | install r fetched' hpc =>
    have hne : w ≠ r := by
      intro heq
      rw [heq, hpc] at hfollows
      exact hfollows
    exact hw.other hs h (by simp [State.goto, hne]) rfl
  | hit1 r hpc _ | stale1 r hpc _ | beginFetch r hpc | loginOk r _ _ hpc | loginError r _ _ hpc
  | syncOk r _ _ _ _ hpc | syncError r _ _ _ _ hpc =>
    refine hmoves _ ?_ rfl rfl rfl
    intro hr
    rw [← hr, hpc] at hfollows
    exact hfollows.elim

theorem run_now {ls : List Label} {v : State}
    (h : Machine.run (Machine.guarded storesFetched (step cfg)) s ls = some v) : s.now ≤ v.now := by
  apply Machine.run_invariant (I := fun u => s.now ≤ u.now) _ (le_refl s.now) h
  intro s' l u hs' hstep
  exact Nat.le_trans hs' (step_now (Machine.guarded_eq_some.mp hstep).2)

theorem run_shared {ls : List Label} {v : State} (w : ℕ) (selector : BitwardenSelector)
    (hs : Shared f fetched s)
    (hrun : Machine.run (Machine.guarded storesFetched (step cfg)) s ls = some v)
    (hfresh : fetched.vault.isFreshAt cfg.ttl v.now = true) :
    (∀ l ∈ ls, l.sends = false) ∧
      (Follows cfg fetched selector w s → Follows cfg fetched selector w v) := by
  induction ls generalizing s with
  | nil =>
    cases hrun
    exact ⟨nofun, id⟩
  | cons l ls ih =>
    have hnow : fetched.vault.isFreshAt cfg.ttl s.now = true :=
      CachedVault.isFreshAt_mono (run_now hrun) hfresh
    obtain ⟨u, hu, hv⟩ := Machine.run_cons.mp hrun
    obtain ⟨hok, hstep⟩ := Machine.guarded_eq_some.mp hu
    obtain ⟨hshared, hsends⟩ := step_shared hs hnow hok hstep
    obtain ⟨hrest, hfollows⟩ := ih hshared hv
    constructor
    · intro l' hl'
      rcases List.mem_cons.mp hl' with heq | hl'
      · rw [heq, hsends]
      · exact hrest l' hl'
    · intro hw
      exact hfollows (step_follows hs hnow hstep hw)

/-! ## From the fetch to its end -/

def Pc.pastFetchVault : Pc → Bool
  | .waitInstall _ | .install _ | .waitRead | .read | .finished _ | .dropped => true
  | _ => false

theorem step_pastFetchVault (hf : (s.pc f).pastFetchVault = true) (h : step cfg s l = some u) :
    (u.pc f).pastFetchVault = true := by
  by_cases hmover : l.caller = some f
  · cases step_cases h with
    | tick elapsed => exact hf
    | lockCache r pc _ hpc =>
      cases hmover
      simp only [State.goto, Function.update_self]
      cases hp : s.pc f <;> rw [hp] at hf hpc <;> cases hpc <;> first | rfl | cases hf
    | install r _ hpc | read r hpc | drop r hpc =>
      cases hmover
      simp [State.goto, Pc.pastFetchVault]
    | call r _ hpc | lockRefresh r _ hpc | hit1 r hpc _ | stale1 r hpc _ | hit2 r hpc _ | stale2 r hpc _
    | beginFetch r hpc | loginOk r _ _ hpc | loginError r _ _ hpc | syncOk r _ _ _ _ hpc
    | syncError r _ _ _ _ hpc =>
      cases hmover
      rw [hpc] at hf
      cases hf
  · rw [(step_frame h hmover).1, hf]

theorem step_inFetchVault (hf : (s.pc f).inFetchVault = true) (h : step cfg s l = some u) :
    (u.pc f).inFetchVault = true ∨ (u.pc f).pastFetchVault = true := by
  by_cases hmover : l.caller = some f
  · cases step_cases h with
    | tick elapsed => exact .inl hf
    | lockCache r pc _ hpc =>
      cases hmover
      cases hp : s.pc f <;> rw [hp] at hf hpc <;> first | cases hpc; done | cases hf
    | loginOk r _ _ hpc =>
      cases hmover
      simp [State.goto, Pc.inFetchVault]
    | loginError r _ _ hpc | syncOk r _ _ _ _ hpc | syncError r _ _ _ _ hpc | drop r hpc =>
      cases hmover
      simp [State.fail, State.goto, Pc.pastFetchVault]
    | call r _ hpc | lockRefresh r _ hpc | hit1 r hpc _ | stale1 r hpc _ | hit2 r hpc _ | stale2 r hpc _
    | beginFetch r hpc | install r _ hpc | read r hpc =>
      cases hmover
      rw [hpc] at hf
      cases hf
  · rw [(step_frame h hmover).1]
    exact .inl hf

/-- While `f` fetches, who waits for the refresh lock goes on waiting unless it is dropped. -/
theorem step_waiting (hlocks : LocksOwned s) (hf : (s.pc f).inFetchVault = true)
    (hw : s.pc w = .waitRefresh ∨ s.pc w = .dropped) (h : step cfg s l = some u) :
    u.pc w = .waitRefresh ∨ u.pc w = .dropped := by
  by_cases hmover : l.caller = some w
  · cases step_cases h with
    | tick elapsed => exact hw
    | lockRefresh r hfree hpc =>
      have hholder : s.refreshLock = some f := hlocks.refresh.eq_some (Pc.inFetchVault_holdsRefresh hf)
      rw [hfree] at hholder
      cases hholder
    | drop r hpc =>
      cases hmover
      simp [State.goto]
    | lockCache r pc _ hpc =>
      cases hmover
      rcases hw with hw | hw
      · rw [hw] at hpc
        cases hpc
      · rw [hw] at hpc
        cases hpc
    | call r _ hpc | hit1 r hpc _ | stale1 r hpc _ | hit2 r hpc _ | stale2 r hpc _ | beginFetch r hpc
    | loginOk r _ _ hpc | loginError r _ _ hpc | syncOk r _ _ _ _ hpc | syncError r _ _ _ _ hpc
    | install r _ hpc | read r hpc =>
      cases hmover
      rw [hpc] at hw
      rcases hw with hw | hw
      · cases hw
      · cases hw
  · rw [(step_frame h hmover).1]
    exact hw

/-- The fetch of `f` goes on and `w` waits for it, or that fetch is over. -/
def Awaits (f w : ℕ) (call : Call) (s : State) : Prop :=
  (LocksOwned s ∧ (s.pc f).inFetchVault = true ∧ (s.pc w = .waitRefresh ∨ s.pc w = .dropped) ∧
    s.call w = call) ∨ (s.pc f).pastFetchVault = true

theorem step_awaits {call : Call} (hs : Awaits f w call s) (h : step cfg s l = some u) :
    Awaits f w call u := by
  obtain ⟨hlocks, hf, hw, hcall⟩ | hpast := hs
  · rcases step_inFetchVault hf h with hf' | hf'
    · have hstarted : s.pc w ≠ .idle := by
        intro hidle
        rw [hidle] at hw
        rcases hw with hw | hw
        · cases hw
        · cases hw
      exact .inl ⟨step_locksOwned hlocks h, hf', step_waiting hlocks hf hw h,
        (step_call h hstarted).trans hcall⟩
    · exact .inr hf'
  · exact .inr (step_pastFetchVault hpast h)

theorem waiting_calls_share_a_stored_vault {start : ℕ} {s₀ s₁ s₂ v : State} {ls₁ ls₂ : List Label}
    {sync : SyncResponse} {unixNow : UInt64}
    (hreach : Machine.Reachable (step cfg) (State.initial start) s₀)
    (hf : (s₀.pc f).inFetchVault = true) (hw : s₀.pc w = .waitRefresh)
    (hfetch : Machine.run (step cfg) s₀ ls₁ = some s₁)
    (hanswer : step cfg s₁ (.syncAnswer f (.ok sync) unixNow) = some s₂)
    (hrun : Machine.run (Machine.guarded storesFetched (step cfg)) s₂ ls₂ = some v) :
    ∃ fetched, s₂.pc f = .waitInstall fetched ∧ fetched.vault.sync = sync ∧
      (fetched.vault.isFreshAt cfg.ttl v.now = true →
        (∀ l ∈ ls₂, l.sends = false) ∧ Follows cfg fetched (s₀.call w).selector w v) := by
  have hlocks₀ := reachable_locksOwned hreach
  have hawaits : Awaits f w (s₀.call w) s₁ := by
    apply Machine.run_invariant (fun s l u hs hstep => step_awaits hs hstep) _ hfetch
    exact .inl ⟨hlocks₀, hf, .inl hw, rfl⟩
  cases step_cases hanswer with
  | syncOk _ began session _ _ hpc =>
    obtain ⟨hlocks, -, hwait, hcall⟩ | hpast := hawaits
    · have hshared : Shared f ⟨CachedVault.new cfg.latest session sync s₁.now, began, unixNow⟩ _ :=
        ⟨step_locksOwned hlocks hanswer, .inl (by simp [State.goto, Pc.fetched])⟩
      refine ⟨_, Function.update_self _ _ _, rfl, ?_⟩
      intro hfresh
      obtain ⟨hsends, hfollows⟩ := run_shared w (s₀.call w).selector hshared hrun hfresh
      refine ⟨hsends, hfollows ⟨?_, ?_⟩⟩
      · exact congrArg Call.selector hcall
      · have hne : w ≠ f := by
          intro heq
          rw [heq, hpc] at hwait
          rcases hwait with hwait | hwait
          · cases hwait
          · cases hwait
        simp only [State.goto, Function.update_of_ne hne]
        rcases hwait with hwait | hwait
        · rw [hwait]
          trivial
        · rw [hwait]
          trivial
    · rw [hpc] at hpast
      cases hpast

end Sharing

def sampleWaiting : List Label :=
  toSecondCheck 0 ++ [.beginFetch 0, .call 1 sampleSelector, .lockCache 1, .check 1]

def retries : List Label := [.lockRefresh 1, .lockCache 1, .check 1, .beginFetch 1]

/-- After a fetch that failed, and after one whose token lasts 30 seconds, the waiting call logs in
again at the very instant the fetch ended. -/
theorem waiting_call_fetches_again :
    (∃ s u, Machine.run (step sampleConfig) (State.initial 0) sampleWaiting = some s ∧
      (s.pc 0).inFetchVault = true ∧ s.pc 1 = .waitRefresh ∧
      Machine.run (step sampleConfig) s (.loginAnswer 0 (.error (.api .http)) :: retries) = some u ∧
      u.now = s.now ∧ (u.pc 1).inFetchVault = true) ∧
    (∃ s u, Machine.run (step sampleConfig) (State.initial 0) sampleWaiting = some s ∧
      (s.pc 0).inFetchVault = true ∧ s.pc 1 = .waitRefresh ∧
      Machine.run (step sampleConfig) s ([.loginAnswer 0 (.ok (sampleSession 30)),
        .syncAnswer 0 (.ok sampleSync) 1767225600, .lockCache 0, .install 0] ++ retries) = some u ∧
      u.now = s.now ∧ (u.pc 1).inFetchVault = true) := by
  constructor
  · exact ⟨_, _, rfl, rfl, rfl, rfl, rfl, rfl⟩
  · exact ⟨_, _, rfl, rfl, rfl, rfl, rfl, rfl⟩

theorem sampleWaiting_shares : ∃ s₀ s₁ s₂ v fetched,
    Machine.run (step sampleConfig) (State.initial 0) sampleWaiting = some s₀ ∧
      Machine.run (step sampleConfig) s₀ [.loginAnswer 0 (.ok (sampleSession 3600))] = some s₁ ∧
      step sampleConfig s₁ (.syncAnswer 0 (.ok sampleSync) 1767225600) = some s₂ ∧
      Machine.run (Machine.guarded storesFetched (step sampleConfig)) s₂
        [.lockCache 0, .install 0, .lockRefresh 1, .lockCache 1, .check 1, .lockCache 1, .read 1] = some v ∧
      s₂.pc 0 = .waitInstall fetched ∧
      v.pc 1 = .finished (resolveCached sampleConfig.primitives fetched.vault sampleSelector) := by
  have hrun : ∃ s₀ s₁ s₂ v : State,
      Machine.run (step sampleConfig) (State.initial 0) sampleWaiting = some s₀ ∧
      Machine.run (step sampleConfig) s₀ [.loginAnswer 0 (.ok (sampleSession 3600))] = some s₁ ∧
      step sampleConfig s₁ (.syncAnswer 0 (.ok sampleSync) 1767225600) = some s₂ ∧
      Machine.run (Machine.guarded storesFetched (step sampleConfig)) s₂
        [.lockCache 0, .install 0, .lockRefresh 1, .lockCache 1, .check 1, .lockCache 1, .read 1] = some v ∧
      (s₀.pc 0).inFetchVault = true ∧ s₀.pc 1 = .waitRefresh ∧ (s₀.call 1).selector = sampleSelector ∧
      (∀ fetched, s₂.pc 0 = .waitInstall fetched →
        fetched.vault.isFreshAt sampleConfig.ttl v.now = true) ∧
      ∃ result, v.pc 1 = .finished result := by
    refine ⟨_, _, _, _, rfl, rfl, rfl, rfl, rfl, rfl, rfl, ?_, _, rfl⟩
    intro fetched h
    cases h
    decide +kernel
  obtain ⟨s₀, s₁, s₂, v, h₀, h₁, h₂, h₃, hf, hw, hselector, hfresh, result, hresult⟩ := hrun
  obtain ⟨fetched, hpc, -, hshare⟩ := waiting_calls_share_a_stored_vault ⟨_, h₀⟩ hf hw h₁ h₂ h₃
  obtain ⟨-, -, hfollows⟩ := hshare (hfresh fetched hpc)
  rw [hresult, hselector] at hfollows
  refine ⟨s₀, s₁, s₂, v, fetched, h₀, h₁, h₂, h₃, hpc, ?_⟩
  rw [hresult]
  exact congrArg Pc.finished hfollows

/-! ## Recorded successes -/

/-- No future is dropped with a fetched vault in hand, and when a fetch succeeds the clock is past
the epoch and the counter does not wrap. -/
def recordsStored (s : State) : Label → Bool
  | .drop r => (s.pc r).fetched.isNone
  | .syncAnswer _ (.ok _) unixNow =>
    decide (0 < unixNow ∧ s.metrics.refreshSuccesses.toNat + 1 < 2 ^ 64)
  | _ => true

/-- What is recorded is what is stored, but for a vault that is on its way to the slot. -/
structure RecordedInv (s : State) : Prop where
  locks : LocksOwned s
  positive : ∀ fetched, s.cache = some fetched → 0 < fetched.recorded
  pendingPositive : ∀ r fetched, (s.pc r).fetched = some fetched → 0 < fetched.recorded
  pending : ∀ r fetched, (s.pc r).fetched = some fetched →
    s.metrics.refreshSuccesses.toNat = s.writes + 1 ∧
    s.metrics.lastSuccessUnixSeconds = fetched.recorded
  settled : (∀ r, (s.pc r).fetched = none) → s.metrics.refreshSuccesses.toNat = s.writes ∧
    s.metrics.lastSuccessUnixSeconds = (s.cache.map (·.recorded)).getD 0

section Recording
variable {cfg : Config} {s u : State} {l : Label}

theorem recordedInv_initial (start : ℕ) : RecordedInv (State.initial start) where
  locks := locksOwned_initial start
  positive := nofun
  pendingPositive := nofun
  pending := nofun
  settled := fun _ => ⟨rfl, rfl⟩

theorem RecordedInv.keep (hs : RecordedInv s) (hlocks : LocksOwned u) {r : ℕ} {p : Pc}
    (hpc : u.pc = Function.update s.pc r p) (hp : p.fetched = (s.pc r).fetched)
    (hcache : u.cache = s.cache) (hwrites : u.writes = s.writes)
    (hsuccesses : u.metrics.refreshSuccesses = s.metrics.refreshSuccesses)
    (hlast : u.metrics.lastSuccessUnixSeconds = s.metrics.lastSuccessUnixSeconds) : RecordedInv u := by
  have hsame : ∀ r', (u.pc r').fetched = (s.pc r').fetched := by
    intro r'
    rw [hpc]
    by_cases hr : r' = r
    · rw [hr, Function.update_self, hp]
    · rw [Function.update_of_ne hr]
  constructor
  · exact hlocks
  · rw [hcache]
    exact hs.positive
  · intro r' fetched h
    exact hs.pendingPositive r' fetched (hsame r' ▸ h)
  · intro r' fetched h
    rw [hsuccesses, hlast, hwrites]
    exact hs.pending r' fetched (hsame r' ▸ h)
  · intro hnone
    rw [hsuccesses, hlast, hwrites, hcache]
    exact hs.settled (fun r' => (hsame r').symm.trans (hnone r'))

theorem Pc.fetched_holdsRefresh {p : Pc} {fetched : Fetched} (h : p.fetched = some fetched) :
    p.holdsRefresh = true :=
  Pc.refreshing_holdsRefresh (Pc.fetched_refreshing h)

theorem LocksOwned.none_pending (hlocks : LocksOwned s) {r : ℕ} (hheld : (s.pc r).holdsRefresh = true)
    (hnone : (s.pc r).fetched = none) (r' : ℕ) : (s.pc r').fetched = none := by
  rw [Option.eq_none_iff_forall_not_mem]
  intro fetched h
  have heq : r' = r := hlocks.refresh.unique (Pc.fetched_holdsRefresh h) hheld
  rw [heq, hnone] at h
  cases h

theorem step_recordedInv (hs : RecordedInv s) (hok : recordsStored s l = true)
    (h : step cfg s l = some u) :
    RecordedInv u := by
  have hlocks := step_locksOwned hs.locks h
  cases step_cases h with
  | tick elapsed => exact ⟨hlocks, hs.positive, hs.pendingPositive, hs.pending, hs.settled⟩
  | syncOk r began session sync unixNow hpc =>
    have hnone := hs.locks.none_pending (r := r) (by rw [hpc]; rfl) (by rw [hpc]; rfl)
    obtain ⟨hsuccesses, -⟩ := hs.settled hnone
    have hclock : 0 < unixNow ∧ s.metrics.refreshSuccesses.toNat + 1 < 2 ^ 64 := of_decide_eq_true hok
    have hcount : (s.metrics.refreshSuccesses + 1).toNat = s.writes + 1 := by
      rw [UInt64.toNat_add, UInt64.toNat_one, Nat.mod_eq_of_lt hclock.2, hsuccesses]
    have hnew : ∀ r' fetched, (Function.update s.pc r (.waitInstall
        ⟨CachedVault.new cfg.latest session sync s.now, began, unixNow⟩) r').fetched = some fetched →
        fetched.recorded = unixNow := by
      intro r' fetched h'
      by_cases hr : r' = r
      · rw [hr, Function.update_self] at h'
        cases h'
        rfl
      · rw [Function.update_of_ne hr, hnone r'] at h'
        cases h'
    refine ⟨hlocks, hs.positive, ?_, ?_, ?_⟩
    · intro r' fetched h'
      rw [hnew r' fetched h']
      exact hclock.1
    · intro r' fetched h'
      rw [hnew r' fetched h']
      exact ⟨hcount, rfl⟩
    · intro hall
      have hcontra := hall r
      simp [State.goto, Pc.fetched] at hcontra
  | install r fetched hpc =>
    have hheld : (s.pc r).fetched = some fetched := by
      rw [hpc]
      rfl
    obtain ⟨hsuccesses, hlast⟩ := hs.pending r fetched hheld
    have hnone : ∀ r', (Function.update s.pc r .waitRead r').fetched = none := by
      intro r'
      by_cases hr : r' = r
      · rw [hr, Function.update_self]
        rfl
      · rw [Function.update_of_ne hr, Option.eq_none_iff_forall_not_mem]
        intro fetched' h'
        exact hr (hs.locks.refresh.unique (Pc.fetched_holdsRefresh h') (Pc.fetched_holdsRefresh hheld))
    refine ⟨hlocks, ?_, ?_, ?_, ?_⟩
    · intro fetched' h'
      cases h'
      exact hs.pendingPositive r fetched hheld
    · intro r' fetched' h'
      exact absurd h' (by simp [State.goto, hnone r'])
    · intro r' fetched' h'
      exact absurd h' (by simp [State.goto, hnone r'])
    · intro _
      exact ⟨hsuccesses, hlast⟩
  | lockCache r pc hfree hpc => exact hs.keep hlocks rfl (Pc.entered_fetched hpc) rfl rfl rfl rfl
  | drop r hpc =>
    have hnone : (s.pc r).fetched = none := Option.isNone_iff_eq_none.mp hok
    exact hs.keep hlocks (p := .dropped) rfl hnone.symm rfl rfl rfl rfl
  | call r _ hpc | lockRefresh r _ hpc | hit1 r hpc _ | stale1 r hpc _ | hit2 r hpc _ | stale2 r hpc _
  | beginFetch r hpc | loginOk r _ _ hpc | loginError r _ _ hpc | syncError r _ _ _ _ hpc | read r hpc =>
    exact hs.keep hlocks rfl (by rw [hpc]; rfl) rfl rfl rfl rfl

theorem recorded_success_is_stored {start : ℕ}
    (h : Machine.Reachable (Machine.guarded recordsStored (step cfg)) (State.initial start) s)
    (hfree : s.refreshLock = none) (unixNow : UInt64) :
    s.metrics.refreshSuccesses.toNat = s.writes ∧
      (s.metrics.snapshot unixNow).refreshSuccesses = s.metrics.refreshSuccesses ∧
      (s.metrics.snapshot unixNow).lastSuccessUnixSeconds = s.cache.map (·.recorded) := by
  have hs : RecordedInv s := by
    apply h.invariant (recordedInv_initial start)
    intro s l u hs hstep
    obtain ⟨hok, hstep⟩ := Machine.guarded_eq_some.mp hstep
    exact step_recordedInv hs hok hstep
  have hnone : ∀ r, (s.pc r).fetched = none := by
    intro r
    rw [Option.eq_none_iff_forall_not_mem]
    intro fetched hfetched
    have hheld : s.refreshLock = some r := hs.locks.refresh.eq_some (Pc.fetched_holdsRefresh hfetched)
    rw [hfree] at hheld
    cases hheld
  obtain ⟨hsuccesses, hlast⟩ := hs.settled hnone
  refine ⟨hsuccesses, rfl, ?_⟩
  simp only [CacheMetricState.snapshot, hlast]
  cases hcache : s.cache with
  | none => rfl
  | some fetched =>
    have hpos := hs.positive fetched hcache
    simp [hpos]

end Recording

/-- The connection goes away while the fetched vault waits for the cache lock. -/
theorem dropped_fetch_is_recorded : ∃ s,
    Machine.run (step sampleConfig) (State.initial 0)
        (toSecondCheck 0 ++ fetchOnce 0 3600 1767225600 ++ [.drop 0]) = some s ∧
      s.refreshLock = none ∧ s.writes = 0 ∧ s.cache = none ∧
      (s.metrics.snapshot 1767225600).refreshSuccesses = 1 ∧
      (s.metrics.snapshot 1767225600).lastSuccessUnixSeconds = some 1767225600 := by
  refine ⟨_, rfl, rfl, rfl, rfl, ?_, ?_⟩
  · decide +kernel
  · decide +kernel

theorem sampleRun_records_what_it_stores : ∃ s,
    Machine.run (Machine.guarded recordsStored (step sampleConfig)) (State.initial 0)
        (sampleRun ++ [.read 0]) = some s ∧
      s.refreshLock = none ∧ s.writes = 1 ∧ s.metrics.refreshSuccesses.toNat = s.writes := by
  have hrun : ∃ s, Machine.run (Machine.guarded recordsStored (step sampleConfig)) (State.initial 0)
      (sampleRun ++ [.read 0]) = some s ∧ s.refreshLock = none ∧ s.writes = 1 := ⟨_, rfl, rfl, rfl⟩
  obtain ⟨s, hs, hfree, hwrites⟩ := hrun
  exact ⟨s, hs, hfree, hwrites, (recorded_success_is_stored ⟨_, hs⟩ hfree 0).1⟩

end VaultwardenEso.Client
