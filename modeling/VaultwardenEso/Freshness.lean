import VaultwardenEso.CacheSlot

set_option autoImplicit false

/-!
# Freshness of what a call reads

The cache slot does not change from the second check of a refresh to its end, and a
stale vault stays stale: so a call that saw a fresh vault did so before any fetch
that is on its way to the slot.
-/
namespace VaultwardenEso.Client
open RustStr BwesoCore Crypto Cipher

/-- When the fetch of a call began, until its vault is in the slot. -/
def Pc.fetchBegan : Pc → Option ℕ
  | .login began | .syncing began _ => some began
  | .waitInstall fetched | .install fetched => some fetched.began
  | _ => none

def Pc.fetched : Pc → Option Fetched
  | .waitInstall fetched | .install fetched => some fetched
  | _ => none

def Pc.reading : Pc → Bool
  | .waitRead | .read => true
  | _ => false

/-- The vault was fresh at an instant since the call started, or its fetch began after that start. -/
def Acceptable (cfg : Config) (now : ℕ) (call : Call) (fetched : Fetched) : Prop :=
  (∃ t, call.startedAt ≤ t ∧ fetched.vault.fetchedAt ≤ t ∧ t ≤ now ∧
    fetched.vault.isFreshAt cfg.ttl t = true) ∨ call.number < fetched.began

structure FreshnessInv (cfg : Config) (s : State) : Prop where
  startedAt : ∀ r, s.pc r ≠ .idle → (s.call r).startedAt ≤ s.now
  number : ∀ r, s.pc r ≠ .idle → (s.call r).number < s.started
  slotTime : ∀ fetched, s.cache = some fetched → fetched.vault.fetchedAt ≤ s.now
  fetchedTime : ∀ r fetched, (s.pc r).fetched = some fetched → fetched.vault.fetchedAt ≤ s.now
  began : ∀ r began, (s.pc r).fetchBegan = some began → (s.call r).number < began
  reading : ∀ r, (s.pc r).reading = true →
    ∃ fetched, s.cache = some fetched ∧ Acceptable cfg s.now (s.call r) fetched
  overtaken : ∀ r r' began, (s.pc r).reading = true → (s.pc r').fetchBegan = some began →
    (s.call r).number < began

theorem Pc.fetchBegan_refreshing {p : Pc} {began : ℕ} (h : p.fetchBegan = some began) :
    p.refreshing = true := by
  cases p <;> first | rfl | cases h

theorem Pc.entered_fetch {p p' : Pc} (h : p.entered = some p') :
    p'.fetchBegan = p.fetchBegan ∧ p'.fetched = p.fetched ∧ p'.reading = p.reading ∧ p ≠ .idle := by
  cases p <;> cases h <;> exact ⟨rfl, rfl, rfl, nofun⟩

theorem Acceptable.later {cfg : Config} {now now' : ℕ} {call : Call} {fetched : Fetched}
    (h : Acceptable cfg now call fetched) (hnow : now ≤ now') : Acceptable cfg now' call fetched := by
  obtain ⟨t, hstart, hfetched, ht, hfresh⟩ | hbegan := h
  · exact .inl ⟨t, hstart, hfetched, by omega, hfresh⟩
  · exact .inr hbegan

section Steps
variable {cfg : Config} {s : State}

theorem freshnessInv_initial (cfg : Config) (now : ℕ) : FreshnessInv cfg (State.initial now) where
  startedAt := fun _ h => absurd rfl h
  number := fun _ h => absurd rfl h
  slotTime := nofun
  fetchedTime := nofun
  began := nofun
  reading := nofun
  overtaken := nofun

theorem FreshnessInv.goto (hs : FreshnessInv cfg s) {r : ℕ} {p : Pc} (cacheLock refreshLock : Option ℕ)
    (metrics : CacheMetricState) (hstarted : s.pc r ≠ .idle)
    (hfetched : ∀ fetched, p.fetched = some fetched → fetched.vault.fetchedAt ≤ s.now)
    (hbegan : ∀ began, p.fetchBegan = some began →
      (s.call r).number < began ∧ ∀ r', (s.pc r').reading = true → (s.call r').number < began)
    (hreading : p.reading = true →
      (∃ fetched, s.cache = some fetched ∧ Acceptable cfg s.now (s.call r) fetched) ∧
        ∀ r' began, r' ≠ r → (s.pc r').fetchBegan = some began → (s.call r).number < began) :
    FreshnessInv cfg { s.goto r p with cacheLock, refreshLock, metrics } := by
  have hidle : ∀ r', Function.update s.pc r p r' ≠ .idle → s.pc r' ≠ .idle := by
    intro r' h
    by_cases hr : r' = r
    · subst hr
      exact hstarted
    · simpa [hr] using h
  constructor
  · intro r' h
    exact hs.startedAt r' (hidle r' h)
  · intro r' h
    exact hs.number r' (hidle r' h)
  · exact hs.slotTime
  · intro r' fetched h
    by_cases hr : r' = r
    · subst hr
      exact hfetched fetched (by simpa [State.goto] using h)
    · exact hs.fetchedTime r' fetched (by simpa [State.goto, hr] using h)
  · intro r' began h
    by_cases hr : r' = r
    · subst hr
      exact (hbegan began (by simpa [State.goto] using h)).1
    · exact hs.began r' began (by simpa [State.goto, hr] using h)
  · intro r' h
    by_cases hr : r' = r
    · subst hr
      exact (hreading (by simpa [State.goto] using h)).1
    · exact hs.reading r' (by simpa [State.goto, hr] using h)
  · intro r₁ r₂ began h₁ h₂
    by_cases hr₂ : r₂ = r
    · subst hr₂
      have hbegan' := hbegan began (by simpa [State.goto] using h₂)
      by_cases hr₁ : r₁ = r₂
      · subst hr₁
        exact hbegan'.1
      · exact hbegan'.2 r₁ (by simpa [State.goto, hr₁] using h₁)
    · have h₂' : (s.pc r₂).fetchBegan = some began := by simpa [State.goto, hr₂] using h₂
      by_cases hr₁ : r₁ = r
      · subst hr₁
        exact (hreading (by simpa [State.goto] using h₁)).2 r₂ began hr₂ h₂'
      · exact hs.overtaken r₁ r₂ began (by simpa [State.goto, hr₁] using h₁) h₂'

theorem FreshnessInv.keep (hs : FreshnessInv cfg s) {r : ℕ} {p : Pc} (cacheLock refreshLock : Option ℕ)
    (metrics : CacheMetricState) (hstarted : s.pc r ≠ .idle)
    (hfetched : ∀ fetched, p.fetched = some fetched → (s.pc r).fetched = some fetched)
    (hbegan : ∀ began, p.fetchBegan = some began → (s.pc r).fetchBegan = some began)
    (hreading : p.reading = true → (s.pc r).reading = true) :
    FreshnessInv cfg { s.goto r p with cacheLock, refreshLock, metrics } := by
  apply hs.goto cacheLock refreshLock metrics hstarted
  · intro fetched h
    exact hs.fetchedTime r fetched (hfetched fetched h)
  · intro began h
    exact ⟨hs.began r began (hbegan began h), fun r' hr' => hs.overtaken r' r began hr' (hbegan began h)⟩
  · intro h
    exact ⟨hs.reading r (hreading h), fun r' began _ hr' => hs.overtaken r r' began (hreading h) hr'⟩

/-- A check that finds the slot fresh: no fetch is on its way, for that would need a stale slot. -/
theorem FreshnessInv.hit (hs : FreshnessInv cfg s) (hlocks : LocksOwned s)
    (hslot : s.slot.Guarded cfg.fresh) {r : ℕ} (cacheLock refreshLock : Option ℕ)
    (metrics : CacheMetricState) (hstarted : s.pc r ≠ .idle) (hfresh : s.hasFreshCache cfg = true) :
    FreshnessInv cfg { s.goto r .waitRead with cacheLock, refreshLock, metrics } := by
  obtain ⟨fetched, hcache, hnow⟩ := hasFreshCache_eq_true hfresh
  refine hs.goto cacheLock refreshLock metrics hstarted (fun _ h => by cases h)
    (fun _ h => by cases h) (fun _ => ⟨?_, ?_⟩)
  · have hstart := hs.startedAt r hstarted
    have htime := hs.slotTime fetched hcache
    exact ⟨fetched, hcache, .inl ⟨s.now, hstart, htime, le_refl _, hnow⟩⟩
  · intro r' began _ hr'
    have hquiet := hlocks.refresher_none.mp (hslot.quiet hcache hnow) r'
    rw [Pc.fetchBegan_refreshing hr'] at hquiet
    cases hquiet

theorem FreshnessInv.tick (hs : FreshnessInv cfg s) (elapsed : ℕ) :
    FreshnessInv cfg { s with now := s.now + elapsed } where
  startedAt := fun r h => Nat.le_trans (hs.startedAt r h) (Nat.le_add_right _ _)
  number := hs.number
  slotTime := fun fetched h => Nat.le_trans (hs.slotTime fetched h) (Nat.le_add_right _ _)
  fetchedTime := fun r fetched h => Nat.le_trans (hs.fetchedTime r fetched h) (Nat.le_add_right _ _)
  began := hs.began
  reading := by
    intro r h
    obtain ⟨fetched, hcache, hacc⟩ := hs.reading r h
    exact ⟨fetched, hcache, hacc.later (Nat.le_add_right _ _)⟩
  overtaken := hs.overtaken

theorem FreshnessInv.call (hs : FreshnessInv cfg s) (r : ℕ) (selector : BitwardenSelector) :
    FreshnessInv cfg { s.goto r .waitCheck1 with
      call := Function.update s.call r ⟨selector, s.now, s.started⟩, started := s.started + 1 } := by
  constructor
  · intro r' h
    by_cases hr : r' = r
    · simp [State.goto, hr]
    · have h' : s.pc r' ≠ .idle := by simpa [State.goto, hr] using h
      simpa [State.goto, hr] using hs.startedAt r' h'
  · intro r' h
    by_cases hr : r' = r
    · simp [hr]
    · have h' : s.pc r' ≠ .idle := by simpa [State.goto, hr] using h
      have hnumber := hs.number r' h'
      simp only [Function.update_of_ne hr]
      omega
  · exact hs.slotTime
  · intro r' fetched h
    by_cases hr : r' = r
    · simp [State.goto, hr, Pc.fetched] at h
    · exact hs.fetchedTime r' fetched (by simpa [State.goto, hr] using h)
  · intro r' began h
    by_cases hr : r' = r
    · simp [State.goto, hr, Pc.fetchBegan] at h
    · simpa [hr] using hs.began r' began (by simpa [State.goto, hr] using h)
  · intro r' h
    by_cases hr : r' = r
    · simp [State.goto, hr, Pc.reading] at h
    · simpa [State.goto, hr] using hs.reading r' (by simpa [State.goto, hr] using h)
  · intro r₁ r₂ began h₁ h₂
    by_cases hr₁ : r₁ = r
    · simp [State.goto, hr₁, Pc.reading] at h₁
    · by_cases hr₂ : r₂ = r
      · simp [State.goto, hr₂, Pc.fetchBegan] at h₂
      · simpa [hr₁] using hs.overtaken r₁ r₂ began (by simpa [State.goto, hr₁] using h₁)
          (by simpa [State.goto, hr₂] using h₂)

/-- The one write of the slot. Other readers started before this fetch began, and no other call
is past its second check. -/
theorem FreshnessInv.install (hs : FreshnessInv cfg s) (hlocks : LocksOwned s) {r : ℕ}
    {fetched : Fetched} (hpc : s.pc r = .install fetched) :
    FreshnessInv cfg { s.goto r .waitRead with
      cache := some fetched, cacheLock := none, refreshLock := none, writes := s.writes + 1 } := by
  have hheld : (s.pc r).holdsRefresh = true := by
    rw [hpc]
    rfl
  have hbegan : (s.pc r).fetchBegan = some fetched.began := by
    rw [hpc]
    rfl
  have halone : ∀ r', r' ≠ r → (s.pc r').refreshing = false := by
    intro r' hr
    by_contra hrefreshing
    rw [Bool.not_eq_false] at hrefreshing
    exact hr (hlocks.refresh.unique (Pc.refreshing_holdsRefresh hrefreshing) hheld)
  have hidle : ∀ r', Function.update s.pc r .waitRead r' ≠ .idle → s.pc r' ≠ .idle := by
    intro r' h
    by_cases hr : r' = r
    · rw [hr, hpc]
      nofun
    · simpa [hr] using h
  have hnone : ∀ r', (Function.update s.pc r .waitRead r').refreshing = false := by
    intro r'
    by_cases hr : r' = r
    · simp [hr, Pc.refreshing]
    · simpa [hr] using halone r' hr
  have hnofetch : ∀ r', (Function.update s.pc r .waitRead r').fetchBegan = none := by
    intro r'
    rw [Option.eq_none_iff_forall_not_mem]
    intro began h
    have hrefreshing := Pc.fetchBegan_refreshing h
    rw [hnone r'] at hrefreshing
    cases hrefreshing
  constructor
  · intro r' h
    exact hs.startedAt r' (hidle r' h)
  · intro r' h
    exact hs.number r' (hidle r' h)
  · intro fetched' h
    cases h
    exact hs.fetchedTime r fetched (by rw [hpc]; rfl)
  · intro r' fetched' h
    by_cases hr : r' = r
    · simp [State.goto, hr, Pc.fetched] at h
    · exact hs.fetchedTime r' fetched' (by simpa [State.goto, hr] using h)
  · intro r' began h
    exact absurd h (by simp [State.goto, hnofetch r'])
  · intro r' h
    refine ⟨fetched, rfl, .inr ?_⟩
    by_cases hr : r' = r
    · rw [hr]
      exact hs.began r fetched.began hbegan
    · exact hs.overtaken r' r fetched.began (by simpa [State.goto, hr] using h) hbegan
  · intro r₁ r₂ began _ h
    exact absurd h (by simp [State.goto, hnofetch r₂])

theorem step_freshnessInv {u : State} {l : Label} (hlocks : LocksOwned s)
    (hslot : s.slot.Guarded cfg.fresh) (hs : FreshnessInv cfg s) (h : step cfg s l = some u) :
    FreshnessInv cfg u := by
  cases step_cases h with
  | tick elapsed => exact hs.tick elapsed
  | call r selector hpc => exact hs.call r selector
  | lockCache r pc hfree hpc =>
    obtain ⟨hbegan, hfetched, hreading, hstarted⟩ := Pc.entered_fetch hpc
    exact hs.keep _ _ _ hstarted (fun _ h => hfetched ▸ h) (fun _ h => hbegan ▸ h)
      (fun h => hreading ▸ h)
  | hit1 r hpc hfresh | hit2 r hpc hfresh =>
    exact hs.hit hlocks hslot _ _ _ (by rw [hpc]; nofun) hfresh
  | beginFetch r hpc =>
    have hnumber : ∀ r', s.pc r' ≠ .idle → (s.call r').number < s.started := hs.number
    refine hs.goto _ _ _ (by rw [hpc]; nofun) (fun _ h => by cases h) ?_ (fun h => by cases h)
    intro began h
    cases h
    refine ⟨hnumber r (by rw [hpc]; nofun), ?_⟩
    intro r' hr'
    apply hnumber r'
    intro hidle
    rw [hidle] at hr'
    cases hr'
  | syncOk r began session sync unixNow hpc =>
    refine hs.goto _ _ _ (by rw [hpc]; nofun) ?_ ?_ (fun h => by cases h)
    · intro fetched h
      cases h
      exact le_refl _
    · intro began' h
      cases h
      have hbegan : (s.pc r).fetchBegan = some began := by
        rw [hpc]
        rfl
      exact ⟨hs.began r began hbegan, fun r' hr' => hs.overtaken r' r began hr' hbegan⟩
  | install r fetched hpc => exact hs.install hlocks hpc
  | drop r hpc =>
    have hstarted : s.pc r ≠ .idle := by
      intro hidle
      rw [hidle] at hpc
      cases hpc
    exact hs.keep _ _ _ hstarted (fun _ h => by cases h) (fun _ h => by cases h) (fun h => by cases h)
  | loginOk r began session hpc =>
    exact hs.keep _ _ _ (by rw [hpc]; nofun) (fun _ h => by cases h) (fun _ h => by rw [hpc]; exact h)
      (fun h => by cases h)
  | lockRefresh r _ hpc | stale1 r hpc _ | stale2 r hpc _ | loginError r _ _ hpc | syncError r _ _ _ _ hpc
  | read r hpc =>
    exact hs.keep _ _ _ (by rw [hpc]; nofun) (fun _ h => by cases h) (fun _ h => by cases h)
      (fun h => by cases h)

end Steps

end VaultwardenEso.Client
