import VaultwardenEso.Refresh
import VaultwardenEso.Lib.OneSlot

set_option autoImplicit false

/-!
# The cache as a slot with one refresher

Seen at the cache, the concurrent calls are a slot in which a call starts a refresh
when its second check fails and ends it when it stores the vault, fails or is dropped.
-/
namespace VaultwardenEso.Client

def Pc.refreshing : Pc → Bool
  | .fetchStart | .login _ | .syncing _ _ | .waitInstall _ | .install _ => true
  | _ => false

theorem Pc.refreshing_holdsRefresh {p : Pc} (h : p.refreshing = true) : p.holdsRefresh = true := by
  cases p <;> first | rfl | cases h

theorem Pc.entered_refreshing {p p' : Pc} (h : p.entered = some p') :
    p'.refreshing = p.refreshing := by
  cases p <;> cases h <;> rfl

def State.slot (s : State) : OneSlot.Slot ℕ Fetched ℕ :=
  ⟨s.now, s.cache, s.refreshLock.filter (fun r => (s.pc r).refreshing)⟩

def Config.fresh (cfg : Config) (now : ℕ) (fetched : Fetched) : Prop :=
  fetched.vault.isFreshAt cfg.ttl now = true

theorem Config.fresh_antitone (cfg : Config) (fetched : Fetched) :
    Antitone (fun t => cfg.fresh t fetched) := by
  intro t t' ht hfresh
  exact CachedVault.isFreshAt_mono ht hfresh

section Refinement
variable {cfg : Config} {s u : State} {l : Label}

theorem stale_slot (h : s.hasFreshCache cfg = false) : s.slot.Stale cfg.fresh := by
  intro fetched hcache hfresh
  have hslot : s.cache = some fetched := hcache
  have hnow : fetched.vault.isFreshAt cfg.ttl s.now = true := hfresh
  simp [State.hasFreshCache, hslot, hnow] at h

theorem hasFreshCache_eq_true (h : s.hasFreshCache cfg = true) :
    ∃ fetched, s.cache = some fetched ∧ cfg.fresh s.now fetched := by
  simpa [State.hasFreshCache, Config.fresh, Option.any_eq_true] using h

/-- The refresher is the one call that is past a failed second check. -/
theorem LocksOwned.refresher (hs : LocksOwned s) (r : ℕ) :
    s.slot.refresher = some r ↔ (s.pc r).refreshing = true := by
  simp only [State.slot, Option.filter_eq_some_iff]
  constructor
  · intro h
    exact h.2
  · intro h
    exact ⟨hs.refresh.eq_some (Pc.refreshing_holdsRefresh h), h⟩

theorem LocksOwned.refresher_none (hs : LocksOwned s) :
    s.slot.refresher = none ↔ ∀ r, (s.pc r).refreshing = false := by
  simp only [Option.eq_none_iff_forall_not_mem, Option.mem_def, hs.refresher, Bool.not_eq_true]

/-- The call goes on inside or outside a refresh, as it was. -/
theorem slot_stays (hs : LocksOwned s) (hu : LocksOwned u) {r : ℕ} {p : Pc}
    (hpc : u.pc = Function.update s.pc r p) (hp : p.refreshing = (s.pc r).refreshing)
    (hnow : u.now = s.now) (hcache : u.cache = s.cache) : OneSlot.Move cfg.fresh s.slot u.slot := by
  have hsame : ∀ r', (u.pc r').refreshing = (s.pc r').refreshing := by
    intro r'
    by_cases hr : r' = r
    · rw [hpc, hr, Function.update_self, hp]
    · rw [hpc, Function.update_of_ne hr]
  have hrefresher : u.slot.refresher = s.slot.refresher := by
    ext r'
    rw [hs.refresher, hu.refresher, hsame]
  have hslot : u.slot = s.slot := OneSlot.Slot.ext hnow hcache hrefresher
  rw [hslot]
  exact .stay

theorem step_refines_slot (hs : LocksOwned s) (h : step cfg s l = some u) :
    OneSlot.Move cfg.fresh s.slot u.slot := by
  have hu := step_locksOwned hs h
  have hrefresher : ∀ {r : ℕ}, (s.pc r).refreshing = true → s.slot.refresher = some r := by
    intro r hr
    exact (hs.refresher r).mpr hr
  cases step_cases h with
  | tick elapsed => exact .pass _ (Nat.le_add_right _ _)
  | stale2 r hpc hstale =>
    have hlock : s.refreshLock = some r := hs.refresh.eq_some (by simp only [hpc]; rfl)
    have hstart : ({ s.goto r .fetchStart with cacheLock := none } : State).slot =
        { s.slot with refresher := some r } := by
      simp [State.slot, State.goto, hlock, Pc.refreshing]
    rw [hstart]
    refine .start r ?_ (stale_slot hstale)
    simp [State.slot, hlock, hpc, Pc.refreshing]
  | install r fetched hpc => exact .store r fetched (hrefresher (by rw [hpc]; rfl))
  | loginError r _ _ hpc | syncError r _ _ _ _ hpc => exact .giveUp r (hrefresher (by rw [hpc]; rfl))
  | drop r hpc =>
    cases hrefreshing : (s.pc r).refreshing with
    | true =>
      have hgiveUp : ({ s.goto r .dropped with
          refreshLock := if (s.pc r).holdsRefresh then none else s.refreshLock } : State).slot =
          { s.slot with refresher := none } := by
        simp [State.slot, State.goto, Pc.refreshing_holdsRefresh hrefreshing]
      rw [hgiveUp]
      exact .giveUp r (hrefresher hrefreshing)
    | false => exact slot_stays hs hu rfl hrefreshing.symm rfl rfl
  | lockCache r pc hfree hpc => exact slot_stays hs hu rfl (Pc.entered_refreshing hpc) rfl rfl
  | call r _ hpc | lockRefresh r _ hpc | hit1 r hpc _ | stale1 r hpc _ | hit2 r hpc _ | beginFetch r hpc
  | loginOk r _ _ hpc | syncOk r _ _ _ _ hpc | read r hpc =>
    exact slot_stays hs hu rfl (by rw [hpc]; rfl) rfl rfl

end Refinement

end VaultwardenEso.Client
