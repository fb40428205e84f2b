import VaultwardenEso.CachedVault
import VaultwardenEso.Lib.Lock
import VaultwardenEso.Lib.Machine

set_option autoImplicit false

/-!
# Concurrent calls of `resolve_with_cached_sync`

A call is cut at its await points and at its critical sections. A label names the
call that moves and what the outside answers: the two upstream responses, the wall
clock, the time that passes, and which future is dropped.
-/
namespace VaultwardenEso.Client
open RustStr BwesoCore Crypto Cipher

structure Config where
  primitives : Primitives
  ttl : ℕ
  /-- The latest instant that the platform represents. -/
  latest : ℕ

/-- A fetched vault. The code keeps `vault`; the rest is history: how many calls had started
when the fetch began, and the time that was recorded for it. -/
structure Fetched where
  vault : CachedVault
  began : ℕ
  recorded : UInt64
  deriving DecidableEq

/-- Where a call stands; `wait…` is an await on one of the two locks. -/
inductive Pc where
  | idle
  | waitCheck1
  | check1
  | waitRefresh
  | waitCheck2
  | check2
  | fetchStart
  | login (began : ℕ)
  | syncing (began : ℕ) (session : BitwardenSession)
  | waitInstall (fetched : Fetched)
  | install (fetched : Fetched)
  | waitRead
  | read
  | finished (result : Except BitwardenClientError SecretDocument)
  | dropped

/-- The critical sections of the cache lock. -/
def Pc.holdsCache : Pc → Bool
  | .check1 | .check2 | .install _ | .read => true
  | _ => false

/-- From the lock of `_guard` to the end of `ensure_fresh_cached_sync`. -/
def Pc.holdsRefresh : Pc → Bool
  | .waitCheck2 | .check2 | .fetchStart | .login _ | .syncing _ _ | .waitInstall _ | .install _ => true
  | _ => false

/-- The await points: here, and only here, the future can be dropped. -/
def Pc.awaiting : Pc → Bool
  | .waitCheck1 | .waitRefresh | .waitCheck2 | .login _ | .syncing _ _ | .waitInstall _ | .waitRead => true
  | _ => false

/-- The section entered when the cache lock is obtained. -/
def Pc.entered : Pc → Option Pc
  | .waitCheck1 => some .check1
  | .waitCheck2 => some .check2
  | .waitInstall fetched => some (.install fetched)
  | .waitRead => some .read
  | _ => none

/-- The selector of a call, and as history when it started and how many calls had before it. -/
structure Call where
  selector : BitwardenSelector
  startedAt : ℕ
  number : ℕ

/-- The client with all its calls. `started` and `writes` count the calls that have started and
the writes of the cache slot; they are history. -/
structure State where
  now : ℕ
  cache : Option Fetched
  cacheLock : Option ℕ
  refreshLock : Option ℕ
  metrics : CacheMetricState
  pc : ℕ → Pc
  call : ℕ → Call
  started : ℕ
  writes : ℕ

def State.initial (now : ℕ) : State :=
  { now, cache := none, cacheLock := none, refreshLock := none, metrics := .default
    pc := fun _ => .idle, call := fun _ => ⟨⟨[], none⟩, 0, 0⟩, started := 0, writes := 0 }

inductive Label where
  | tick (elapsed : ℕ)
  | call (r : ℕ) (selector : BitwardenSelector)
  | lockCache (r : ℕ)
  | lockRefresh (r : ℕ)
  | check (r : ℕ)
  | beginFetch (r : ℕ)
  | loginAnswer (r : ℕ) (answer : Except BitwardenClientError BitwardenSession)
  | syncAnswer (r : ℕ) (answer : Except BitwardenClientError SyncResponse) (unixNow : UInt64)
  | install (r : ℕ)
  | read (r : ℕ)
  | drop (r : ℕ)

def State.goto (s : State) (r : ℕ) (pc : Pc) : State := { s with pc := Function.update s.pc r pc }

def State.hasFreshCache (cfg : Config) (s : State) : Bool :=
  s.cache.any (fun cached => cached.vault.isFreshAt cfg.ttl s.now)

def State.fail (s : State) (r : ℕ) (error : BitwardenClientError) : State :=
  { s.goto r (.finished (.error error)) with refreshLock := none, metrics := s.metrics.failure }

def step (cfg : Config) (s : State) : Label → Option State
  | .tick elapsed =>
    if s.now + elapsed ≤ cfg.latest then some { s with now := s.now + elapsed } else none
  | .call r selector => match s.pc r with
    | .idle => some { s.goto r .waitCheck1 with
        call := Function.update s.call r ⟨selector, s.now, s.started⟩, started := s.started + 1 }
    | _ => none
  | .lockCache r => match s.cacheLock, (s.pc r).entered with
    | none, some pc => some { s.goto r pc with cacheLock := some r }
    | _, _ => none
  | .lockRefresh r => match s.refreshLock, s.pc r with
    | none, .waitRefresh => some { s.goto r .waitCheck2 with refreshLock := some r }
    | _, _ => none
  | .check r => match s.pc r, s.hasFreshCache cfg with
    | .check1, true => some { s.goto r .waitRead with cacheLock := none, metrics := s.metrics.hit }
    | .check1, false => some { s.goto r .waitRefresh with cacheLock := none }
    | .check2, true => some { s.goto r .waitRead with
        cacheLock := none, refreshLock := none, metrics := s.metrics.hit }
    | .check2, false => some { s.goto r .fetchStart with cacheLock := none }
    | _, _ => none
  | .beginFetch r => match s.pc r with
    | .fetchStart => some (s.goto r (.login s.started))
    | _ => none
  | .loginAnswer r answer => match s.pc r, answer with
    | .login began, .ok session => some (s.goto r (.syncing began session))
    | .login _, .error error => some (s.fail r error)
    | _, _ => none
  | .syncAnswer r answer unixNow => match s.pc r, answer with
    | .syncing began session, .ok sync =>
      let fetched : Fetched := ⟨CachedVault.new cfg.latest session sync s.now, began, unixNow⟩
      -- the counters move before the await on the cache lock
      some { s.goto r (.waitInstall fetched) with metrics := s.metrics.success unixNow }
    | .syncing _ _, .error error => some (s.fail r error)
    | _, _ => none
  | .install r => match s.pc r with
    | .install fetched => some { s.goto r .waitRead with
        cache := some fetched, cacheLock := none, refreshLock := none, writes := s.writes + 1 }
    | _ => none
  | .read r => match s.pc r with
    | .read =>
      let result := readCache cfg.primitives (s.cache.map (·.vault)) (s.call r).selector
      some { s.goto r (.finished result) with cacheLock := none }
    | _ => none
  | .drop r => if (s.pc r).awaiting then some { s.goto r .dropped with
      refreshLock := if (s.pc r).holdsRefresh then none else s.refreshLock } else none

/-- What a step can do, one constructor a branch. -/
inductive Step (cfg : Config) (s : State) : Label → State → Prop
  | tick (elapsed : ℕ) : Step cfg s (.tick elapsed) { s with now := s.now + elapsed }
  | call (r : ℕ) (selector : BitwardenSelector) (h : s.pc r = .idle) :
    Step cfg s (.call r selector) { s.goto r .waitCheck1 with
      call := Function.update s.call r ⟨selector, s.now, s.started⟩, started := s.started + 1 }
  | lockCache (r : ℕ) (pc : Pc) (hfree : s.cacheLock = none) (h : (s.pc r).entered = some pc) :
    Step cfg s (.lockCache r) { s.goto r pc with cacheLock := some r }
  | lockRefresh (r : ℕ) (hfree : s.refreshLock = none) (h : s.pc r = .waitRefresh) :
    Step cfg s (.lockRefresh r) { s.goto r .waitCheck2 with refreshLock := some r }
  | hit1 (r : ℕ) (h : s.pc r = .check1) (hfresh : s.hasFreshCache cfg = true) :
    Step cfg s (.check r) { s.goto r .waitRead with cacheLock := none, metrics := s.metrics.hit }
  | stale1 (r : ℕ) (h : s.pc r = .check1) (hstale : s.hasFreshCache cfg = false) :
    Step cfg s (.check r) { s.goto r .waitRefresh with cacheLock := none }
  | hit2 (r : ℕ) (h : s.pc r = .check2) (hfresh : s.hasFreshCache cfg = true) :
    Step cfg s (.check r) { s.goto r .waitRead with
      cacheLock := none, refreshLock := none, metrics := s.metrics.hit }
  | stale2 (r : ℕ) (h : s.pc r = .check2) (hstale : s.hasFreshCache cfg = false) :
    Step cfg s (.check r) { s.goto r .fetchStart with cacheLock := none }
  | beginFetch (r : ℕ) (h : s.pc r = .fetchStart) :
    Step cfg s (.beginFetch r) (s.goto r (.login s.started))
  | loginOk (r began : ℕ) (session : BitwardenSession) (h : s.pc r = .login began) :
    Step cfg s (.loginAnswer r (.ok session)) (s.goto r (.syncing began session))
  | loginError (r began : ℕ) (error : BitwardenClientError) (h : s.pc r = .login began) :
    Step cfg s (.loginAnswer r (.error error)) (s.fail r error)
  | syncOk (r began : ℕ) (session : BitwardenSession) (sync : SyncResponse) (unixNow : UInt64)
      (h : s.pc r = .syncing began session) :
    Step cfg s (.syncAnswer r (.ok sync) unixNow) { s.goto r (.waitInstall
        ⟨CachedVault.new cfg.latest session sync s.now, began, unixNow⟩) with
      metrics := s.metrics.success unixNow }
  | syncError (r began : ℕ) (session : BitwardenSession) (error : BitwardenClientError)
      (unixNow : UInt64) (h : s.pc r = .syncing began session) :
    Step cfg s (.syncAnswer r (.error error) unixNow) (s.fail r error)
  | install (r : ℕ) (fetched : Fetched) (h : s.pc r = .install fetched) :
    Step cfg s (.install r) { s.goto r .waitRead with
      cache := some fetched, cacheLock := none, refreshLock := none, writes := s.writes + 1 }
  | read (r : ℕ) (h : s.pc r = .read) :
    Step cfg s (.read r) { s.goto r (.finished
      (readCache cfg.primitives (s.cache.map (·.vault)) (s.call r).selector)) with cacheLock := none }
  | drop (r : ℕ) (h : (s.pc r).awaiting = true) :
    Step cfg s (.drop r) { s.goto r .dropped with
      refreshLock := if (s.pc r).holdsRefresh then none else s.refreshLock }

theorem step_cases {cfg : Config} {s u : State} {l : Label} (h : step cfg s l = some u) :
    Step cfg s l u := by
  unfold step at h
  split at h
  · split at h <;> cases h
    exact .tick _
  · split at h <;> cases h
    exact .call _ _ ‹_›
  · split at h <;> cases h
    exact .lockCache _ _ ‹_› ‹_›
  · split at h <;> cases h
    exact .lockRefresh _ ‹_› ‹_›
  · split at h <;> cases h
    · exact .hit1 _ ‹_› ‹_›
    · exact .stale1 _ ‹_› ‹_›
    · exact .hit2 _ ‹_› ‹_›
    · exact .stale2 _ ‹_› ‹_›
  · split at h <;> cases h
    exact .beginFetch _ ‹_›
  · split at h <;> cases h
    · exact .loginOk _ _ _ ‹_›
    · exact .loginError _ _ _ ‹_›
  · split at h <;> cases h
    · exact .syncOk _ _ _ _ _ ‹_›
    · exact .syncError _ _ _ _ _ ‹_›
  · split at h <;> cases h
    exact .install _ _ ‹_›
  · split at h <;> cases h
    exact .read _ ‹_›
  · split at h <;> cases h
    exact .drop _ ‹_›

def Label.caller : Label → Option ℕ
  | .tick _ => none
  | .call r _ | .lockCache r | .lockRefresh r | .check r | .beginFetch r | .loginAnswer r _
  | .syncAnswer r _ _ | .install r | .read r | .drop r => some r

theorem step_frame {cfg : Config} {s u : State} {l : Label} {w : ℕ} (h : step cfg s l = some u)
    (hne : l.caller ≠ some w) : u.pc w = s.pc w ∧ u.call w = s.call w := by
  have hother : ∀ {r : ℕ}, some r ≠ some w → w ≠ r := by
    intro r h heq
    exact h (congrArg some heq.symm)
  cases step_cases h with
  | tick elapsed => exact ⟨rfl, rfl⟩
  | call r selector hpc =>
    exact ⟨Function.update_of_ne (hother hne) _ _, Function.update_of_ne (hother hne) _ _⟩
  | _ => exact ⟨Function.update_of_ne (hother hne) _ _, rfl⟩

theorem step_call {cfg : Config} {s u : State} {l : Label} {w : ℕ} (h : step cfg s l = some u)
    (hstarted : s.pc w ≠ .idle) : u.call w = s.call w := by
  by_cases hmover : l.caller = some w
  · cases step_cases h with
    | call r selector hpc =>
      cases hmover
      exact absurd hpc hstarted
    | _ => rfl
  · exact (step_frame h hmover).2

/-! ## The two locks -/

structure LocksOwned (s : State) : Prop where
  cache : Lock.Owned s.cacheLock (fun r => (s.pc r).holdsCache)
  refresh : Lock.Owned s.refreshLock (fun r => (s.pc r).holdsRefresh)

theorem update_pc (pc : ℕ → Pc) (r : ℕ) (p : Pc) (f : Pc → Bool) :
    (fun r' => f (Function.update pc r p r')) = Function.update (fun r' => f (pc r')) r (f p) :=
  Function.comp_update f pc r p

theorem locksOwned_initial (now : ℕ) : LocksOwned (State.initial now) := by
  constructor
  · exact Lock.owned_none
  · exact Lock.owned_none

theorem entered_holds {p p' : Pc} (h : p.entered = some p') :
    p.holdsCache = false ∧ p'.holdsCache = true ∧ p'.holdsRefresh = p.holdsRefresh := by
  cases p <;> cases h <;> exact ⟨rfl, rfl, rfl⟩

theorem awaiting_not_holdsCache {p : Pc} (h : p.awaiting = true) : p.holdsCache = false := by
  cases p <;> first | rfl | cases h

theorem step_locksOwned {cfg : Config} {s u : State} {l : Label} (hs : LocksOwned s)
    (h : step cfg s l = some u) : LocksOwned u := by
  obtain ⟨hcache, hrefresh⟩ := hs
  constructor
  · cases step_cases h with
    | tick elapsed => exact hcache
    | lockCache r pc hfree hpc =>
      simp only [State.goto, update_pc, (entered_holds hpc).2.1]
      rw [hfree] at hcache
      exact hcache.acquire
    | hit1 r hpc hfresh | stale1 r hpc hstale | hit2 r hpc hfresh | stale2 r hpc hstale
    | install r fetched hpc | read r hpc =>
      simp only [State.goto, update_pc]
      exact hcache.release (by simp only [hpc]; rfl)
    | drop r hpc =>
      simp only [State.goto, update_pc]
      exact hcache.keep (awaiting_not_holdsCache hpc)
    | call r _ hpc | lockRefresh r _ hpc | beginFetch r hpc | loginOk r _ _ hpc | loginError r _ _ hpc
    | syncOk r _ _ _ _ hpc | syncError r _ _ _ _ hpc =>
      simp only [State.fail, State.goto, update_pc]
      exact hcache.keep (by simp only [hpc]; rfl)
  · cases step_cases h with
    | tick elapsed => exact hrefresh
    | lockRefresh r hfree hpc =>
      simp only [State.goto, update_pc]
      rw [hfree] at hrefresh
      exact hrefresh.acquire
    | hit2 r hpc _ | loginError r _ _ hpc | syncError r _ _ _ _ hpc | install r _ hpc =>
      simp only [State.fail, State.goto, update_pc]
      exact hrefresh.release (by simp only [hpc]; rfl)
    | lockCache r pc _ hpc =>
      simp only [State.goto, update_pc]
      exact hrefresh.keep (entered_holds hpc).2.2.symm
    | drop r hpc =>
      simp only [State.goto, update_pc]
      by_cases hheld : (s.pc r).holdsRefresh = true
      · rw [if_pos hheld]
        exact hrefresh.release hheld
      · rw [if_neg hheld]
        rw [Bool.not_eq_true] at hheld
        exact hrefresh.keep hheld
    | call r _ hpc | hit1 r hpc _ | stale1 r hpc _ | stale2 r hpc _ | beginFetch r hpc | loginOk r _ _ hpc
    | syncOk r _ _ _ _ hpc | read r hpc =>
      simp only [State.goto, update_pc]
      exact hrefresh.keep (by simp only [hpc]; rfl)

end VaultwardenEso.Client
