import VaultwardenEso.Lib.Census
import VaultwardenEso.Lib.Counter
import VaultwardenEso.SingleFlight

set_option autoImplicit false

/-!
# What the cache counters count

Every call is counted once, as a hit, a success or a failure, when it is known which it is.
Until then it is open; the calls that are open, fetching or about to write the slot make up
the difference between the counters and what has happened.
-/
namespace VaultwardenEso.Client
open RustStr BwesoCore Crypto Cipher

/-- The call is in `ensure_fresh_cached_sync` and in none of the three counters. -/
def Pc.opened : Pc → Bool
  | .waitCheck1 | .check1 | .waitRefresh | .waitCheck2 | .check2 | .fetchStart | .login _
  | .syncing _ _ => true
  | _ => false

def Pc.storing (pc : Pc) : Bool := pc.fetched.isSome

def Label.isCall : Label → Bool
  | .call _ _ => true
  | _ => false

def Label.isLogin : Label → Bool
  | .beginFetch _ => true
  | _ => false

def Label.isDrop : Label → Bool
  | .drop _ => true
  | _ => false

/-- The call that fails in `ensure_fresh_cached_sync` with the step. -/
def Label.failed : Label → Option ℕ
  | .loginAnswer r (.error _) | .syncAnswer r (.error _) _ => some r
  | _ => none

/-- The counters as numbers, and the calls between two of them. -/
structure Tally where
  hits : ℕ
  successes : ℕ
  failures : ℕ
  opened : ℕ
  fetching : ℕ
  storing : ℕ

structure Tallied (ls : List Label) (s : State) (t : Tally) : Prop where
  hits : s.metrics.cacheHits = UInt64.ofNat t.hits
  successes : s.metrics.refreshSuccesses = UInt64.ofNat t.successes
  failures : s.metrics.refreshFailures = UInt64.ofNat t.failures
  opened : Census.Counts (fun r => (s.pc r).opened) t.opened
  fetching : Census.Counts (fun r => (s.pc r).inFetchVault) t.fetching
  storing : Census.Counts (fun r => (s.pc r).storing) t.storing
  calls : t.hits + t.successes + t.failures + t.opened = ls.countP Label.isCall
  logins : t.successes + t.failures + t.fetching = ls.countP Label.isLogin
  writes : s.writes + t.storing = t.successes
  failed : (ls.filterMap Label.failed).length = t.failures

theorem tallied_initial (start : ℕ) : Tallied [] (State.initial start) ⟨0, 0, 0, 0, 0, 0⟩ where
  hits := rfl
  successes := rfl
  failures := rfl
  opened := Census.counts_none
  fetching := Census.counts_none
  storing := Census.counts_none
  calls := rfl
  logins := rfl
  writes := rfl
  failed := rfl

/-- What a step adds to the counters and to the writes of the slot. -/
structure Effect where
  hits : ℕ
  successes : ℕ
  failures : ℕ
  writes : ℕ

/-- The effect is what the call gains or loses by going from `p` to `p'`. -/
structure Effect.Balances (e : Effect) (l : Label) (p p' : Pc) : Prop where
  calls : e.hits + e.successes + e.failures + p'.opened.toNat = p.opened.toNat + l.isCall.toNat
  logins : e.successes + e.failures + p'.inFetchVault.toNat =
    p.inFetchVault.toNat + l.isLogin.toNat
  writes : e.writes + p'.storing.toNat = p.storing.toNat + e.successes
  failed : l.failed.toList.length = e.failures

structure Effect.Applies (e : Effect) (s u : State) : Prop where
  hits : u.metrics.cacheHits = s.metrics.cacheHits + UInt64.ofNat e.hits
  successes : u.metrics.refreshSuccesses = s.metrics.refreshSuccesses + UInt64.ofNat e.successes
  failures : u.metrics.refreshFailures = s.metrics.refreshFailures + UInt64.ofNat e.failures
  writes : u.writes = s.writes + e.writes

section Steps
variable {cfg : Config} {ls : List Label} {s u : State} {l : Label} {t : Tally}

theorem Tallied.move (ht : Tallied ls s t) {e : Effect} {r : ℕ} {p : Pc}
    (hpc : u.pc = Function.update s.pc r p) (hbalances : e.Balances l (s.pc r) p)
    (happlies : e.Applies s u) : ∃ t', Tallied (ls ++ [l]) u t' := by
  obtain ⟨opened, hopened, hopened'⟩ := ht.opened.move r p.opened
  obtain ⟨fetching, hfetching, hfetching'⟩ := ht.fetching.move r p.inFetchVault
  obtain ⟨storing, hstoring, hstoring'⟩ := ht.storing.move r p.storing
  have hcalls := hbalances.calls
  have hlogins := hbalances.logins
  have hwrites := hbalances.writes
  refine ⟨⟨t.hits + e.hits, t.successes + e.successes, t.failures + e.failures, opened, fetching,
    storing⟩, ?_, ?_, ?_, ?_, ?_, ?_, ?_, ?_, ?_, ?_⟩
  · rw [happlies.hits, ht.hits, UInt64.ofNat_add]
  · rw [happlies.successes, ht.successes, UInt64.ofNat_add]
  · rw [happlies.failures, ht.failures, UInt64.ofNat_add]
  · simp only [hpc, update_pc]
    exact hopened
  · simp only [hpc, update_pc]
    exact hfetching
  · simp only [hpc, update_pc]
    exact hstoring
  · have hbefore := ht.calls
    rw [List.countP_append, ← hbefore]
    have hlabel : [l].countP Label.isCall = l.isCall.toNat := by
      cases h : l.isCall <;> simp [h]
    rw [hlabel]
    dsimp only
    omega
  · have hbefore := ht.logins
    have hlabel : [l].countP Label.isLogin = l.isLogin.toNat := by
      cases h : l.isLogin <;> simp [h]
    rw [List.countP_append, ← hbefore, hlabel]
    dsimp only
    omega
  · have hbefore := ht.writes
    rw [happlies.writes]
    dsimp only
    omega
  · have hlabel : [l].filterMap Label.failed = l.failed.toList := by
      cases h : l.failed <;> simp [h]
    rw [List.filterMap_append, List.length_append, ht.failed, hlabel, hbalances.failed]

theorem applies_none (hmetrics : u.metrics = s.metrics) (hwrites : u.writes = s.writes) :
    (⟨0, 0, 0, 0⟩ : Effect).Applies s u := by
  refine ⟨?_, ?_, ?_, hwrites⟩ <;> rw [hmetrics] <;> exact (UInt64.add_zero _).symm

theorem applies_hit (hmetrics : u.metrics = s.metrics.hit) (hwrites : u.writes = s.writes) :
    (⟨1, 0, 0, 0⟩ : Effect).Applies s u := by
  refine ⟨?_, ?_, ?_, hwrites⟩ <;> rw [hmetrics]
  · rfl
  · exact (UInt64.add_zero _).symm
  · exact (UInt64.add_zero _).symm

theorem applies_success {unixNow : UInt64} (hmetrics : u.metrics = s.metrics.success unixNow)
    (hwrites : u.writes = s.writes) : (⟨0, 1, 0, 0⟩ : Effect).Applies s u := by
  refine ⟨?_, ?_, ?_, hwrites⟩ <;> rw [hmetrics]
  · exact (UInt64.add_zero _).symm
  · rfl
  · exact (UInt64.add_zero _).symm

theorem applies_fail (s : State) (r : ℕ) (error : BitwardenClientError) :
    (⟨0, 0, 1, 0⟩ : Effect).Applies s (s.fail r error) :=
  ⟨(UInt64.add_zero _).symm, (UInt64.add_zero _).symm, rfl, rfl⟩

theorem applies_write (hmetrics : u.metrics = s.metrics) (hwrites : u.writes = s.writes + 1) :
    (⟨0, 0, 0, 1⟩ : Effect).Applies s u := by
  refine ⟨?_, ?_, ?_, hwrites⟩ <;> rw [hmetrics] <;> exact (UInt64.add_zero _).symm

theorem entered_balances {p p' : Pc} {r : ℕ} (h : p.entered = some p') :
    (⟨0, 0, 0, 0⟩ : Effect).Balances (.lockCache r) p p' := by
  cases p <;> cases h <;> exact ⟨rfl, rfl, rfl, rfl⟩

theorem step_tallied (ht : Tallied ls s t) (h : step cfg s l = some u) (hdrop : l.isDrop = false) :
    ∃ t', Tallied (ls ++ [l]) u t' := by
  cases step_cases h with
  | tick elapsed =>
    refine ht.move (r := 0) (Function.update_eq_self 0 s.pc).symm ?_ (applies_none rfl rfl)
    exact ⟨Nat.zero_add _, Nat.zero_add _, Nat.zero_add _, rfl⟩
  | lockCache r pc hfree hpc => exact ht.move rfl (entered_balances hpc) (applies_none rfl rfl)
  | call r selector hpc | lockRefresh r hfree hpc | stale1 r hpc hstale | stale2 r hpc hstale
  | beginFetch r hpc | loginOk r began session hpc | read r hpc =>
    refine ht.move rfl ?_ (applies_none rfl rfl)
    rw [hpc]
    exact ⟨rfl, rfl, rfl, rfl⟩
  | hit1 r hpc hfresh | hit2 r hpc hfresh =>
    refine ht.move rfl ?_ (applies_hit rfl rfl)
    rw [hpc]
    exact ⟨rfl, rfl, rfl, rfl⟩
  | loginError r began error hpc | syncError r began session error unixNow hpc =>
    refine ht.move rfl ?_ (applies_fail s r error)
    rw [hpc]
    exact ⟨rfl, rfl, rfl, rfl⟩
  | syncOk r began session sync unixNow hpc =>
    refine ht.move rfl ?_ (applies_success rfl rfl)
    rw [hpc]
    exact ⟨rfl, rfl, rfl, rfl⟩
  | install r fetched hpc =>
    refine ht.move rfl ?_ (applies_write rfl rfl)
    rw [hpc]
    exact ⟨rfl, rfl, rfl, rfl⟩
  | drop r hpc => cases hdrop

/-! ## The calls that fail -/

def failedCalls (ls : List Label) : List ℕ := ls.filterMap Label.failed

structure FailedOnce (ls : List Label) (s : State) : Prop where
  nodup : (failedCalls ls).Nodup
  finished : ∀ r ∈ failedCalls ls, ∃ error, s.pc r = .finished (.error error)

theorem failedCalls_snoc (ls : List Label) (l : Label) :
    failedCalls (ls ++ [l]) = failedCalls ls ++ l.failed.toList := by
  rw [failedCalls, List.filterMap_append]
  cases h : l.failed <;> simp [h, failedCalls]

theorem Label.failed_eq_some {r : ℕ} (h : l.failed = some r) : ∃ error, FailedAnswer r error l := by
  match l, h with
  | .loginAnswer _ (.error error), rfl => exact ⟨error, .inl rfl⟩
  | .syncAnswer _ (.error error) unixNow, rfl => exact ⟨error, .inr ⟨unixNow, rfl⟩⟩

theorem step_failedAnswer_unfinished {r : ℕ} {error : BitwardenClientError}
    (hl : FailedAnswer r error l) (h : step cfg s l = some u) : (s.pc r).inFetchVault = true := by
  obtain rfl | ⟨unixNow, rfl⟩ := hl
  · cases step_cases h with
    | loginError r began error hpc =>
      rw [hpc]
      rfl
  · cases step_cases h with
    | syncError r began session error unixNow hpc =>
      rw [hpc]
      rfl

theorem step_failedOnce (hs : FailedOnce ls s) (h : step cfg s l = some u) :
    FailedOnce (ls ++ [l]) u := by
  have hstay : ∀ r ∈ failedCalls ls, ∃ error, u.pc r = .finished (.error error) := by
    intro r hr
    obtain ⟨error, hpc⟩ := hs.finished r hr
    exact ⟨error, step_finished hpc h⟩
  cases hfailed : l.failed with
  | none =>
    refine ⟨?_, ?_⟩ <;> rw [failedCalls_snoc, hfailed, Option.toList_none, List.append_nil]
    · exact hs.nodup
    · exact hstay
  | some r =>
    obtain ⟨error, hl⟩ := Label.failed_eq_some hfailed
    have hfetching := step_failedAnswer_unfinished hl h
    have hnew : r ∉ failedCalls ls := by
      intro hr
      obtain ⟨error', hpc⟩ := hs.finished r hr
      rw [hpc] at hfetching
      cases hfetching
    refine ⟨?_, ?_⟩ <;> rw [failedCalls_snoc, hfailed, Option.toList_some]
    · rw [← List.concat_eq_append]
      exact hs.nodup.concat hnew
    · intro r' hr'
      rcases List.mem_append.mp hr' with hr' | hr'
      · exact hstay r' hr'
      · rw [List.mem_singleton.mp hr', step_failedAnswer hl h]
        exact ⟨error, Function.update_self _ _ _⟩

end Steps

section Runs
variable {cfg : Config} {start : ℕ} {ls : List Label} {s : State}

theorem run_tallied (h : Machine.run (step cfg) (State.initial start) ls = some s)
    (hdrop : ∀ l ∈ ls, l.isDrop = false) : ∃ t, Tallied ls s t := by
  revert hdrop
  refine Machine.run_history (P := fun ls s => (∀ l ∈ ls, l.isDrop = false) → ∃ t, Tallied ls s t)
    ?_ ?_ ls s h
  · intro _
    exact ⟨_, tallied_initial start⟩
  · intro ls u l v _ ih hstep hdrop
    obtain ⟨t, ht⟩ := ih (fun l hl => hdrop l (List.mem_append_left _ hl))
    exact step_tallied ht hstep (hdrop l (List.mem_append_right _ (List.mem_singleton_self l)))

theorem run_failedOnce (h : Machine.run (step cfg) (State.initial start) ls = some s) :
    FailedOnce ls s := by
  refine Machine.run_history (P := FailedOnce) ⟨List.nodup_nil, nofun⟩ ?_ ls s h
  intro ls u l v _ hu hstep
  exact step_failedOnce hu hstep

theorem Pc.sections_of_done {p : Pc} (h : p.unfinished = false) :
    p.opened = false ∧ p.inFetchVault = false ∧ p.storing = false := by
  cases p <;> first | (cases h; done) | exact ⟨rfl, rfl, rfl⟩

/-- When no call is in progress the counters account for everything that has happened. -/
theorem cache_counters_are_conserved
    (hrun : Machine.run (step cfg) (State.initial start) ls = some s)
    (hdrop : ∀ l ∈ ls, l.isDrop = false) (hcalls : ls.countP Label.isCall < 2 ^ 64)
    (hdone : ∀ r, (s.pc r).unfinished = false) :
    s.metrics.cacheHits.toNat + s.metrics.refreshSuccesses.toNat +
        s.metrics.refreshFailures.toNat = ls.countP Label.isCall ∧
      s.metrics.refreshSuccesses.toNat + s.metrics.refreshFailures.toNat =
        ls.countP Label.isLogin ∧
      ((failedCalls ls).Nodup ∧ (failedCalls ls).length = s.metrics.refreshFailures.toNat ∧
        ∀ r ∈ failedCalls ls, ∃ error, s.pc r = .finished (.error error)) ∧
      s.metrics.refreshSuccesses.toNat = s.writes := by
  obtain ⟨t, ht⟩ := run_tallied hrun hdrop
  have hopened := ht.opened.eq_zero (fun r => (Pc.sections_of_done (hdone r)).1)
  have hfetching := ht.fetching.eq_zero (fun r => (Pc.sections_of_done (hdone r)).2.1)
  have hstoring := ht.storing.eq_zero (fun r => (Pc.sections_of_done (hdone r)).2.2)
  obtain ⟨hnodup, hfinished⟩ := run_failedOnce hrun
  have hall := ht.calls
  have hlogins := ht.logins
  have hwrites := ht.writes
  have hfailed := ht.failed
  have hhits : s.metrics.cacheHits.toNat = t.hits := by
    rw [ht.hits]
    exact UInt64.toNat_ofNat_of_lt' (Nat.lt_of_le_of_lt (by omega) hcalls)
  have hsuccesses : s.metrics.refreshSuccesses.toNat = t.successes := by
    rw [ht.successes]
    exact UInt64.toNat_ofNat_of_lt' (Nat.lt_of_le_of_lt (by omega) hcalls)
  have hfailures : s.metrics.refreshFailures.toNat = t.failures := by
    rw [ht.failures]
    exact UInt64.toNat_ofNat_of_lt' (Nat.lt_of_le_of_lt (by omega) hcalls)
  rw [hhits, hsuccesses, hfailures]
  exact ⟨by omega, by omega, ⟨hnodup, hfailed, hfinished⟩, by omega⟩

end Runs

def sampleHit : List Label :=
  sampleRun ++ [.read 0, .call 1 sampleSelector, .lockCache 1, .check 1, .lockCache 1, .read 1]

theorem sampleHit_is_counted : ∃ s,
    Machine.run (step sampleConfig) (State.initial 0) sampleHit = some s ∧
      s.metrics.cacheHits.toNat + s.metrics.refreshSuccesses.toNat +
        s.metrics.refreshFailures.toNat = 2 ∧ s.metrics.refreshSuccesses.toNat = s.writes := by
  have hrun : ∃ s, Machine.run (step sampleConfig) (State.initial 0) sampleHit = some s ∧
      ∀ r, (s.pc r).unfinished = false := by
    refine ⟨_, rfl, ?_⟩
    intro r
    match r with
    | 0 => rfl
    | 1 => rfl
    | r + 2 => rfl
  obtain ⟨s, hs, hdone⟩ := hrun
  obtain ⟨hall, -, -, hwrites⟩ := cache_counters_are_conserved hs (by decide) (by decide) hdone
  exact ⟨s, hs, hall, hwrites⟩

end VaultwardenEso.Client
