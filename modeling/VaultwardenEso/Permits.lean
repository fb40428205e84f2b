import VaultwardenEso.Lib.Census
import VaultwardenEso.Server

set_option autoImplicit false

/-!
# The permits of `/v1/resolve`

A permit is a local of the handler: it is taken after the token is checked, and goes back
wherever the handler ends, at a return or at the await where its future is dropped.
-/
namespace VaultwardenEso.Provider
open RustStr BwesoCore Client

/-- The semaphore that a limit asks for; a limit of zero asks for none. -/
def resolveSemaphore (limit : UInt32) : Option ℕ := if limit > 0 then some limit.toNat else none

def Phase.holdsPermit : Phase → Bool
  | .permitted | .awaitingBody | .selected _ | .admitted _ | .calling _ => true
  | .absent | .arrived | .authorized | .responded _ | .dropped => false

def Server.inside (s : Server) (r : ℕ) : Bool := (s.phase r).holdsPermit

/-- As many requests as the limit allows are inside. -/
def Server.Full (limit : UInt32) (s : Server) : Prop :=
  limit ≠ 0 ∧ Census.Counts s.inside limit.toNat

theorem resolveSemaphore_zero : resolveSemaphore 0 = none := rfl

theorem resolveSemaphore_pos {limit : UInt32} (h : limit ≠ 0) :
    resolveSemaphore limit = some limit.toNat := by
  refine if_pos (UInt32.lt_iff_toNat_lt.mpr ?_)
  refine Nat.pos_of_ne_zero ?_
  intro hzero
  exact h (UInt32.toNat_inj.mp hzero)

theorem handle_permits {cfg : ServerConfig} {r : ℕ} {core : Core} {phase : Phase} {action : Action}
    {outcome : Outcome} (h : handle cfg r core phase action = some outcome) :
    outcome.core.permits.map (· + outcome.phase.holdsPermit.toNat) =
      core.permits.map (· + phase.holdsPermit.toNat) := by
  have hrelease : (core.permits.map (· + 1)).map (· + 0) = core.permits.map (· + 1) := by
    rw [Option.map_map]
    rfl
  cases handle_cases h with
  | unlimited hnone => simp [Outcome.go, hnone]
  | permitted n hfree => simp [Outcome.go, hfree, Phase.holdsPermit]
  | notJson | malformed | denied | document | error | dropBody | dropCall => exact hrelease
  | _ => rfl

theorem step_permits {cfg : ServerConfig} {s u : Server} {l : Label} (h : step cfg s l = some u) :
    ∃ r phase, u.phase = Function.update s.phase r phase ∧
      u.core.permits.map (· + phase.holdsPermit.toNat) =
        s.core.permits.map (· + (s.phase r).holdsPermit.toNat) := by
  cases server_cases h with
  | arrive r habsent =>
    refine ⟨r, .arrived, rfl, ?_⟩
    rw [habsent]
    rfl
  | act r action outcome houtcome => exact ⟨r, outcome.phase, rfl, handle_permits houtcome⟩
  | tick | reload => exact ⟨0, s.phase 0, (Function.update_eq_self _ _).symm, rfl⟩

/-- The requests inside and the free permits make up the semaphore. -/
def Server.Conserves (permits : Option ℕ) (s : Server) : Prop :=
  ∃ inside, Census.Counts s.inside inside ∧ s.core.permits.map (· + inside) = permits

theorem step_conserves {cfg : ServerConfig} {permits : Option ℕ} {s u : Server} {l : Label}
    (hs : s.Conserves permits) (h : step cfg s l = some u) : u.Conserves permits := by
  obtain ⟨inside, hcount, rfl⟩ := hs
  obtain ⟨r, phase, hphase, hpermits⟩ := step_permits h
  obtain ⟨inside', hcount', hmoved⟩ := hcount.move r phase.holdsPermit
  refine ⟨inside', ?_, ?_⟩
  · have hinside : u.inside = Function.update s.inside r phase.holdsPermit := by
      funext r'
      rw [Server.inside, hphase]
      exact congrFun (Function.comp_update Phase.holdsPermit s.phase r phase) r'
    rw [hinside]
    exact hcount'
  · have hself : s.inside r = (s.phase r).holdsPermit := rfl
    rw [hself] at hmoved
    cases hold : s.core.permits with
    | none =>
      rw [hold, Option.map_none, Option.map_eq_none_iff] at hpermits
      rw [hpermits]
      rfl
    | some free =>
      rw [hold, Option.map_some, Option.map_eq_some_iff] at hpermits
      obtain ⟨free', hfree', hsum⟩ := hpermits
      rw [hfree', Option.map_some, Option.map_some]
      congr 1
      omega

theorem reachable_conserves {cfg : ServerConfig} {now : ℕ} {policy : SelectorPolicy}
    {permits : Option ℕ} {s : Server}
    (h : Machine.Reachable (step cfg) (.initial now policy permits) s) : s.Conserves permits := by
  refine h.invariant ⟨0, Census.counts_none, ?_⟩ (fun _ _ _ hs hstep => step_conserves hs hstep)
  cases permits <;> rfl

theorem reachable_justified {cfg : ServerConfig} {now : ℕ} {policy : SelectorPolicy}
    {permits : Option ℕ} {s : Server}
    (h : Machine.Reachable (step cfg) (.initial now policy permits) s) (r : ℕ) :
    (s.phase r).Justified cfg r := by
  refine h.invariant (I := fun s => (s.phase r).Justified cfg r) trivial ?_
  intro s l u hs hstep
  by_cases hmover : l.request = some r
  · cases server_cases hstep with
    | arrive r' habsent =>
      cases hmover
      simp [Phase.Justified]
    | act r' action outcome houtcome =>
      cases hmover
      simp only [Server.take, Function.update_self]
      exact handle_justified hs houtcome
    | tick | reload => cases hmover
  · rw [step_phase hstep hmover]
    exact hs

theorem Phase.Justified.authorized {cfg : ServerConfig} {r : ℕ} {phase : Phase}
    (h : phase.Justified cfg r) (hholds : phase.holdsPermit = true) : cfg.authorized r = true := by
  cases phase with
  | permitted => exact h
  | awaitingBody | selected selector | admitted selector | calling selector => exact h.1
  | absent | arrived | authorized | responded response | dropped => cases hholds

theorem handle_acquire {cfg : ServerConfig} {r : ℕ} {core : Core} {phase : Phase}
    {outcome : Outcome} (h : handle cfg r core phase .acquire = some outcome) :
    (core.permits = none ∧ outcome.phase = .permitted) ∨
      (core.permits = some 0 ∧
        outcome.phase = .responded (publicError .serviceUnavailable .overloaded)) ∨
      ∃ free, core.permits = some (free + 1) ∧ outcome.phase = .permitted := by
  cases handle_cases h with
  | unlimited hnone => exact .inl ⟨hnone, rfl⟩
  | overloaded hzero => exact .inr (.inl ⟨hzero, rfl⟩)
  | permitted free hfree => exact .inr (.inr ⟨free, hfree, rfl⟩)

theorem permits_of_sum {permits : Option ℕ} {limit : UInt32} {inside : ℕ}
    (h : permits.map (· + inside) = resolveSemaphore limit) :
    limit = 0 ∧ permits = none ∨ limit ≠ 0 ∧ ∃ free, permits = some free ∧ free + inside = limit.toNat := by
  by_cases hlimit : limit = 0
  · rw [hlimit, resolveSemaphore_zero, Option.map_eq_none_iff] at h
    exact .inl ⟨hlimit, h⟩
  · rw [resolveSemaphore_pos hlimit, Option.map_eq_some_iff] at h
    exact .inr ⟨hlimit, h⟩

/-- In the states of all runs, whatever is answered or dropped in between: no permit is lost
and none is made up, only authorized requests hold one, and a request that asks for one is
turned away exactly when the limit is inside. -/
theorem permits_are_conserved (cfg : ServerConfig) (now : ℕ) (policy : SelectorPolicy)
    (limit : UInt32) (s : Server)
    (h : Machine.Reachable (step cfg) (.initial now policy (resolveSemaphore limit)) s) :
    (∃ inside, Census.Counts s.inside inside ∧
      (limit = 0 ∧ s.core.permits = none ∨
        limit ≠ 0 ∧ ∃ free, s.core.permits = some free ∧ free + inside = limit.toNat)) ∧
    (∀ r, s.inside r = true → cfg.authorized r = true) ∧
    ∀ r u, step cfg s (.act r .acquire) = some u →
      (u.phase r = .permitted ∧ ¬ s.Full limit) ∨
        (u.phase r = .responded (publicError .serviceUnavailable .overloaded) ∧ s.Full limit) := by
  obtain ⟨inside, hcount, hsum⟩ := reachable_conserves h
  refine ⟨⟨inside, hcount, permits_of_sum hsum⟩, ?_, ?_⟩
  · intro r hr
    exact (reachable_justified h r).authorized hr
  · intro r u hstep
    obtain ⟨outcome, houtcome, rfl⟩ := Option.map_eq_some_iff.mp hstep
    simp only [Server.take, Function.update_self]
    obtain ⟨hnone, hphase⟩ | ⟨hzero, hphase⟩ | ⟨free, hfree, hphase⟩ := handle_acquire houtcome
    · refine .inl ⟨hphase, ?_⟩
      rintro ⟨hlimit, -⟩
      rw [hnone, Option.map_none, resolveSemaphore_pos hlimit] at hsum
      cases hsum
    · refine .inr ⟨hphase, ?_⟩
      obtain ⟨-, hnone⟩ | ⟨hlimit, free, hfree, hall⟩ := permits_of_sum hsum
      · rw [hzero] at hnone
        cases hnone
      · obtain rfl : 0 = free := Option.some.inj (hzero.symm.trans hfree)
        rw [Nat.zero_add] at hall
        rw [hall] at hcount
        exact ⟨hlimit, hcount⟩
    · refine .inl ⟨hphase, ?_⟩
      rintro ⟨hlimit, hfull⟩
      have hinside : inside = limit.toNat := hcount.unique hfull
      rw [hfree, resolveSemaphore_pos hlimit] at hsum
      have hall : free + 1 + inside = limit.toNat := Option.some.inj hsum
      omega

def sampleCrowd : List Label :=
  [.arrive 1, .arrive 2, .act 1 .authenticate, .act 2 .authenticate, .act 1 .acquire]

theorem second_request_is_shed : ∃ s u,
    Machine.run (step sampleServerConfig) (.initial 0 sampleServerPolicy (resolveSemaphore 1))
      sampleCrowd = some s ∧
    step sampleServerConfig s (.act 2 .acquire) = some u ∧
      u.phase 2 = .responded (publicError .serviceUnavailable .overloaded) ∧ s.Full 1 := by
  have hrun : ∃ s u, Machine.run (step sampleServerConfig)
      (.initial 0 sampleServerPolicy (resolveSemaphore 1)) sampleCrowd = some s ∧
      step sampleServerConfig s (.act 2 .acquire) = some u ∧ u.phase 2 ≠ .permitted := by
    refine ⟨_, _, rfl, rfl, ?_⟩
    nofun
  obtain ⟨s, u, hs, hu, hnot⟩ := hrun
  obtain ⟨-, -, hacquire⟩ := permits_are_conserved sampleServerConfig 0 sampleServerPolicy 1 s
    ⟨sampleCrowd, hs⟩
  obtain ⟨hpermitted, -⟩ | ⟨hshed, hfull⟩ := hacquire 2 u hu
  · exact absurd hpermitted hnot
  · exact ⟨s, u, hs, hu, hshed, hfull⟩

end VaultwardenEso.Provider
