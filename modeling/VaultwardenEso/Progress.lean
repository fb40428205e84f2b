import VaultwardenEso.Confinement
import VaultwardenEso.Permits

set_option autoImplicit false

/-!
# Every request ends

Each move of a handler lowers the rank of its request, and while a request is in progress
some handler can move: so without new arrivals the moves run out, in any order, and then all
requests have ended.
-/
namespace VaultwardenEso.Client
open BwesoCore

/-- How many steps a call may still take. -/
def Pc.rank : Pc → ℕ
  | .waitCheck1 => 12
  | .check1 => 11
  | .waitRefresh => 10
  | .waitCheck2 => 9
  | .check2 => 8
  | .fetchStart => 7
  | .login _ => 6
  | .syncing _ _ => 5
  | .waitInstall _ => 4
  | .install _ => 3
  | .waitRead => 2
  | .read => 1
  | .idle | .finished _ | .dropped => 0

theorem Pc.rank_le (p : Pc) : p.rank ≤ 12 := by
  cases p <;> simp [rank]

theorem Pc.rank_entered {p p' : Pc} (h : p.entered = some p') : p'.rank < p.rank := by
  cases p <;> cases h <;> simp [rank]

theorem step_rank {cfg : Config} {s u : State} {l : Label} {r : ℕ} (h : step cfg s l = some u)
    (hl : l.advances = some r) : (u.pc r).rank < (s.pc r).rank := by
  cases step_cases h with
  | tick elapsed | call r' selector hpc | drop r' hpc => cases hl
  | lockCache r' pc hfree hpc =>
    cases hl
    simp only [State.goto, Function.update_self]
    exact Pc.rank_entered hpc
  | lockRefresh r' hfree hpc | hit1 r' hpc hfresh | stale1 r' hpc hstale | hit2 r' hpc hfresh
  | stale2 r' hpc hstale | beginFetch r' hpc | loginOk r' began session hpc
  | loginError r' began error hpc | syncOk r' began session sync unixNow hpc
  | syncError r' began session error unixNow hpc | install r' fetched hpc | read r' hpc =>
    cases hl
    simp [State.goto, State.fail, Pc.rank, hpc]

theorem step_not_dropped {cfg : Config} {s u : State} {l : Label} {r : ℕ}
    (h : step cfg s l = some u) (hl : l.advances = some r) : u.pc r ≠ .dropped := by
  cases step_cases h with
  | tick elapsed | call r' selector hpc | drop r' hpc => cases hl
  | lockCache r' pc hfree hpc =>
    cases hl
    simp only [State.goto, Function.update_self]
    intro hdropped
    rw [hdropped] at hpc
    cases hp : s.pc r <;> rw [hp] at hpc <;> cases hpc
  | lockRefresh r' hfree hpc | hit1 r' hpc hfresh | stale1 r' hpc hstale | hit2 r' hpc hfresh
  | stale2 r' hpc hstale | beginFetch r' hpc | loginOk r' began session hpc
  | loginError r' began error hpc | syncOk r' began session sync unixNow hpc
  | syncError r' began session error unixNow hpc | install r' fetched hpc | read r' hpc =>
    cases hl
    simp [State.goto, State.fail]

end VaultwardenEso.Client

namespace VaultwardenEso.Provider
open RustStr BwesoCore Client

def Phase.inProgress : Phase → Bool
  | .absent | .responded _ | .dropped => false
  | .arrived | .authorized | .permitted | .awaitingBody | .selected _ | .admitted _ | .calling _ =>
    true

/-- How many moves a handler may still make, with its call at `pc`. -/
def Phase.rank (pc : Pc) : Phase → ℕ
  | .arrived => 19
  | .authorized => 18
  | .permitted => 17
  | .awaitingBody => 16
  | .selected _ => 15
  | .admitted _ => 14
  | .calling _ => pc.rank + 1
  | .absent | .responded _ | .dropped => 0

theorem Phase.rank_le (pc : Pc) (phase : Phase) : phase.rank pc ≤ 19 := by
  cases phase with
  | calling selector =>
    have hpc := pc.rank_le
    simp only [rank]
    omega
  | _ => simp [rank]

theorem handle_rank {cfg : ServerConfig} {r : ℕ} {core : Core} {phase : Phase} {action : Action}
    {outcome : Outcome} (h : handle cfg r core phase action = some outcome) :
    outcome.phase.rank (outcome.core.client.pc r) < phase.rank (core.client.pc r) := by
  cases handle_cases h with
  | call selector client hclient =>
    have hpc := (client.pc r).rank_le
    simp only [Outcome.go, Phase.rank]
    omega
  | provider selector l client hl hclient =>
    have hrank := step_rank hclient hl
    simp only [Outcome.go, Phase.rank]
    omega
  | _ => simp [Outcome.go, Outcome.refuse, Phase.rank]

/-! ## The call of a request -/

/-- Where the call of a request stands, phase by phase. -/
def Phase.Placed (pc : Pc) : Phase → Prop
  | .absent | .arrived | .authorized | .permitted | .awaitingBody | .selected _ | .admitted _ =>
    pc = .idle
  | .calling _ => pc ≠ .idle ∧ pc ≠ .dropped
  | .responded _ | .dropped => pc.unfinished = false

theorem Phase.Placed.refused {pc : Pc} {phase : Phase} (h : phase.Placed pc)
    (hcalling : ∀ selector, phase ≠ .calling selector) : pc.unfinished = false := by
  cases phase with
  | calling selector => exact absurd rfl (hcalling selector)
  | responded response | dropped => exact h
  | _ =>
    rw [show pc = .idle from h]
    rfl

theorem handle_placed {cfg : ServerConfig} {r : ℕ} {core : Core} {phase : Phase} {action : Action}
    {outcome : Outcome} (hphase : phase.Placed (core.client.pc r))
    (h : handle cfg r core phase action = some outcome) :
    outcome.phase.Placed (outcome.core.client.pc r) := by
  have hidle : ∀ {p : Pc}, p = .idle → p.unfinished = false := by
    rintro p rfl
    rfl
  cases handle_cases h with
  | unauthorized | overloaded | notJson | malformed | denied | dropArrived | dropBody =>
    exact hidle hphase
  | call selector client hclient =>
    cases step_cases hclient with
    | call _ _ _ => simp [Outcome.go, Phase.Placed, State.goto]
  | provider selector l client hl hclient =>
    exact ⟨step_started hclient hphase.1, step_not_dropped hclient hl⟩
  | document selector document hfinished =>
    simp [Phase.Placed, Core.release, hfinished, Pc.unfinished]
  | error selector error hfinished =>
    simp [Phase.Placed, Outcome.refuse, Core.release, hfinished, Pc.unfinished]
  | dropCall selector client hclient =>
    cases step_cases hclient with
    | drop _ _ => simp [Outcome.go, Core.release, Phase.Placed, State.goto, Pc.unfinished]
  | _ => exact hphase

theorem step_placed {cfg : ServerConfig} {s u : Server} {l : Label} (h : step cfg s l = some u)
    (hs : ∀ r, (s.phase r).Placed (s.core.client.pc r)) (w : ℕ) :
    (u.phase w).Placed (u.core.client.pc w) := by
  by_cases hmover : l.request = some w
  · cases server_cases h with
    | arrive r habsent =>
      cases hmover
      have hidle := hs w
      rw [habsent] at hidle
      simp only [Function.update_self]
      exact hidle
    | act r action outcome houtcome =>
      cases hmover
      simp only [Server.take, Function.update_self]
      exact handle_placed (hs w) houtcome
    | tick | reload => cases hmover
  · rw [step_phase h hmover, (step_client h hmover).1]
    exact hs w

section Runs
variable {cfg : ServerConfig} {now : ℕ} {policy : SelectorPolicy} {permits : Option ℕ} {s : Server}

theorem reachable_placed (h : Machine.Reachable (step cfg) (.initial now policy permits) s) :
    ∀ r, (s.phase r).Placed (s.core.client.pc r) := by
  refine h.invariant (I := fun s => ∀ r, (s.phase r).Placed (s.core.client.pc r)) ?_ ?_
  · intro r
    rfl
  · intro s l u hs hstep r
    exact step_placed hstep hs r

theorem moves_unless_calling (cfg : ServerConfig)
    (hplaced : ∀ r, (s.phase r).Placed (s.core.client.pc r)) {r : ℕ}
    (hprogress : (s.phase r).inProgress = true)
    (hcalling : ∀ selector, s.phase r = .calling selector → (s.core.client.pc r).unfinished = false) :
    ∃ action outcome, action ≠ .drop ∧ handle cfg r s.core (s.phase r) action = some outcome := by
  have hpc := hplaced r
  cases hphase : s.phase r with
  | absent | responded response | dropped =>
    rw [hphase] at hprogress
    cases hprogress
  | arrived =>
    refine ⟨.authenticate, ?_⟩
    simp only [handle]
    split <;> exact ⟨_, by simp, rfl⟩
  | authorized =>
    refine ⟨.acquire, ?_⟩
    simp only [handle]
    split <;> exact ⟨_, by simp, rfl⟩
  | permitted =>
    refine ⟨.checkContentType, ?_⟩
    simp only [handle]
    split <;> exact ⟨_, by simp, rfl⟩
  | awaitingBody =>
    refine ⟨.readBody, ?_⟩
    simp only [handle]
    split <;> exact ⟨_, by simp, rfl⟩
  | selected selector =>
    refine ⟨.checkPolicy, ?_⟩
    simp only [handle]
    split <;> exact ⟨_, by simp, rfl⟩
  | admitted selector =>
    rw [hphase] at hpc
    have hidle : s.core.client.pc r = .idle := hpc
    refine ⟨.call, ?_⟩
    simp only [handle, Client.step, hidle, Option.map_some]
    exact ⟨_, by simp, rfl⟩
  | calling selector =>
    rw [hphase] at hpc
    have hdone := hcalling selector hphase
    refine ⟨.respond, ?_⟩
    cases hp : s.core.client.pc r with
    | finished result =>
      cases result with
      | ok document =>
        simp only [handle, hp]
        exact ⟨_, by simp, rfl⟩
      | error error =>
        simp only [handle, hp]
        exact ⟨_, by simp, rfl⟩
    | idle => exact absurd hp hpc.1
    | dropped => exact absurd hp hpc.2
    | _ =>
      rw [hp] at hdone
      cases hdone

/-- No deadlock: a request that waits for a lock waits for a call that can go on. -/
theorem some_handler_moves (h : Machine.Reachable (step cfg) (.initial now policy permits) s) {r : ℕ}
    (hprogress : (s.phase r).inProgress = true) :
    ∃ r' action v, action ≠ .drop ∧ step cfg s (.act r' action) = some v := by
  have hplaced := reachable_placed h
  by_cases hwaits : (∃ selector, s.phase r = .calling selector) ∧
      (s.core.client.pc r).unfinished = true
  · obtain ⟨-, hunfinished⟩ := hwaits
    have hlocks := reachable_locksOwned (reachable_client h)
    obtain ⟨r', l, client, hun, hl, hclient⟩ : ∃ r' l client,
        (s.core.client.pc r').unfinished = true ∧ l.advances = some r' ∧
          Client.step cfg.client s.core.client l = some client :=
      some_call_can_advance hlocks hunfinished
    have hcalling : ∃ selector, s.phase r' = .calling selector := by
      by_contra hnot
      have hdone := (hplaced r').refused (fun selector hphase => hnot ⟨selector, hphase⟩)
      rw [hdone] at hun
      cases hun
    obtain ⟨selector, hphase⟩ := hcalling
    refine ⟨r', .provider l, ?_⟩
    simp only [step, hphase, handle, hl, if_true, hclient, Option.map_some]
    exact ⟨_, by simp, rfl⟩
  · obtain ⟨action, outcome, hdrop, houtcome⟩ := moves_unless_calling cfg hplaced hprogress (by
      intro selector hphase
      rw [← Bool.not_eq_true]
      intro hunfinished
      exact hwaits ⟨⟨selector, hphase⟩, hunfinished⟩)
    refine ⟨r, action, s.take r outcome, hdrop, ?_⟩
    simp only [step, houtcome, Option.map_some]

/-! ## Runs without arrivals -/

def Label.isArrival : Label → Bool
  | .arrive _ => true
  | _ => false

def Label.isMove : Label → Bool
  | .act _ _ => true
  | _ => false

def Server.work (waiting : Finset ℕ) (s : Server) : ℕ :=
  ∑ r ∈ waiting, (s.phase r).rank (s.core.client.pc r)

theorem Server.work_le (waiting : Finset ℕ) (s : Server) : s.work waiting ≤ 19 * waiting.card := by
  refine (Finset.sum_le_card_nsmul waiting _ 19 ?_).trans_eq (Nat.mul_comm _ _)
  intro r _
  exact Phase.rank_le _ _

def Server.Within (waiting : Finset ℕ) (s : Server) : Prop :=
  ∀ r, (s.phase r).inProgress = true → r ∈ waiting

theorem handle_inProgress {r : ℕ} {core : Core} {phase : Phase} {action : Action}
    {outcome : Outcome} (h : handle cfg r core phase action = some outcome) :
    phase.inProgress = true := by
  cases phase with
  | absent | responded response | dropped => cases h
  | _ => rfl

theorem step_work {u : Server} {l : Label} {waiting : Finset ℕ} (hs : s.Within waiting)
    (hl : l.isArrival = false) (h : step cfg s l = some u) :
    u.Within waiting ∧ u.work waiting + l.isMove.toNat ≤ s.work waiting := by
  cases l with
  | arrive r => cases hl
  | act r action =>
    obtain ⟨outcome, houtcome, hu⟩ := Option.map_eq_some_iff.mp h
    have hmem : r ∈ waiting := hs r (handle_inProgress houtcome)
    have hothers : ∀ w, w ≠ r →
        u.phase w = s.phase w ∧ u.core.client.pc w = s.core.client.pc w := by
      intro w hw
      have hne : (Label.act r action).request ≠ some w := by
        intro heq
        exact hw (Option.some.inj heq).symm
      exact ⟨step_phase h hne, (step_client h hne).1⟩
    refine ⟨?_, ?_⟩
    · intro w hw
      by_cases heq : w = r
      · rw [heq]
        exact hmem
      · rw [(hothers w heq).1] at hw
        exact hs w hw
    · have hlower : (u.phase r).rank (u.core.client.pc r) <
          (s.phase r).rank (s.core.client.pc r) := by
        rw [← hu]
        simp only [Server.take, Function.update_self]
        exact handle_rank houtcome
      have hless : u.work waiting < s.work waiting := by
        refine Finset.sum_lt_sum ?_ ⟨r, hmem, hlower⟩
        intro w _
        by_cases heq : w = r
        · rw [heq]
          exact hlower.le
        · rw [(hothers w heq).1, (hothers w heq).2]
      exact hless
  | tick elapsed =>
    obtain ⟨client, hclient, rfl⟩ := Option.map_eq_some_iff.mp h
    cases step_cases hclient with
    | tick _ => exact ⟨hs, le_refl _⟩
  | reload files =>
    cases h
    exact ⟨hs, le_refl _⟩

/-! ## The moves of one request -/

def Label.isMoveOf (r : ℕ) : Label → Bool
  | .act r' _ => r' == r
  | _ => false

/-- How many moves a request may still make, counting those after an arrival that is to come. -/
def Server.allowance (s : Server) (r : ℕ) : ℕ :=
  match s.phase r with
  | .absent => 19
  | phase => phase.rank (s.core.client.pc r)

theorem Server.allowance_le (s : Server) (r : ℕ) : s.allowance r ≤ 19 := by
  unfold allowance
  split
  · exact le_rfl
  · exact Phase.rank_le _ _

theorem Server.allowance_of_inProgress {r : ℕ} (h : (s.phase r).inProgress = true) :
    s.allowance r = (s.phase r).rank (s.core.client.pc r) := by
  unfold allowance
  split
  · rename_i habsent
    rw [habsent] at h
    cases h
  · rfl

theorem handle_ne_absent {r : ℕ} {core : Core} {phase : Phase} {action : Action} {outcome : Outcome}
    (h : handle cfg r core phase action = some outcome) : outcome.phase ≠ .absent := by
  cases handle_cases h with
  | _ => exact Phase.noConfusion

theorem step_allowance {u : Server} {l : Label} (h : step cfg s l = some u) (r : ℕ) :
    u.allowance r + (l.isMoveOf r).toNat ≤ s.allowance r := by
  by_cases hmover : l.request = some r
  · cases server_cases h with
    | arrive r' habsent =>
      cases hmover
      have hfull : s.allowance r = 19 := by rw [Server.allowance, habsent]
      have hle := Server.allowance_le { s with phase := Function.update s.phase r .arrived } r
      simp only [Label.isMoveOf, Bool.toNat_false]
      omega
    | act r' action outcome houtcome =>
      cases hmover
      have hlower := handle_rank houtcome
      have hphase : (s.take r outcome).phase r = outcome.phase := Function.update_self _ _ _
      have hafter : (s.take r outcome).allowance r = outcome.phase.rank (outcome.core.client.pc r) := by
        unfold Server.allowance
        rw [hphase]
        split
        · rename_i habsent
          exact absurd habsent (handle_ne_absent houtcome)
        · rfl
      rw [hafter, Server.allowance_of_inProgress (handle_inProgress houtcome)]
      simp only [Label.isMoveOf, beq_self_eq_true, Bool.toNat_true]
      omega
    | tick | reload => cases hmover
  · have hsame : u.allowance r = s.allowance r := by
      rw [Server.allowance, step_phase h hmover, (step_client h hmover).1, Server.allowance]
    have hother : l.isMoveOf r = false := by
      cases l with
      | act r' action =>
        rw [Label.isMoveOf, beq_eq_false_iff_ne]
        exact fun heq => hmover (congrArg some heq)
      | _ => rfl
    rw [hsame, hother, Bool.toNat_false, Nat.add_zero]

theorem run_allowance {u : Server} {ls : List Label} (hrun : Machine.run (step cfg) s ls = some u)
    (r : ℕ) : u.allowance r + ls.countP (Label.isMoveOf r) ≤ s.allowance r := by
  induction ls generalizing s with
  | nil =>
    cases hrun
    exact le_rfl
  | cons l ls ih =>
    obtain ⟨v, hv, hu⟩ := Machine.run_cons.mp hrun
    have hstep := step_allowance hv r
    have hrest := ih hu
    rw [List.countP_cons]
    cases hl : l.isMoveOf r with
    | true =>
      rw [hl, Bool.toNat_true] at hstep
      rw [if_pos rfl]
      omega
    | false =>
      rw [hl, Bool.toNat_false] at hstep
      rw [if_neg Bool.false_ne_true]
      omega

/-- A request that has arrived ends with a response unless it is dropped. -/
def Phase.Kept (phase : Phase) : Prop := phase ≠ .absent ∧ phase ≠ .dropped

theorem Phase.Kept.responded {phase : Phase} (h : phase.Kept) (hended : phase.inProgress = false) :
    ∃ response, phase = .responded response := by
  cases phase with
  | absent => exact absurd rfl h.1
  | dropped => exact absurd rfl h.2
  | responded response => exact ⟨response, rfl⟩
  | _ => cases hended

theorem Phase.kept_of_inProgress {phase : Phase} (h : phase.inProgress = true) : phase.Kept := by
  cases phase with
  | absent | dropped | responded response => cases h
  | _ => exact ⟨nofun, nofun⟩

theorem handle_kept {r : ℕ} {core : Core} {phase : Phase} {action : Action} {outcome : Outcome}
    (haction : action ≠ .drop) (h : handle cfg r core phase action = some outcome) :
    outcome.phase.Kept := by
  refine ⟨handle_ne_absent h, ?_⟩
  cases handle_cases h with
  | dropArrived | dropBody | dropCall => exact absurd rfl haction
  | _ => exact Phase.noConfusion

theorem step_kept {u : Server} {l : Label} {w : ℕ} (hs : (s.phase w).Kept)
    (hl : l ≠ .act w .drop) (h : step cfg s l = some u) : (u.phase w).Kept := by
  by_cases hmover : l.request = some w
  · cases server_cases h with
    | arrive r habsent =>
      cases hmover
      simp [Phase.Kept]
    | act r action outcome houtcome =>
      cases hmover
      simp only [Server.take, Function.update_self]
      refine handle_kept ?_ houtcome
      intro hdrop
      exact hl (by rw [hdrop])
    | tick | reload => cases hmover
  · rw [step_phase h hmover]
    exact hs

theorem run_kept {u : Server} {ls : List Label} {w : ℕ} (hs : (s.phase w).Kept)
    (hls : Label.act w .drop ∉ ls) (hrun : Machine.run (step cfg) s ls = some u) :
    (u.phase w).Kept := by
  induction ls generalizing s with
  | nil => cases hrun; exact hs
  | cons l ls ih =>
    obtain ⟨v, hv, hu⟩ := Machine.run_cons.mp hrun
    rw [List.mem_cons, not_or] at hls
    exact ih (step_kept hs (Ne.symm hls.1) hv) hls.2 hu

theorem reachable_waiting (h : Machine.Reachable (step cfg) (.initial now policy permits) s) :
    ∃ n, Census.Counts (fun r => (s.phase r).inProgress) n := by
  refine h.invariant (I := fun s => ∃ n, Census.Counts (fun r => (s.phase r).inProgress) n)
    ⟨0, Census.counts_none⟩ ?_
  intro s l u hs hstep
  obtain ⟨n, hcount⟩ := hs
  obtain ⟨r, phase, hphase, -⟩ := step_permits hstep
  obtain ⟨m, hcount', -⟩ := hcount.move r phase.inProgress
  refine ⟨m, ?_⟩
  have hmoved : (fun r' => (u.phase r').inProgress) =
      Function.update (fun r' => (s.phase r').inProgress) r phase.inProgress := by
    rw [hphase]
    exact Function.comp_update Phase.inProgress s.phase r phase
  rw [hmoved]
  exact hcount'

theorem quiescent (h : Machine.Reachable (step cfg) (.initial now policy permits) s)
    (hnone : ∀ r, (s.phase r).inProgress = false) :
    s.core.permits = permits ∧ s.core.client.cacheLock = none ∧ s.core.client.refreshLock = none := by
  have hplaced := reachable_placed h
  have hdone : ∀ r, (s.core.client.pc r).unfinished = false := by
    intro r
    refine (hplaced r).refused ?_
    intro selector hphase
    have hended := hnone r
    rw [hphase] at hended
    cases hended
  have hlocks := reachable_locksOwned (reachable_client h)
  refine ⟨?_, ?_, ?_⟩
  · obtain ⟨inside, hcount, hsum⟩ := reachable_conserves h
    have hempty : inside = 0 := by
      refine hcount.eq_zero ?_
      intro r
      have hended := hnone r
      unfold Server.inside
      cases hphase : s.phase r with
      | absent | arrived | authorized | responded response | dropped => rfl
      | _ =>
        rw [hphase] at hended
        cases hended
    rw [hempty] at hsum
    rw [← hsum]
    cases s.core.permits <;> rfl
  · rw [Option.eq_none_iff_forall_not_mem]
    intro r hr
    have hun := (Pc.holdsCache_unfinished ((hlocks.cache r).mp hr)).1
    rw [hdone r] at hun
    cases hun
  · rw [Option.eq_none_iff_forall_not_mem]
    intro r hr
    have hun := (Pc.holdsRefresh_unfinished ((hlocks.refresh r).mp hr)).1
    rw [hdone r] at hun
    cases hun

theorem run_kept_arrived {u : Server} {ls : List Label} {w : ℕ} (harrives : .arrive w ∈ ls)
    (hls : Label.act w .drop ∉ ls) (hrun : Machine.run (step cfg) s ls = some u) :
    (u.phase w).Kept := by
  obtain ⟨before, after, rfl⟩ := List.append_of_mem harrives
  obtain ⟨v, -, hv⟩ := Machine.run_append.mp hrun
  obtain ⟨v', hstep, hrest⟩ := Machine.run_cons.mp hv
  have harrived : (v'.phase w).Kept := by
    cases server_cases hstep with
    | arrive _ _ => simp [Phase.Kept]
  refine run_kept harrived ?_ hrest
  intro hdrop
  exact hls (List.mem_append_right _ (List.mem_cons_of_mem _ hdrop))

/-- From any state of any run, however it goes on: each request makes at most 19 moves, some
handler can move as long as a request is in progress, and with none in progress every request
that was not dropped has its response, and the permits and the locks are free. -/
theorem every_request_is_answered (cfg : ServerConfig) (now : ℕ) (policy : SelectorPolicy)
    (permits : Option ℕ) (s : Server)
    (h : Machine.Reachable (step cfg) (.initial now policy permits) s) :
    ∃ waiting : Finset ℕ, (∀ r, r ∈ waiting ↔ (s.phase r).inProgress = true) ∧
      ∀ ls u, Machine.run (step cfg) s ls = some u →
        (∀ r, ls.countP (Label.isMoveOf r) ≤ 19) ∧
        ((∀ l ∈ ls, l.isArrival = false) → ls.countP Label.isMove ≤ 19 * waiting.card) ∧
        ((∃ r, (u.phase r).inProgress = true) →
          ∃ r action v, action ≠ .drop ∧ step cfg u (.act r action) = some v) ∧
        ((∀ r, (u.phase r).inProgress = false) →
          (∀ r, r ∈ waiting ∨ .arrive r ∈ ls → .act r .drop ∉ ls →
            ∃ response, u.phase r = .responded response) ∧
          u.core.permits = permits ∧ u.core.client.cacheLock = none ∧
          u.core.client.refreshLock = none) := by
  obtain ⟨n, waiting, -, hwaiting⟩ := reachable_waiting h
  refine ⟨waiting, hwaiting, ?_⟩
  intro ls u hrun
  have hu : Machine.Reachable (step cfg) (.initial now policy permits) u := by
    obtain ⟨ms, hms⟩ := h
    exact ⟨ms ++ ls, Machine.run_append.mpr ⟨s, hms, hrun⟩⟩
  refine ⟨?_, ?_, ?_, ?_⟩
  · intro r
    have hcount := run_allowance hrun r
    have hbound := s.allowance_le r
    omega
  · intro hls
    have hwithin : s.Within waiting := fun r hr => (hwaiting r).mpr hr
    obtain ⟨-, hcount⟩ := Machine.run_countP_le (p := Label.isMove)
      (fun _ _ _ hs hl hstep => step_work hs hl hstep) hwithin hls hrun
    have hbound := s.work_le waiting
    omega
  · rintro ⟨r, hr⟩
    exact some_handler_moves hu hr
  · intro hnone
    refine ⟨?_, quiescent hu hnone⟩
    intro r hr hdrop
    rcases hr with hr | harrives
    · have hkept := run_kept (Phase.kept_of_inProgress ((hwaiting r).mp hr)) hdrop hrun
      exact hkept.responded (hnone r)
    · exact (run_kept_arrived harrives hdrop hrun).responded (hnone r)

end Runs

theorem crowd_goes_on : ∃ s, Machine.run (step sampleServerConfig)
      (.initial 0 sampleServerPolicy (resolveSemaphore 1)) sampleCrowd = some s ∧
    ∃ waiting : Finset ℕ, (∀ r, r ∈ waiting ↔ (s.phase r).inProgress = true) ∧ 2 ∈ waiting ∧
      ∃ r action v, action ≠ .drop ∧ step sampleServerConfig s (.act r action) = some v := by
  have hrun : ∃ s, Machine.run (step sampleServerConfig)
      (.initial 0 sampleServerPolicy (resolveSemaphore 1)) sampleCrowd = some s ∧
      (s.phase 2).inProgress = true := ⟨_, rfl, rfl⟩
  obtain ⟨s, hs, hprogress⟩ := hrun
  obtain ⟨waiting, hwaiting, hruns⟩ := every_request_is_answered sampleServerConfig 0
    sampleServerPolicy (resolveSemaphore 1) s ⟨sampleCrowd, hs⟩
  obtain ⟨-, -, hmoves, -⟩ := hruns [] s rfl
  exact ⟨s, hs, waiting, hwaiting, (hwaiting 2).mpr hprogress, hmoves ⟨2, hprogress⟩⟩

end VaultwardenEso.Provider
