import VaultwardenEso.Lib.Machine
import VaultwardenEso.Lib.Notify
import VaultwardenEso.PolicyReload

set_option autoImplicit false

/-!
# The shutdown of the reload task

`mark_shutting_down` and the loop of `spawn_policy_reload`, step by step. The steps of the
two come in any order.
-/
namespace VaultwardenEso.Provider
open RustStr BwesoCore

structure Lifecycle (ν : Type) where
  shuttingDown : Bool
  shutdown : ν

inductive Marker where
  | idle
  | stored
  | finished
  deriving DecidableEq

/-- Where the task is in its loop. -/
inductive Place where
  /-- At the first tick, which is skipped. -/
  | starting
  /-- In `select!`, before the first poll of `shutdown_requested`. -/
  | selecting
  /-- In `shutdown_requested`, between its check and the first poll of its wait. -/
  | checked
  | parked
  /-- The tick won the `select!`. -/
  | ticked
  | ready
  | reloading
  | stopped
  deriving DecidableEq

/-- Each round of the loop waits on a future of its own. -/
structure ReloadTask (σ ν : Type) where
  lifecycle : Lifecycle ν
  marker : Marker
  place : Place
  round : ℕ
  shared : Reloading σ

inductive TaskLabel where
  | store
  | notifyOne
  | tick
  | check
  | poll
  | startReload
  | finishReload (c : Cycle)

section Task
variable {σ ν : Type}

def Lifecycle.isReady (l : Lifecycle ν) : Bool := !l.shuttingDown

def spawnPolicyReload (policy : SelectorPolicy) (lifecycle : Lifecycle ν) (metrics : MetricsInner σ)
    (intervalSeconds : UInt64) : Option (ReloadTask σ ν) :=
  if !policy.sources.hasFile then none
  else if intervalSeconds = 0 then none
  else some ⟨lifecycle, .idle, .starting, 0, ⟨policy, metrics⟩⟩

def ReloadTask.withShutdown (s : ReloadTask σ ν) (shutdown : ν) : ReloadTask σ ν :=
  { s with lifecycle := { s.lifecycle with shutdown } }

theorem spawnPolicyReload_eq_some {policy : SelectorPolicy} {lifecycle : Lifecycle ν}
    {metrics : MetricsInner σ} {intervalSeconds : UInt64} {s : ReloadTask σ ν}
    (h : spawnPolicyReload policy lifecycle metrics intervalSeconds = some s) :
    s = ⟨lifecycle, .idle, .starting, 0, ⟨policy, metrics⟩⟩ := by
  unfold spawnPolicyReload at h
  split at h
  · cases h
  · split at h <;> cases h
    rfl

variable [Notify ℕ ν]

def Lifecycle.default : Lifecycle ν := ⟨false, Notify.new⟩

def ReloadTask.step (s : ReloadTask σ ν) : TaskLabel → Option (ReloadTask σ ν)
  | .store => match s.marker with
    | .idle => some { s with
        marker := .stored, lifecycle := { s.lifecycle with shuttingDown := true } }
    | _ => none
  | .notifyOne => match s.marker with
    | .stored => some { s.withShutdown (Notify.notifyOne s.lifecycle.shutdown) with
        marker := .finished }
    | _ => none
  | .tick => match s.place with
    | .starting => some { s with place := .selecting }
    -- the branches are polled in any order: the other future may be fresh
    | .selecting => some { s with place := .ticked }
    | .parked => some { s.withShutdown (Notify.drop s.lifecycle.shutdown s.round) with
        place := .ticked }
    | _ => none
  | .check => match s.place with
    | .selecting => some { s with place := if s.lifecycle.isReady then .checked else .stopped }
    | .ticked => some { s with place := if s.lifecycle.isReady then .ready else .stopped }
    | _ => none
  | .poll => match s.place with
    | .checked | .parked =>
      let (woken, shutdown) := Notify.poll s.lifecycle.shutdown s.round
      some { s.withShutdown shutdown with place := if woken then .stopped else .parked }
    | _ => none
  | .startReload => match s.place with
    | .ready => some { s with place := .reloading }
    | _ => none
  | .finishReload c => match s.place with
    | .reloading => some { s with
        place := .selecting, round := s.round + 1, shared := s.shared.cycle c }
    | _ => none

def ReloadTask.view (s : ReloadTask σ ν) : Notify.View ℕ := Notify.view s.lifecycle.shutdown

/-- What a step can do, one constructor a branch. -/
inductive TaskStep (s : ReloadTask σ ν) : TaskLabel → ReloadTask σ ν → Prop
  | store (h : s.marker = .idle) : TaskStep s .store { s with
      marker := .stored, lifecycle := { s.lifecycle with shuttingDown := true } }
  | notifyOne (shutdown : ν) (h : s.marker = .stored)
      (hnotified : s.view.Notified (Notify.view shutdown)) :
    TaskStep s .notifyOne { s.withShutdown shutdown with marker := .finished }
  | firstTick (h : s.place = .starting) : TaskStep s .tick { s with place := .selecting }
  | tick (h : s.place = .selecting) : TaskStep s .tick { s with place := .ticked }
  | leave (shutdown : ν) (h : s.place = .parked)
      (hdropped : s.view.Dropped s.round (Notify.view shutdown)) :
    TaskStep s .tick { s.withShutdown shutdown with place := .ticked }
  | check (h : s.place = .selecting) (hready : s.lifecycle.isReady = true) :
    TaskStep s .check { s with place := .checked }
  | recheck (h : s.place = .ticked) (hready : s.lifecycle.isReady = true) :
    TaskStep s .check { s with place := .ready }
  | stop (h : s.place = .selecting ∨ s.place = .ticked) (hnot : s.lifecycle.isReady = false) :
    TaskStep s .check { s with place := .stopped }
  | wake (shutdown : ν) (h : s.place = .checked ∨ s.place = .parked)
      (hpolled : s.view.Polled s.round true (Notify.view shutdown)) :
    TaskStep s .poll { s.withShutdown shutdown with place := .stopped }
  | park (shutdown : ν) (h : s.place = .checked ∨ s.place = .parked)
      (hpolled : s.view.Polled s.round false (Notify.view shutdown)) :
    TaskStep s .poll { s.withShutdown shutdown with place := .parked }
  | startReload (h : s.place = .ready) : TaskStep s .startReload { s with place := .reloading }
  | finishReload (c : Cycle) (h : s.place = .reloading) : TaskStep s (.finishReload c) { s with
      place := .selecting, round := s.round + 1, shared := s.shared.cycle c }

variable {s u : ReloadTask σ ν} {l : TaskLabel}

theorem TaskStep.of_poll (h : s.place = .checked ∨ s.place = .parked) :
    TaskStep s .poll { s.withShutdown (Notify.poll s.lifecycle.shutdown s.round).2 with
      place := if (Notify.poll s.lifecycle.shutdown s.round).1 then .stopped else .parked } := by
  have hpolled := Notify.polled s.lifecycle.shutdown s.round
  cases hwoken : (Notify.poll s.lifecycle.shutdown s.round).1 with
  | true =>
    rw [hwoken] at hpolled
    exact .wake _ h hpolled
  | false =>
    rw [hwoken] at hpolled
    exact .park _ h hpolled

theorem ReloadTask.step_cases (h : s.step l = some u) : TaskStep s l u := by
  unfold ReloadTask.step at h
  split at h
  · split at h <;> cases h
    exact .store ‹_›
  · split at h <;> cases h
    exact .notifyOne _ ‹_› (Notify.notified _)
  · split at h <;> cases h
    · exact .firstTick ‹_›
    · exact .tick ‹_›
    · exact .leave _ ‹_› (Notify.dropped _ _)
  · cases hready : s.lifecycle.isReady with
    | true =>
      simp only [hready] at h
      split at h <;> cases h
      · exact .check ‹_› hready
      · exact .recheck ‹_› hready
    | false =>
      simp only [hready] at h
      split at h <;> cases h
      · exact .stop (.inl ‹_›) hready
      · exact .stop (.inr ‹_›) hready
  · split at h <;> cases h
    · exact .of_poll (.inl ‹_›)
    · exact .of_poll (.inr ‹_›)
  · split at h <;> cases h
    exact .startReload ‹_›
  · split at h <;> cases h
    exact .finishReload _ ‹_›

/-! ## The notification reaches the task -/

/-- The task is registered while it is parked, and nobody else is. -/
structure ReloadTask.Inv (s : ReloadTask σ ν) : Prop where
  flag : s.lifecycle.isReady = true ↔ s.marker = .idle
  lawful : s.view.Lawful
  registered : s.view.registered = if s.place = .parked then {s.round} else ∅
  outstanding : s.marker = .finished → s.place ≠ .stopped → s.view.Outstanding

theorem inv_spawned {policy : SelectorPolicy} {metrics : MetricsInner σ} {intervalSeconds : UInt64}
    (h : spawnPolicyReload policy (.default : Lifecycle ν) metrics intervalSeconds = some s) :
    s.Inv := by
  have hview : s.view = ⟨false, ∅, ∅⟩ := by
    rw [spawnPolicyReload_eq_some h]
    exact Notify.view_new
  refine ⟨?_, ?_, ?_, ?_⟩
  · rw [spawnPolicyReload_eq_some h]
    exact iff_of_true rfl rfl
  · rw [hview]
    exact ⟨nofun, fun _ hw => hw.elim⟩
  · rw [hview, spawnPolicyReload_eq_some h]
    exact Set.union_self _
  · rw [spawnPolicyReload_eq_some h]
    nofun

theorem ReloadTask.Inv.registered_subset (h : s.Inv) : s.view.registered ⊆ {s.round} := by
  rw [h.registered]
  split
  · exact subset_rfl
  · exact Set.empty_subset _

theorem ReloadTask.Inv.away (h : s.Inv) (hplace : s.place ≠ .parked) :
    s.view.registered = ∅ := by
  rw [h.registered, if_neg hplace]

theorem ReloadTask.Inv.go (h : s.Inv) {p q : Place} (hplace : s.place = p)
    (hmoves : p ≠ .parked ∧ p ≠ .stopped ∧ q ≠ .parked) (round : ℕ) (shared : Reloading σ) :
    ReloadTask.Inv { s with place := q, round, shared } := by
  obtain ⟨hfrom, hrunning, hto⟩ := hmoves
  rw [← hplace] at hfrom hrunning
  refine ⟨h.flag, h.lawful, ?_, fun hmarked _ => h.outstanding hmarked hrunning⟩
  exact (h.away hfrom).trans (if_neg hto).symm

theorem ReloadTask.Inv.not_pending (h : s.Inv) (hmarked : s.marker = .finished)
    (hplace : s.place = .checked ∨ s.place = .parked) (v : Notify.View ℕ) :
    ¬ s.view.Polled s.round false v := by
  intro hpolled
  have hrunning : s.place ≠ .stopped := by rcases hplace with h | h <;> simp [h]
  have hready := hpolled.ready_of_outstanding h.lawful (h.outstanding hmarked hrunning)
    h.registered_subset
  cases hready

theorem ReloadTask.step_inv (hs : s.Inv) (h : s.step l = some u) : u.Inv := by
  cases ReloadTask.step_cases h with
  | store hmarker =>
    refine ⟨⟨nofun, nofun⟩, hs.lawful, hs.registered, nofun⟩
  | notifyOne shutdown hmarker hnotified =>
    refine ⟨⟨?_, nofun⟩, hnotified.lawful hs.lawful, ?_, fun _ _ => hnotified.outstanding⟩
    · intro hready
      have hidle := hs.flag.mp hready
      rw [hmarker] at hidle
      cases hidle
    · exact hnotified.registered_eq.trans hs.registered
  | firstTick hplace => exact hs.go hplace (by decide) _ _
  | tick hplace => exact hs.go hplace (by decide) _ _
  | leave shutdown hplace hdropped =>
    refine ⟨hs.flag, hdropped.lawful hs.lawful, ?_, ?_⟩
    · refine (hdropped.registered_eq hs.lawful).trans ?_
      rw [hs.registered, if_pos hplace]
      exact Set.sdiff_self
    · intro hmarked _
      exact hdropped.outstanding (hs.outstanding hmarked (by simp [hplace]))
  | check hplace hready => exact hs.go hplace (by decide) _ _
  | recheck hplace hready => exact hs.go hplace (by decide) _ _
  | stop hplace hnot =>
    rcases hplace with hplace | hplace <;>
      exact hs.go hplace (by decide) _ _
  | wake shutdown hplace hpolled =>
    refine ⟨hs.flag, hpolled.lawful hs.lawful, ?_, fun _ hrunning => absurd rfl hrunning⟩
    refine (hpolled.registered_of_ready hs.lawful).trans ?_
    exact Set.sdiff_eq_empty.mpr hs.registered_subset
  | park shutdown hplace hpolled =>
    refine ⟨hs.flag, hpolled.lawful hs.lawful, ?_, ?_⟩
    · refine hpolled.registered_of_pending.trans ?_
      refine Set.Subset.antisymm (Set.insert_subset rfl hs.registered_subset) ?_
      exact Set.singleton_subset_iff.mpr (Set.mem_insert _ _)
    · intro hmarked _
      exact absurd hpolled (hs.not_pending hmarked hplace _)
  | startReload hplace => exact hs.go hplace (by decide) _ _
  | finishReload c hplace => exact hs.go hplace (by decide) _ _

theorem run_inv {ls : List TaskLabel} (hs : s.Inv) (h : Machine.run ReloadTask.step s ls = some u) :
    u.Inv :=
  Machine.run_invariant (fun _ _ _ hs hstep => ReloadTask.step_inv hs hstep) hs h

/-! ## The reloads of a run -/

def TaskLabel.startsReload : TaskLabel → Bool
  | .startReload => true
  | _ => false

def TaskLabel.cycle : TaskLabel → Option Cycle
  | .finishReload c => some c
  | _ => none

def Place.committed : Place → ℕ
  | .ready => 1
  | _ => 0

theorem ReloadTask.step_committed (hstored : s.lifecycle.isReady = false) (h : s.step l = some u) :
    u.lifecycle.isReady = false ∧
      [l].countP (·.startsReload) + u.place.committed ≤ s.place.committed := by
  cases ReloadTask.step_cases h with
  | check hplace hready | recheck hplace hready =>
    rw [hstored] at hready
    cases hready
  | store hmarker => exact ⟨rfl, (Nat.zero_add _).le⟩
  | notifyOne shutdown hmarker hnotified => exact ⟨hstored, (Nat.zero_add _).le⟩
  | startReload hplace =>
    rw [hplace]
    exact ⟨hstored, le_rfl⟩
  | _ => exact ⟨hstored, Nat.zero_le _⟩

theorem run_committed {ls : List TaskLabel} (hstored : s.lifecycle.isReady = false)
    (h : Machine.run ReloadTask.step s ls = some u) :
    ls.countP (·.startsReload) + u.place.committed ≤ s.place.committed := by
  induction ls generalizing s with
  | nil =>
    cases h
    exact (Nat.zero_add _).le
  | cons l ls ih =>
    obtain ⟨v, hv, hu⟩ := Machine.run_cons.mp h
    obtain ⟨hstored', hl⟩ := ReloadTask.step_committed hstored hv
    have hls := ih hstored' hu
    rw [← List.singleton_append, List.countP_append]
    omega

theorem ReloadTask.step_shared (h : s.step l = some u) : u.shared = s.shared.run l.cycle.toList := by
  cases ReloadTask.step_cases h <;> rfl

theorem run_shared {ls : List TaskLabel} (h : Machine.run ReloadTask.step s ls = some u) :
    u.shared = s.shared.run (ls.filterMap (·.cycle)) := by
  induction ls generalizing s with
  | nil =>
    cases h
    rfl
  | cons l ls ih =>
    obtain ⟨v, hv, hu⟩ := Machine.run_cons.mp h
    rw [ih hu, ReloadTask.step_shared hv, Reloading.run, Reloading.run, ← List.foldl_append]
    cases hl : l.cycle with
    | none => rw [List.filterMap_cons_none hl]; rfl
    | some c => rw [List.filterMap_cons_some hl]; rfl

theorem spawned_consistent {policy : SelectorPolicy} {startup : PolicyFiles}
    (hstartup : policy.sources.evaluate startup = .ok policy.rules) {now : SystemTime}
    {lifecycle : Lifecycle ν} {intervalSeconds : UInt64} {start : ReloadTask σ ν} {ls : List TaskLabel}
    (hspawn : spawnPolicyReload policy lifecycle (Reloading.start policy now).metrics
      intervalSeconds = some start)
    (hrun : Machine.run ReloadTask.step start ls = some s) :
    Reloading.Consistent policy startup (ls.filterMap (·.cycle)) s.shared := by
  rw [run_shared hrun, spawnPolicyReload_eq_some hspawn]
  exact Reloading.run_consistent hstartup now _

/-! ## The task stops without another tick -/

def Place.stepsLeft : Place → ℕ
  | .starting | .stopped => 0
  | .selecting | .checked | .parked | .ticked => 1
  | .reloading => 2
  | .ready => 3

theorem ReloadTask.marked_step (hs : s.Inv) (hmarked : s.marker = .finished) (hl : l ≠ .tick)
    (h : s.step l = some u) :
    u.marker = .finished ∧ u.place ≠ .starting ∧ u.place.stepsLeft < s.place.stepsLeft := by
  have hnot : s.lifecycle.isReady = true → False := by
    intro hready
    have hidle := hs.flag.mp hready
    rw [hmarked] at hidle
    cases hidle
  cases ReloadTask.step_cases h with
  | firstTick hplace | tick hplace | leave shutdown hplace hdropped => exact absurd rfl hl
  | check hplace hready | recheck hplace hready => exact (hnot hready).elim
  | store hmarker | notifyOne shutdown hmarker hnotified =>
    rw [hmarked] at hmarker
    cases hmarker
  | stop hplace hready =>
    refine ⟨hmarked, nofun, ?_⟩
    rcases hplace with hplace | hplace <;> rw [hplace] <;> exact Nat.one_pos
  | wake shutdown hplace hpolled =>
    refine ⟨hmarked, nofun, ?_⟩
    rcases hplace with hplace | hplace <;> rw [hplace] <;> exact Nat.one_pos
  | park shutdown hplace hpolled =>
    exact absurd hpolled (hs.not_pending hmarked hplace _)
  | startReload hplace | finishReload c hplace =>
    rw [hplace]
    exact ⟨hmarked, nofun, Nat.lt_succ_self _⟩

theorem ReloadTask.can_step (hstarted : s.place ≠ .starting) (hrunning : s.place ≠ .stopped) :
    ∃ l, l ≠ .tick ∧ ∃ u, s.step l = some u := by
  cases hplace : s.place with
  | starting => exact absurd hplace hstarted
  | stopped => exact absurd hplace hrunning
  | selecting | ticked =>
    refine ⟨.check, nofun, ?_⟩
    simp only [ReloadTask.step, hplace]
    exact ⟨_, rfl⟩
  | checked | parked =>
    refine ⟨.poll, nofun, ?_⟩
    simp only [ReloadTask.step, hplace]
    exact ⟨_, rfl⟩
  | ready =>
    refine ⟨.startReload, nofun, ?_⟩
    simp only [ReloadTask.step, hplace]
    exact ⟨_, rfl⟩
  | reloading =>
    refine ⟨.finishReload ⟨⟨⟨none, none⟩, ⟨none, none⟩⟩, 0⟩, nofun, ?_⟩
    simp only [ReloadTask.step, hplace]
    exact ⟨_, rfl⟩

/-- Once `mark_shutting_down` is done the task takes a few steps of its own, and the last of
them stops it. -/
theorem marked_task_stops (hs : s.Inv) (hmarked : s.marker = .finished)
    (hstarted : s.place ≠ .starting) {ls : List TaskLabel} (hticks : .tick ∉ ls)
    (h : Machine.run ReloadTask.step s ls = some u) :
    ls.length + u.place.stepsLeft ≤ s.place.stepsLeft ∧
      (u.place = .stopped ∨ ∃ l, l ≠ .tick ∧ ∃ v, u.step l = some v) := by
  induction ls generalizing s with
  | nil =>
    cases h
    refine ⟨(Nat.zero_add _).le, ?_⟩
    by_cases hrunning : u.place = .stopped
    · exact .inl hrunning
    · exact .inr (ReloadTask.can_step hstarted hrunning)
  | cons l ls ih =>
    obtain ⟨v, hv, hu⟩ := Machine.run_cons.mp h
    rw [List.mem_cons, not_or] at hticks
    obtain ⟨hmarked', hstarted', hfewer⟩ := ReloadTask.marked_step hs hmarked (Ne.symm hticks.1) hv
    obtain ⟨hlength, hlast⟩ := ih (ReloadTask.step_inv hs hv) hmarked' hstarted' hticks.2 hu
    refine ⟨?_, hlast⟩
    rw [List.length_cons]
    omega

/-! ## The shutdown reaches the task -/

theorem shutdown_reaches_reload_task {policy : SelectorPolicy} {metrics : MetricsInner σ}
    {intervalSeconds : UInt64} {start s : ReloadTask σ ν} {ls : List TaskLabel}
    (hspawn : spawnPolicyReload policy .default metrics intervalSeconds = some start)
    (hrun : Machine.run ReloadTask.step start ls = some s) :
    (∀ before after, ls = before ++ .store :: after → after.countP (·.startsReload) ≤ 1) ∧
      ¬ (s.marker = .finished ∧ s.place = .parked ∧ s.view.permit = false ∧
        s.round ∉ s.view.woken) := by
  constructor
  · rintro before after rfl
    obtain ⟨u, -, hu⟩ := Machine.run_append.mp hrun
    obtain ⟨v, hv, hrest⟩ := Machine.run_cons.mp hu
    have hstored : v.lifecycle.isReady = false := by
      cases ReloadTask.step_cases hv
      rfl
    have hcount := run_committed hstored hrest
    have hcommitted : v.place.committed ≤ 1 := by cases v.place <;> decide
    omega
  · rintro ⟨hmarked, hplace, hpermit, hasleep⟩
    have hs : s.Inv := run_inv (inv_spawned hspawn) hrun
    rcases hs.outstanding hmarked (by simp [hplace]) with h | ⟨x, hx⟩
    · rw [hpermit] at h
      cases h
    · have hround : x = s.round := hs.registered_subset (Set.mem_union_right _ hx)
      exact hasleep (hround ▸ hx)

end Task

def sampleRounds : List TaskLabel :=
  [.tick, .check, .poll, .tick, .check, .startReload,
    .finishReload ⟨sampleFiles "name:app/\nname:web/\n", 20⟩, .check]

theorem sampleRounds_end_woken : ∃ start s : ReloadTask ℕ (Notify.Queue ℕ),
    spawnPolicyReload samplePolicy .default (Reloading.start samplePolicy 10).metrics 30 =
        some start ∧
      Machine.run ReloadTask.step start (sampleRounds ++ [.store, .poll, .notifyOne]) = some s ∧
      s.marker = .finished ∧ s.place = .parked ∧ (s.view.permit = true ∨ s.round ∈ s.view.woken) := by
  have hspawn : ∃ start : ReloadTask ℕ (Notify.Queue ℕ),
      spawnPolicyReload samplePolicy .default (Reloading.start samplePolicy 10).metrics 30 =
        some start :=
    ⟨_, rfl⟩
  obtain ⟨start, hstart⟩ := hspawn
  have hrun : ∃ s, Machine.run ReloadTask.step start (sampleRounds ++ [.store, .poll, .notifyOne]) =
      some s ∧ s.marker = .finished ∧ s.place = .parked := by
    cases hstart
    exact ⟨_, rfl, rfl, rfl⟩
  obtain ⟨s, hs, hmarked, hplace⟩ := hrun
  refine ⟨start, s, hstart, hs, hmarked, hplace, ?_⟩
  by_contra hasleep
  rw [not_or, Bool.not_eq_true] at hasleep
  exact (shutdown_reaches_reload_task hstart hs).2 ⟨hmarked, hplace, hasleep⟩

end VaultwardenEso.Provider
