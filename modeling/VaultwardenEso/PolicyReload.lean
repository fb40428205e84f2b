import VaultwardenEso.Lib.Counter
import VaultwardenEso.Policy
import VaultwardenEso.Metrics

set_option autoImplicit false

/-!
# The reload task and its metrics

The rules that are served, the files as each cycle sees them and the registry, over every
sequence of cycles of `spawn_policy_reload`.
-/
namespace VaultwardenEso.Provider
open RustStr BwesoCore

def PolicyRules.counts : PolicyRules → ℕ × ℕ
  | .allowAll => (0, 0)
  | .allowList allowedKeys allowedKeyPrefixes => (allowedKeys.length, allowedKeyPrefixes.length)

/-- What the task and the registry share. -/
structure Reloading (σ : Type) where
  policy : SelectorPolicy
  metrics : MetricsInner σ

structure Cycle where
  files : PolicyFiles
  now : SystemTime

def reloadOutcome : Except PolicyError Bool → ReloadOutcome
  | .ok true => .success
  | .ok false => .unchanged
  | .error _ => .failure

instance : Fintype ReloadOutcome :=
  Fintype.ofList [.success, .unchanged, .failure] (by intro outcome; cases outcome <;> decide)

theorem sum_reloadOutcome {M : Type} [AddCommMonoid M] (f : ReloadOutcome → M) :
    ∑ outcome, f outcome = f .success + f .unchanged + f .failure := by
  have huniv : (Finset.univ : Finset ReloadOutcome) = {.success, .unchanged, .failure} := rfl
  rw [huniv, Finset.sum_insert (by decide), Finset.sum_insert (by decide), Finset.sum_singleton,
    add_assoc]

section Reload
variable {σ : Type}

/-- The state that `main` leaves for a policy with a file source. -/
def Reloading.start (policy : SelectorPolicy) (now : SystemTime) : Reloading σ :=
  ⟨policy, MetricsInner.default.recordPolicyBaseline policy.rules.counts.1 policy.rules.counts.2 now⟩

def Reloading.cycle (s : Reloading σ) (c : Cycle) : Reloading σ :=
  let (policy, result) := s.policy.reload c.files
  let (activeKeys, activeKeyPrefixes) := policy.rules.counts
  ⟨policy, s.metrics.recordPolicyReload (reloadOutcome result) activeKeys activeKeyPrefixes c.now⟩

def Reloading.run (s : Reloading σ) (cycles : List Cycle) : Reloading σ := cycles.foldl .cycle s

/-- How the cycles end. -/
def Reloading.outcomes (s : Reloading σ) : List Cycle → List ReloadOutcome
  | [] => []
  | c :: cycles => reloadOutcome (s.policy.reload c.files).2 :: (s.cycle c).outcomes cycles

/-! ## One reload -/

theorem SelectorPolicy.reload_of_hasFile {policy : SelectorPolicy} (h : policy.sources.hasFile = true)
    (files : PolicyFiles) :
    policy.reload files = match policy.sources.evaluate files with
      | .error error => (policy, .error error)
      | .ok next => if policy.rules = next then (policy, .ok false) else
          ({ policy with rules := next }, .ok true) := by
  unfold SelectorPolicy.reload
  split
  · rename_i hnone
    rw [h] at hnone
    cases hnone
  · rfl

theorem SelectorPolicy.reload_reports {policy : SelectorPolicy} (files : PolicyFiles) :
    (policy.reload files).2 = .ok true ↔ (policy.reload files).1.rules ≠ policy.rules := by
  unfold SelectorPolicy.reload
  split
  · simp
  · split
    · simp
    · split
      · simp
      · rename_i hne
        simpa using Ne.symm hne

theorem SelectorPolicy.reload_failed {policy : SelectorPolicy} {files : PolicyFiles}
    {error : PolicyError} (h : policy.sources.evaluate files = .error error) :
    (policy.reload files).1 = policy := by
  unfold SelectorPolicy.reload
  split
  · rfl
  · rw [h]

theorem SelectorPolicy.reload_twice {policy : SelectorPolicy} (h : policy.sources.hasFile = true)
    (files : PolicyFiles) :
    (policy.reload files).1.reload files =
      ((policy.reload files).1, (policy.reload files).2.map (fun _ => false)) := by
  have hagain : (policy.reload files).1.sources.hasFile = true := by
    rw [policy.reload_sources]
    exact h
  rw [SelectorPolicy.reload_of_hasFile hagain, policy.reload_sources, policy.reload_of_hasFile h]
  cases policy.sources.evaluate files with
  | error error => rfl
  | ok next =>
    dsimp only
    split
    · rfl
    · rw [if_pos rfl]
      rfl

/-! ## Runs of the task -/

theorem Reloading.run_snoc (s : Reloading σ) (cycles : List Cycle) (c : Cycle) :
    s.run (cycles ++ [c]) = (s.run cycles).cycle c := by
  rw [Reloading.run, List.foldl_append]
  rfl

theorem Reloading.run_policy (s : Reloading σ) (cycles : List Cycle) :
    (s.run cycles).policy = s.policy.reloads (cycles.map (·.files)) := by
  induction cycles generalizing s with
  | nil => rfl
  | cons c cycles ih => exact ih (s.cycle c)

def Reloading.GaugesAgree (s : Reloading σ) : Prop :=
  s.metrics.policyActiveKeys = UInt64.ofNat s.policy.rules.counts.1 ∧
    s.metrics.policyActiveKeyPrefixes = UInt64.ofNat s.policy.rules.counts.2

theorem Reloading.run_gauges (policy : SelectorPolicy) (now : SystemTime) (cycles : List Cycle) :
    ((Reloading.start policy now : Reloading σ).run cycles).GaugesAgree := by
  induction cycles using List.reverseRecOn with
  | nil => exact ⟨rfl, rfl⟩
  | append_singleton cycles c _ =>
    rw [Reloading.run_snoc]
    exact ⟨rfl, rfl⟩

theorem Reloading.cycle_reloadCount (s : Reloading σ) (c : Cycle) (outcome : ReloadOutcome) :
    (s.cycle c).metrics.reloadCount outcome = s.metrics.reloadCount outcome +
      UInt64.ofNat ([reloadOutcome (s.policy.reload c.files).2].count outcome) := by
  unfold Reloading.cycle
  rw [MetricsInner.reloadCount_recordPolicyReload, Counter.increment_apply, List.count_singleton]
  simp only [beq_iff_eq]

theorem Reloading.run_reloadCount (s : Reloading σ) (cycles : List Cycle) (outcome : ReloadOutcome) :
    (s.run cycles).metrics.reloadCount outcome =
      s.metrics.reloadCount outcome + UInt64.ofNat ((s.outcomes cycles).count outcome) := by
  induction cycles generalizing s with
  | nil => exact (UInt64.add_zero _).symm
  | cons c cycles ih =>
    have hcount : (s.outcomes (c :: cycles)).count outcome =
        [reloadOutcome (s.policy.reload c.files).2].count outcome +
          ((s.cycle c).outcomes cycles).count outcome := by
      rw [← List.count_append]
      rfl
    rw [hcount, UInt64.ofNat_add, ← UInt64.add_assoc, ← s.cycle_reloadCount]
    exact ih (s.cycle c)

theorem Reloading.outcomes_length (s : Reloading σ) (cycles : List Cycle) :
    (s.outcomes cycles).length = cycles.length := by
  induction cycles generalizing s with
  | nil => rfl
  | cons c cycles ih => exact congrArg (· + 1) (ih (s.cycle c))

theorem Reloading.sum_count_outcomes (s : Reloading σ) (cycles : List Cycle) :
    ∑ outcome, (s.outcomes cycles).count outcome = cycles.length := by
  have hcard : ∑ outcome, (s.outcomes cycles : Multiset ReloadOutcome).count outcome =
      (s.outcomes cycles).length :=
    Multiset.sum_count_eq_card (fun outcome _ => Finset.mem_univ outcome)
  simpa only [Multiset.coe_count, s.outcomes_length] using hcard

theorem Reloading.run_counters (policy : SelectorPolicy) (now : SystemTime) (cycles : List Cycle) :
    ((Reloading.start policy now : Reloading σ).run cycles).metrics.reloadCount =
      fun outcome => UInt64.ofNat
        (((Reloading.start policy now : Reloading σ).outcomes cycles).count outcome) := by
  funext outcome
  rw [Reloading.run_reloadCount]
  exact UInt64.zero_add _

theorem SelectorPolicy.evaluate_of_fromArgs {args : PolicyArgs} {startup : PolicyFiles}
    {policy : SelectorPolicy} (h : SelectorPolicy.fromArgs args startup = .ok policy)
    (hfile : policy.sources.hasFile = true) : policy.sources.evaluate startup = .ok policy.rules := by
  obtain ⟨-, -, ⟨-, -, hnone⟩ | ⟨-, heval⟩⟩ := SelectorPolicy.fromArgs_eq_ok h
  · rw [hfile] at hnone
    cases hnone
  · exact heval

theorem reloadOutcome_eq_failure {result : Except PolicyError Bool} :
    reloadOutcome result = .failure ↔ ∃ error, result = .error error := by
  constructor
  · intro h
    match result with
    | .ok true => cases h
    | .ok false => cases h
    | .error error => exact ⟨error, rfl⟩
  · rintro ⟨error, rfl⟩
    rfl

theorem Reloading.cycle_lastSuccess_of_ok (s : Reloading σ) (c : Cycle)
    (h : ¬ ∃ error, (s.policy.reload c.files).2 = .error error) :
    (s.cycle c).metrics.policyLastSuccess = some c.now :=
  if_pos (mt reloadOutcome_eq_failure.mp h)

theorem Reloading.cycle_lastSuccess_of_error (s : Reloading σ) (c : Cycle)
    (h : ∃ error, (s.policy.reload c.files).2 = .error error) :
    (s.cycle c).metrics.policyLastSuccess = s.metrics.policyLastSuccess :=
  if_neg (not_not_intro (reloadOutcome_eq_failure.mpr h))

/-- What holds between the cycles. -/
structure Reloading.Consistent (policy : SelectorPolicy) (startup : PolicyFiles)
    (history : List Cycle) (s : Reloading σ) : Prop where
  rules : policy.sources.evaluate (lastEvaluated policy.sources startup (history.map (·.files))) =
    .ok s.policy.rules
  activeKeys : s.metrics.policyActiveKeys = UInt64.ofNat s.policy.rules.counts.1
  activeKeyPrefixes : s.metrics.policyActiveKeyPrefixes = UInt64.ofNat s.policy.rules.counts.2
  counters : s.metrics.reloadCount .success + s.metrics.reloadCount .unchanged +
    s.metrics.reloadCount .failure = UInt64.ofNat history.length
  /-- The same as numbers, as long as no counter can have wrapped. -/
  counted : history.length < 2 ^ 64 →
    (s.metrics.reloadCount .success).toNat + (s.metrics.reloadCount .unchanged).toNat +
      (s.metrics.reloadCount .failure).toNat = history.length

/-- What a cycle does. -/
structure Reloading.CycleLaw (s : Reloading σ) (c : Cycle) : Prop where
  keeps : ∀ error, s.policy.sources.evaluate c.files = .error error →
    (s.cycle c).policy = s.policy ∧ (s.policy.reload c.files).2 = .error error
  reports : (s.policy.reload c.files).2 = .ok true ↔ (s.cycle c).policy.rules ≠ s.policy.rules
  again : ∀ changed, (s.policy.reload c.files).2 = .ok changed →
    (s.cycle c).policy.reload c.files = ((s.cycle c).policy, .ok false)
  failsAgain : ∀ error, (s.policy.reload c.files).2 = .error error →
    (s.cycle c).policy.reload c.files = ((s.cycle c).policy, .error error)
  succeeded : (¬ ∃ error, (s.policy.reload c.files).2 = .error error) →
    (s.cycle c).metrics.policyLastSuccess = some c.now
  failed : (∃ error, (s.policy.reload c.files).2 = .error error) →
    (s.cycle c).metrics.policyLastSuccess = s.metrics.policyLastSuccess
  /-- Unless the clock shows the time of the last success again. -/
  moves : s.metrics.policyLastSuccess ≠ some c.now →
    ((s.cycle c).metrics.policyLastSuccess ≠ s.metrics.policyLastSuccess ↔
      ¬ ∃ error, (s.policy.reload c.files).2 = .error error)

theorem Reloading.run_consistent {policy : SelectorPolicy} {startup : PolicyFiles}
    (h : policy.sources.evaluate startup = .ok policy.rules) (now : SystemTime)
    (history : List Cycle) :
    Reloading.Consistent policy startup history
      ((Reloading.start policy now : Reloading σ).run history) := by
  have hrules := policy.reloads_evaluated h (history.map (·.files))
  have hgauges : ((Reloading.start policy now : Reloading σ).run history).GaugesAgree :=
    Reloading.run_gauges policy now history
  have hsum := (Reloading.start policy now : Reloading σ).sum_count_outcomes history
  refine ⟨?_, hgauges.1, hgauges.2, ?_, ?_⟩
  · rw [Reloading.run_policy]
    exact hrules
  · rw [Reloading.run_counters, ← hsum, Counter.ofNat_sum, sum_reloadOutcome]
  · intro hlength
    have hcounted := Counter.sum_toNat_ofNat (hsum.trans_lt hlength)
    rw [sum_reloadOutcome, hsum] at hcounted
    rw [Reloading.run_counters]
    exact hcounted

theorem Reloading.cycleLaw {s : Reloading σ} (h : s.policy.sources.hasFile = true) (c : Cycle) :
    s.CycleLaw c := by
  have hagain := SelectorPolicy.reload_twice h c.files
  refine ⟨?_, SelectorPolicy.reload_reports c.files, ?_, ?_, s.cycle_lastSuccess_of_ok c,
    s.cycle_lastSuccess_of_error c, ?_⟩
  · intro error herror
    refine ⟨SelectorPolicy.reload_failed herror, ?_⟩
    rw [SelectorPolicy.reload_of_hasFile h, herror]
  · intro changed hchanged
    rw [hchanged] at hagain
    exact hagain
  · intro error herror
    rw [herror] at hagain
    exact hagain
  · intro hnow
    constructor
    · intro hmoved hfailed
      exact hmoved (s.cycle_lastSuccess_of_error c hfailed)
    · intro hok
      rw [s.cycle_lastSuccess_of_ok c hok]
      exact hnow.symm

/-- After any cycles, and over one more. -/
theorem reload_task_and_metrics_agree (args : PolicyArgs) (startup : PolicyFiles)
    (policy : SelectorPolicy) (hpolicy : SelectorPolicy.fromArgs args startup = .ok policy)
    (hfile : policy.sources.hasFile = true) (now : SystemTime) (history : List Cycle) (c : Cycle) :
    Reloading.Consistent policy startup history
        ((Reloading.start policy now : Reloading σ).run history) ∧
      ((Reloading.start policy now : Reloading σ).run history).CycleLaw c := by
  refine ⟨Reloading.run_consistent (SelectorPolicy.evaluate_of_fromArgs hpolicy hfile) now history, ?_⟩
  refine Reloading.cycleLaw ?_ c
  rw [Reloading.run_policy, SelectorPolicy.reloads_sources]
  exact hfile

end Reload

def sampleCycles : List Cycle :=
  [⟨sampleFiles "name:app/\nname:web/\n", 20⟩, ⟨sampleFiles "name:app/\nname:web/\n", 50⟩,
    ⟨⟨⟨none, none⟩, ⟨none, none⟩⟩, 80⟩]

theorem sampleCycles_agree :
    Reloading.Consistent samplePolicy (sampleFiles "# apps\nname:app/ ,,\n") sampleCycles
        ((Reloading.start samplePolicy 10 : Reloading ℕ).run sampleCycles) ∧
      ((Reloading.start samplePolicy 10 : Reloading ℕ).run sampleCycles).CycleLaw
        ⟨sampleFiles "", 110⟩ :=
  reload_task_and_metrics_agree sampleArgs _ samplePolicy (by decide +kernel) (by decide) 10
    sampleCycles ⟨sampleFiles "", 110⟩

theorem failed_reload_fails_again :
    ¬ ∀ (args : PolicyArgs) (startup : PolicyFiles) (policy : SelectorPolicy) (now : SystemTime)
      (history : List Cycle) (c : Cycle),
      SelectorPolicy.fromArgs args startup = .ok policy → policy.sources.hasFile = true →
        ((((Reloading.start policy now : Reloading ℕ).run history).cycle c).policy.reload c.files).2 =
          .ok false := by
  intro h
  have hsecond := h sampleArgs (sampleFiles "# apps\nname:app/ ,,\n") samplePolicy 10 []
    ⟨⟨⟨none, none⟩, ⟨none, none⟩⟩, 20⟩ (by decide +kernel) (by decide)
  exact absurd hsecond (by decide)

end VaultwardenEso.Provider
