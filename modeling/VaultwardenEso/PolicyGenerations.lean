import VaultwardenEso.Policy
import VaultwardenEso.Lib.Machine

set_option autoImplicit false

/-!
# Policy files that change while they are read

A swap replaces both files at once; an evaluation looks at one after the other. The length
and the contents of a file are two looks at its path, each of one generation.
-/
namespace VaultwardenEso.Provider
open RustStr BwesoCore

/-- The two files of a mounted `ConfigMap`, if the generation has them. -/
structure Generation where
  keys : Option Bytes
  keyPrefixes : Option Bytes

def viewOf (bytes : Option Bytes) : FileView := ⟨bytes.map List.length, bytes⟩

def PolicySources.rulesIn (sources : PolicySources) (g : Generation) : PolicyRules :=
  .allowList (sources.inlineKeys ++ fileEntries sources.keysFile (viewOf g.keys))
    (sources.inlineKeyPrefixes ++ fileEntries sources.keyPrefixesFile (viewOf g.keyPrefixes))

/-- The next look that the evaluation takes. -/
inductive Stage where
  | statKeys
  | readKeys
  | statKeyPrefixes
  | readKeyPrefixes
  | done
  deriving DecidableEq

/-- An evaluation under way: how many swaps there were, the next look, what the looks so far
saw, and in which generation the contents were read. -/
structure Evaluation where
  current : ℕ
  stage : Stage
  files : PolicyFiles
  keysFrom : ℕ
  keyPrefixesFrom : ℕ

def Evaluation.start : Evaluation := ⟨0, .statKeys, ⟨⟨none, none⟩, ⟨none, none⟩⟩, 0, 0⟩

inductive Event where
  | swap
  | look
  deriving DecidableEq

/-- A look at a file that is not configured, or after an error, is one that nobody uses. -/
def Evaluation.look (g : Generation) (s : Evaluation) : Option Evaluation :=
  match s.stage with
  | .statKeys => some { s with
      stage := .readKeys, files := { s.files with keys := ⟨g.keys.map List.length, none⟩ } }
  | .readKeys => some { s with
      stage := .statKeyPrefixes, keysFrom := s.current
      files := { s.files with keys := ⟨s.files.keys.length, g.keys⟩ } }
  | .statKeyPrefixes => some { s with
      stage := .readKeyPrefixes
      files := { s.files with keyPrefixes := ⟨g.keyPrefixes.map List.length, none⟩ } }
  | .readKeyPrefixes => some { s with
      stage := .done, keyPrefixesFrom := s.current
      files := { s.files with keyPrefixes := ⟨s.files.keyPrefixes.length, g.keyPrefixes⟩ } }
  | .done => none

def evaluationStep (generations : ℕ → Generation) (s : Evaluation) : Event → Option Evaluation
  | .swap => some { s with current := s.current + 1 }
  | .look => s.look (generations s.current)

/-! ## From which generations the contents come -/

/-- What the looks so far saw, told by the generations of the contents. -/
def Evaluation.Sound (generations : ℕ → Generation) (s : Evaluation) : Prop :=
  match s.stage with
  | .statKeys | .readKeys => True
  | .statKeyPrefixes | .readKeyPrefixes =>
    s.files.keys.bytes = (generations s.keysFrom).keys ∧ s.keysFrom ≤ s.current
  | .done =>
    s.files.keys.bytes = (generations s.keysFrom).keys ∧
      s.files.keyPrefixes.bytes = (generations s.keyPrefixesFrom).keyPrefixes ∧
      s.keysFrom ≤ s.keyPrefixesFrom ∧ s.keyPrefixesFrom ≤ s.current

theorem Evaluation.Sound.swap {generations : ℕ → Generation} {s : Evaluation}
    (h : s.Sound generations) : Evaluation.Sound generations { s with current := s.current + 1 } := by
  obtain ⟨current, stage, files, keysFrom, keyPrefixesFrom⟩ := s
  cases stage with
  | statKeys => trivial
  | readKeys => trivial
  | statKeyPrefixes => exact ⟨h.1, Nat.le_succ_of_le h.2⟩
  | readKeyPrefixes => exact ⟨h.1, Nat.le_succ_of_le h.2⟩
  | done => exact ⟨h.1, h.2.1, h.2.2.1, Nat.le_succ_of_le h.2.2.2⟩

theorem Evaluation.Sound.look {generations : ℕ → Generation} {s u : Evaluation}
    (h : s.Sound generations) (hlook : s.look (generations s.current) = some u) :
    u.Sound generations := by
  obtain ⟨current, stage, files, keysFrom, keyPrefixesFrom⟩ := s
  cases stage with
  | statKeys =>
    cases hlook
    trivial
  | readKeys =>
    cases hlook
    exact ⟨rfl, le_rfl⟩
  | statKeyPrefixes =>
    cases hlook
    exact h
  | readKeyPrefixes =>
    cases hlook
    exact ⟨h.1, rfl, h.2, le_rfl⟩
  | done => cases hlook

theorem evaluation_sound {generations : ℕ → Generation} {events : List Event} {s : Evaluation}
    (h : Machine.run (evaluationStep generations) .start events = some s) : s.Sound generations := by
  have hstart : Evaluation.start.Sound generations := trivial
  refine Machine.run_invariant ?_ hstart h
  intro s event u hs hstep
  cases event with
  | swap =>
    cases hstep
    exact hs.swap
  | look => exact hs.look hstep

/-- No swap falls between the reading of one file and of the other. -/
def undisturbed (s : Evaluation) (event : Event) : Bool :=
  !(event = .swap && (s.stage = .statKeyPrefixes || s.stage = .readKeyPrefixes))

def Evaluation.OneGeneration (s : Evaluation) : Prop :=
  match s.stage with
  | .statKeys | .readKeys => True
  | .statKeyPrefixes | .readKeyPrefixes => s.keysFrom = s.current
  | .done => s.keysFrom = s.keyPrefixesFrom

theorem evaluation_oneGeneration {generations : ℕ → Generation} {events : List Event} {s : Evaluation}
    (h : Machine.run (Machine.guarded undisturbed (evaluationStep generations)) .start events =
      some s) : s.OneGeneration := by
  have hstart : Evaluation.start.OneGeneration := trivial
  refine Machine.run_invariant ?_ hstart h
  intro s event u hs hstep
  obtain ⟨hquiet, hstep⟩ := Machine.guarded_eq_some.mp hstep
  obtain ⟨current, stage, files, keysFrom, keyPrefixesFrom⟩ := s
  cases event with
  | swap =>
    cases hstep
    cases stage with
    | statKeys => trivial
    | readKeys => trivial
    | statKeyPrefixes => cases hquiet
    | readKeyPrefixes => cases hquiet
    | done => exact hs
  | look =>
    cases stage with
    | statKeys =>
      cases hstep
      trivial
    | readKeys =>
      cases hstep
      exact rfl
    | statKeyPrefixes =>
      cases hstep
      exact hs
    | readKeyPrefixes =>
      cases hstep
      exact hs
    | done => cases hstep

theorem fileEntries_congr {file : Option Str} {view view' : FileView} (h : view.bytes = view'.bytes) :
    fileEntries file view = fileEntries file view' := by
  simp only [fileEntries, FileView.contents, h]

theorem fileEntries_none (view : FileView) : fileEntries none view = [] := rfl

theorem evaluation_rules {sources : PolicySources} {generations : ℕ → Generation}
    {s : Evaluation} {rules : PolicyRules} (h : s.Sound generations) (hdone : s.stage = .done)
    (hok : sources.evaluate s.files = .ok rules) :
    s.keysFrom ≤ s.keyPrefixesFrom ∧ s.keyPrefixesFrom ≤ s.current ∧
      rules = .allowList
        (sources.inlineKeys ++
          fileEntries sources.keysFile (viewOf (generations s.keysFrom).keys))
        (sources.inlineKeyPrefixes ++
          fileEntries sources.keyPrefixesFile (viewOf (generations s.keyPrefixesFrom).keyPrefixes)) := by
  simp only [Evaluation.Sound, hdone] at h
  obtain ⟨hkeys, hprefixes, hle, hcurrent⟩ := h
  obtain ⟨hrules, -⟩ := PolicySources.evaluate_eq_ok hok
  refine ⟨hle, hcurrent, ?_⟩
  have hkeys' : s.files.keys.bytes = (viewOf (generations s.keysFrom).keys).bytes := hkeys
  have hprefixes' : s.files.keyPrefixes.bytes =
      (viewOf (generations s.keyPrefixesFrom).keyPrefixes).bytes := hprefixes
  rw [hrules, fileEntries_congr hkeys', fileEntries_congr hprefixes']

theorem lists_are_of_one_generation_each (sources : PolicySources) (generations : ℕ → Generation)
    (events : List Event) (s : Evaluation) (rules : PolicyRules)
    (hrun : Machine.run (evaluationStep generations) .start events = some s)
    (hdone : s.stage = .done) (hok : sources.evaluate s.files = .ok rules) :
    (∃ i j, i ≤ j ∧ j ≤ s.current ∧
      rules = .allowList
        (sources.inlineKeys ++ fileEntries sources.keysFile (viewOf (generations i).keys))
        (sources.inlineKeyPrefixes ++
          fileEntries sources.keyPrefixesFile (viewOf (generations j).keyPrefixes))) ∧
      (sources.keysFile = none ∨ sources.keyPrefixesFile = none →
        ∃ i ≤ s.current, rules = sources.rulesIn (generations i)) ∧
      (Machine.run (Machine.guarded undisturbed (evaluationStep generations)) .start events = some s →
        ∃ i ≤ s.current, rules = sources.rulesIn (generations i)) := by
  obtain ⟨hle, hcurrent, hrules⟩ := evaluation_rules (evaluation_sound hrun) hdone hok
  refine ⟨⟨s.keysFrom, s.keyPrefixesFrom, hle, hcurrent, hrules⟩, ?_, ?_⟩
  · rintro (hnone | hnone)
    · refine ⟨s.keyPrefixesFrom, hcurrent, ?_⟩
      rw [hrules, PolicySources.rulesIn, hnone, fileEntries_none, fileEntries_none]
    · refine ⟨s.keysFrom, hle.trans hcurrent, ?_⟩
      rw [hrules, PolicySources.rulesIn, hnone, fileEntries_none, fileEntries_none]
  · intro hquiet
    have hone := evaluation_oneGeneration hquiet
    simp only [Evaluation.OneGeneration, hdone] at hone
    refine ⟨s.keyPrefixesFrom, hcurrent, ?_⟩
    rw [hrules, PolicySources.rulesIn, hone]

def sampleGenerations (n : ℕ) : Generation :=
  if n = 0 then ⟨some (asBytes "id:a".toList), some (asBytes "name:a/".toList)⟩
  else ⟨some (asBytes "id:b".toList), some (asBytes "name:b/".toList)⟩

def sampleSources : PolicySources :=
  ⟨[], [], some "/policy/keys".toList, some "/policy/prefixes".toList⟩

def swapBetween : Evaluation where
  current := 1
  stage := .done
  files := ⟨viewOf (sampleGenerations 0).keys, viewOf (sampleGenerations 1).keyPrefixes⟩
  keysFrom := 0
  keyPrefixesFrom := 1

theorem swapBetween_lists :
    Machine.run (evaluationStep sampleGenerations) .start [.look, .look, .swap, .look, .look] =
        some swapBetween ∧
      ∃ i j, i ≤ j ∧ j ≤ swapBetween.current ∧
        PolicyRules.allowList ["id:a".toList] ["name:b/".toList] = .allowList
          (sampleSources.inlineKeys ++
            fileEntries sampleSources.keysFile (viewOf (sampleGenerations i).keys))
          (sampleSources.inlineKeyPrefixes ++
            fileEntries sampleSources.keyPrefixesFile (viewOf (sampleGenerations j).keyPrefixes)) :=
  ⟨rfl, (lists_are_of_one_generation_each sampleSources sampleGenerations
    [.look, .look, .swap, .look, .look] swapBetween _ rfl rfl (by decide +kernel)).1⟩

theorem swap_mixes_generations :
    ¬ ∀ (sources : PolicySources) (generations : ℕ → Generation) (events : List Event)
      (s : Evaluation) (rules : PolicyRules),
      Machine.run (evaluationStep generations) .start events = some s → s.stage = .done →
        sources.evaluate s.files = .ok rules → ∃ i, rules = sources.rulesIn (generations i) := by
  intro h
  obtain ⟨i, hi⟩ := h sampleSources sampleGenerations [.look, .look, .swap, .look, .look] swapBetween
    (.allowList ["id:a".toList] ["name:b/".toList]) rfl rfl (by decide +kernel)
  cases i with
  | zero => exact absurd hi (by decide +kernel)
  | succ i =>
    have hlater : sampleGenerations (i + 1) = sampleGenerations 1 := rfl
    rw [hlater] at hi
    exact absurd hi (by decide +kernel)

end VaultwardenEso.Provider
