import VaultwardenEso.BwesoCore
import VaultwardenEso.Lib.Result

set_option autoImplicit false

/-! # The selector policy and its reloads: `main.rs` -/
namespace VaultwardenEso.Provider
open RustStr RustResult BwesoCore

inductive PolicyRules where
  | allowAll
  | allowList (allowedKeys allowedKeyPrefixes : List Str)
  deriving DecidableEq

def PolicyRules.allows (rules : PolicyRules) (key : Str) : Bool :=
  match rules with
  | .allowAll => true
  | .allowList allowedKeys allowedKeyPrefixes =>
    allowedKeys.any (fun allowedKey => allowedKey == key) ||
      allowedKeyPrefixes.any (fun keyPrefix => keyPrefix.isPrefixOf key)

/-- The failures of startup and reload. A path is as it is displayed; the cause that the
operating system gives is left out. -/
inductive PolicyError where
  | unconfigured
  | conflicting
  | validation (error : ValidationError)
  | stat (name : String) (path : Str)
  | tooLarge (name : String) (path : Str) (length : ℕ)
  | read (name : String) (path : Str)
  | emptyFiles
  | empty
  deriving DecidableEq

def maxPolicyFileBytes : ℕ := 4 * 1024 * 1024

def PolicyError.message : PolicyError → String
  | .unconfigured => "configure selector policy with allowed keys/prefixes, or explicitly set " ++
      "BWESO_ALLOW_ALL_SELECTORS=true when the provider account is already scoped to this trust boundary"
  | .conflicting =>
      "configure either selector allow-list entries or BWESO_ALLOW_ALL_SELECTORS=true, not both"
  | .validation (.emptyField field) => field ++ " must not be empty"
  | .stat name path => "failed to stat " ++ name ++ "_file " ++ String.ofList path
  | .tooLarge name path length => name ++ "_file " ++ String.ofList path ++ " is " ++ toString length ++
      " bytes, exceeding the " ++ toString maxPolicyFileBytes ++ " byte limit"
  | .read name path => "failed to read " ++ name ++ "_file " ++ String.ofList path
  | .emptyFiles => "selector policy file source is configured but evaluated to zero entries; " ++
      "refusing to fall back to allow-all"
  | .empty => "selector policy allow-list evaluated to zero entries"

/-- What the file system answers for one policy file: the length, unless `stat` fails, and then
the bytes, unless reading fails. The file may change in between. -/
structure FileView where
  length : Option ℕ
  bytes : Option Bytes

def FileView.contents (view : FileView) : Option Str := view.bytes.bind fromUtf8

/-- The entries of a policy file. -/
def policyEntries (contents : Str) : List Str :=
  (lines contents).flatMap (fun line =>
    let line := trim line
    if line = [] ∨ line.head? = some '#' then []
    else ((split ',' line).map trim).filter (fun entry => entry ≠ []))

def readPolicyFile (view : FileView) (path : Str) (name : String) : Except PolicyError (List Str) :=
  match view.length with
  | none => .error (.stat name path)
  | some length =>
    if length > maxPolicyFileBytes then .error (.tooLarge name path length)
    else match view.contents with
      | none => .error (.read name path)
      | some contents => .ok (policyEntries contents)

def normalizePolicyEntries (entries : List Str) (name : String) : Except PolicyError (List Str) :=
  entries.mapM (fun entry => do
    let entry := trim entry
    (requireNonEmpty entry name).mapError .validation
    pure entry)

structure PolicySources where
  inlineKeys : List Str
  inlineKeyPrefixes : List Str
  keysFile : Option Str
  keyPrefixesFile : Option Str
  deriving DecidableEq

def PolicySources.hasFile (sources : PolicySources) : Bool :=
  sources.keysFile.isSome || sources.keyPrefixesFile.isSome

structure PolicyFiles where
  keys : FileView
  keyPrefixes : FileView

def readFileSource (file : Option Str) (view : FileView) (name : String) :
    Except PolicyError (List Str) :=
  match file with
  | some path => readPolicyFile view path name
  | none => .ok []

def PolicySources.evaluate (sources : PolicySources) (files : PolicyFiles) :
    Except PolicyError PolicyRules := do
  let fileKeys ← readFileSource sources.keysFile files.keys "allowed_key"
  let allowedKeys := sources.inlineKeys ++ fileKeys
  let fileKeyPrefixes ← readFileSource sources.keyPrefixesFile files.keyPrefixes "allowed_key_prefix"
  let allowedKeyPrefixes := sources.inlineKeyPrefixes ++ fileKeyPrefixes
  if sources.hasFile ∧ allowedKeys = [] ∧ allowedKeyPrefixes = [] then .error .emptyFiles
  else if allowedKeys = [] ∧ allowedKeyPrefixes = [] then .error .empty
  else pure (.allowList allowedKeys allowedKeyPrefixes)

structure SelectorPolicy where
  rules : PolicyRules
  sources : PolicySources
  deriving DecidableEq

/-- The arguments that the policy reads; list arguments are split at commas by the parser. -/
structure PolicyArgs where
  allowedKeys : List Str
  allowedKeyPrefixes : List Str
  allowedKeysFile : Option Str
  allowedKeyPrefixesFile : Option Str
  allowAllSelectors : Bool

def SelectorPolicy.fromArgs (args : PolicyArgs) (files : PolicyFiles) :
    Except PolicyError SelectorPolicy :=
  let hasInlineEntries := args.allowedKeys ≠ [] ∨ args.allowedKeyPrefixes ≠ []
  let hasFileEntries := args.allowedKeysFile.isSome ∨ args.allowedKeyPrefixesFile.isSome
  if args.allowAllSelectors = false ∧ ¬ hasInlineEntries ∧ ¬ hasFileEntries then .error .unconfigured
  else if args.allowAllSelectors = true ∧ (hasInlineEntries ∨ hasFileEntries) then .error .conflicting
  else do
    let inlineKeys ← normalizePolicyEntries args.allowedKeys "allowed_key"
    let inlineKeyPrefixes ← normalizePolicyEntries args.allowedKeyPrefixes "allowed_key_prefix"
    let sources : PolicySources :=
      ⟨inlineKeys, inlineKeyPrefixes, args.allowedKeysFile, args.allowedKeyPrefixesFile⟩
    let rules ← (if args.allowAllSelectors then .ok .allowAll else sources.evaluate files)
    pure ⟨rules, sources⟩

def SelectorPolicy.reload (policy : SelectorPolicy) (files : PolicyFiles) :
    SelectorPolicy × Except PolicyError Bool :=
  if policy.sources.hasFile = false then (policy, .ok false)
  else match policy.sources.evaluate files with
    | .error error => (policy, .error error)
    | .ok next => if policy.rules = next then (policy, .ok false) else
        ({ policy with rules := next }, .ok true)

/-! ## What an evaluation gives -/

/-- A text that stands for itself in a policy: not empty, and with nothing to trim. -/
def IsEntry (entry : Str) : Prop := entry ≠ [] ∧ trim entry = entry

theorem isEntry_trim {entry : Str} (h : trim entry ≠ []) : IsEntry (trim entry) := ⟨h, trim_trim entry⟩

theorem isEntry_of_mem_policyEntries {contents entry : Str} (h : entry ∈ policyEntries contents) :
    IsEntry entry := by
  unfold policyEntries at h
  obtain ⟨line, -, hline⟩ := List.mem_flatMap.mp h
  dsimp only at hline
  split at hline
  · cases hline
  · obtain ⟨hmap, hne⟩ := List.mem_filter.mp hline
    obtain ⟨raw, -, rfl⟩ := List.mem_map.mp hmap
    exact isEntry_trim (of_decide_eq_true hne)

def fileEntries (file : Option Str) (view : FileView) : List Str :=
  match file, view.contents with
  | some _, some contents => policyEntries contents
  | _, _ => []

theorem isEntry_of_mem_fileEntries {file : Option Str} {view : FileView} {entry : Str}
    (h : entry ∈ fileEntries file view) : IsEntry entry := by
  unfold fileEntries at h
  split at h
  · exact isEntry_of_mem_policyEntries h
  · cases h

theorem readFileSource_eq_ok {file : Option Str} {view : FileView} {name : String} {entries : List Str}
    (h : readFileSource file view name = .ok entries) : entries = fileEntries file view := by
  unfold readFileSource at h
  cases file with
  | none =>
    cases h
    rfl
  | some path =>
    simp only [readPolicyFile] at h
    split at h
    · cases h
    · split at h
      · cases h
      · split at h
        · cases h
        · rename_i contents hcontents
          cases h
          simp only [fileEntries, hcontents]

theorem normalizePolicyEntries_eq_ok {entries normalized : List Str} {name : String}
    (h : normalizePolicyEntries entries name = .ok normalized) :
    normalized = entries.map trim ∧ ∀ entry ∈ normalized, IsEntry entry := by
  have hrel := mapM_eq_ok.mp h
  clear h
  induction hrel with
  | nil => exact ⟨rfl, nofun⟩
  | @cons entry norm entries normalized hentry _ ih =>
    obtain ⟨_, hne, hnorm⟩ := bind_eq_ok.mp hentry
    rw [pure_eq_ok] at hnorm
    rw [mapError_eq_ok, requireNonEmpty_eq_ok, trim_trim] at hne
    obtain ⟨hmap, hall⟩ := ih
    refine ⟨by rw [List.map_cons, hmap, hnorm], ?_⟩
    intro e he
    rcases List.mem_cons.mp he with rfl | he
    · rw [← hnorm]
      exact isEntry_trim hne
    · exact hall e he

theorem PolicySources.evaluate_eq_ok {sources : PolicySources} {files : PolicyFiles}
    {rules : PolicyRules} (h : sources.evaluate files = .ok rules) :
    rules = .allowList (sources.inlineKeys ++ fileEntries sources.keysFile files.keys)
        (sources.inlineKeyPrefixes ++ fileEntries sources.keyPrefixesFile files.keyPrefixes) ∧
      ¬ (sources.inlineKeys ++ fileEntries sources.keysFile files.keys = [] ∧
        sources.inlineKeyPrefixes ++ fileEntries sources.keyPrefixesFile files.keyPrefixes = []) := by
  obtain ⟨fileKeys, hkeys, h⟩ := bind_eq_ok.mp h
  obtain ⟨fileKeyPrefixes, hprefixes, h⟩ := bind_eq_ok.mp h
  rw [readFileSource_eq_ok hkeys, readFileSource_eq_ok hprefixes] at h
  dsimp only at h
  split at h
  · cases h
  · split at h
    · cases h
    · rename_i hne
      rw [pure_eq_ok] at h
      exact ⟨h.symm, hne⟩

theorem PolicyRules.allows_allowList {keys prefixes : List Str} {key : Str} :
    (PolicyRules.allowList keys prefixes).allows key = true ↔
      key ∈ keys ∨ ∃ p ∈ prefixes, p <+: key := by
  simp [PolicyRules.allows]

/-! ## Startup and reloads -/

theorem SelectorPolicy.reload_sources (policy : SelectorPolicy) (files : PolicyFiles) :
    (policy.reload files).1.sources = policy.sources := by
  unfold SelectorPolicy.reload
  split
  · rfl
  · split
    · rfl
    · split <;> rfl

theorem SelectorPolicy.reload_rules (policy : SelectorPolicy) (files : PolicyFiles) :
    (policy.reload files).1.rules =
      if policy.sources.hasFile = true then
        match policy.sources.evaluate files with
        | .ok next => next
        | .error _ => policy.rules
      else policy.rules := by
  unfold SelectorPolicy.reload
  by_cases hfile : policy.sources.hasFile = true
  · rw [if_neg (by simp [hfile]), if_pos hfile]
    cases policy.sources.evaluate files with
    | error error => rfl
    | ok next =>
      dsimp only
      split
      · assumption
      · rfl
  · rw [if_pos (by simpa using hfile), if_neg hfile]

/-- The policy after the reloads of `history`, in order. -/
def SelectorPolicy.reloads (policy : SelectorPolicy) (history : List PolicyFiles) : SelectorPolicy :=
  history.foldl (fun policy files => (policy.reload files).1) policy

/-- The view of the files at the last evaluation that succeeded. -/
def lastEvaluated (sources : PolicySources) (startup : PolicyFiles) (history : List PolicyFiles) :
    PolicyFiles :=
  history.foldl (fun last files =>
    match sources.evaluate files with
    | .ok _ => files
    | .error _ => last) startup

theorem SelectorPolicy.reloads_sources (policy : SelectorPolicy) (history : List PolicyFiles) :
    (policy.reloads history).sources = policy.sources := by
  induction history using List.reverseRecOn with
  | nil => rfl
  | append_singleton history files ih =>
    rw [SelectorPolicy.reloads, List.foldl_append] at *
    exact (SelectorPolicy.reload_sources _ files).trans ih

theorem PolicySources.evaluate_of_no_file {sources : PolicySources} (h : sources.hasFile = false)
    (files files' : PolicyFiles) : sources.evaluate files = sources.evaluate files' := by
  simp only [PolicySources.hasFile, Bool.or_eq_false_iff, Option.isSome_eq_false_iff,
    Option.isNone_iff_eq_none] at h
  simp only [PolicySources.evaluate, h.1, h.2, readFileSource]

theorem SelectorPolicy.reloads_evaluated {policy : SelectorPolicy} {startup : PolicyFiles}
    (h : policy.sources.evaluate startup = .ok policy.rules) (history : List PolicyFiles) :
    policy.sources.evaluate (lastEvaluated policy.sources startup history) =
      .ok (policy.reloads history).rules := by
  induction history using List.reverseRecOn with
  | nil => exact h
  | append_singleton history files ih =>
    have hsources := policy.reloads_sources history
    have hrules := (policy.reloads history).reload_rules files
    simp only [SelectorPolicy.reloads, lastEvaluated, List.foldl_append, List.foldl_cons,
      List.foldl_nil] at *
    simp only [hsources] at hrules
    rw [hrules]
    by_cases hfile : policy.sources.hasFile = true
    · rw [if_pos hfile]
      cases heval : policy.sources.evaluate files with
      | ok next => exact heval
      | error error => exact ih
    · rw [if_neg hfile, PolicySources.evaluate_of_no_file (by simpa using hfile) _ startup, h]
      rw [PolicySources.evaluate_of_no_file (by simpa using hfile) _ startup, h] at ih
      exact ih

theorem SelectorPolicy.fromArgs_eq_ok {args : PolicyArgs} {files : PolicyFiles}
    {policy : SelectorPolicy} (h : SelectorPolicy.fromArgs args files = .ok policy) :
    policy.sources = ⟨args.allowedKeys.map trim, args.allowedKeyPrefixes.map trim,
      args.allowedKeysFile, args.allowedKeyPrefixesFile⟩ ∧
      (∀ entry ∈ policy.sources.inlineKeys ++ policy.sources.inlineKeyPrefixes, IsEntry entry) ∧
      ((args.allowAllSelectors = true ∧ policy.rules = .allowAll ∧ policy.sources.hasFile = false) ∨
        (args.allowAllSelectors = false ∧ policy.sources.evaluate files = .ok policy.rules)) := by
  simp only [SelectorPolicy.fromArgs] at h
  split at h
  · cases h
  · split at h
    · cases h
    · rename_i hconflict
      obtain ⟨inlineKeys, hkeys, h⟩ := bind_eq_ok.mp h
      obtain ⟨inlineKeyPrefixes, hprefixes, h⟩ := bind_eq_ok.mp h
      obtain ⟨rules, hrules, h⟩ := bind_eq_ok.mp h
      rw [pure_eq_ok] at h
      subst h
      obtain ⟨rfl, hentries⟩ := normalizePolicyEntries_eq_ok hkeys
      obtain ⟨rfl, hentries'⟩ := normalizePolicyEntries_eq_ok hprefixes
      refine ⟨rfl, ?_, ?_⟩
      · intro entry he
        rcases List.mem_append.mp he with he | he
        · exact hentries entry he
        · exact hentries' entry he
      · by_cases hall : args.allowAllSelectors = true
        · rw [if_pos hall, Except.ok.injEq] at hrules
          have hfile : args.allowedKeysFile.isSome = false ∧
              args.allowedKeyPrefixesFile.isSome = false := by
            by_contra hsome
            apply hconflict
            refine ⟨hall, .inr ?_⟩
            by_contra hnone
            push Not at hnone
            simp only [ne_eq, Bool.not_eq_true] at hnone
            exact hsome hnone
          refine .inl ⟨hall, hrules.symm, ?_⟩
          simp only [PolicySources.hasFile, hfile.1, hfile.2, Bool.or_self]
        · rw [if_neg hall] at hrules
          exact .inr ⟨by simpa using hall, hrules⟩

theorem SelectorPolicy.reloads_of_no_file {policy : SelectorPolicy}
    (h : policy.sources.hasFile = false) (history : List PolicyFiles) :
    policy.reloads history = policy := by
  induction history with
  | nil => rfl
  | cons files history ih =>
    have hreload : (policy.reload files).1 = policy := by
      rw [SelectorPolicy.reload, if_pos h]
    rw [SelectorPolicy.reloads, List.foldl_cons, hreload]
    exact ih

theorem policy_never_widens (args : PolicyArgs) (startup : PolicyFiles) (policy : SelectorPolicy)
    (h : SelectorPolicy.fromArgs args startup = .ok policy) (history : List PolicyFiles) :
    ((policy.reloads history).rules = .allowAll ↔ args.allowAllSelectors = true) ∧
    (args.allowAllSelectors = false →
      ∃ keys prefixes, (policy.reloads history).rules = .allowList keys prefixes ∧
        (keys ≠ [] ∨ prefixes ≠ []) ∧
        (∀ entry ∈ keys ++ prefixes, entry ≠ [] ∧ trim entry = entry) ∧
        (∀ key ∈ args.allowedKeys, trim key ∈ keys) ∧
        (∀ p ∈ args.allowedKeyPrefixes, trim p ∈ prefixes) ∧
        ∀ key, (policy.reloads history).rules.allows key = true ↔
          (key ∈ args.allowedKeys.map trim ∨ key ∈ fileEntries args.allowedKeysFile
            (lastEvaluated policy.sources startup history).keys) ∨
          ∃ p, p <+: key ∧ (p ∈ args.allowedKeyPrefixes.map trim ∨
            p ∈ fileEntries args.allowedKeyPrefixesFile
            (lastEvaluated policy.sources startup history).keyPrefixes)) := by
  obtain ⟨hsources, hentries, hcases⟩ := SelectorPolicy.fromArgs_eq_ok h
  obtain ⟨hall, hrules, hfile⟩ | ⟨hall, heval⟩ := hcases
  · rw [SelectorPolicy.reloads_of_no_file hfile, hall, hrules]
    exact ⟨Iff.rfl.trans (by simp), nofun⟩
  · obtain ⟨hlist, hne⟩ := PolicySources.evaluate_eq_ok (SelectorPolicy.reloads_evaluated heval history)
    generalize hlast : lastEvaluated policy.sources startup history = last at hlist hne ⊢
    have hkeys : policy.sources.inlineKeys = args.allowedKeys.map trim := by rw [hsources]
    have hprefixes : policy.sources.inlineKeyPrefixes = args.allowedKeyPrefixes.map trim := by
      rw [hsources]
    have hkeysFile : policy.sources.keysFile = args.allowedKeysFile := by rw [hsources]
    have hprefixesFile : policy.sources.keyPrefixesFile = args.allowedKeyPrefixesFile := by
      rw [hsources]
    rw [hkeys, hprefixes, hkeysFile, hprefixesFile] at hlist hne
    rw [hkeys, hprefixes] at hentries
    rw [hlist, hall]
    refine ⟨by simp, fun _ => ⟨_, _, rfl, ?_, ?_, ?_, ?_, ?_⟩⟩
    · by_contra hnone
      push Not at hnone
      exact hne hnone
    · intro entry he
      rcases List.mem_append.mp he with he | he
      · rcases List.mem_append.mp he with he | he
        · exact hentries entry (List.mem_append_left _ he)
        · exact isEntry_of_mem_fileEntries he
      · rcases List.mem_append.mp he with he | he
        · exact hentries entry (List.mem_append_right _ he)
        · exact isEntry_of_mem_fileEntries he
    · intro key hkey
      exact List.mem_append_left _ (List.mem_map_of_mem hkey)
    · intro p hp
      exact List.mem_append_left _ (List.mem_map_of_mem hp)
    · intro key
      rw [PolicyRules.allows_allowList, List.mem_append]
      simp only [List.mem_append]
      constructor
      · intro hallowed
        rcases hallowed with hkey | ⟨p, hp, hprefix⟩
        · exact .inl hkey
        · exact .inr ⟨p, hprefix, hp⟩
      · intro hallowed
        rcases hallowed with hkey | ⟨p, hprefix, hp⟩
        · exact .inl hkey
        · exact .inr ⟨p, hp, hprefix⟩

def sampleArgs : PolicyArgs :=
  ⟨[" id:cipher-login ".toList], [], none, some "/policy/prefixes".toList, false⟩

def sampleFiles (prefixes : String) : PolicyFiles :=
  let bytes := asBytes prefixes.toList
  ⟨⟨none, none⟩, ⟨some bytes.length, some bytes⟩⟩

def samplePolicy : SelectorPolicy :=
  ⟨.allowList ["id:cipher-login".toList] ["name:app/".toList],
    ⟨["id:cipher-login".toList], [], none, some "/policy/prefixes".toList⟩⟩

def sampleHistory : List PolicyFiles := [sampleFiles " , ,\n#name:\n", ⟨⟨none, none⟩, ⟨none, none⟩⟩]

theorem samplePolicy_reloads :
    SelectorPolicy.fromArgs sampleArgs (sampleFiles "# apps\nname:app/ ,,\n") = .ok samplePolicy ∧
      ∃ keys prefixes, (samplePolicy.reloads sampleHistory).rules = .allowList keys prefixes ∧
        "id:cipher-login".toList ∈ keys ∧ ∀ entry ∈ keys ++ prefixes, entry ≠ [] := by
  have hstart : SelectorPolicy.fromArgs sampleArgs (sampleFiles "# apps\nname:app/ ,,\n") =
      .ok samplePolicy := by
    decide +kernel
  obtain ⟨-, hlist⟩ := policy_never_widens sampleArgs _ samplePolicy hstart sampleHistory
  obtain ⟨keys, prefixes, hrules, -, hentries, hinline, -⟩ := hlist rfl
  have htrim : trim " id:cipher-login ".toList = "id:cipher-login".toList := by decide +kernel
  refine ⟨hstart, keys, prefixes, hrules, ?_, fun entry he => (hentries entry he).1⟩
  rw [← htrim]
  exact hinline _ (by simp [sampleArgs])

end VaultwardenEso.Provider
