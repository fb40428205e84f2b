import VaultwardenEso.Policy

set_option autoImplicit false

/-!
# Policy files as texts

A file says what its lines say, one after the other, and a line says nothing but its
entries. Which keys a policy allows depends on the set of lines only.
-/
namespace VaultwardenEso.Provider
open RustStr RustResult BwesoCore

/-! ## Lines -/

def lineEntries (line : Str) : List Str :=
  let line := trim line
  if line = [] ∨ line.head? = some '#' then []
  else ((split ',' line).map trim).filter (fun entry => entry ≠ [])

/-- The lines that are neither blank nor comments, without the white space around them. -/
def ruleLines (contents : Str) : List Str :=
  ((lines contents).map trim).filter (fun line => line ≠ [] ∧ line.head? ≠ some '#')

theorem lineEntries_congr {line other : Str} (h : trim line = trim other) :
    lineEntries line = lineEntries other := by
  unfold lineEntries
  rw [h]

theorem mem_ruleLines {contents line : Str} :
    line ∈ ruleLines contents ↔
      (∃ raw ∈ lines contents, trim raw = line) ∧ line ≠ [] ∧ line.head? ≠ some '#' := by
  rw [ruleLines, List.mem_filter, List.mem_map, decide_eq_true_eq]

theorem rule_of_mem_lineEntries {line entry : Str} (h : entry ∈ lineEntries line) :
    trim line ≠ [] ∧ (trim line).head? ≠ some '#' := by
  unfold lineEntries at h
  dsimp only at h
  split at h
  · cases h
  · rename_i hrule
    exact not_or.mp hrule

theorem policyEntries_eq (contents : Str) :
    policyEntries contents = (split '\n' contents).flatMap lineEntries :=
  flatMap_lines rfl (fun line => lineEntries_congr (trim_stripCarriageReturn line)) contents

theorem policyEntries_append (a b : Str) :
    policyEntries (a ++ '\n' :: b) = policyEntries a ++ policyEntries b := by
  rw [policyEntries_eq, policyEntries_eq, policyEntries_eq, split, split, split,
    List.splitOn_append_cons_self, List.flatMap_append]

theorem policyEntries_line {line : Str} (h : '\n' ∉ line) :
    policyEntries line = lineEntries line := by
  have hsplit : split '\n' line = [line] := List.splitOn_eq_singleton h
  rw [policyEntries_eq, hsplit, List.flatMap_singleton]

/-! ## Entries -/

/-- What a file can spell: an entry in which no line and no item of a line ends. -/
def Writable (entry : Str) : Prop := IsEntry entry ∧ ',' ∉ entry ∧ '\n' ∉ entry

theorem writable_of_mem_policyEntries {contents entry : Str}
    (h : entry ∈ policyEntries contents) : Writable entry := by
  refine ⟨isEntry_of_mem_policyEntries h, ?_⟩
  rw [policyEntries_eq] at h
  obtain ⟨line, hline, hentry⟩ := List.mem_flatMap.mp h
  unfold lineEntries at hentry
  dsimp only at hentry
  split at hentry
  · cases hentry
  · obtain ⟨raw, hraw, rfl⟩ := List.mem_map.mp (List.mem_filter.mp hentry).1
    refine ⟨?_, ?_⟩
    · intro hcomma
      exact not_mem_of_mem_split hraw (mem_of_mem_trim hcomma)
    · intro hfeed
      have htrimmed := mem_of_mem_split hraw (mem_of_mem_trim hfeed)
      exact not_mem_of_mem_split hline (mem_of_mem_trim htrimmed)

theorem lineEntries_entry {entry : Str} (h : Writable entry) (hcomment : entry.head? ≠ some '#') :
    lineEntries entry = [entry] := by
  obtain ⟨⟨hne, htrim⟩, hcomma, -⟩ := h
  have hsplit : split ',' entry = [entry] := List.splitOn_eq_singleton hcomma
  unfold lineEntries
  dsimp only
  rw [htrim, if_neg (not_or.mpr ⟨hne, hcomment⟩), hsplit, List.map_singleton, htrim]
  simp [hne]

theorem policyEntries_join {ending : Str} (hending : ending = [] ∨ ending = ['\r'])
    {entries : List Str} (h : ∀ entry ∈ entries, Writable entry ∧ entry.head? ≠ some '#') :
    policyEntries ((ending ++ ['\n']).intercalate entries) = entries := by
  induction entries with
  | nil => rfl
  | cons entry rest ih =>
    obtain ⟨hwritable, hcomment⟩ := h entry List.mem_cons_self
    cases rest with
    | nil =>
      rw [List.intercalate_singleton, policyEntries_line hwritable.2.2,
        lineEntries_entry hwritable hcomment]
    | cons next rest =>
      have hline : '\n' ∉ entry ++ ending := by
        rcases hending with rfl | rfl
        · rw [List.append_nil]
          exact hwritable.2.2
        · simpa using hwritable.2.2
      have htrim : trim (entry ++ ending) = trim entry := by
        rcases hending with rfl | rfl
        · rw [List.append_nil]
        · exact trim_concat (by decide) entry
      have hjoin : (ending ++ ['\n']).intercalate (entry :: next :: rest) =
          (entry ++ ending) ++ '\n' :: (ending ++ ['\n']).intercalate (next :: rest) := by
        rw [List.intercalate_cons_cons]
        simp
      rw [hjoin, policyEntries_append, policyEntries_line hline, lineEntries_congr htrim,
        lineEntries_entry hwritable hcomment, ih (fun e he => h e (List.mem_cons_of_mem _ he)),
        List.singleton_append]

/-! ## Edits of a file -/

/-- The file is within the limit and holds that text. -/
def FileView.Holds (view : FileView) (contents : Str) : Prop :=
  (∃ length, view.length = some length ∧ length ≤ maxPolicyFileBytes) ∧
    view.contents = some contents

theorem FileView.Holds.readPolicyFile {view : FileView} {contents : Str} (h : view.Holds contents)
    (path : Str) (name : String) :
    readPolicyFile view path name = .ok (policyEntries contents) := by
  obtain ⟨⟨length, hlength, hle⟩, hcontents⟩ := h
  unfold Provider.readPolicyFile
  rw [hlength]
  dsimp only
  rw [if_neg (Nat.not_lt.mpr hle), hcontents]

theorem mem_policyEntries {contents entry : Str} :
    entry ∈ policyEntries contents ↔ ∃ line ∈ lines contents, entry ∈ lineEntries line :=
  List.mem_flatMap

theorem policyEntries_subset {contents contents' : Str}
    (h : ruleLines contents ⊆ ruleLines contents') :
    policyEntries contents ⊆ policyEntries contents' := by
  intro entry hentry
  obtain ⟨line, hline, hmem⟩ := mem_policyEntries.mp hentry
  have hrule : trim line ∈ ruleLines contents :=
    mem_ruleLines.mpr ⟨⟨line, hline, rfl⟩, rule_of_mem_lineEntries hmem⟩
  obtain ⟨⟨line', hline', htrim⟩, -⟩ := mem_ruleLines.mp (h hrule)
  rw [← lineEntries_congr htrim] at hmem
  exact mem_policyEntries.mpr ⟨line', hline', hmem⟩

/-- The rule lines of the first view of a file are among those of the second, if there is a
    file: lines may have been added, in any place. -/
def KeepsRules (file : Option Str) (view view' : FileView) : Prop :=
  file.isSome = true → ∃ contents contents', view.Holds contents ∧ view'.Holds contents' ∧
    ruleLines contents ⊆ ruleLines contents'

def SameRules (file : Option Str) (view view' : FileView) : Prop :=
  file.isSome = true → ∃ contents contents', view.Holds contents ∧ view'.Holds contents' ∧
    ∀ line, line ∈ ruleLines contents ↔ line ∈ ruleLines contents'

theorem SameRules.keepsRules {file : Option Str} {view view' : FileView}
    (h : SameRules file view view') : KeepsRules file view view' := by
  intro hfile
  obtain ⟨contents, contents', hview, hview', hsame⟩ := h hfile
  exact ⟨contents, contents', hview, hview', fun line => (hsame line).mp⟩

theorem SameRules.symm {file : Option Str} {view view' : FileView}
    (h : SameRules file view view') : SameRules file view' view := by
  intro hfile
  obtain ⟨contents, contents', hview, hview', hsame⟩ := h hfile
  exact ⟨contents', contents, hview', hview, fun line => (hsame line).symm⟩

theorem KeepsRules.readFileSource {file : Option Str} {view view' : FileView}
    (h : KeepsRules file view view') (name : String) :
    ∃ entries entries', readFileSource file view name = .ok entries ∧
      readFileSource file view' name = .ok entries' ∧ entries ⊆ entries' := by
  cases file with
  | none => exact ⟨[], [], rfl, rfl, List.Subset.refl _⟩
  | some path =>
    obtain ⟨contents, contents', hview, hview', hlines⟩ := h rfl
    exact ⟨_, _, hview.readPolicyFile path name, hview'.readPolicyFile path name,
      policyEntries_subset hlines⟩

theorem PolicySources.evaluate_of_read {sources : PolicySources} {files : PolicyFiles}
    {keys prefixes : List Str} {rules : PolicyRules}
    (hkeys : readFileSource sources.keysFile files.keys "allowed_key" = .ok keys)
    (hprefixes : readFileSource sources.keyPrefixesFile files.keyPrefixes "allowed_key_prefix" =
      .ok prefixes) :
    sources.evaluate files = .ok rules ↔
      ¬ (sources.inlineKeys ++ keys = [] ∧ sources.inlineKeyPrefixes ++ prefixes = []) ∧
        .allowList (sources.inlineKeys ++ keys) (sources.inlineKeyPrefixes ++ prefixes) = rules := by
  have heval : sources.evaluate files =
      if sources.hasFile ∧ sources.inlineKeys ++ keys = [] ∧
          sources.inlineKeyPrefixes ++ prefixes = [] then .error .emptyFiles
      else if sources.inlineKeys ++ keys = [] ∧ sources.inlineKeyPrefixes ++ prefixes = [] then
        .error .empty
      else .ok (.allowList (sources.inlineKeys ++ keys) (sources.inlineKeyPrefixes ++ prefixes)) := by
    unfold evaluate
    rw [hkeys, hprefixes]
    rfl
  rw [heval]
  split
  · rename_i hempty
    simp [hempty.2]
  · split
    · rename_i hempty
      simp [hempty]
    · rename_i hne
      rw [Except.ok.injEq]
      exact (and_iff_right hne).symm

theorem PolicySources.evaluate_mono {sources : PolicySources} {files files' : PolicyFiles}
    {rules : PolicyRules} (hkeys : KeepsRules sources.keysFile files.keys files'.keys)
    (hprefixes : KeepsRules sources.keyPrefixesFile files.keyPrefixes files'.keyPrefixes)
    (h : sources.evaluate files = .ok rules) :
    ∃ rules', sources.evaluate files' = .ok rules' ∧
      ∀ key, rules.allows key = true → rules'.allows key = true := by
  obtain ⟨ks, ks', hks, hks', hkssub⟩ := hkeys.readFileSource "allowed_key"
  obtain ⟨ps, ps', hps, hps', hpssub⟩ := hprefixes.readFileSource "allowed_key_prefix"
  obtain ⟨hne, rfl⟩ := (evaluate_of_read hks hps).mp h
  have hksall : sources.inlineKeys ++ ks ⊆ sources.inlineKeys ++ ks' :=
    List.append_subset.mpr ⟨List.subset_append_left _ _,
      List.subset_append_of_subset_right _ hkssub⟩
  have hpsall : sources.inlineKeyPrefixes ++ ps ⊆ sources.inlineKeyPrefixes ++ ps' :=
    List.append_subset.mpr ⟨List.subset_append_left _ _,
      List.subset_append_of_subset_right _ hpssub⟩
  refine ⟨_, (evaluate_of_read hks' hps').mpr ⟨?_, rfl⟩, ?_⟩
  · rintro ⟨hknil, hpnil⟩
    rw [hknil] at hksall
    rw [hpnil] at hpsall
    exact hne ⟨List.subset_nil.mp hksall, List.subset_nil.mp hpsall⟩
  · intro key hallowed
    rw [PolicyRules.allows_allowList] at hallowed ⊢
    rcases hallowed with hkey | ⟨p, hp, hprefix⟩
    · exact .inl (hksall hkey)
    · exact .inr ⟨p, hpsall hp, hprefix⟩

theorem PolicySources.evaluate_same {sources : PolicySources} {files files' : PolicyFiles}
    {rules : PolicyRules} (hkeys : SameRules sources.keysFile files.keys files'.keys)
    (hprefixes : SameRules sources.keyPrefixesFile files.keyPrefixes files'.keyPrefixes)
    (h : sources.evaluate files = .ok rules) :
    ∃ rules', sources.evaluate files' = .ok rules' ∧
      ∀ key, rules'.allows key = rules.allows key := by
  obtain ⟨rules', h', hkept⟩ := evaluate_mono hkeys.keepsRules hprefixes.keepsRules h
  obtain ⟨back, hback, hnew⟩ :=
    evaluate_mono hkeys.symm.keepsRules hprefixes.symm.keepsRules h'
  obtain rfl : rules = back := Except.ok.inj (h.symm.trans hback)
  exact ⟨rules', h', fun key => Bool.eq_iff_iff.mpr ⟨hnew key, hkept key⟩⟩

/-- Reading a policy file respects the joining of texts and undoes the writing of entries, and
    what is allowed follows the set of rule lines. -/
theorem policy_file_parsing :
    (∀ view contents path name, FileView.Holds view contents →
      readPolicyFile view path name = .ok (policyEntries contents)) ∧
    (∀ a b, policyEntries (a ++ "\n".toList ++ b) = policyEntries a ++ policyEntries b) ∧
    (∀ contents, ∀ entry ∈ policyEntries contents,
      (entry ≠ [] ∧ trim entry = entry) ∧ ',' ∉ entry ∧ '\n' ∉ entry) ∧
    (∀ entries : List Str, (∀ entry ∈ entries,
        ((entry ≠ [] ∧ trim entry = entry) ∧ ',' ∉ entry ∧ '\n' ∉ entry) ∧
          entry.head? ≠ some '#') →
      policyEntries ("\n".toList.intercalate entries) = entries ∧
        policyEntries ("\r\n".toList.intercalate entries) = entries) ∧
    (∀ (sources : PolicySources) (files files' : PolicyFiles) rules,
      sources.evaluate files = .ok rules →
      KeepsRules sources.keysFile files.keys files'.keys →
      KeepsRules sources.keyPrefixesFile files.keyPrefixes files'.keyPrefixes →
      ∃ rules', sources.evaluate files' = .ok rules' ∧
        ∀ key, rules.allows key = true → rules'.allows key = true) ∧
    ∀ (sources : PolicySources) (files files' : PolicyFiles) rules,
      sources.evaluate files = .ok rules →
      SameRules sources.keysFile files.keys files'.keys →
      SameRules sources.keyPrefixesFile files.keyPrefixes files'.keyPrefixes →
      ∃ rules', sources.evaluate files' = .ok rules' ∧
        ∀ key, rules'.allows key = rules.allows key := by
  refine ⟨?_, ?_, ?_, ?_, ?_, ?_⟩
  · intro view contents path name h
    exact h.readPolicyFile path name
  · intro a b
    rw [List.append_assoc]
    exact policyEntries_append a b
  · intro contents entry hentry
    exact writable_of_mem_policyEntries hentry
  · intro entries h
    exact ⟨policyEntries_join (.inl rfl) h, policyEntries_join (.inr rfl) h⟩
  · intro sources files files' rules h hkeys hprefixes
    exact PolicySources.evaluate_mono hkeys hprefixes h
  · intro sources files files' rules h hkeys hprefixes
    exact PolicySources.evaluate_same hkeys hprefixes h

end VaultwardenEso.Provider
