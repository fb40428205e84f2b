import VaultwardenEso.Lib.Str

set_option autoImplicit false

/-!
# The text exposition format

Metric families are written line by line: two comments, then one line a sample. A label value
is quoted, with escapes for the backslash, the quote and the line feed, so it can be any text.
The reader takes the lines apart again.
-/
namespace Exposition
open RustStr

inductive Kind where
  | counter
  | gauge
  | histogram
  deriving DecidableEq

def Kind.text : Kind → Str
  | .counter => "counter".toList
  | .gauge => "gauge".toList
  | .histogram => "histogram".toList

structure Sample where
  name : Str
  labels : List (Str × Str)
  value : Str
  deriving DecidableEq

structure Family where
  name : Str
  help : Str
  kind : Kind
  samples : List Sample

/-! ## Writing -/

def escapeChar (c : Char) : Str :=
  if c = '\\' then "\\\\".toList
  else if c = '"' then "\\\"".toList
  else if c = '\n' then "\\n".toList
  else [c]

def escape (s : Str) : Str := s.flatMap escapeChar

def labelText (label : Str × Str) : Str := label.1 ++ "=\"".toList ++ escape label.2 ++ ['"']

def labelsText (labels : List (Str × Str)) : Str := [','].intercalate (labels.map labelText)

def labeledText (name : Str) (labels : List (Str × Str)) (value : Str) : Str :=
  name ++ '{' :: (labelsText labels ++ '}' :: ' ' :: value)

def Sample.text (sample : Sample) : Str :=
  if sample.labels = [] then sample.name ++ ' ' :: sample.value
  else labeledText sample.name sample.labels sample.value

def Family.lines (family : Family) : List Str :=
  ("# HELP ".toList ++ family.name ++ ' ' :: family.help) ::
    ("# TYPE ".toList ++ family.name ++ ' ' :: family.kind.text) :: family.samples.map Sample.text

def unlines (lines : List Str) : Str := lines.flatMap (· ++ ['\n'])

def write (families : List Family) : Str := unlines (families.flatMap Family.lines)

/-! ## Reading -/

def isNameChar (c : Char) : Bool := c.isAlphanum || c == '_' || c == ':'

def isName (s : Str) : Bool := !s.isEmpty && s.all isNameChar

def unescapeChar (c : Char) : Option Char :=
  if c = 'n' then some '\n' else if c = '\\' ∨ c = '"' then some c else none

/-- A label value up to its closing quote, and what follows; `escaped` is behind a backslash. -/
def readValue : (escaped : Bool) → Str → Option (Str × Str)
  | _, [] => none
  | true, c :: rest => (unescapeChar c).bind (fun c => (readValue false rest).map (Prod.map (c :: ·) id))
  | false, c :: rest =>
    if c = '"' then some ([], rest)
    else if c = '\\' then readValue true rest
    else if c = '\n' then none
    else (readValue false rest).map (Prod.map (c :: ·) id)

/-- The labels up to the closing brace; the fuel bounds their number. -/
def readLabels : ℕ → Str → Option (List (Str × Str) × Str)
  | 0, _ => none
  | fuel + 1, input =>
    match input.dropWhile isNameChar with
    | '=' :: '"' :: rest => do
      let (value, rest) ← readValue false rest
      let label := (input.takeWhile isNameChar, value)
      match rest with
      | ',' :: rest => do
        let (labels, rest) ← readLabels fuel rest
        return (label :: labels, rest)
      | '}' :: rest => return ([label], rest)
      | _ => none
    | _ => none

def readLabelSet (input : Str) : Option (List (Str × Str) × Str) :=
  if input.head? = some '}' then some ([], input.tail) else readLabels input.length input

def readSample (line : Str) : Option Sample :=
  let name := line.takeWhile isNameChar
  let rest := line.dropWhile isNameChar
  if name = [] then none
  else if rest.head? = some '{' then do
    let (labels, rest) ← readLabelSet rest.tail
    if rest.head? = some ' ' then return ⟨name, labels, rest.tail⟩ else none
  else if rest.head? = some ' ' then some ⟨name, [], rest.tail⟩
  else none

def readLine (line : Str) : Option (Option Sample) :=
  if line.head? = some '#' then some none else (readSample line).map some

def readLines : List Str → Option (List Sample)
  | [] => some []
  | line :: lines => do
    let sample ← readLine line
    let samples ← readLines lines
    return sample.toList ++ samples

/-- Every line ends with a line feed. -/
def read (text : Str) : Option (List Sample) :=
  if (split '\n' text).getLast? = some [] then readLines (split '\n' text).dropLast else none

/-! ## Escapes -/

theorem readValue_escape (value rest : Str) :
    readValue false (escape value ++ '"' :: rest) = some (value, rest) := by
  induction value with
  | nil => rfl
  | cons c value ih =>
    rw [escape, List.flatMap_cons, List.append_assoc]
    rw [escape] at ih
    by_cases hslash : c = '\\'
    · subst hslash
      simp [escapeChar, readValue, unescapeChar, ih]
    by_cases hquote : c = '"'
    · subst hquote
      simp [escapeChar, readValue, unescapeChar, ih]
    by_cases hfeed : c = '\n'
    · subst hfeed
      simp [escapeChar, readValue, unescapeChar, ih]
    · simp [escapeChar, readValue, hslash, hquote, hfeed, ih]

theorem escape_append_inj {value value' rest rest' : Str}
    (h : escape value ++ '"' :: rest = escape value' ++ '"' :: rest') :
    value = value' ∧ rest = rest' := by
  have hread := congrArg (readValue false) h
  rw [readValue_escape, readValue_escape, Option.some.injEq, Prod.mk.injEq] at hread
  exact hread

theorem feed_not_mem_escape (value : Str) : '\n' ∉ escape value := by
  intro h
  obtain ⟨c, -, hc⟩ := List.mem_flatMap.mp h
  unfold escapeChar at hc
  split at hc
  · revert hc
    decide
  · split at hc
    · revert hc
      decide
    · split at hc
      · revert hc
        decide
      · rename_i hfeed
        exact hfeed (List.mem_singleton.mp hc).symm

/-! ## Samples -/

theorem isName_iff {s : Str} : isName s = true ↔ s ≠ [] ∧ ∀ c ∈ s, isNameChar c = true := by
  simp [isName]

theorem takeWhile_name {name : Str} {c : Char} (hname : isName name = true)
    (hc : isNameChar c = false) (rest : Str) :
    (name ++ c :: rest).takeWhile isNameChar = name ∧
      (name ++ c :: rest).dropWhile isNameChar = c :: rest := by
  have hchars := (isName_iff.mp hname).2
  rw [List.takeWhile_append_of_pos hchars, List.dropWhile_append_of_pos hchars,
    List.takeWhile_cons_of_neg (by simp [hc]), List.dropWhile_cons_of_neg (by simp [hc]),
    List.append_nil]
  exact ⟨rfl, rfl⟩

theorem labelsText_cons_cons (label next : Str × Str) (labels : List (Str × Str)) :
    labelsText (label :: next :: labels) = labelText label ++ ',' :: labelsText (next :: labels) := by
  simp [labelsText, List.intercalate_cons_cons]

theorem labelsText_singleton (label : Str × Str) : labelsText [label] = labelText label := by
  simp [labelsText]

theorem labelsText_cons (label : Str × Str) (labels : List (Str × Str)) :
    labelsText (label :: labels) = labelText label ++ labels.flatMap (fun l => ',' :: labelText l) := by
  induction labels generalizing label with
  | nil => simp [labelsText_singleton]
  | cons next labels ih => rw [labelsText_cons_cons, ih, List.flatMap_cons, List.cons_append]

theorem readLabels_labelsText {labels : List (Str × Str)} (hne : labels ≠ [])
    (hnames : ∀ label ∈ labels, isName label.1 = true) (rest : Str) {fuel : ℕ}
    (hfuel : labels.length ≤ fuel) :
    readLabels fuel (labelsText labels ++ '}' :: rest) = some (labels, rest) := by
  induction labels generalizing fuel with
  | nil => exact absurd rfl hne
  | cons label labels ih =>
    obtain ⟨fuel, rfl⟩ : ∃ n, fuel = n + 1 := ⟨fuel - 1, by simp at hfuel; omega⟩
    have hlabel : ∀ tail : Str, labelText label ++ tail =
        label.1 ++ '=' :: '"' :: (escape label.2 ++ '"' :: tail) := by
      intro tail
      simp [labelText]
    have hname := hnames label List.mem_cons_self
    have hequals : isNameChar '=' = false := by decide
    cases labels with
    | nil =>
      rw [labelsText_singleton, hlabel, readLabels]
      obtain ⟨htake, hdrop⟩ := takeWhile_name hname hequals _
      rw [hdrop, htake]
      simp [readValue_escape]
    | cons next labels =>
      have hlength : (next :: labels).length ≤ fuel := by simpa using hfuel
      have hrest := ih nofun (fun l hl => hnames l (List.mem_cons_of_mem _ hl)) hlength
      rw [labelsText_cons_cons, List.append_assoc, List.cons_append, hlabel, readLabels]
      obtain ⟨htake, hdrop⟩ := takeWhile_name hname hequals _
      rw [hdrop, htake]
      simp [readValue_escape, hrest]

theorem length_le_labelsText {labels : List (Str × Str)}
    (hnames : ∀ label ∈ labels, isName label.1 = true) :
    labels.length ≤ (labelsText labels).length := by
  induction labels with
  | nil => exact Nat.le_refl _
  | cons label labels ih =>
    have hrest := ih (fun l hl => hnames l (List.mem_cons_of_mem _ hl))
    cases labels with
    | nil =>
      simp only [labelsText_singleton, labelText, List.length_append, List.length_singleton]
      omega
    | cons next labels =>
      rw [labelsText_cons_cons, List.length_append, List.length_cons, List.length_cons (a := ',')]
      omega

theorem labelsText_head {labels : List (Str × Str)} (hne : labels ≠ [])
    (hnames : ∀ label ∈ labels, isName label.1 = true) (rest : Str) :
    (labelsText labels ++ rest).head? ≠ some '}' := by
  obtain ⟨label, labels, rfl⟩ := List.exists_cons_of_ne_nil hne
  obtain ⟨hempty, hchars⟩ := isName_iff.mp (hnames label List.mem_cons_self)
  obtain ⟨c, name, hname⟩ := List.exists_cons_of_ne_nil hempty
  have hc : isNameChar c = true := hchars c (by simp [hname])
  have hhead : (labelsText (label :: labels) ++ rest).head? = some c := by
    cases labels with
    | nil => simp [labelsText_singleton, labelText, hname]
    | cons next labels => simp [labelsText_cons_cons, labelText, hname]
  rw [hhead]
  rintro ⟨⟩
  exact absurd hc (by decide)

structure Sample.WellFormed (sample : Sample) : Prop where
  name : isName sample.name = true
  labels : ∀ label ∈ sample.labels, isName label.1 = true
  distinct : (sample.labels.map Prod.fst).Nodup
  value : '\n' ∉ sample.value

theorem readLabelSet_labelsText {labels : List (Str × Str)}
    (hnames : ∀ label ∈ labels, isName label.1 = true) (rest : Str) :
    readLabelSet (labelsText labels ++ '}' :: rest) = some (labels, rest) := by
  by_cases hlabels : labels = []
  · subst hlabels
    rfl
  · have hfuel : labels.length ≤ (labelsText labels ++ '}' :: rest).length := by
      rw [List.length_append]
      exact Nat.le_add_right_of_le (length_le_labelsText hnames)
    rw [readLabelSet, if_neg (labelsText_head hlabels hnames _),
      readLabels_labelsText hlabels hnames rest hfuel]

theorem readSample_labeledText {name : Str} {labels : List (Str × Str)} (hname : isName name = true)
    (hnames : ∀ label ∈ labels, isName label.1 = true) (value : Str) :
    readSample (labeledText name labels value) = some ⟨name, labels, value⟩ := by
  obtain ⟨htake, hdrop⟩ := takeWhile_name hname (show isNameChar '{' = false by decide)
    (labelsText labels ++ '}' :: ' ' :: value)
  rw [labeledText, readSample, hdrop, htake, if_neg (isName_iff.mp hname).1]
  simp [readLabelSet_labelsText hnames]

theorem labelText_append_inj {label label' : Str × Str} {rest rest' : Str} (hname : label.1 = label'.1)
    (h : labelText label ++ rest = labelText label' ++ rest') : label = label' ∧ rest = rest' := by
  simp only [labelText, List.append_assoc, hname] at h
  have hquoted := List.append_cancel_left (List.append_cancel_left h)
  obtain ⟨hvalue, hrest⟩ := escape_append_inj hquoted
  exact ⟨Prod.ext hname hvalue, hrest⟩

theorem labelsText_append_inj {labels labels' : List (Str × Str)} {rest rest' : Str}
    (hnames : labels.map Prod.fst = labels'.map Prod.fst)
    (h : labelsText labels ++ rest = labelsText labels' ++ rest') :
    labels = labels' ∧ rest = rest' := by
  induction labels generalizing labels' with
  | nil =>
    obtain rfl : labels' = [] := List.map_eq_nil_iff.mp hnames.symm
    exact ⟨rfl, h⟩
  | cons label labels ih =>
    obtain ⟨label', labels', rfl⟩ : ∃ l ls, labels' = l :: ls := by
      cases labels' with
      | nil => cases hnames
      | cons label' labels' => exact ⟨label', labels', rfl⟩
    obtain ⟨hname, htailnames⟩ := List.cons.inj hnames
    cases labels with
    | nil =>
      obtain rfl : labels' = [] := List.map_eq_nil_iff.mp htailnames.symm
      rw [labelsText_singleton, labelsText_singleton] at h
      obtain ⟨rfl, hrest⟩ := labelText_append_inj hname h
      exact ⟨rfl, hrest⟩
    | cons next labels =>
      cases labels' with
      | nil => cases htailnames
      | cons next' labels' =>
        rw [labelsText_cons_cons, labelsText_cons_cons, List.append_assoc, List.append_assoc] at h
        obtain ⟨rfl, htail⟩ := labelText_append_inj hname h
        obtain ⟨heq, hrest⟩ := ih htailnames (List.cons.inj htail).2
        exact ⟨congrArg (label :: ·) heq, hrest⟩

/-- The label values and the value can be told from the text, whatever the names are. -/
theorem labeledText_inj {name value value' : Str} {labels labels' : List (Str × Str)}
    (hnames : labels.map Prod.fst = labels'.map Prod.fst)
    (h : labeledText name labels value = labeledText name labels' value') :
    labels = labels' ∧ value = value' := by
  have hbrace := (List.cons.inj (List.append_cancel_left h)).2
  obtain ⟨hlabels, hrest⟩ := labelsText_append_inj hnames hbrace
  simp only [List.cons.injEq, true_and] at hrest
  exact ⟨hlabels, hrest⟩

theorem Sample.WellFormed.readSample {sample : Sample} (h : sample.WellFormed) :
    readSample sample.text = some sample := by
  unfold Sample.text
  split
  · rename_i hlabels
    obtain ⟨htake, hdrop⟩ := takeWhile_name h.name (show isNameChar ' ' = false by decide)
      sample.value
    rw [Exposition.readSample, hdrop, htake, if_neg (isName_iff.mp h.name).1, ← hlabels]
    rfl
  · exact readSample_labeledText h.name h.labels sample.value

theorem Sample.WellFormed.readLine {sample : Sample} (h : sample.WellFormed) :
    readLine sample.text = some (some sample) := by
  have hhead : sample.text.head? ≠ some '#' := by
    obtain ⟨hempty, hchars⟩ := isName_iff.mp h.name
    obtain ⟨c, name, hname⟩ := List.exists_cons_of_ne_nil hempty
    have hc : isNameChar c = true := hchars c (by simp [hname])
    have hfirst : sample.text.head? = some c := by
      unfold Sample.text labeledText
      split <;> simp [hname]
    rw [hfirst]
    rintro ⟨⟩
    exact absurd hc (by decide)
  rw [Exposition.readLine, if_neg hhead, h.readSample]
  rfl

theorem feed_not_mem_name {name : Str} (h : isName name = true) : '\n' ∉ name := by
  intro hmem
  exact absurd ((isName_iff.mp h).2 _ hmem) (by decide)

theorem feed_not_mem_labelsText {labels : List (Str × Str)}
    (hnames : ∀ label ∈ labels, isName label.1 = true) : '\n' ∉ labelsText labels := by
  have hlabel : ∀ label ∈ labels, '\n' ∉ labelText label := by
    intro label hmem
    simp [labelText, feed_not_mem_name (hnames label hmem), feed_not_mem_escape]
  induction labels with
  | nil => exact List.not_mem_nil
  | cons label labels ih =>
    have hrest := ih (fun l hl => hnames l (List.mem_cons_of_mem _ hl))
      (fun l hl => hlabel l (List.mem_cons_of_mem _ hl))
    have hfirst := hlabel label List.mem_cons_self
    cases labels with
    | nil => rwa [labelsText_singleton]
    | cons next labels => simp [labelsText_cons_cons, hfirst, hrest]

theorem Sample.WellFormed.single_line {sample : Sample} (h : sample.WellFormed) :
    '\n' ∉ sample.text := by
  unfold Sample.text labeledText
  split
  · simp [feed_not_mem_name h.name, h.value]
  · simp [feed_not_mem_name h.name, feed_not_mem_labelsText h.labels, h.value]

/-! ## Documents -/

/-- The series of a family: a histogram has three, with suffixes. -/
def Family.seriesNames (family : Family) : List Str :=
  match family.kind with
  | .histogram => [family.name ++ "_bucket".toList, family.name ++ "_sum".toList,
      family.name ++ "_count".toList]
  | _ => [family.name]

structure Family.WellFormed (family : Family) : Prop where
  name : isName family.name = true
  help : '\n' ∉ family.help
  samples : ∀ sample ∈ family.samples, sample.WellFormed
  series : ∀ sample ∈ family.samples, sample.name ∈ family.seriesNames
  /-- The samples of one name have the same label names. -/
  schema : ∀ sample ∈ family.samples, ∀ other ∈ family.samples, sample.name = other.name →
    sample.labels.map Prod.fst = other.labels.map Prod.fst
  distinct : family.samples.Pairwise (fun a b => ¬ (a.name = b.name ∧ a.labels = b.labels))

theorem write_append (families families' : List Family) :
    write (families ++ families') = write families ++ write families' := by
  simp only [write, unlines, List.flatMap_append]

theorem split_unlines {lines : List Str} (h : ∀ line ∈ lines, '\n' ∉ line) :
    split '\n' (unlines lines) = lines ++ [[]] := by
  induction lines with
  | nil => rfl
  | cons line lines ih =>
    have hrest := ih (fun l hl => h l (List.mem_cons_of_mem _ hl))
    rw [unlines, List.flatMap_cons, List.append_assoc, List.singleton_append, split,
      List.splitOn_append_cons_self_of_not_mem (h line List.mem_cons_self)]
    exact congrArg (line :: ·) hrest

theorem Family.WellFormed.single_lines {family : Family} (h : family.WellFormed) :
    ∀ line ∈ family.lines, '\n' ∉ line := by
  have hname := feed_not_mem_name h.name
  intro line hline
  rcases List.mem_cons.mp hline with rfl | hline
  · simp [hname, h.help]
  · rcases List.mem_cons.mp hline with rfl | hline
    · have hkind : '\n' ∉ family.kind.text := by
        cases family.kind <;> decide
      simp [hname, hkind]
    · obtain ⟨sample, hsample, rfl⟩ := List.mem_map.mp hline
      exact (h.samples sample hsample).single_line

theorem split_write {families : List Family} (h : ∀ family ∈ families, family.WellFormed) :
    split '\n' (write families) = families.flatMap Family.lines ++ [[]] := by
  apply split_unlines
  intro line hline
  obtain ⟨family, hfamily, hline⟩ := List.mem_flatMap.mp hline
  exact (h family hfamily).single_lines line hline

theorem readLines_append {lines lines' : List Str} {samples samples' : List Sample}
    (h : readLines lines = some samples) (h' : readLines lines' = some samples') :
    readLines (lines ++ lines') = some (samples ++ samples') := by
  induction lines generalizing samples with
  | nil =>
    cases h
    exact h'
  | cons line lines ih =>
    simp only [readLines, Option.bind_eq_bind, Option.bind_eq_some_iff] at h
    obtain ⟨sample, hline, rest, hrest, hsamples⟩ := h
    cases hsamples
    simp [readLines, hline, ih hrest]

theorem Family.WellFormed.readLines {family : Family} (h : family.WellFormed) :
    readLines family.lines = some family.samples := by
  have hsamples : ∀ samples : List Sample, (∀ sample ∈ samples, sample.WellFormed) →
      Exposition.readLines (samples.map Sample.text) = some samples := by
    intro samples hall
    induction samples with
    | nil => rfl
    | cons sample samples ih =>
      rw [List.map_cons, Exposition.readLines, (hall sample List.mem_cons_self).readLine,
        ih (fun s hs => hall s (List.mem_cons_of_mem _ hs))]
      rfl
  rw [Family.lines, Exposition.readLines, Exposition.readLines, hsamples _ h.samples]
  rfl

/-- What is written is read back. -/
theorem read_write {families : List Family} (h : ∀ family ∈ families, family.WellFormed) :
    read (write families) = some (families.flatMap Family.samples) := by
  rw [read, split_write h, List.getLast?_concat, if_pos rfl, List.dropLast_concat]
  induction families with
  | nil => rfl
  | cons family families ih =>
    exact readLines_append (h family List.mem_cons_self).readLines
      (ih (fun f hf => h f (List.mem_cons_of_mem _ hf)))

/-- Two samples are of one series: the same name with the same set of labels. -/
def Sample.SameSeries (a b : Sample) : Prop :=
  a.name = b.name ∧ ∀ label, label ∈ a.labels ↔ label ∈ b.labels

theorem labels_eq_of_mem_iff {labels labels' : List (Str × Str)}
    (hnames : labels.map Prod.fst = labels'.map Prod.fst) (hdistinct : (labels.map Prod.fst).Nodup)
    (h : ∀ label, label ∈ labels ↔ label ∈ labels') : labels = labels' := by
  induction labels generalizing labels' with
  | nil => exact (List.map_eq_nil_iff.mp hnames.symm).symm
  | cons label labels ih =>
    cases labels' with
    | nil => cases hnames
    | cons label' labels' =>
      obtain ⟨hname, htailnames⟩ := List.cons.inj hnames
      obtain ⟨hfresh, hdistinct⟩ := List.nodup_cons.mp hdistinct
      have hfresh' : label.1 ∉ labels'.map Prod.fst := htailnames ▸ hfresh
      obtain rfl : label = label' := by
        rcases List.mem_cons.mp ((h label).mp List.mem_cons_self) with heq | hmem
        · exact heq
        · exact absurd (List.mem_map_of_mem hmem) hfresh'
      refine congrArg (label :: ·) (ih htailnames hdistinct ?_)
      intro other
      constructor
      · intro hmem
        rcases List.mem_cons.mp ((h other).mp (List.mem_cons_of_mem _ hmem)) with rfl | hmem'
        · exact absurd (List.mem_map_of_mem hmem) hfresh
        · exact hmem'
      · intro hmem
        rcases List.mem_cons.mp ((h other).mpr (List.mem_cons_of_mem _ hmem)) with rfl | hmem'
        · exact absurd (List.mem_map_of_mem hmem) hfresh'
        · exact hmem'

theorem pairwise_series {families : List Family} (h : ∀ family ∈ families, family.WellFormed)
    (hnames : (families.flatMap Family.seriesNames).Nodup) :
    (families.flatMap Family.samples).Pairwise (fun a b => ¬ a.SameSeries b) := by
  rw [List.pairwise_flatMap]
  refine ⟨?_, ?_⟩
  · intro family hfamily
    have hwell := h family hfamily
    refine List.Pairwise.imp_of_mem ?_ hwell.distinct
    rintro a b ha hb hdistinct ⟨hname, hlabels⟩
    have hschema := hwell.schema a ha b hb hname
    exact hdistinct ⟨hname, labels_eq_of_mem_iff hschema (hwell.samples a ha).distinct hlabels⟩
  · refine List.Pairwise.imp_of_mem ?_ (List.nodup_flatMap.mp hnames).2
    rintro family other hfamily hother hdisjoint a ha b hb ⟨hname, -⟩
    have hother' := (h other hother).series b hb
    rw [← hname] at hother'
    exact hdisjoint ((h family hfamily).series a ha) hother'

theorem mem_samples {families : List Family} (h : ∀ family ∈ families, family.WellFormed)
    (hnames : (families.flatMap Family.seriesNames).Nodup) {family : Family}
    (hfamily : family ∈ families) {sample : Sample} (hname : sample.name ∈ family.seriesNames) :
    sample ∈ families.flatMap Family.samples ↔ sample ∈ family.samples := by
  constructor
  · intro hmem
    obtain ⟨other, hother, hsample⟩ := List.mem_flatMap.mp hmem
    by_cases heq : other = family
    · exact heq ▸ hsample
    · have hdisjoint := (List.nodup_flatMap.mp hnames).2
      have hsymm : Std.Symm (Function.onFun List.Disjoint Family.seriesNames) :=
        ⟨fun _ _ => List.Disjoint.symm⟩
      have hseries := (h other hother).series sample hsample
      exact absurd hname (hdisjoint.forall hother hfamily heq hseries)
  · intro hmem
    exact List.mem_flatMap.mpr ⟨family, hfamily, hmem⟩

def Shows (samples : List Sample) (name : Str) (labels : List (Str × Str)) (n : ℕ) : Prop :=
  ∃ value, ⟨name, labels, value⟩ ∈ samples ∧ decimalValue 0 value = some n

theorem shows_iff {families : List Family} (h : ∀ family ∈ families, family.WellFormed)
    (hnames : (families.flatMap Family.seriesNames).Nodup) {family : Family}
    (hfamily : family ∈ families) {name : Str} (hname : name ∈ family.seriesNames)
    (labels : List (Str × Str)) (n : ℕ) :
    Shows (families.flatMap Family.samples) name labels n ↔ Shows family.samples name labels n :=
  exists_congr (fun _ => and_congr_left' (mem_samples h hnames hfamily hname))

end Exposition
