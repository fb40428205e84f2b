import VaultwardenEso.CachedVault
import VaultwardenEso.HttpMetrics
import VaultwardenEso.Lib.Exposition

set_option autoImplicit false

/-!
# Rendering the registry: `metrics.rs`

Every function appends to the text that was written before it. What the text says is given
apart from it, as a list of metric families; the text is that list in the exposition format.
-/
namespace VaultwardenEso.Provider
open RustStr Client Exposition

/-- The digits of a number, with the last `places` of them behind the point. -/
def fixedPoint (places n : ℕ) : Str :=
  Nat.toDigits 10 (n / 10 ^ places) ++
    '.' :: (List.range places).reverse.map (fun i => Nat.digitChar (n / 10 ^ i % 10))

/-- Seconds that can be printed: `fixed` is the format with a precision, and the literals of the
source are printed as they are written. -/
class DisplaySeconds (σ : Type) extends Seconds σ where
  ofMillis_lt : ∀ m n, m < n → n ≤ 10000 → ofMillis m < ofMillis n
  fixed : ℕ → σ → Str
  feed_not_mem_fixed : ∀ places seconds, '\n' ∉ fixed places seconds
  fixed_ofMillis : ∀ n ≤ 10000, fixed 3 (ofMillis n) = fixedPoint 3 n

theorem feed_not_mem_toDigits (n : ℕ) : '\n' ∉ Nat.toDigits 10 n := by
  intro h
  exact absurd (Nat.isDigit_of_mem_toDigits (by omega) (by omega) h) (by decide)

theorem feed_not_mem_fixedPoint (places n : ℕ) : '\n' ∉ fixedPoint places n := by
  unfold fixedPoint
  simp only [List.mem_append, List.mem_cons, List.mem_map, not_or]
  refine ⟨feed_not_mem_toDigits _, by decide, ?_⟩
  rintro ⟨i, -, h⟩
  have hdigit := isDigit_iff.mpr ⟨_, Nat.mod_lt (n / 10 ^ i) (by omega), rfl⟩
  rw [h] at hdigit
  exact absurd hdigit (by decide)

instance : DisplaySeconds ℚ where
  toSeconds := inferInstance
  ofMillis_lt := by
    intro m n h _
    have hcast : (m : ℚ) < n := Nat.cast_lt.mpr h
    change (m : ℚ) / 1000 < n / 1000
    linarith
  fixed := fun places seconds =>
    (if seconds < 0 then ['-'] else []) ++ fixedPoint places (round (|seconds| * 10 ^ places)).natAbs
  feed_not_mem_fixed := by
    intro places seconds h
    rcases List.mem_append.mp h with hsign | hpoint
    · split at hsign
      · exact absurd hsign (by decide)
      · cases hsign
    · exact feed_not_mem_fixedPoint _ _ hpoint
  fixed_ofMillis := by
    intro n _
    have hnonneg : (0 : ℚ) ≤ (n : ℚ) / 1000 := by positivity
    have hscaled : |(n : ℚ) / 1000| * 10 ^ 3 = (n : ℤ) := by
      rw [abs_of_nonneg hnonneg]
      push_cast
      ring
    change (if (n : ℚ) / 1000 < 0 then ['-'] else []) ++
      fixedPoint 3 (round (|(n : ℚ) / 1000| * 10 ^ 3)).natAbs = fixedPoint 3 n
    rw [if_neg (not_lt.mpr hnonneg), hscaled, round_intCast]
    rfl

/-! ## Lines -/

def appendLine (output line : Str) : Str := output ++ line ++ ['\n']

def appendEscapedLabelValue (output value : Str) : Str :=
  value.foldl (fun output character => match character with
    | '\\' => output ++ "\\\\".toList
    | '"' => output ++ "\\\"".toList
    | '\n' => output ++ "\\n".toList
    | character => output ++ [character]) output

def appendLabel (output : Str) (label : (Str × Str) × ℕ) : Str :=
  let output := if label.2 > 0 then output ++ [','] else output
  let output := output ++ label.1.1 ++ "=\"".toList
  appendEscapedLabelValue output label.1.2 ++ ['"']

def appendLabeledMetric (output name : Str) (labels : List (Str × Str)) (value : Str) : Str :=
  let output := output ++ name ++ ['{']
  let output := labels.zipIdx.foldl appendLabel output
  output ++ ['}', ' '] ++ value ++ ['\n']

def appendHeader (output name help : Str) (kind : Kind) : Str :=
  let output := appendLine output ("# HELP ".toList ++ name ++ ' ' :: help)
  appendLine output ("# TYPE ".toList ++ name ++ ' ' :: kind.text)

def appendPlainMetric (output name help : Str) (kind : Kind) (value : Str) : Str :=
  appendLine (appendHeader output name help kind) (name ++ ' ' :: value)

def labelWithExtra (labels : List (Str × Str)) (extra : Str × Str) : List (Str × Str) :=
  labels ++ [extra]

/-! ## Metrics -/

section Render
variable {σ : Type} [DisplaySeconds σ]

def appendHistogram (output name : Str) (labels : List (Str × Str))
    (histogram : HistogramValues σ) : Str :=
  let bucketName := name ++ "_bucket".toList
  let output := ((histogramBuckets : Vector σ 11).toList.zip histogram.buckets.toList).foldl
    (fun output (bucket, count) => appendLabeledMetric output bucketName
      (labelWithExtra labels ("le".toList, DisplaySeconds.fixed 3 bucket))
      (Nat.toDigits 10 count.toNat)) output
  let count := Nat.toDigits 10 histogram.count.toNat
  let output := appendLabeledMetric output bucketName
    (labelWithExtra labels ("le".toList, "+Inf".toList)) count
  let output := appendLabeledMetric output (name ++ "_sum".toList) labels
    (DisplaySeconds.fixed 6 histogram.sumSeconds)
  appendLabeledMetric output (name ++ "_count".toList) labels count

def renderRequests {κ : Type} (output total totalHelp duration durationHelp : Str)
    (labels : κ → List (Str × Str)) (values : List (κ × HistogramValues σ)) : Str :=
  let output := appendHeader output total totalHelp .counter
  let output := values.foldl (fun output (key, histogram) =>
    appendLabeledMetric output total (labels key) (Nat.toDigits 10 histogram.count.toNat)) output
  let output := appendHeader output duration durationHelp .histogram
  values.foldl (fun output (key, histogram) =>
    appendHistogram output duration (labels key) histogram) output

def HttpMetricKey.labels (key : HttpMetricKey) : List (Str × Str) :=
  [("method".toList, key.method), ("route".toList, key.route),
    ("status".toList, Nat.toDigits 10 key.status.toNat)]

def ResolveMetricKey.labels (key : ResolveMetricKey) : List (Str × Str) :=
  [("outcome".toList, key.outcome.label), ("error_kind".toList, errorKindLabel key.errorKind),
    ("status".toList, Nat.toDigits 10 key.status.toNat)]

def renderHttpMetrics (output : Str)
    (values : Std.ExtTreeMap HttpMetricKey (HistogramValues σ)) : Str :=
  renderRequests output
    "bweso_http_requests_total".toList
    "HTTP requests served by the provider, labeled by method, route, and status.".toList
    "bweso_http_request_duration_seconds".toList
    "HTTP request duration in seconds.".toList HttpMetricKey.labels values.toList

def renderResolveMetrics (output : Str)
    (values : Std.ExtTreeMap ResolveMetricKey (HistogramValues σ)) : Str :=
  renderRequests output
    "bweso_resolve_requests_total".toList
    "Secret resolution requests, labeled only by outcome, error class, and status.".toList
    "bweso_resolve_duration_seconds".toList
    "Secret resolution duration in seconds.".toList ResolveMetricKey.labels values.toList

def outcomeLabels (outcome : Str) : List (Str × Str) := [("outcome".toList, outcome)]

def renderCacheMetrics (output : Str) (metrics : BitwardenCacheMetrics) : Str :=
  let output := appendPlainMetric output "bweso_cache_hits_total".toList
    "Resolve requests served from a fresh Bitwarden sync cache.".toList .counter
    (Nat.toDigits 10 metrics.cacheHits.toNat)
  let output := appendHeader output "bweso_cache_refreshes_total".toList
    "Bitwarden sync cache refresh attempts by outcome.".toList .counter
  let output := appendLabeledMetric output "bweso_cache_refreshes_total".toList
    (outcomeLabels "success".toList) (Nat.toDigits 10 metrics.refreshSuccesses.toNat)
  let output := appendLabeledMetric output "bweso_cache_refreshes_total".toList
    (outcomeLabels "failure".toList) (Nat.toDigits 10 metrics.refreshFailures.toNat)
  let output := match metrics.lastSuccessUnixSeconds with
    | some timestamp => appendPlainMetric output "bweso_cache_last_success_timestamp_seconds".toList
      "Unix timestamp of the last successful Bitwarden sync cache refresh.".toList .gauge
      (Nat.toDigits 10 timestamp.toNat)
    | none => output
  match metrics.lastSuccessAgeSeconds with
  | some age => appendPlainMetric output "bweso_cache_last_success_age_seconds".toList
    "Age in seconds of the last successful Bitwarden sync cache refresh.".toList .gauge
    (Nat.toDigits 10 age.toNat)
  | none => output

def SystemTime.durationSince (time earlier : SystemTime) : Option ℕ :=
  if earlier ≤ time then some ((time - earlier).toNat / 1000000000) else none

def renderPolicyMetrics (output : Str) (snapshot : MetricsInner σ) (now : SystemTime) : Str :=
  if snapshot.policyReloads.isEmpty && snapshot.policyLastSuccess.isNone then output
  else
    let output := appendHeader output "bweso_policy_reloads_total".toList
      "Selector-policy reload cycles by outcome (success, unchanged, failure).".toList .counter
    let output := [ReloadOutcome.success, .unchanged, .failure].foldl (fun output outcome =>
      appendLabeledMetric output "bweso_policy_reloads_total".toList (outcomeLabels outcome.label)
        (Nat.toDigits 10 (snapshot.policyReloads.getD outcome 0).toNat)) output
    let output := appendPlainMetric output "bweso_policy_active_allowed_keys".toList
      "Exact selector keys in the currently-served allow-list.".toList .gauge
      (Nat.toDigits 10 snapshot.policyActiveKeys.toNat)
    let output := appendPlainMetric output "bweso_policy_active_allowed_key_prefixes".toList
      "Selector key prefixes in the currently-served allow-list.".toList .gauge
      (Nat.toDigits 10 snapshot.policyActiveKeyPrefixes.toNat)
    match snapshot.policyLastSuccess with
    | some lastSuccess =>
      let output := match SystemTime.durationSince lastSuccess 0 with
        | some sinceEpoch =>
          appendPlainMetric output "bweso_policy_last_reload_success_timestamp_seconds".toList
            "Unix timestamp of the last successful selector-policy evaluation.".toList .gauge
            (Nat.toDigits 10 sinceEpoch)
        | none => output
      match SystemTime.durationSince now lastSuccess with
      | some age => appendPlainMetric output "bweso_policy_last_reload_success_age_seconds".toList
        "Age in seconds of the last successful selector-policy evaluation.".toList .gauge
        (Nat.toDigits 10 age)
      | none => output
    | none => output

/-- The registry is behind a lock; `none` is a poisoned one. -/
structure AppMetrics (σ : Type) where
  startTime : SystemTime
  inner : Option (MetricsInner σ)

def cargoPkgVersion : Str := "0.2.1".toList

/-- `uptime` and `now` are what the clocks give during the call. -/
def AppMetrics.render (metrics : AppMetrics σ) (uptime : σ) (now : SystemTime) (ready : Bool)
    (cacheMetrics : Option BitwardenCacheMetrics) : Str :=
  let output := appendHeader [] "bweso_build_info".toList
    "Vaultwarden ESO Provider build information.".toList .gauge
  let output := appendLine output ("bweso_build_info\x7bversion=\"".toList ++ cargoPkgVersion ++
    "\"\x7d 1".toList)
  let output := appendPlainMetric output "bweso_process_start_time_seconds".toList
    "Unix timestamp when the process started.".toList .gauge
    (Nat.toDigits 10 ((SystemTime.durationSince metrics.startTime 0).getD 0))
  let output := appendPlainMetric output "bweso_uptime_seconds".toList
    "Seconds since the process started.".toList .gauge (DisplaySeconds.fixed 6 uptime)
  let output := appendPlainMetric output "bweso_ready".toList
    "Readiness state exposed by /readyz.".toList .gauge (Nat.toDigits 10 ready.toNat)
  match metrics.inner with
  | none => output
  | some snapshot =>
    let output := renderHttpMetrics output snapshot.httpRequests
    let output := renderResolveMetrics output snapshot.resolveRequests
    let output := match cacheMetrics with
      | some cacheMetrics => renderCacheMetrics output cacheMetrics
      | none => output
    renderPolicyMetrics output snapshot now

end Render

/-! ## Texts -/

theorem appendEscapedLabelValue_eq (output value : Str) :
    appendEscapedLabelValue output value = output ++ escape value := by
  have hstep : ∀ (output : Str) (c : Char), (match c with
      | '\\' => output ++ "\\\\".toList
      | '"' => output ++ "\\\"".toList
      | '\n' => output ++ "\\n".toList
      | c => output ++ [c]) = output ++ escapeChar c := by
    intro output c
    unfold escapeChar
    split <;> simp_all
  unfold appendEscapedLabelValue escape
  simp only [hstep]
  exact List.foldl_append_eq_append

theorem appendLabel_eq (output : Str) (label : Str × Str) (index : ℕ) :
    appendLabel output (label, index) =
      output ++ ((if index > 0 then [','] else []) ++ labelText label) := by
  unfold appendLabel labelText
  dsimp only
  rw [appendEscapedLabelValue_eq]
  split <;> simp only [List.append_assoc, List.nil_append]

theorem appendLabels_eq (output : Str) (labels : List (Str × Str)) :
    labels.zipIdx.foldl appendLabel output = output ++ labelsText labels := by
  have hrest : ∀ (labels : List (Str × Str)) (output : Str) (index : ℕ), 0 < index →
      (labels.zipIdx index).foldl appendLabel output =
        output ++ labels.flatMap (fun l => ',' :: labelText l) := by
    intro labels
    induction labels with
    | nil => simp
    | cons label labels ih =>
      intro output index hindex
      rw [List.zipIdx_cons, List.foldl_cons, appendLabel_eq, if_pos hindex,
        ih _ _ (Nat.succ_pos index)]
      simp
  cases labels with
  | nil => simp [labelsText]
  | cons label labels =>
    rw [List.zipIdx_cons, List.foldl_cons, appendLabel_eq, hrest _ _ _ (Nat.succ_pos 0),
      labelsText_cons]
    simp

theorem appendLabeledMetric_eq (output name : Str) (labels : List (Str × Str)) (value : Str) :
    appendLabeledMetric output name labels value =
      output ++ (labeledText name labels value ++ ['\n']) := by
  simp only [appendLabeledMetric, appendLabels_eq, labeledText, List.append_assoc,
    List.cons_append, List.nil_append]

example : appendLabeledMetric [] "total".toList [("label".toList, "a\\b\"c\n".toList)] "1".toList =
    "total\x7blabel=\"a\\\\b\\\"c\\n\"\x7d 1\n".toList := by decide

/-! ## Families -/

def plainFamily (name help : Str) (kind : Kind) (value : Str) : Family :=
  ⟨name, help, kind, [⟨name, [], value⟩]⟩

section Families
variable {σ : Type} [DisplaySeconds σ]

def histogramSamples (name : Str) (labels : List (Str × Str)) (histogram : HistogramValues σ) :
    List Sample :=
  ((histogramBuckets : Vector σ 11).toList.zip histogram.buckets.toList).map (fun (bucket, count) =>
      ⟨name ++ "_bucket".toList, labels ++ [("le".toList, DisplaySeconds.fixed 3 bucket)],
        Nat.toDigits 10 count.toNat⟩) ++
    [⟨name ++ "_bucket".toList, labels ++ [("le".toList, "+Inf".toList)],
        Nat.toDigits 10 histogram.count.toNat⟩,
      ⟨name ++ "_sum".toList, labels, DisplaySeconds.fixed 6 histogram.sumSeconds⟩,
      ⟨name ++ "_count".toList, labels, Nat.toDigits 10 histogram.count.toNat⟩]

section Requests
variable {κ : Type} (name help : Str) (labels : κ → List (Str × Str))
  (values : List (κ × HistogramValues σ))

def totals : Family :=
  ⟨name, help, .counter, values.map (fun (key, histogram) =>
    ⟨name, labels key, Nat.toDigits 10 histogram.count.toNat⟩)⟩

def durations : Family :=
  ⟨name, help, .histogram, values.flatMap (fun (key, histogram) =>
    histogramSamples name (labels key) histogram)⟩

end Requests

def httpFamilies (values : Std.ExtTreeMap HttpMetricKey (HistogramValues σ)) : List Family :=
  [totals "bweso_http_requests_total".toList
      "HTTP requests served by the provider, labeled by method, route, and status.".toList
      HttpMetricKey.labels values.toList,
    durations "bweso_http_request_duration_seconds".toList
      "HTTP request duration in seconds.".toList HttpMetricKey.labels values.toList]

def resolveFamilies (values : Std.ExtTreeMap ResolveMetricKey (HistogramValues σ)) : List Family :=
  [totals "bweso_resolve_requests_total".toList
      "Secret resolution requests, labeled only by outcome, error class, and status.".toList
      ResolveMetricKey.labels values.toList,
    durations "bweso_resolve_duration_seconds".toList
      "Secret resolution duration in seconds.".toList ResolveMetricKey.labels values.toList]

def cacheHits (metrics : BitwardenCacheMetrics) : Family :=
  plainFamily "bweso_cache_hits_total".toList
    "Resolve requests served from a fresh Bitwarden sync cache.".toList .counter
    (Nat.toDigits 10 metrics.cacheHits.toNat)

def cacheRefreshes (metrics : BitwardenCacheMetrics) : Family :=
  ⟨"bweso_cache_refreshes_total".toList,
    "Bitwarden sync cache refresh attempts by outcome.".toList, .counter,
    [⟨"bweso_cache_refreshes_total".toList, outcomeLabels "success".toList,
        Nat.toDigits 10 metrics.refreshSuccesses.toNat⟩,
      ⟨"bweso_cache_refreshes_total".toList, outcomeLabels "failure".toList,
        Nat.toDigits 10 metrics.refreshFailures.toNat⟩]⟩

def cacheFamilies (metrics : BitwardenCacheMetrics) : List Family :=
  [cacheHits metrics, cacheRefreshes metrics] ++
  (metrics.lastSuccessUnixSeconds.map (fun timestamp =>
    plainFamily "bweso_cache_last_success_timestamp_seconds".toList
      "Unix timestamp of the last successful Bitwarden sync cache refresh.".toList .gauge
      (Nat.toDigits 10 timestamp.toNat))).toList ++
  (metrics.lastSuccessAgeSeconds.map (fun age =>
    plainFamily "bweso_cache_last_success_age_seconds".toList
      "Age in seconds of the last successful Bitwarden sync cache refresh.".toList .gauge
      (Nat.toDigits 10 age.toNat))).toList

def policyReloads (snapshot : MetricsInner σ) : Family :=
  ⟨"bweso_policy_reloads_total".toList,
    "Selector-policy reload cycles by outcome (success, unchanged, failure).".toList, .counter,
    [ReloadOutcome.success, .unchanged, .failure].map (fun outcome =>
      ⟨"bweso_policy_reloads_total".toList, outcomeLabels outcome.label,
        Nat.toDigits 10 (snapshot.policyReloads.getD outcome 0).toNat⟩)⟩

def policyFamilies (snapshot : MetricsInner σ) (now : SystemTime) : List Family :=
  if snapshot.policyReloads.isEmpty && snapshot.policyLastSuccess.isNone then []
  else
    [policyReloads snapshot,
      plainFamily "bweso_policy_active_allowed_keys".toList
        "Exact selector keys in the currently-served allow-list.".toList .gauge
        (Nat.toDigits 10 snapshot.policyActiveKeys.toNat),
      plainFamily "bweso_policy_active_allowed_key_prefixes".toList
        "Selector key prefixes in the currently-served allow-list.".toList .gauge
        (Nat.toDigits 10 snapshot.policyActiveKeyPrefixes.toNat)] ++
    ((snapshot.policyLastSuccess.bind (SystemTime.durationSince · 0)).map (fun sinceEpoch =>
      plainFamily "bweso_policy_last_reload_success_timestamp_seconds".toList
        "Unix timestamp of the last successful selector-policy evaluation.".toList .gauge
        (Nat.toDigits 10 sinceEpoch))).toList ++
    ((snapshot.policyLastSuccess.bind (SystemTime.durationSince now)).map (fun age =>
      plainFamily "bweso_policy_last_reload_success_age_seconds".toList
        "Age in seconds of the last successful selector-policy evaluation.".toList .gauge
        (Nat.toDigits 10 age))).toList

def processFamilies (metrics : AppMetrics σ) (uptime : σ) (ready : Bool) : List Family :=
  [⟨"bweso_build_info".toList, "Vaultwarden ESO Provider build information.".toList, .gauge,
      [⟨"bweso_build_info".toList, [("version".toList, cargoPkgVersion)], "1".toList⟩]⟩,
    plainFamily "bweso_process_start_time_seconds".toList
      "Unix timestamp when the process started.".toList .gauge
      (Nat.toDigits 10 ((SystemTime.durationSince metrics.startTime 0).getD 0)),
    plainFamily "bweso_uptime_seconds".toList "Seconds since the process started.".toList .gauge
      (DisplaySeconds.fixed 6 uptime),
    plainFamily "bweso_ready".toList "Readiness state exposed by /readyz.".toList .gauge
      (Nat.toDigits 10 ready.toNat)]

def AppMetrics.families (metrics : AppMetrics σ) (uptime : σ) (now : SystemTime) (ready : Bool)
    (cacheMetrics : Option BitwardenCacheMetrics) : List Family :=
  processFamilies metrics uptime ready ++
    match metrics.inner with
    | none => []
    | some snapshot => httpFamilies snapshot.httpRequests ++ (resolveFamilies snapshot.resolveRequests ++
        ((cacheMetrics.map cacheFamilies).getD [] ++ policyFamilies snapshot now))

/-! ## The text is that of the families -/

theorem appendHeader_eq (output name help : Str) (kind : Kind) (samples : List Sample) :
    appendHeader output name help kind ++ unlines (samples.map Sample.text) =
      output ++ write [⟨name, help, kind, samples⟩] := by
  simp only [appendHeader, appendLine, write, unlines, Family.lines, List.flatMap_cons,
    List.flatMap_nil, List.append_nil, List.append_assoc]

theorem appendPlainMetric_eq (output name help : Str) (kind : Kind) (value : Str) :
    appendPlainMetric output name help kind value =
      output ++ write [plainFamily name help kind value] := by
  rw [plainFamily, ← appendHeader_eq]
  simp [appendPlainMetric, appendLine, unlines, Sample.text]

theorem foldl_appendLabeledMetric {α : Type} (name : Str) (labels : α → List (Str × Str))
    (value : α → Str) (xs : List α) (output : Str) :
    xs.foldl (fun output a => appendLabeledMetric output name (labels a) (value a)) output =
      output ++ unlines (xs.map (fun a => labeledText name (labels a) (value a))) := by
  simp only [appendLabeledMetric_eq, List.foldl_append_eq_append, unlines, List.flatMap_map]
  rw [List.flatMap_def]

theorem map_text {α : Type} (name : Str) (labels : α → List (Str × Str)) (value : α → Str)
    (hlabels : ∀ a, labels a ≠ []) (xs : List α) :
    (xs.map (fun a => (⟨name, labels a, value a⟩ : Sample))).map Sample.text =
      xs.map (fun a => labeledText name (labels a) (value a)) := by
  simp only [List.map_map, Function.comp_def, Sample.text, hlabels, if_false]

theorem appendHistogram_eq (output name : Str) (labels : List (Str × Str))
    (histogram : HistogramValues σ) :
    appendHistogram output name labels histogram =
      output ++ unlines ((histogramSamples name labels histogram).map (fun sample =>
        labeledText sample.name sample.labels sample.value)) := by
  unfold appendHistogram
  dsimp only
  rw [foldl_appendLabeledMetric (α := σ × UInt64) (name ++ "_bucket".toList)
    (fun b => labelWithExtra labels ("le".toList, DisplaySeconds.fixed 3 b.1))
    (fun b => Nat.toDigits 10 b.2.toNat)]
  simp only [appendLabeledMetric_eq, histogramSamples, unlines, labelWithExtra, List.map_append,
    List.map_map, Function.comp_def, List.flatMap_append, List.map_cons, List.map_nil,
    List.flatMap_cons, List.flatMap_nil, List.append_assoc, List.append_nil]

theorem histogramSamples_text (name : Str) {labels : List (Str × Str)} (hlabels : labels ≠ [])
    (histogram : HistogramValues σ) :
    (histogramSamples name labels histogram).map Sample.text =
      (histogramSamples name labels histogram).map (fun sample =>
        labeledText sample.name sample.labels sample.value) := by
  apply List.map_congr_left
  intro sample hsample
  have hne : sample.labels ≠ [] := by
    simp only [histogramSamples, List.mem_append, List.mem_map, List.mem_cons,
      List.not_mem_nil, or_false] at hsample
    rcases hsample with ⟨_, -, rfl⟩ | rfl | rfl | rfl <;> simp [hlabels]
  rw [Sample.text, if_neg hne]

theorem renderRequests_eq {κ : Type} (output total totalHelp duration durationHelp : Str)
    {labels : κ → List (Str × Str)} (hlabels : ∀ key, labels key ≠ [])
    (values : List (κ × HistogramValues σ)) :
    renderRequests output total totalHelp duration durationHelp labels values =
      output ++ write [totals total totalHelp labels values,
        durations duration durationHelp labels values] := by
  unfold renderRequests
  dsimp only
  have htotals := map_text total (fun v : κ × HistogramValues σ => labels v.1)
    (fun v => Nat.toDigits 10 v.2.count.toNat) (fun v => hlabels v.1) values
  rw [foldl_appendLabeledMetric (α := κ × HistogramValues σ) total (fun v => labels v.1)
    (fun v => Nat.toDigits 10 v.2.count.toNat), ← htotals]
  have hhistograms : (values.map (fun v => unlines ((histogramSamples duration (labels v.1) v.2).map
      Sample.text))).flatten = unlines ((durations duration durationHelp labels values).samples.map
        Sample.text) := by
    simp only [durations, unlines, List.map_flatMap, List.flatMap_assoc, ← List.flatMap_def]
  rw [appendHeader_eq]
  simp only [appendHistogram_eq, ← histogramSamples_text duration (hlabels _),
    List.foldl_append_eq_append]
  rw [hhistograms]
  refine (appendHeader_eq _ duration durationHelp .histogram _).trans ?_
  rw [List.append_assoc, ← write_append]
  rfl

omit [DisplaySeconds σ] in
theorem appendOutcomes_eq {α : Type} (output name help : Str) (label : α → Str) (count : α → ℕ)
    (outcomes : List α) :
    outcomes.foldl (fun output outcome => appendLabeledMetric output name
        (outcomeLabels (label outcome)) (Nat.toDigits 10 (count outcome)))
      (appendHeader output name help .counter) =
      output ++ write [⟨name, help, .counter, outcomes.map (fun outcome =>
        ⟨name, outcomeLabels (label outcome), Nat.toDigits 10 (count outcome)⟩)⟩] := by
  rw [← appendHeader_eq]
  rw [map_text name (fun outcome => outcomeLabels (label outcome)) _
    (fun _ => List.cons_ne_nil _ _)]
  exact foldl_appendLabeledMetric name (fun outcome => outcomeLabels (label outcome))
    (fun outcome => Nat.toDigits 10 (count outcome)) outcomes _

theorem renderCacheMetrics_eq (output : Str) (metrics : BitwardenCacheMetrics) :
    renderCacheMetrics output metrics = output ++ write (cacheFamilies metrics) := by
  unfold renderCacheMetrics cacheFamilies cacheHits cacheRefreshes
  dsimp only [-String.reduceToList]
  have hrefreshes := fun output name help label label' count count' =>
    appendOutcomes_eq output name help Prod.fst Prod.snd [(label, count), (label', count')]
  simp only [-String.reduceToList, List.foldl_cons, List.foldl_nil, List.map_cons, List.map_nil] at hrefreshes
  rw [hrefreshes, appendPlainMetric_eq]
  cases metrics.lastSuccessUnixSeconds <;> cases metrics.lastSuccessAgeSeconds <;>
    simp only [-String.reduceToList, appendPlainMetric_eq, Option.map_none, Option.map_some, Option.toList_none,
      Option.toList_some, List.append_assoc, List.append_nil, ← write_append, List.cons_append,
      List.nil_append]

omit [DisplaySeconds σ] in
theorem renderPolicyMetrics_eq (output : Str) (snapshot : MetricsInner σ) (now : SystemTime) :
    renderPolicyMetrics output snapshot now = output ++ write (policyFamilies snapshot now) := by
  unfold renderPolicyMetrics policyFamilies policyReloads
  split
  · rw [write, List.flatMap_nil, unlines, List.flatMap_nil, List.append_nil]
  · dsimp only [-String.reduceToList]
    have hreloads := fun output name help => appendOutcomes_eq output name help ReloadOutcome.label
      (fun outcome => (snapshot.policyReloads.getD outcome 0).toNat) [.success, .unchanged, .failure]
    rw [hreloads, appendPlainMetric_eq, appendPlainMetric_eq]
    cases snapshot.policyLastSuccess with
    | none =>
      simp only [-String.reduceToList, Option.bind_none, Option.map_none, Option.toList_none,
        List.append_assoc, List.append_nil, ← write_append, List.cons_append, List.nil_append]
    | some lastSuccess =>
      dsimp only [-String.reduceToList, Option.bind_some]
      cases SystemTime.durationSince lastSuccess 0 <;> cases SystemTime.durationSince now lastSuccess <;>
        simp only [-String.reduceToList, appendPlainMetric_eq, Option.map_none, Option.map_some, Option.toList_none,
          Option.toList_some, List.append_assoc, List.append_nil, ← write_append, List.cons_append,
          List.nil_append]

/-- The version needs no escapes. -/
theorem buildInfo_text :
    "bweso_build_info\x7bversion=\"".toList ++ cargoPkgVersion ++ "\"\x7d 1".toList =
      Sample.text ⟨"bweso_build_info".toList, [("version".toList, cargoPkgVersion)], "1".toList⟩ := by
  decide

theorem AppMetrics.render_eq (metrics : AppMetrics σ) (uptime : σ) (now : SystemTime) (ready : Bool)
    (cacheMetrics : Option BitwardenCacheMetrics) :
    metrics.render uptime now ready cacheMetrics =
      write (metrics.families uptime now ready cacheMetrics) := by
  have hbuild : ∀ output name help : Str, ∀ sample : Sample,
      appendLine (appendHeader output name help .gauge) sample.text =
        output ++ write [⟨name, help, .gauge, [sample]⟩] := by
    intro output name help sample
    rw [← appendHeader_eq]
    simp only [appendLine, unlines, List.map_cons, List.map_nil, List.flatMap_cons, List.flatMap_nil,
      List.append_nil, List.append_assoc]
  have hlabels : ∀ key : HttpMetricKey, key.labels ≠ [] := fun _ => List.cons_ne_nil _ _
  have hlabels' : ∀ key : ResolveMetricKey, key.labels ≠ [] := fun _ => List.cons_ne_nil _ _
  unfold AppMetrics.render AppMetrics.families processFamilies
  dsimp only [-String.reduceToList]
  rw [buildInfo_text, hbuild, appendPlainMetric_eq, appendPlainMetric_eq, appendPlainMetric_eq]
  cases metrics.inner with
  | none =>
    simp only [-String.reduceToList, List.append_nil, List.nil_append, ← write_append,
      List.cons_append]
  | some snapshot =>
    dsimp only [-String.reduceToList]
    rw [renderHttpMetrics, renderRequests_eq _ _ _ _ _ hlabels, renderResolveMetrics,
      renderRequests_eq _ _ _ _ _ hlabels', renderPolicyMetrics_eq]
    cases cacheMetrics with
    | none =>
      simp only [-String.reduceToList, httpFamilies, resolveFamilies, Option.map_none, Option.getD_none,
        List.nil_append, ← write_append, List.cons_append]
    | some cacheMetrics =>
      simp only [-String.reduceToList, httpFamilies, resolveFamilies, Option.map_some, Option.getD_some,
        renderCacheMetrics_eq, List.nil_append, ← write_append, List.cons_append]

end Families

end VaultwardenEso.Provider
