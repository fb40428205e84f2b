import VaultwardenEso.Histograms

set_option autoImplicit false

/-!
# What a scrape reads

The families that are rendered are well formed, whatever the registry holds: so the text can
be read back, line by line, and a series is found at most once.
-/
namespace VaultwardenEso.Provider
open RustStr Client Exposition

theorem isName_append {name suffix : Str} (h : isName name = true)
    (hsuffix : suffix.all isNameChar = true) : isName (name ++ suffix) = true := by
  obtain ⟨hempty, hchars⟩ := isName_iff.mp h
  refine isName_iff.mpr ⟨by simp [hempty], ?_⟩
  intro c hc
  rcases List.mem_append.mp hc with hc | hc
  · exact hchars c hc
  · exact List.all_eq_true.mp hsuffix c hc

/-! ## One family -/

theorem single_wellFormed {help : Str} {kind : Kind} {sample : Sample} (hkind : kind ≠ .histogram)
    (hsample : sample.WellFormed) (hhelp : '\n' ∉ help) :
    (⟨sample.name, help, kind, [sample]⟩ : Family).WellFormed where
  name := hsample.name
  help := hhelp
  samples := by
    intro other hother
    rwa [List.mem_singleton.mp hother]
  series := by
    intro other hother
    obtain rfl := List.mem_singleton.mp hother
    cases kind with
    | histogram => exact absurd rfl hkind
    | counter => exact List.mem_singleton_self _
    | gauge => exact List.mem_singleton_self _
  schema := by
    intro a ha b hb _
    rw [List.mem_singleton.mp ha, List.mem_singleton.mp hb]
  distinct := List.pairwise_singleton _ _

theorem plainFamily_wellFormed {name help value : Str} {kind : Kind} (hkind : kind ≠ .histogram)
    (hname : isName name = true) (hhelp : '\n' ∉ help) (hvalue : '\n' ∉ value) :
    (plainFamily name help kind value).WellFormed := by
  have hsample : (⟨name, [], value⟩ : Sample).WellFormed := ⟨hname, nofun, List.nodup_nil, hvalue⟩
  exact single_wellFormed hkind hsample hhelp

/-- The labels of the keys of a map: always of the same names, and of different values for
different keys. -/
structure Labeling {κ : Type} (labels : κ → List (Str × Str)) (names : List Str) : Prop where
  keyed : ∀ key, (labels key).map Prod.fst = names
  valid : ∀ name ∈ names, isName name = true
  distinct : (names ++ ["le".toList]).Nodup
  injective : Function.Injective labels

section Requests
variable {κ : Type} {labels : κ → List (Str × Str)} {names : List Str} {name help : Str}

theorem Labeling.label_valid (h : Labeling labels names) (key : κ) :
    ∀ label ∈ labels key, isName label.1 = true := by
  intro label hlabel
  refine h.valid label.1 ?_
  rw [← h.keyed key]
  exact List.mem_map_of_mem hlabel

theorem Labeling.label_distinct (h : Labeling labels names) (key : κ) :
    ((labels key).map Prod.fst).Nodup := by
  rw [h.keyed key]
  exact (List.nodup_append.mp h.distinct).1

theorem counters_wellFormed {α : Type} (h : Labeling labels names) (hname : isName name = true)
    (hhelp : '\n' ∉ help) (key : α → κ) (count : α → ℕ) {items : List α}
    (hkeys : items.Pairwise (fun a b => key a ≠ key b)) :
    (⟨name, help, .counter, items.map (fun a =>
      ⟨name, labels (key a), Nat.toDigits 10 (count a)⟩)⟩ : Family).WellFormed where
  name := hname
  help := hhelp
  samples := by
    intro sample hsample
    obtain ⟨a, -, rfl⟩ := List.mem_map.mp hsample
    exact ⟨hname, h.label_valid _, h.label_distinct _, feed_not_mem_toDigits _⟩
  series := by
    intro sample hsample
    obtain ⟨a, -, rfl⟩ := List.mem_map.mp hsample
    exact List.mem_singleton_self name
  schema := by
    intro sample hsample other hother _
    obtain ⟨a, -, rfl⟩ := List.mem_map.mp hsample
    obtain ⟨b, -, rfl⟩ := List.mem_map.mp hother
    exact (h.keyed _).trans (h.keyed _).symm
  distinct := by
    refine List.pairwise_map.mpr (List.Pairwise.imp ?_ hkeys)
    rintro a b hne ⟨-, hlabels⟩
    exact hne (h.injective hlabels)

variable {σ : Type} [DisplaySeconds σ]

theorem mem_histogramSamples {labels : List (Str × Str)} {histogram : HistogramValues σ}
    {sample : Sample} (h : sample ∈ histogramSamples name labels histogram) :
    '\n' ∉ sample.value ∧
      ((sample.name = name ++ "_bucket".toList ∧
          ∃ le, sample.labels = labels ++ [("le".toList, le)]) ∨
        (sample.name = name ++ "_sum".toList ∧ sample.labels = labels) ∨
        (sample.name = name ++ "_count".toList ∧ sample.labels = labels)) := by
  simp only [-String.reduceToList, histogramSamples, List.mem_append, List.mem_map, List.mem_cons,
    List.not_mem_nil, or_false] at h
  rcases h with ⟨bucket, -, rfl⟩ | rfl | rfl | rfl
  · exact ⟨feed_not_mem_toDigits _, .inl ⟨rfl, _, rfl⟩⟩
  · exact ⟨feed_not_mem_toDigits _, .inl ⟨rfl, _, rfl⟩⟩
  · exact ⟨DisplaySeconds.feed_not_mem_fixed _ _, .inr (.inl ⟨rfl, rfl⟩)⟩
  · exact ⟨feed_not_mem_toDigits _, .inr (.inr ⟨rfl, rfl⟩)⟩

theorem suffixes_differ : "_bucket".toList ≠ "_sum".toList ∧ "_bucket".toList ≠ "_count".toList ∧
    "_sum".toList ≠ "_count".toList := by
  decide

theorem histogramSamples_distinct (labels : List (Str × Str)) (histogram : HistogramValues σ) :
    (histogramSamples name labels histogram).Pairwise
      (fun a b => ¬ (a.name = b.name ∧ a.labels = b.labels)) := by
  obtain ⟨hsum, hcount, hlast⟩ := suffixes_differ
  have hlength : (histogramBuckets : Vector σ 11).toList.length ≤ histogram.buckets.toList.length := by
    simp
  have hbounds : ((histogramBuckets : Vector σ 11).toList.zip histogram.buckets.toList).map
      (fun b => DisplaySeconds.fixed 3 b.1) = bucketTexts := by
    have hfirst := congrArg (List.map (DisplaySeconds.fixed 3)) (List.map_fst_zip hlength)
    rw [List.map_map, fixed_histogramBuckets] at hfirst
    exact hfirst
  have htexts : bucketTexts.Nodup ∧ "+Inf".toList ∉ bucketTexts := by decide
  have hextra : ∀ {le le' : Str}, labels ++ [("le".toList, le)] = labels ++ [("le".toList, le')] →
      le = le' := by
    intro le le' h
    simpa using List.append_cancel_left h
  rw [← hbounds] at htexts
  unfold histogramSamples
  rw [List.pairwise_append]
  refine ⟨?_, ?_, ?_⟩
  · refine List.pairwise_map.mpr (List.Pairwise.imp ?_ (List.pairwise_map.mp htexts.1))
    rintro b b' hne ⟨-, hlabels⟩
    exact hne (hextra hlabels)
  · simp only [-String.reduceToList, List.pairwise_cons, List.mem_cons, List.not_mem_nil, or_false,
      forall_eq_or_imp, forall_eq, List.append_cancel_left_eq, hsum, hcount, hlast, false_and,
      not_false_eq_true, List.Pairwise.nil, and_self, IsEmpty.forall_iff, implies_true]
  · intro a ha b hb
    obtain ⟨bucket, hbucket, rfl⟩ := List.mem_map.mp ha
    simp only [-String.reduceToList, List.mem_cons, List.not_mem_nil, or_false] at hb
    rcases hb with rfl | rfl | rfl
    · rintro ⟨-, hlabels⟩
      exact htexts.2 (hextra hlabels ▸ List.mem_map_of_mem hbucket)
    · rintro ⟨hname, -⟩
      exact hsum (List.append_cancel_left hname)
    · rintro ⟨hname, -⟩
      exact hcount (List.append_cancel_left hname)

theorem Labeling.sample_names (h : Labeling labels names) {key : κ} {histogram : HistogramValues σ}
    {sample : Sample} (hsample : sample ∈ histogramSamples name (labels key) histogram) :
    (sample.name = name ++ "_bucket".toList ∧
        sample.labels.map Prod.fst = names ++ ["le".toList]) ∨
      ((sample.name = name ++ "_sum".toList ∨ sample.name = name ++ "_count".toList) ∧
        sample.labels.map Prod.fst = names) := by
  obtain ⟨-, ⟨hname, le, hlabels⟩ | ⟨hname, hlabels⟩ | ⟨hname, hlabels⟩⟩ :=
    mem_histogramSamples hsample
  · refine .inl ⟨hname, ?_⟩
    rw [hlabels, List.map_append, h.keyed key]
    rfl
  · exact .inr ⟨.inl hname, hlabels ▸ h.keyed key⟩
  · exact .inr ⟨.inr hname, hlabels ▸ h.keyed key⟩

theorem Labeling.labels_eq_take (h : Labeling labels names) {key : κ} {histogram : HistogramValues σ}
    {sample : Sample} (hsample : sample ∈ histogramSamples name (labels key) histogram) :
    labels key = sample.labels.take names.length := by
  have hlength : (labels key).length = names.length := by
    rw [← h.keyed key, List.length_map]
  rw [← hlength]
  obtain ⟨-, ⟨-, le, hlabels⟩ | ⟨-, hlabels⟩ | ⟨-, hlabels⟩⟩ := mem_histogramSamples hsample
  · rw [hlabels, List.take_left]
  · rw [hlabels, List.take_length]
  · rw [hlabels, List.take_length]

theorem Labeling.sample_wellFormed (h : Labeling labels names) (hname : isName name = true) {key : κ}
    {histogram : HistogramValues σ} {sample : Sample}
    (hsample : sample ∈ histogramSamples name (labels key) histogram) : sample.WellFormed := by
  have hall : sample.labels.map Prod.fst <+: names ++ ["le".toList] := by
    rcases h.sample_names hsample with ⟨-, hlabels⟩ | ⟨-, hlabels⟩
    · rw [hlabels]
    · rw [hlabels]
      exact List.prefix_append names _
  refine ⟨?_, ?_, h.distinct.sublist hall.sublist, (mem_histogramSamples hsample).1⟩
  · rcases h.sample_names hsample with ⟨heq, -⟩ | ⟨heq | heq, -⟩ <;> rw [heq] <;>
      exact isName_append hname (by decide)
  · intro label hlabel
    rcases List.mem_append.mp (hall.mem (List.mem_map_of_mem hlabel)) with hmem | hmem
    · exact h.valid _ hmem
    · rw [List.mem_singleton.mp hmem]
      decide

theorem durations_wellFormed (h : Labeling labels names) (hname : isName name = true)
    (hhelp : '\n' ∉ help) {values : List (κ × HistogramValues σ)}
    (hkeys : values.Pairwise (fun a b => a.1 ≠ b.1)) :
    (durations name help labels values).WellFormed where
  name := hname
  help := hhelp
  samples := by
    intro sample hsample
    obtain ⟨v, -, hsample⟩ := List.mem_flatMap.mp hsample
    exact h.sample_wellFormed hname hsample
  series := by
    intro sample hsample
    obtain ⟨v, -, hsample⟩ := List.mem_flatMap.mp hsample
    rcases h.sample_names hsample with ⟨heq, -⟩ | ⟨heq | heq, -⟩ <;>
      simp [-String.reduceToList, Family.seriesNames, durations, heq]
  schema := by
    intro a ha b hb hname
    obtain ⟨v, -, ha⟩ := List.mem_flatMap.mp ha
    obtain ⟨w, -, hb⟩ := List.mem_flatMap.mp hb
    obtain ⟨hsum, hcount, -⟩ := suffixes_differ
    rcases h.sample_names ha with ⟨hna, hla⟩ | ⟨hna, hla⟩ <;>
      rcases h.sample_names hb with ⟨hnb, hlb⟩ | ⟨hnb, hlb⟩
    · exact hla.trans hlb.symm
    · rw [hna] at hname
      rcases hnb with hnb | hnb <;> rw [hnb, List.append_cancel_left_eq] at hname
      · exact absurd hname hsum
      · exact absurd hname hcount
    · rw [hnb] at hname
      rcases hna with hna | hna <;> rw [hna, List.append_cancel_left_eq] at hname
      · exact absurd hname.symm hsum
      · exact absurd hname.symm hcount
    · exact hla.trans hlb.symm
  distinct := by
    refine List.pairwise_flatMap.mpr ⟨?_, ?_⟩
    · intro v _
      exact histogramSamples_distinct (labels v.1) v.2
    · refine List.Pairwise.imp ?_ hkeys
      rintro v w hne a ha b hb ⟨-, hlabels⟩
      have hkey : labels v.1 = labels w.1 := by
        rw [h.labels_eq_take ha, h.labels_eq_take hb, hlabels]
      exact hne (h.injective hkey)

end Requests

/-! ## The families of the registry -/

theorem toDigits_injective : Function.Injective (Nat.toDigits 10) := by
  intro m n h
  have hvalue := congrArg (decimalValue 0) h
  rw [decimalValue_toDigits, decimalValue_toDigits] at hvalue
  exact Option.some.inj hvalue

theorem httpLabeling :
    Labeling HttpMetricKey.labels ["method".toList, "route".toList, "status".toList] where
  keyed := fun _ => rfl
  valid := by decide
  distinct := by decide
  injective := by
    rintro ⟨method, route, status⟩ ⟨method', route', status'⟩ h
    simp only [-String.reduceToList, HttpMetricKey.labels, List.cons.injEq, Prod.mk.injEq, true_and,
      and_true] at h
    obtain ⟨rfl, rfl, hstatus⟩ := h
    rw [UInt16.toNat_inj.mp (toDigits_injective hstatus)]

theorem resolveLabeling :
    Labeling ResolveMetricKey.labels ["outcome".toList, "error_kind".toList, "status".toList] where
  keyed := fun _ => rfl
  valid := by decide
  distinct := by decide
  injective := by
    rintro ⟨outcome, errorKind, status⟩ ⟨outcome', errorKind', status'⟩ h
    simp only [-String.reduceToList, ResolveMetricKey.labels, List.cons.injEq, Prod.mk.injEq, true_and,
      and_true] at h
    obtain ⟨houtcome, herrorKind, hstatus⟩ := h
    rw [ResolveOutcome.label_injective houtcome, errorKindLabel_injective herrorKind,
      UInt16.toNat_inj.mp (toDigits_injective hstatus)]

theorem outcomeLabeling : Labeling outcomeLabels ["outcome".toList] where
  keyed := fun _ => rfl
  valid := by decide
  distinct := by decide
  injective := by
    intro outcome outcome' h
    simpa only [outcomeLabels, List.cons.injEq, Prod.mk.injEq, true_and, and_true] using h

section Families
variable {σ : Type} [DisplaySeconds σ]

theorem requests_wellFormed {κ : Type} {labels : κ → List (Str × Str)} {names : List Str}
    (h : Labeling labels names) {total totalHelp duration durationHelp : String}
    (htotal : isName total.toList = true) (htotalHelp : '\n' ∉ totalHelp.toList)
    (hduration : isName duration.toList = true) (hdurationHelp : '\n' ∉ durationHelp.toList)
    {values : List (κ × HistogramValues σ)} (hkeys : values.Pairwise (fun a b => a.1 ≠ b.1)) :
    ∀ family ∈ [totals total.toList totalHelp.toList labels values,
      durations duration.toList durationHelp.toList labels values], family.WellFormed := by
  simp only [List.mem_cons, List.not_mem_nil, or_false, forall_eq_or_imp, forall_eq]
  constructor
  · exact counters_wellFormed h htotal htotalHelp Prod.fst _ hkeys
  · exact durations_wellFormed h hduration hdurationHelp hkeys

theorem httpFamilies_wellFormed (values : Std.ExtTreeMap HttpMetricKey (HistogramValues σ)) :
    ∀ family ∈ httpFamilies values, family.WellFormed := by
  apply requests_wellFormed httpLabeling _ _ _ _ (BTreeMap.keys_toList values)
  · decide
  · rw [String.toList_ofList]; decide
  · decide
  · rw [String.toList_ofList]; decide

theorem resolveFamilies_wellFormed (values : Std.ExtTreeMap ResolveMetricKey (HistogramValues σ)) :
    ∀ family ∈ resolveFamilies values, family.WellFormed := by
  apply requests_wellFormed resolveLabeling _ _ _ _ (BTreeMap.keys_toList values)
  · decide
  · rw [String.toList_ofList]; decide
  · decide
  · rw [String.toList_ofList]; decide

theorem plainFamily_number {name help : String} {kind : Kind} (hkind : kind ≠ .histogram)
    (hname : isName name.toList = true) (hhelp : '\n' ∉ help.toList) (n : ℕ) :
    (plainFamily name.toList help.toList kind (Nat.toDigits 10 n)).WellFormed :=
  plainFamily_wellFormed hkind hname hhelp (feed_not_mem_toDigits n)

theorem cacheFamilies_wellFormed (metrics : BitwardenCacheMetrics) :
    ∀ family ∈ cacheFamilies metrics, family.WellFormed := by
  simp only [-String.reduceToList, cacheFamilies, List.mem_append, List.mem_cons, List.not_mem_nil,
    or_false, Option.mem_toList, Option.map_eq_some_iff]
  rintro family (((rfl | rfl) | ⟨timestamp, -, rfl⟩) | ⟨age, -, rfl⟩)
  · exact plainFamily_number (by decide) (by decide) (by rw [String.toList_ofList]; decide) _
  · have hpair : [("success".toList, metrics.refreshSuccesses.toNat),
        ("failure".toList, metrics.refreshFailures.toNat)].Pairwise (fun a b => a.1 ≠ b.1) := by
      rw [List.pairwise_pair]
      change "success".toList ≠ "failure".toList
      decide
    exact counters_wellFormed outcomeLabeling (by decide) (by rw [String.toList_ofList]; decide)
      Prod.fst Prod.snd hpair
  · exact plainFamily_number (by decide) (by decide) (by rw [String.toList_ofList]; decide) _
  · exact plainFamily_number (by decide) (by decide) (by rw [String.toList_ofList]; decide) _

omit [DisplaySeconds σ] in
theorem policyFamilies_wellFormed (snapshot : MetricsInner σ) (now : SystemTime) :
    ∀ family ∈ policyFamilies snapshot now, family.WellFormed := by
  unfold policyFamilies
  split
  · nofun
  · simp only [-String.reduceToList, List.mem_append, List.mem_cons, List.not_mem_nil,
      or_false, Option.mem_toList, Option.map_eq_some_iff]
    rintro family (((rfl | rfl | rfl) | ⟨timestamp, -, rfl⟩) | ⟨age, -, rfl⟩)
    · exact counters_wellFormed outcomeLabeling (by decide) (by rw [String.toList_ofList]; decide)
        ReloadOutcome.label _ (by decide)
    · exact plainFamily_number (by decide) (by decide) (by rw [String.toList_ofList]; decide) _
    · exact plainFamily_number (by decide) (by decide) (by rw [String.toList_ofList]; decide) _
    · exact plainFamily_number (by decide) (by decide) (by rw [String.toList_ofList]; decide) _
    · exact plainFamily_number (by decide) (by decide) (by rw [String.toList_ofList]; decide) _

theorem processFamilies_wellFormed (metrics : AppMetrics σ) (uptime : σ) (ready : Bool) :
    ∀ family ∈ processFamilies metrics uptime ready, family.WellFormed := by
  simp only [-String.reduceToList, processFamilies, List.mem_cons, List.not_mem_nil, or_false]
  rintro family (rfl | rfl | rfl | rfl)
  · have hsample : (⟨"bweso_build_info".toList, [("version".toList, cargoPkgVersion)],
        "1".toList⟩ : Sample).WellFormed := by
      refine ⟨by decide, ?_, List.nodup_singleton _, by decide⟩
      intro label hlabel
      rw [List.mem_singleton.mp hlabel]
      decide
    exact single_wellFormed (by decide) hsample (by rw [String.toList_ofList]; decide)
  · exact plainFamily_number (by decide) (by decide) (by rw [String.toList_ofList]; decide) _
  · exact plainFamily_wellFormed (by decide) (by decide) (by rw [String.toList_ofList]; decide)
      (DisplaySeconds.feed_not_mem_fixed _ _)
  · exact plainFamily_number (by decide) (by decide) (by rw [String.toList_ofList]; decide) _

theorem AppMetrics.families_wellFormed (metrics : AppMetrics σ) (uptime : σ) (now : SystemTime)
    (ready : Bool) (cacheMetrics : Option BitwardenCacheMetrics) :
    ∀ family ∈ metrics.families uptime now ready cacheMetrics, family.WellFormed := by
  intro family hfamily
  unfold AppMetrics.families at hfamily
  rcases List.mem_append.mp hfamily with hprocess | hrest
  · exact processFamilies_wellFormed metrics uptime ready family hprocess
  · cases hinner : metrics.inner with
    | none =>
      rw [hinner] at hrest
      cases hrest
    | some snapshot =>
      rw [hinner] at hrest
      simp only [List.mem_append] at hrest
      rcases hrest with hhttp | hresolve | hcache | hpolicy
      · exact httpFamilies_wellFormed _ family hhttp
      · exact resolveFamilies_wellFormed _ family hresolve
      · cases cacheMetrics with
        | none => cases hcache
        | some cacheMetrics => exact cacheFamilies_wellFormed cacheMetrics family hcache
      · exact policyFamilies_wellFormed snapshot now family hpolicy

/-! ## The names of the series -/

/-- Every series that is ever written. -/
def seriesNames : List String :=
  ["bweso_build_info", "bweso_process_start_time_seconds", "bweso_uptime_seconds", "bweso_ready"] ++
  (["bweso_http_requests_total", "bweso_http_request_duration_seconds_bucket",
    "bweso_http_request_duration_seconds_sum", "bweso_http_request_duration_seconds_count"] ++
  (["bweso_resolve_requests_total", "bweso_resolve_duration_seconds_bucket",
    "bweso_resolve_duration_seconds_sum", "bweso_resolve_duration_seconds_count"] ++
  (["bweso_cache_hits_total", "bweso_cache_refreshes_total",
    "bweso_cache_last_success_timestamp_seconds", "bweso_cache_last_success_age_seconds"] ++
  ["bweso_policy_reloads_total", "bweso_policy_active_allowed_keys",
    "bweso_policy_active_allowed_key_prefixes", "bweso_policy_last_reload_success_timestamp_seconds",
    "bweso_policy_last_reload_success_age_seconds"])))

theorem seriesNames_nodup : (seriesNames.map String.toList).Nodup := by
  refine List.Nodup.map (fun _ _ => String.toList_inj.mp) ?_
  decide

theorem processFamilies_names (metrics : AppMetrics σ) (uptime : σ) (ready : Bool) :
    (processFamilies metrics uptime ready).flatMap Family.seriesNames =
      ["bweso_build_info".toList, "bweso_process_start_time_seconds".toList,
        "bweso_uptime_seconds".toList, "bweso_ready".toList] := rfl

theorem httpFamilies_names (values : Std.ExtTreeMap HttpMetricKey (HistogramValues σ)) :
    (httpFamilies values).flatMap Family.seriesNames =
      ["bweso_http_requests_total".toList, "bweso_http_request_duration_seconds_bucket".toList,
        "bweso_http_request_duration_seconds_sum".toList,
        "bweso_http_request_duration_seconds_count".toList] := by
  change ["bweso_http_requests_total".toList,
    "bweso_http_request_duration_seconds".toList ++ "_bucket".toList,
    "bweso_http_request_duration_seconds".toList ++ "_sum".toList,
    "bweso_http_request_duration_seconds".toList ++ "_count".toList] = _
  simp only [-String.reduceToList, ← String.toList_append]
  rfl

theorem resolveFamilies_names (values : Std.ExtTreeMap ResolveMetricKey (HistogramValues σ)) :
    (resolveFamilies values).flatMap Family.seriesNames =
      ["bweso_resolve_requests_total".toList, "bweso_resolve_duration_seconds_bucket".toList,
        "bweso_resolve_duration_seconds_sum".toList,
        "bweso_resolve_duration_seconds_count".toList] := by
  change ["bweso_resolve_requests_total".toList,
    "bweso_resolve_duration_seconds".toList ++ "_bucket".toList,
    "bweso_resolve_duration_seconds".toList ++ "_sum".toList,
    "bweso_resolve_duration_seconds".toList ++ "_count".toList] = _
  simp only [-String.reduceToList, ← String.toList_append]
  rfl

omit [DisplaySeconds σ] in
theorem optionalFamily_names {α : Type} (value : Option α) {name help : Str} {text : α → Str} :
    ((value.map (fun a => plainFamily name help .gauge (text a))).toList.flatMap
      Family.seriesNames).Sublist [name] := by
  cases value with
  | none => exact List.nil_sublist _
  | some a => exact List.Sublist.refl _

theorem cacheFamilies_names (metrics : BitwardenCacheMetrics) :
    ((cacheFamilies metrics).flatMap Family.seriesNames).Sublist
      ["bweso_cache_hits_total".toList, "bweso_cache_refreshes_total".toList,
        "bweso_cache_last_success_timestamp_seconds".toList,
        "bweso_cache_last_success_age_seconds".toList] := by
  unfold cacheFamilies
  rw [List.flatMap_append, List.flatMap_append]
  exact ((List.Sublist.refl _).append (optionalFamily_names _)).append (optionalFamily_names _)

omit [DisplaySeconds σ] in
theorem policyFamilies_names (snapshot : MetricsInner σ) (now : SystemTime) :
    ((policyFamilies snapshot now).flatMap Family.seriesNames).Sublist
      ["bweso_policy_reloads_total".toList, "bweso_policy_active_allowed_keys".toList,
        "bweso_policy_active_allowed_key_prefixes".toList,
        "bweso_policy_last_reload_success_timestamp_seconds".toList,
        "bweso_policy_last_reload_success_age_seconds".toList] := by
  unfold policyFamilies
  split
  · exact List.nil_sublist _
  · rw [List.flatMap_append, List.flatMap_append]
    exact ((List.Sublist.refl _).append (optionalFamily_names _)).append (optionalFamily_names _)

theorem AppMetrics.families_names (metrics : AppMetrics σ) (uptime : σ) (now : SystemTime)
    (ready : Bool) (cacheMetrics : Option BitwardenCacheMetrics) :
    ((metrics.families uptime now ready cacheMetrics).flatMap Family.seriesNames).Nodup := by
  refine seriesNames_nodup.sublist ?_
  unfold AppMetrics.families seriesNames
  rw [List.flatMap_append, processFamilies_names, List.map_append]
  refine (List.Sublist.refl _).append ?_
  cases metrics.inner with
  | none => exact List.nil_sublist _
  | some snapshot =>
    dsimp only [-String.reduceToList]
    rw [List.flatMap_append, List.flatMap_append, List.flatMap_append, httpFamilies_names,
      resolveFamilies_names, List.map_append, List.map_append, List.map_append]
    refine (List.Sublist.refl _).append ((List.Sublist.refl _).append (List.Sublist.append ?_ ?_))
    · cases cacheMetrics with
      | none => exact List.nil_sublist _
      | some cacheMetrics => exact cacheFamilies_names cacheMetrics
    · exact policyFamilies_names snapshot now

end Families

/-! ## The counts -/

theorem shows_counters {α : Type} {name : Str} {labels : α → List (Str × Str)} {count : α → ℕ}
    {items : List α} {l : List (Str × Str)} {n : ℕ} :
    Shows (items.map (fun a => ⟨name, labels a, Nat.toDigits 10 (count a)⟩)) name l n ↔
      ∃ a ∈ items, l = labels a ∧ n = count a := by
  unfold Shows
  constructor
  · rintro ⟨value, hmem, hvalue⟩
    obtain ⟨a, ha, heq⟩ := List.mem_map.mp hmem
    cases heq
    rw [decimalValue_toDigits] at hvalue
    exact ⟨a, ha, rfl, (Option.some.inj hvalue).symm⟩
  · rintro ⟨a, ha, rfl, rfl⟩
    exact ⟨_, List.mem_map.mpr ⟨a, ha, rfl⟩, decimalValue_toDigits _⟩

section Counts
variable {σ : Type} [DisplaySeconds σ] {κ : Type} {name help : Str} {labels : κ → List (Str × Str)}
  {values : List (κ × HistogramValues σ)}

theorem shows_durations {l : List (Str × Str)} {n : ℕ} :
    Shows (durations name help labels values).samples (name ++ "_count".toList) l n ↔
      ∃ v ∈ values, l = labels v.1 ∧ n = v.2.count.toNat := by
  obtain ⟨-, hcount, hlast⟩ := suffixes_differ
  unfold Shows durations
  constructor
  · rintro ⟨value, hmem, hvalue⟩
    obtain ⟨v, hv, hsample⟩ := List.mem_flatMap.mp hmem
    simp only [-String.reduceToList, histogramSamples, List.mem_append, List.mem_map, List.mem_cons,
      List.not_mem_nil, or_false, Sample.mk.injEq, List.append_cancel_left_eq, hcount, hcount.symm,
      hlast.symm, false_and, and_false, exists_false, false_or, true_and] at hsample
    obtain ⟨rfl, rfl⟩ := hsample
    rw [decimalValue_toDigits] at hvalue
    exact ⟨v, hv, rfl, (Option.some.inj hvalue).symm⟩
  · rintro ⟨v, hv, rfl, rfl⟩
    refine ⟨_, List.mem_flatMap.mpr ⟨v, hv, ?_⟩, decimalValue_toDigits _⟩
    simp [-String.reduceToList, histogramSamples]

theorem shows_infinity {v : κ × HistogramValues σ} (hv : v ∈ values) :
    Shows (durations name help labels values).samples (name ++ "_bucket".toList)
      (labels v.1 ++ [("le".toList, "+Inf".toList)]) v.2.count.toNat := by
  refine ⟨_, List.mem_flatMap.mpr ⟨v, hv, ?_⟩, decimalValue_toDigits _⟩
  simp [-String.reduceToList, histogramSamples]

theorem shows_requests {families : List Family} (hwell : ∀ family ∈ families, family.WellFormed)
    (hnames : (families.flatMap Family.seriesNames).Nodup) {duration durationHelp : Str}
    (htotals : totals name help labels values ∈ families)
    (hdurations : durations duration durationHelp labels values ∈ families)
    (l : List (Str × Str)) (n : ℕ) :
    (Shows (families.flatMap Family.samples) name l n ↔
      ∃ v ∈ values, l = labels v.1 ∧ n = v.2.count.toNat) ∧
    (Shows (families.flatMap Family.samples) (duration ++ "_count".toList) l n ↔
      ∃ v ∈ values, l = labels v.1 ∧ n = v.2.count.toNat) ∧
    ∀ v ∈ values, Shows (families.flatMap Family.samples) (duration ++ "_bucket".toList)
      (labels v.1 ++ [("le".toList, "+Inf".toList)]) v.2.count.toNat := by
  have hcount : duration ++ "_count".toList ∈
      (durations duration durationHelp labels values).seriesNames :=
    List.mem_cons_of_mem _ (List.mem_cons_of_mem _ List.mem_cons_self)
  refine ⟨?_, ?_, ?_⟩
  · exact (shows_iff hwell hnames htotals (List.mem_singleton_self _) l n).trans shows_counters
  · exact (shows_iff hwell hnames hdurations hcount l n).trans shows_durations
  · intro v hv
    exact (shows_iff hwell hnames hdurations List.mem_cons_self _ _).mpr (shows_infinity hv)

end Counts

section Scrape
variable {σ : Type} [DisplaySeconds σ] {calls : List (MetricsCall σ)} {metrics : AppMetrics σ}
  {uptime : σ} {now : SystemTime} {ready : Bool} {cacheMetrics : Option BitwardenCacheMetrics}

theorem mem_families {snapshot : MetricsInner σ} (h : metrics.inner = some snapshot) {family : Family}
    (hfamily : family ∈ httpFamilies snapshot.httpRequests ∨
      family ∈ resolveFamilies snapshot.resolveRequests ∨
      family ∈ (cacheMetrics.map cacheFamilies).getD [] ∨ family ∈ policyFamilies snapshot now) :
    family ∈ metrics.families uptime now ready cacheMetrics := by
  unfold AppMetrics.families
  rw [h]
  simp only [List.mem_append]
  exact .inr hfamily

def AppMetrics.samples (metrics : AppMetrics σ) (uptime : σ) (now : SystemTime) (ready : Bool)
    (cacheMetrics : Option BitwardenCacheMetrics) : List Sample :=
  (metrics.families uptime now ready cacheMetrics).flatMap Family.samples

theorem shows_family {snapshot : MetricsInner σ} (h : metrics.inner = some snapshot) {family : Family}
    (hfamily : family ∈ httpFamilies snapshot.httpRequests ∨
      family ∈ resolveFamilies snapshot.resolveRequests ∨
      family ∈ (cacheMetrics.map cacheFamilies).getD [] ∨ family ∈ policyFamilies snapshot now)
    {name : Str} (hname : name ∈ family.seriesNames) (labels : List (Str × Str)) (n : ℕ) :
    Shows (metrics.samples uptime now ready cacheMetrics) name labels n ↔
      Shows family.samples name labels n :=
  shows_iff (metrics.families_wellFormed uptime now ready cacheMetrics)
    (metrics.families_names uptime now ready cacheMetrics) (mem_families h hfamily) hname labels n

theorem shows_http {snapshot : MetricsInner σ} (h : metrics.inner = some snapshot)
    (l : List (Str × Str)) (n : ℕ) :
    (Shows (metrics.samples uptime now ready cacheMetrics) "bweso_http_requests_total".toList l n ↔
      ∃ v ∈ snapshot.httpRequests.toList, l = v.1.labels ∧ n = v.2.count.toNat) ∧
    (Shows (metrics.samples uptime now ready cacheMetrics)
        ("bweso_http_request_duration_seconds".toList ++ "_count".toList) l n ↔
      ∃ v ∈ snapshot.httpRequests.toList, l = v.1.labels ∧ n = v.2.count.toNat) ∧
    ∀ v ∈ snapshot.httpRequests.toList, Shows (metrics.samples uptime now ready cacheMetrics)
      ("bweso_http_request_duration_seconds".toList ++ "_bucket".toList)
      (v.1.labels ++ [("le".toList, "+Inf".toList)]) v.2.count.toNat :=
  shows_requests (metrics.families_wellFormed uptime now ready cacheMetrics)
    (metrics.families_names uptime now ready cacheMetrics)
    (mem_families h (.inl List.mem_cons_self))
    (mem_families h (.inl (List.mem_cons_of_mem _ List.mem_cons_self))) l n

theorem shows_resolve {snapshot : MetricsInner σ} (h : metrics.inner = some snapshot)
    (l : List (Str × Str)) (n : ℕ) :
    (Shows (metrics.samples uptime now ready cacheMetrics) "bweso_resolve_requests_total".toList l n ↔
      ∃ v ∈ snapshot.resolveRequests.toList, l = v.1.labels ∧ n = v.2.count.toNat) ∧
    (Shows (metrics.samples uptime now ready cacheMetrics)
        ("bweso_resolve_duration_seconds".toList ++ "_count".toList) l n ↔
      ∃ v ∈ snapshot.resolveRequests.toList, l = v.1.labels ∧ n = v.2.count.toNat) ∧
    ∀ v ∈ snapshot.resolveRequests.toList, Shows (metrics.samples uptime now ready cacheMetrics)
      ("bweso_resolve_duration_seconds".toList ++ "_bucket".toList)
      (v.1.labels ++ [("le".toList, "+Inf".toList)]) v.2.count.toNat :=
  shows_requests (metrics.families_wellFormed uptime now ready cacheMetrics)
    (metrics.families_names uptime now ready cacheMetrics)
    (mem_families h (.inr (.inl List.mem_cons_self)))
    (mem_families h (.inr (.inl (List.mem_cons_of_mem _ List.mem_cons_self)))) l n

theorem shows_reloads (h : metrics.inner = some (recorded calls))
    (hpolicy : calls.any MetricsCall.isPolicy = true) (labels : List (Str × Str)) (n : ℕ) :
    Shows (metrics.samples uptime now ready cacheMetrics) "bweso_policy_reloads_total".toList labels n ↔
      ∃ outcome, labels = outcomeLabels (ReloadOutcome.label outcome) ∧
        n = reloadCalls calls outcome % 2 ^ 64 := by
  have hwritten : ((recorded calls).policyReloads.isEmpty &&
      (recorded calls).policyLastSuccess.isNone) = false := by
    rw [recorded_isPolicy, hpolicy]
    rfl
  have hfamily : policyReloads (recorded calls) ∈ policyFamilies (recorded calls) now := by
    unfold policyFamilies
    rw [hwritten]
    exact List.mem_cons_self
  refine (shows_family h (.inr (.inr (.inr hfamily))) (List.mem_singleton_self _) labels n).trans ?_
  refine shows_counters.trans ?_
  simp only [reloads_recorded]
  constructor
  · rintro ⟨outcome, -, hlabels, hn⟩
    exact ⟨outcome, hlabels, hn⟩
  · rintro ⟨outcome, hlabels, hn⟩
    refine ⟨outcome, ?_, hlabels, hn⟩
    cases outcome <;> simp

theorem shows_cache {snapshot : MetricsInner σ} (h : metrics.inner = some snapshot)
    (cache : BitwardenCacheMetrics) :
    Shows (metrics.samples uptime now ready (some cache)) "bweso_cache_hits_total".toList []
        cache.cacheHits.toNat ∧
      Shows (metrics.samples uptime now ready (some cache)) "bweso_cache_refreshes_total".toList
        (outcomeLabels "success".toList) cache.refreshSuccesses.toNat ∧
      Shows (metrics.samples uptime now ready (some cache)) "bweso_cache_refreshes_total".toList
        (outcomeLabels "failure".toList) cache.refreshFailures.toNat := by
  have hhits : cacheHits cache ∈ cacheFamilies cache := List.mem_cons_self
  have hrefreshes : cacheRefreshes cache ∈ cacheFamilies cache :=
    List.mem_cons_of_mem _ List.mem_cons_self
  refine ⟨?_, ?_, ?_⟩
  · refine (shows_family h (.inr (.inr (.inl hhits))) (List.mem_singleton_self _) _ _).mpr ?_
    exact ⟨_, List.mem_cons_self, decimalValue_toDigits _⟩
  · refine (shows_family h (.inr (.inr (.inl hrefreshes))) (List.mem_singleton_self _) _ _).mpr ?_
    exact ⟨_, List.mem_cons_self, decimalValue_toDigits _⟩
  · refine (shows_family h (.inr (.inr (.inl hrefreshes))) (List.mem_singleton_self _) _ _).mpr ?_
    exact ⟨_, List.mem_cons_of_mem _ List.mem_cons_self, decimalValue_toDigits _⟩

omit [DisplaySeconds σ] in
theorem appendLabeledMetric_inj {output name value value' : Str} {labels labels' : List (Str × Str)}
    (hnames : labels.map Prod.fst = labels'.map Prod.fst)
    (h : appendLabeledMetric output name labels value = appendLabeledMetric output name labels' value') :
    labels = labels' ∧ value = value' := by
  rw [appendLabeledMetric_eq, appendLabeledMetric_eq, List.append_cancel_left_eq,
    List.append_cancel_right_eq] at h
  exact labeledText_inj hnames h

/-- After any calls, the text has one line for each sample and no series twice, and reading it
back gives the labels and the counts of the calls. -/
theorem rendering_is_unambiguous (calls : List (MetricsCall σ)) (startTime now : SystemTime)
    (uptime : σ) (ready : Bool) (cacheMetrics : Option BitwardenCacheMetrics) :
    let metrics : AppMetrics σ := ⟨startTime, some (recorded calls)⟩
    let output := metrics.render uptime now ready cacheMetrics
    let families := metrics.families uptime now ready cacheMetrics
    let samples := families.flatMap Family.samples
    split '\n' output = families.flatMap Family.lines ++ [[]] ∧
    samples.Pairwise (fun a b => ¬ a.SameSeries b) ∧
    read output = some samples ∧
    (∀ name labels n, name = "bweso_http_requests_total".toList ∨
        name = "bweso_http_request_duration_seconds".toList ++ "_count".toList →
      (Shows samples name labels n ↔ ∃ key, 0 < httpCalls calls key ∧
        labels = [("method".toList, key.method), ("route".toList, key.route),
          ("status".toList, Nat.toDigits 10 key.status.toNat)] ∧
        n = httpCalls calls key % 2 ^ 64)) ∧
    (∀ name labels n, name = "bweso_resolve_requests_total".toList ∨
        name = "bweso_resolve_duration_seconds".toList ++ "_count".toList →
      (Shows samples name labels n ↔ ∃ key, 0 < resolveCalls calls key ∧
        labels = [("outcome".toList, key.outcome.label),
          ("error_kind".toList, errorKindLabel key.errorKind),
          ("status".toList, Nat.toDigits 10 key.status.toNat)] ∧
        n = resolveCalls calls key % 2 ^ 64)) ∧
    (calls.any MetricsCall.isPolicy = true → ∀ labels n,
      (Shows samples "bweso_policy_reloads_total".toList labels n ↔ ∃ outcome : ReloadOutcome,
        labels = [("outcome".toList, outcome.label)] ∧ n = reloadCalls calls outcome % 2 ^ 64)) ∧
    (∀ cache, cacheMetrics = some cache →
      Shows samples "bweso_cache_hits_total".toList [] cache.cacheHits.toNat ∧
      Shows samples "bweso_cache_refreshes_total".toList [("outcome".toList, "success".toList)]
        cache.refreshSuccesses.toNat ∧
      Shows samples "bweso_cache_refreshes_total".toList [("outcome".toList, "failure".toList)]
        cache.refreshFailures.toNat) ∧
    ∀ output name labels labels' value value', labels.map Prod.fst = labels'.map Prod.fst →
      appendLabeledMetric output name labels value = appendLabeledMetric output name labels' value' →
        labels = labels' ∧ value = value' := by
  intro metrics output families samples
  have hwell : ∀ family ∈ families, family.WellFormed :=
    metrics.families_wellFormed uptime now ready cacheMetrics
  have houtput : output = write families := metrics.render_eq uptime now ready cacheMetrics
  refine ⟨?_, ?_, ?_, ?_, ?_, ?_, ?_, ?_⟩
  · rw [houtput]
    exact split_write hwell
  · exact pairwise_series hwell (metrics.families_names uptime now ready cacheMetrics)
  · rw [houtput]
    exact read_write hwell
  · rintro name labels n (rfl | rfl)
    · exact (shows_http rfl labels n).1.trans (http_counts calls)
    · exact (shows_http rfl labels n).2.1.trans (http_counts calls)
  · rintro name labels n (rfl | rfl)
    · exact (shows_resolve rfl labels n).1.trans (resolve_counts calls)
    · exact (shows_resolve rfl labels n).2.1.trans (resolve_counts calls)
  · intro hpolicy labels n
    exact shows_reloads rfl hpolicy labels n
  · rintro cache rfl
    exact shows_cache rfl cache
  · intro output name labels labels' value value' hnames h
    exact appendLabeledMetric_inj hnames h

/-- Histograms count what was observed, and show it as often as they are rendered. -/
theorem histograms_are_cumulative (durations : List σ) (hcount : durations.length < 2 ^ 64) :
    (∀ i, ((observed durations).buckets.get i).toNat =
      durations.countP (fun d => d ≤ histogramBuckets.get i)) ∧
    (∀ i j, i ≤ j → (observed durations).buckets.get i ≤ (observed durations).buckets.get j) ∧
    (∀ i, (observed durations).buckets.get i ≤ (observed durations).count) ∧
    (observed durations).count.toNat = durations.length ∧
    (∀ i j, i < j → (histogramBuckets : Vector σ 11).get i < histogramBuckets.get j) ∧
    (∀ output name labels, appendHistogram output name labels (observed durations) =
      output ++ unlines
        ((bucketTexts.zip (histogramBuckets : Vector σ 11).toList).map (fun (le, bound) =>
            labeledText (name ++ "_bucket".toList) (labels ++ [("le".toList, le)])
              (Nat.toDigits 10 (durations.countP (fun d => d ≤ bound)))) ++
          [labeledText (name ++ "_bucket".toList) (labels ++ [("le".toList, "+Inf".toList)])
              (Nat.toDigits 10 durations.length),
            labeledText (name ++ "_sum".toList) labels
              (DisplaySeconds.fixed 6 (observed durations).sumSeconds),
            labeledText (name ++ "_count".toList) labels (Nat.toDigits 10 durations.length)])) ∧
    ∀ calls startTime uptime now ready cacheMetrics,
      let metrics : AppMetrics σ := ⟨startTime, some (recorded calls)⟩
      let samples := metrics.samples uptime now ready cacheMetrics
      read (metrics.render uptime now ready cacheMetrics) = some samples ∧
      (∀ key, httpDurations calls key = durations → durations ≠ [] →
        (recorded calls).httpRequests[key]? = some (observed durations) ∧
        Shows samples "bweso_http_requests_total".toList key.labels durations.length ∧
        Shows samples ("bweso_http_request_duration_seconds".toList ++ "_count".toList) key.labels
          durations.length ∧
        Shows samples ("bweso_http_request_duration_seconds".toList ++ "_bucket".toList)
          (key.labels ++ [("le".toList, "+Inf".toList)]) durations.length) ∧
      ∀ key, resolveDurations calls key = durations → durations ≠ [] →
        (recorded calls).resolveRequests[key]? = some (observed durations) ∧
        Shows samples "bweso_resolve_requests_total".toList key.labels durations.length ∧
        Shows samples ("bweso_resolve_duration_seconds".toList ++ "_count".toList) key.labels
          durations.length ∧
        Shows samples ("bweso_resolve_duration_seconds".toList ++ "_bucket".toList)
          (key.labels ++ [("le".toList, "+Inf".toList)]) durations.length := by
  refine ⟨toNat_buckets hcount, fun i j hij => buckets_mono hcount hij, buckets_le_count hcount,
    toNat_count hcount, fun i j hij => histogramBuckets_lt hij, appendHistogram_observed hcount, ?_⟩
  intro calls startTime uptime now ready cacheMetrics metrics samples
  refine ⟨?_, ?_, ?_⟩
  · rw [metrics.render_eq]
    exact read_write (metrics.families_wellFormed uptime now ready cacheMetrics)
  · rintro key rfl hne
    have hvalue : (key, observed (httpDurations calls key)) ∈ (recorded calls).httpRequests.toList :=
      mem_httpRequests.mpr ⟨hne, rfl⟩
    rw [← toNat_count hcount]
    refine ⟨Std.ExtTreeMap.mem_toList_iff_getElem?_eq_some.mp hvalue, ?_, ?_, ?_⟩
    · exact (shows_http rfl _ _).1.mpr ⟨_, hvalue, rfl, rfl⟩
    · exact (shows_http rfl _ _).2.1.mpr ⟨_, hvalue, rfl, rfl⟩
    · exact (shows_http rfl [] 0).2.2 _ hvalue
  · rintro key rfl hne
    have hvalue : (key, observed (resolveDurations calls key)) ∈
        (recorded calls).resolveRequests.toList := mem_resolveRequests.mpr ⟨hne, rfl⟩
    rw [← toNat_count hcount]
    refine ⟨Std.ExtTreeMap.mem_toList_iff_getElem?_eq_some.mp hvalue, ?_, ?_, ?_⟩
    · exact (shows_resolve rfl _ _).1.mpr ⟨_, hvalue, rfl, rfl⟩
    · exact (shows_resolve rfl _ _).2.1.mpr ⟨_, hvalue, rfl, rfl⟩
    · exact (shows_resolve rfl [] 0).2.2 _ hvalue

end Scrape

theorem two_durations_are_counted :
    ((observed ([1 / 200, 11] : List ℚ)).buckets.get 0).toNat = 1 ∧
      ((observed ([1 / 200, 11] : List ℚ)).buckets.get 10).toNat = 1 ∧
      (observed ([1 / 200, 11] : List ℚ)).count.toNat = 2 := by
  obtain ⟨hbuckets, -, -, hcount, -⟩ := histograms_are_cumulative ([1 / 200, 11] : List ℚ) (by decide)
  refine ⟨(hbuckets 0).trans ?_, (hbuckets 10).trans ?_, hcount⟩
  · decide +kernel
  · decide +kernel

end VaultwardenEso.Provider
