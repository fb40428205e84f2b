import VaultwardenEso.Rendering

set_option autoImplicit false

/-!
# Histograms and the calls that fill them

A histogram is a function of the durations that were observed under its key: every bucket
counts those up to its bound. The registry is a function of the calls that were made.
-/
namespace VaultwardenEso.Provider
open RustStr Client Exposition

/-! ## Observations -/

section Observe
variable {σ : Type} [DisplaySeconds σ]

/-- The histogram of a sequence of durations. -/
def observed (durations : List σ) : HistogramValues σ := durations.foldl .observe .default

theorem observed_concat (durations : List σ) (duration : σ) :
    observed (durations ++ [duration]) = (observed durations).observe duration := by
  rw [observed, List.foldl_append]
  rfl

theorem observed_count (durations : List σ) :
    (observed durations).count = UInt64.ofNat durations.length := by
  induction durations using List.reverseRecOn with
  | nil => rfl
  | append_singleton durations duration ih =>
    rw [observed_concat, List.length_append, UInt64.ofNat_add]
    exact congrArg (· + 1) ih

/-- A bucket counts the durations up to its bound, the bound included. -/
theorem observed_buckets (durations : List σ) (i : Fin 11) :
    (observed durations).buckets.get i =
      UInt64.ofNat (durations.countP (fun d => d ≤ histogramBuckets.get i)) := by
  change (observed durations).buckets[i.val] =
    UInt64.ofNat (durations.countP (fun d => d ≤ histogramBuckets[i.val]))
  induction durations using List.reverseRecOn with
  | nil => simp [observed, HistogramValues.default]
  | append_singleton durations duration ih =>
    rw [observed_concat, List.countP_append, UInt64.ofNat_add, ← ih]
    simp only [HistogramValues.observe, Vector.getElem_zipWith, List.countP_cons,
      List.countP_nil, Nat.zero_add, decide_eq_true_eq]
    split
    · rfl
    · exact (UInt64.add_zero _).symm

/-! ## The bounds -/

/-- The literals of `HISTOGRAM_BUCKETS`, in milliseconds. -/
def bucketMillis : Fin 11 → ℕ := ![5, 10, 25, 50, 100, 250, 500, 1000, 2500, 5000, 10000]

theorem histogramBuckets_get (i : Fin 11) :
    (histogramBuckets : Vector σ 11).get i = Seconds.ofMillis (bucketMillis i) := by
  change (Vector.map Seconds.ofMillis _)[i.val] = _
  rw [Vector.getElem_map]
  congr 1
  revert i
  decide

theorem bucketMillis_lt : ∀ i j : Fin 11, i < j → bucketMillis i < bucketMillis j := by
  decide

theorem bucketMillis_le (i : Fin 11) : bucketMillis i ≤ 10000 := by
  revert i
  decide

theorem histogramBuckets_lt {i j : Fin 11} (h : i < j) :
    (histogramBuckets : Vector σ 11).get i < histogramBuckets.get j := by
  rw [histogramBuckets_get, histogramBuckets_get]
  exact DisplaySeconds.ofMillis_lt _ _ (bucketMillis_lt i j h) (bucketMillis_le j)

theorem histogramBuckets_mono {i j : Fin 11} (h : i ≤ j) :
    (histogramBuckets : Vector σ 11).get i ≤ histogramBuckets.get j := by
  rcases h.lt_or_eq with hlt | rfl
  · exact (histogramBuckets_lt hlt).le
  · exact le_refl _

def bucketTexts : List Str :=
  ["0.005".toList, "0.010".toList, "0.025".toList, "0.050".toList, "0.100".toList, "0.250".toList,
    "0.500".toList, "1.000".toList, "2.500".toList, "5.000".toList, "10.000".toList]

theorem fixed_histogramBuckets :
    (histogramBuckets : Vector σ 11).toList.map (DisplaySeconds.fixed 3) = bucketTexts := by
  have hliterals : (List.ofFn bucketMillis).map (fixedPoint 3) = bucketTexts := by decide
  have hbuckets : (histogramBuckets : Vector σ 11).toList =
      (List.ofFn bucketMillis).map Seconds.ofMillis := by
    rw [histogramBuckets, Vector.toList_map]
    rfl
  rw [← hliterals, hbuckets, List.map_map]
  apply List.map_congr_left
  intro n hn
  obtain ⟨i, rfl⟩ := List.mem_ofFn.mp hn
  exact DisplaySeconds.fixed_ofMillis _ (bucketMillis_le i)

theorem toNat_buckets {durations : List σ} (h : durations.length < 2 ^ 64) (i : Fin 11) :
    ((observed durations).buckets.get i).toNat =
      durations.countP (fun d => d ≤ histogramBuckets.get i) := by
  rw [observed_buckets]
  exact UInt64.toNat_ofNat_of_lt' (Nat.lt_of_le_of_lt List.countP_le_length h)

theorem toNat_count {durations : List σ} (h : durations.length < 2 ^ 64) :
    (observed durations).count.toNat = durations.length := by
  rw [observed_count]
  exact UInt64.toNat_ofNat_of_lt' h

theorem buckets_mono {durations : List σ} (h : durations.length < 2 ^ 64) {i j : Fin 11}
    (hij : i ≤ j) : (observed durations).buckets.get i ≤ (observed durations).buckets.get j := by
  rw [UInt64.le_iff_toNat_le, toNat_buckets h, toNat_buckets h]
  refine List.countP_mono_left ?_
  intro d _ hd
  rw [decide_eq_true_eq] at hd ⊢
  exact hd.trans (histogramBuckets_mono hij)

theorem buckets_le_count {durations : List σ} (h : durations.length < 2 ^ 64) (i : Fin 11) :
    (observed durations).buckets.get i ≤ (observed durations).count := by
  rw [UInt64.le_iff_toNat_le, toNat_buckets h, toNat_count h]
  exact List.countP_le_length

theorem observed_buckets_toList (durations : List σ) :
    (observed durations).buckets.toList = (histogramBuckets : Vector σ 11).toList.map
      (fun bound => UInt64.ofNat (durations.countP (fun d => d ≤ bound))) := by
  rw [← Vector.toList_map]
  congr 1
  apply Vector.ext
  intro i hi
  rw [Vector.getElem_map]
  exact observed_buckets durations ⟨i, hi⟩

/-- The lines of a histogram: the buckets in the order of their bounds, then all of them. -/
theorem appendHistogram_observed {durations : List σ} (h : durations.length < 2 ^ 64)
    (output name : Str) (labels : List (Str × Str)) :
    appendHistogram output name labels (observed durations) = output ++ unlines
      ((bucketTexts.zip (histogramBuckets : Vector σ 11).toList).map (fun (le, bound) =>
          labeledText (name ++ "_bucket".toList) (labels ++ [("le".toList, le)])
            (Nat.toDigits 10 (durations.countP (fun d => d ≤ bound)))) ++
        [labeledText (name ++ "_bucket".toList) (labels ++ [("le".toList, "+Inf".toList)])
            (Nat.toDigits 10 durations.length),
          labeledText (name ++ "_sum".toList) labels
            (DisplaySeconds.fixed 6 (observed durations).sumSeconds),
          labeledText (name ++ "_count".toList) labels (Nat.toDigits 10 durations.length)]) := by
  rw [appendHistogram_eq, histogramSamples, observed_buckets_toList, ← fixed_histogramBuckets (σ := σ),
    toNat_count h, List.map_append, List.map_map]
  congr 3
  generalize (histogramBuckets : Vector σ 11).toList = bounds
  have hcounts : bounds.zip (bounds.map (fun bound =>
      UInt64.ofNat (durations.countP (fun d => d ≤ bound)))) = bounds.map (fun bound =>
        (bound, UInt64.ofNat (durations.countP (fun d => d ≤ bound)))) := by
    rw [← List.zip_map', List.map_id']
  have htexts : (bounds.map (DisplaySeconds.fixed 3)).zip bounds =
      bounds.map (fun bound => (DisplaySeconds.fixed 3 bound, bound)) := by
    rw [← List.zip_map', List.map_id']
  rw [hcounts, htexts, List.map_map, List.map_map]
  apply List.map_congr_left
  intro bound _
  have hle := Nat.lt_of_le_of_lt (List.countP_le_length (p := fun d => d ≤ bound)) h
  simp only [-String.reduceToList, Function.comp_apply, UInt64.toNat_ofNat_of_lt' hle]

end Observe

/-! ## The registry -/

/-- A call of the registry; `now` is what the clock gives. -/
inductive MetricsCall (σ : Type) where
  | httpRequest (method route : Str) (status : UInt16) (duration : σ)
  | resolveRequest (status : UInt16) (outcome : ResolveOutcome) (errorKind : Option ErrorKind)
      (duration : σ)
  | policyReload (outcome : ReloadOutcome) (activeKeys activeKeyPrefixes : ℕ) (now : SystemTime)
  | policyBaseline (activeKeys activeKeyPrefixes : ℕ) (now : SystemTime)

def MetricsCall.httpEntry {σ : Type} : MetricsCall σ → Option (HttpMetricKey × σ)
  | .httpRequest method route status duration => some (⟨method, route, status⟩, duration)
  | _ => none

def MetricsCall.resolveEntry {σ : Type} : MetricsCall σ → Option (ResolveMetricKey × σ)
  | .resolveRequest status outcome errorKind duration => some (⟨outcome, errorKind, status⟩, duration)
  | _ => none

def MetricsCall.reloadEntry {σ : Type} : MetricsCall σ → Option (ReloadOutcome × Unit)
  | .policyReload outcome _ _ _ => some (outcome, ())
  | _ => none

def MetricsCall.isPolicy {σ : Type} : MetricsCall σ → Bool
  | .policyReload _ _ _ _ | .policyBaseline _ _ _ => true
  | _ => false

section Registry
variable {σ : Type} [DisplaySeconds σ]

def MetricsInner.record (inner : MetricsInner σ) : MetricsCall σ → MetricsInner σ
  | .httpRequest method route status duration => inner.recordHttpRequest method route status duration
  | .resolveRequest status outcome errorKind duration =>
    inner.recordResolveRequest status outcome errorKind duration
  | .policyReload outcome activeKeys activeKeyPrefixes now =>
    inner.recordPolicyReload outcome activeKeys activeKeyPrefixes now
  | .policyBaseline activeKeys activeKeyPrefixes now =>
    inner.recordPolicyBaseline activeKeys activeKeyPrefixes now

/-- The registry after the calls. -/
def recorded (calls : List (MetricsCall σ)) : MetricsInner σ := calls.foldl .record .default

def httpDurations (calls : List (MetricsCall σ)) (key : HttpMetricKey) : List σ :=
  BTreeMap.entered key (calls.filterMap MetricsCall.httpEntry)

def resolveDurations (calls : List (MetricsCall σ)) (key : ResolveMetricKey) : List σ :=
  BTreeMap.entered key (calls.filterMap MetricsCall.resolveEntry)

theorem recorded_concat (calls : List (MetricsCall σ)) (call : MetricsCall σ) :
    recorded (calls ++ [call]) = (recorded calls).record call := by
  rw [recorded, List.foldl_append]
  rfl

theorem recorded_maps (calls : List (MetricsCall σ)) :
    (recorded calls).httpRequests =
        BTreeMap.upsertAll .default .observe (calls.filterMap MetricsCall.httpEntry) ∧
      (recorded calls).resolveRequests =
        BTreeMap.upsertAll .default .observe (calls.filterMap MetricsCall.resolveEntry) ∧
      (recorded calls).policyReloads =
        BTreeMap.upsertAll 0 (fun n _ => n + 1) (calls.filterMap MetricsCall.reloadEntry) := by
  induction calls using List.reverseRecOn with
  | nil => exact ⟨rfl, rfl, rfl⟩
  | append_singleton calls call ih =>
    obtain ⟨hhttp, hresolve, hreload⟩ := ih
    rw [recorded_concat]
    simp only [List.filterMap_append, BTreeMap.upsertAll_append, ← hhttp, ← hresolve, ← hreload]
    cases call with
    | httpRequest method route status duration => exact ⟨rfl, rfl, rfl⟩
    | resolveRequest status outcome errorKind duration => exact ⟨rfl, rfl, rfl⟩
    | policyReload outcome activeKeys activeKeyPrefixes now => exact ⟨rfl, rfl, rfl⟩
    | policyBaseline activeKeys activeKeyPrefixes now => exact ⟨rfl, rfl, rfl⟩

theorem mem_httpRequests {calls : List (MetricsCall σ)} {key : HttpMetricKey}
    {histogram : HistogramValues σ} :
    (key, histogram) ∈ (recorded calls).httpRequests.toList ↔
      httpDurations calls key ≠ [] ∧ histogram = observed (httpDurations calls key) := by
  rw [(recorded_maps calls).1]
  exact BTreeMap.mem_toList_upsertAll

theorem mem_resolveRequests {calls : List (MetricsCall σ)} {key : ResolveMetricKey}
    {histogram : HistogramValues σ} :
    (key, histogram) ∈ (recorded calls).resolveRequests.toList ↔
      resolveDurations calls key ≠ [] ∧ histogram = observed (resolveDurations calls key) := by
  rw [(recorded_maps calls).2.1]
  exact BTreeMap.mem_toList_upsertAll

def httpCalls (calls : List (MetricsCall σ)) (key : HttpMetricKey) : ℕ :=
  calls.countP (fun call => call.httpEntry.map Prod.fst = some key)

def resolveCalls (calls : List (MetricsCall σ)) (key : ResolveMetricKey) : ℕ :=
  calls.countP (fun call => call.resolveEntry.map Prod.fst = some key)

def reloadCalls (calls : List (MetricsCall σ)) (outcome : ReloadOutcome) : ℕ :=
  calls.countP (fun call => call.reloadEntry.map Prod.fst = some outcome)

omit [DisplaySeconds σ] in
theorem length_httpDurations (calls : List (MetricsCall σ)) (key : HttpMetricKey) :
    (httpDurations calls key).length = httpCalls calls key :=
  BTreeMap.length_entered MetricsCall.httpEntry key calls

omit [DisplaySeconds σ] in
theorem length_resolveDurations (calls : List (MetricsCall σ)) (key : ResolveMetricKey) :
    (resolveDurations calls key).length = resolveCalls calls key :=
  BTreeMap.length_entered MetricsCall.resolveEntry key calls

theorem http_counts {labels : List (Str × Str)} {n : ℕ} (calls : List (MetricsCall σ)) :
    (∃ v ∈ (recorded calls).httpRequests.toList, labels = v.1.labels ∧ n = v.2.count.toNat) ↔
      ∃ key, 0 < httpCalls calls key ∧ labels = key.labels ∧ n = httpCalls calls key % 2 ^ 64 := by
  simp only [Prod.exists, mem_httpRequests, ← length_httpDurations, List.length_pos_iff]
  constructor
  · rintro ⟨key, histogram, ⟨hne, rfl⟩, rfl, rfl⟩
    exact ⟨key, hne, rfl, by rw [observed_count, UInt64.toNat_ofNat']⟩
  · rintro ⟨key, hne, rfl, rfl⟩
    exact ⟨key, _, ⟨hne, rfl⟩, rfl, by rw [observed_count, UInt64.toNat_ofNat']⟩

theorem resolve_counts {labels : List (Str × Str)} {n : ℕ} (calls : List (MetricsCall σ)) :
    (∃ v ∈ (recorded calls).resolveRequests.toList, labels = v.1.labels ∧ n = v.2.count.toNat) ↔
      ∃ key, 0 < resolveCalls calls key ∧ labels = key.labels ∧
        n = resolveCalls calls key % 2 ^ 64 := by
  simp only [Prod.exists, mem_resolveRequests, ← length_resolveDurations, List.length_pos_iff]
  constructor
  · rintro ⟨key, histogram, ⟨hne, rfl⟩, rfl, rfl⟩
    exact ⟨key, hne, rfl, by rw [observed_count, UInt64.toNat_ofNat']⟩
  · rintro ⟨key, hne, rfl, rfl⟩
    exact ⟨key, _, ⟨hne, rfl⟩, rfl, by rw [observed_count, UInt64.toNat_ofNat']⟩

theorem reloads_recorded (calls : List (MetricsCall σ)) (outcome : ReloadOutcome) :
    ((recorded calls).policyReloads.getD outcome 0).toNat = reloadCalls calls outcome % 2 ^ 64 := by
  have hcount : ∀ units : List Unit, units.foldl (fun n _ => n + 1) 0 = UInt64.ofNat units.length := by
    intro units
    induction units using List.reverseRecOn with
    | nil => rfl
    | append_singleton units u ih =>
      rw [List.foldl_append, ih, List.length_append, UInt64.ofNat_add]
      rfl
  rw [Std.ExtTreeMap.getD_eq_getD_getElem?, (recorded_maps calls).2.2, BTreeMap.getElem?_upsertAll,
    reloadCalls, ← BTreeMap.length_entered MetricsCall.reloadEntry, ← UInt64.toNat_ofNat', hcount]
  split
  · rename_i hnone
    rw [hnone]
    rfl
  · rfl

theorem recorded_isPolicy (calls : List (MetricsCall σ)) :
    ((recorded calls).policyReloads.isEmpty && (recorded calls).policyLastSuccess.isNone) =
      !calls.any MetricsCall.isPolicy := by
  induction calls using List.reverseRecOn with
  | nil => rfl
  | append_singleton calls call ih =>
    rw [recorded_concat, List.any_append, Bool.not_or, ← ih]
    cases call with
    | httpRequest method route status duration =>
      simp [MetricsInner.record, MetricsInner.recordHttpRequest, MetricsCall.isPolicy]
    | resolveRequest status outcome errorKind duration =>
      simp [MetricsInner.record, MetricsInner.recordResolveRequest, MetricsCall.isPolicy]
    | policyReload outcome activeKeys activeKeyPrefixes now =>
      simp [MetricsInner.record, MetricsInner.recordPolicyReload, MetricsCall.isPolicy, BTreeMap.upsert]
    | policyBaseline activeKeys activeKeyPrefixes now =>
      cases hlast : (recorded calls).policyLastSuccess with
      | none => simp [MetricsInner.record, MetricsInner.recordPolicyBaseline, MetricsCall.isPolicy, hlast]
      | some time =>
        simp [MetricsInner.record, MetricsInner.recordPolicyBaseline, MetricsCall.isPolicy, hlast]

end Registry

end VaultwardenEso.Provider
