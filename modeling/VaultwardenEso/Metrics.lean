import VaultwardenEso.Lib.BTreeMap
import VaultwardenEso.Webhook

set_option autoImplicit false

/-! # The metrics registry: `metrics.rs` -/
namespace VaultwardenEso.Provider
open RustStr

/-- Seconds as the source has them in `f64`; a literal is given in milliseconds. -/
class Seconds (σ : Type) extends LinearOrder σ, Add σ, Zero σ where
  ofMillis : ℕ → σ

/-- Nanoseconds since the Unix epoch. -/
abbrev SystemTime := ℤ

def StatusCode.asU16 : StatusCode → UInt16
  | .ok => 200
  | .badRequest => 400
  | .unauthorized => 401
  | .forbidden => 403
  | .notFound => 404
  | .conflict => 409
  | .payloadTooLarge => 413
  | .unsupportedMediaType => 415
  | .unprocessableEntity => 422
  | .internalServerError => 500
  | .badGateway => 502
  | .serviceUnavailable => 503

theorem StatusCode.asU16_eq_ok {status : StatusCode} : status.asU16 = 200 ↔ status = .ok := by
  cases status <;> decide

/-! ## Labels and keys -/

inductive ResolveOutcome where
  | success
  | error
  deriving DecidableEq

def ResolveOutcome.label : ResolveOutcome → Str
  | .success => "success".toList
  | .error => "error".toList

def errorKindLabel : Option ErrorKind → Str
  | none => "none".toList
  | some .auth => "auth".toList
  | some .overloaded => "overloaded".toList
  | some .validation => "validation".toList
  | some .policyDenied => "policy_denied".toList
  | some .notFound => "not_found".toList
  | some .unsupportedAttachment => "unsupported_attachment".toList
  | some .ambiguousSelector => "ambiguous_selector".toList
  | some .unsupportedSharedItem => "unsupported_shared_item".toList
  | some .upstreamHttp => "upstream_http".toList
  | some .upstreamStatus => "upstream_status".toList
  | some .crypto => "crypto".toList
  | some .keyDerivation => "key_derivation".toList
  | some .kdfParameters => "kdf_parameters".toList
  | some .syncPayload => "sync_payload".toList
  | some .endpoint => "endpoint".toList
  | some .unsupportedVersion => "unsupported_version".toList

inductive ReloadOutcome where
  | success
  | unchanged
  | failure
  deriving DecidableEq

def ReloadOutcome.label : ReloadOutcome → Str
  | .success => "success".toList
  | .unchanged => "unchanged".toList
  | .failure => "failure".toList

theorem ResolveOutcome.label_injective : Function.Injective ResolveOutcome.label := by
  intro a b h
  cases a <;> cases b <;> first | rfl | exact absurd h (by decide)

theorem ReloadOutcome.label_injective : Function.Injective ReloadOutcome.label := by
  intro a b h
  cases a <;> cases b <;> first | rfl | exact absurd h (by decide)

theorem errorKindLabel_injective : Function.Injective errorKindLabel := by
  intro a b h
  rcases a with _ | a <;> rcases b with _ | b
  · rfl
  · cases b <;> exact absurd h (by decide)
  · cases a <;> exact absurd h (by decide)
  · cases a <;> cases b <;> first | rfl | exact absurd h (by decide)

structure HttpMetricKey where
  method : Str
  route : Str
  status : UInt16
  deriving DecidableEq

structure ResolveMetricKey where
  outcome : ResolveOutcome
  errorKind : Option ErrorKind
  status : UInt16
  deriving DecidableEq

instance : Ord HttpMetricKey where
  compare := compareLex (compareOn (·.method)) (compareLex (compareOn (·.route)) (compareOn (·.status)))

instance : Std.TransOrd HttpMetricKey :=
  inferInstanceAs (Std.TransCmp (compareLex _ (compareLex _ _)))

instance : Std.LawfulEqOrd HttpMetricKey where
  compare_self := Std.ReflOrd.compare_self
  eq_of_compare := by
    rintro ⟨method, route, status⟩ ⟨method', route', status'⟩ h
    obtain ⟨hmethod, hrest⟩ := compareLex_eq_eq.mp h
    obtain ⟨hroute, hstatus⟩ := compareLex_eq_eq.mp hrest
    obtain rfl : method = method' := Std.LawfulEqOrd.eq_of_compare hmethod
    obtain rfl : route = route' := Std.LawfulEqOrd.eq_of_compare hroute
    obtain rfl : status = status' := Std.LawfulEqOrd.eq_of_compare hstatus
    rfl

instance : Ord ResolveMetricKey where
  compare := compareLex (compareOn (·.outcome.label))
    (compareLex (compareOn (fun key => errorKindLabel key.errorKind)) (compareOn (·.status)))

instance : Std.TransOrd ResolveMetricKey :=
  inferInstanceAs (Std.TransCmp (compareLex _ (compareLex _ _)))

instance : Std.LawfulEqOrd ResolveMetricKey where
  compare_self := Std.ReflOrd.compare_self
  eq_of_compare := by
    rintro ⟨outcome, errorKind, status⟩ ⟨outcome', errorKind', status'⟩ h
    obtain ⟨houtcome, hrest⟩ := compareLex_eq_eq.mp h
    obtain ⟨herrorKind, hstatus⟩ := compareLex_eq_eq.mp hrest
    obtain rfl : outcome = outcome' :=
      ResolveOutcome.label_injective (Std.LawfulEqOrd.eq_of_compare houtcome)
    obtain rfl : errorKind = errorKind' :=
      errorKindLabel_injective (Std.LawfulEqOrd.eq_of_compare herrorKind)
    obtain rfl : status = status' := Std.LawfulEqOrd.eq_of_compare hstatus
    rfl

instance : Ord ReloadOutcome where
  compare := compareOn ReloadOutcome.label

instance : Std.TransOrd ReloadOutcome :=
  inferInstanceAs (Std.TransCmp (compareOn ReloadOutcome.label))

instance : Std.LawfulEqOrd ReloadOutcome :=
  BTreeMap.lawfulEqCmp_compareOn ReloadOutcome.label_injective

/-! ## The registry -/

section Registry
variable {σ : Type} [Seconds σ]

def histogramBuckets : Vector σ 11 :=
  #v[5, 10, 25, 50, 100, 250, 500, 1000, 2500, 5000, 10000].map Seconds.ofMillis

structure HistogramValues (σ : Type) where
  count : UInt64
  sumSeconds : σ
  buckets : Vector UInt64 11

def HistogramValues.default : HistogramValues σ := ⟨0, 0, Vector.replicate 11 0⟩

/-- Counters are added without an overflow check in the release profile. -/
def HistogramValues.observe (values : HistogramValues σ) (seconds : σ) : HistogramValues σ where
  count := values.count + 1
  sumSeconds := values.sumSeconds + seconds
  buckets := histogramBuckets.zipWith (fun bucket n => if seconds ≤ bucket then n + 1 else n) values.buckets

structure MetricsInner (σ : Type) where
  httpRequests : Std.ExtTreeMap HttpMetricKey (HistogramValues σ)
  resolveRequests : Std.ExtTreeMap ResolveMetricKey (HistogramValues σ)
  policyReloads : Std.ExtTreeMap ReloadOutcome UInt64
  policyActiveKeys : UInt64
  policyActiveKeyPrefixes : UInt64
  policyLastSuccess : Option SystemTime

def MetricsInner.default : MetricsInner σ := ⟨∅, ∅, ∅, 0, 0, none⟩

def MetricsInner.recordHttpRequest (inner : MetricsInner σ) (method route : Str) (status : UInt16)
    (duration : σ) : MetricsInner σ :=
  { inner with
    httpRequests := BTreeMap.upsert inner.httpRequests ⟨method, route, status⟩ .default
      (·.observe duration) }

def MetricsInner.recordResolveRequest (inner : MetricsInner σ) (status : UInt16)
    (outcome : ResolveOutcome) (errorKind : Option ErrorKind) (duration : σ) : MetricsInner σ :=
  { inner with
    resolveRequests := BTreeMap.upsert inner.resolveRequests ⟨outcome, errorKind, status⟩ .default
      (·.observe duration) }

/-- `now` is the time that `SystemTime::now` gives when the record is made. -/
def MetricsInner.recordPolicyReload (inner : MetricsInner σ) (outcome : ReloadOutcome)
    (activeKeys activeKeyPrefixes : ℕ) (now : SystemTime) : MetricsInner σ :=
  { inner with
    policyReloads := BTreeMap.upsert inner.policyReloads outcome 0 (· + 1)
    policyActiveKeys := UInt64.ofNat activeKeys
    policyActiveKeyPrefixes := UInt64.ofNat activeKeyPrefixes
    policyLastSuccess := if outcome ≠ .failure then some now else inner.policyLastSuccess }

def MetricsInner.recordPolicyBaseline (inner : MetricsInner σ) (activeKeys activeKeyPrefixes : ℕ)
    (now : SystemTime) : MetricsInner σ :=
  { inner with
    policyActiveKeys := UInt64.ofNat activeKeys
    policyActiveKeyPrefixes := UInt64.ofNat activeKeyPrefixes
    policyLastSuccess := if inner.policyLastSuccess.isNone then some now else inner.policyLastSuccess }

/-- The counts that the registry shows; a key that was never recorded counts zero. -/
def MetricsInner.httpCount (inner : MetricsInner σ) (key : HttpMetricKey) : UInt64 :=
  (inner.httpRequests.getD key .default).count

def MetricsInner.resolveCount (inner : MetricsInner σ) (key : ResolveMetricKey) : UInt64 :=
  (inner.resolveRequests.getD key .default).count

def MetricsInner.reloadCount (inner : MetricsInner σ) (outcome : ReloadOutcome) : UInt64 :=
  inner.policyReloads.getD outcome 0

theorem MetricsInner.httpCount_recordHttpRequest (inner : MetricsInner σ) (method route : Str)
    (status : UInt16) (duration : σ) :
    (inner.recordHttpRequest method route status duration).httpCount =
      Function.update inner.httpCount ⟨method, route, status⟩
        (inner.httpCount ⟨method, route, status⟩ + 1) :=
  BTreeMap.read_upsert HistogramValues.count inner.httpRequests ⟨method, route, status⟩ .default
    (·.observe duration)

theorem MetricsInner.resolveCount_recordResolveRequest (inner : MetricsInner σ) (status : UInt16)
    (outcome : ResolveOutcome) (errorKind : Option ErrorKind) (duration : σ) :
    (inner.recordResolveRequest status outcome errorKind duration).resolveCount =
      Function.update inner.resolveCount ⟨outcome, errorKind, status⟩
        (inner.resolveCount ⟨outcome, errorKind, status⟩ + 1) :=
  BTreeMap.read_upsert HistogramValues.count inner.resolveRequests ⟨outcome, errorKind, status⟩
    .default (·.observe duration)

omit [Seconds σ] in
theorem MetricsInner.reloadCount_recordPolicyReload (inner : MetricsInner σ) (outcome : ReloadOutcome)
    (activeKeys activeKeyPrefixes : ℕ) (now : SystemTime) :
    (inner.recordPolicyReload outcome activeKeys activeKeyPrefixes now).reloadCount =
      Function.update inner.reloadCount outcome (inner.reloadCount outcome + 1) :=
  BTreeMap.read_upsert id inner.policyReloads outcome 0 (· + 1)

end Registry

end VaultwardenEso.Provider
