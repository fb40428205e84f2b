import Mathlib.Data.Set.Finite.Lattice
import VaultwardenEso.Metrics

set_option autoImplicit false

/-!
# The keys of the HTTP request metrics

Every exchange is recorded under its method, its route and its status. Which keys a stream
of exchanges can leave in the registry is decided by its methods alone: routes and statuses
are few.
-/
namespace VaultwardenEso.Provider
open RustStr

def isTokenChar (c : Char) : Bool := c.isAlphanum || "!#$%&'*+-.^_|~".toList.contains c || c.toNat == 96

/-- A request method: any token is one. -/
structure Method where
  asStr : Str
  token : asStr ≠ [] ∧ ∀ c ∈ asStr, isTokenChar c = true

inductive Route where
  | livez
  | readyz
  | metrics
  | resolve
  deriving DecidableEq

def Route.path : Route → Str
  | .livez => "/livez".toList
  | .readyz => "/readyz".toList
  | .metrics => "/metrics".toList
  | .resolve => "/v1/resolve".toList

def routeOf (path : Str) : Option Route :=
  if path = Route.livez.path then some .livez
  else if path = Route.readyz.path then some .readyz
  else if path = Route.metrics.path then some .metrics
  else if path = Route.resolve.path then some .resolve
  else none

/-- `get` answers `HEAD` too. -/
def Route.allows (route : Route) (method : Method) : Bool :=
  match route with
  | .resolve => method.asStr == "POST".toList
  | _ => method.asStr == "GET".toList || method.asStr == "HEAD".toList

def Route.Answers : Route → UInt16 → Prop
  | .livez, status => status = 204
  | .readyz, status => status = 204 ∨ status = 503
  | .metrics, status => status = 200
  | .resolve, status => ∃ code : StatusCode, status = code.asU16

/-- The status of a request: of a handler, or of the router when there is none for it. -/
def Answered (method : Method) (route : Option Route) (status : UInt16) : Prop :=
  match route with
  | none => status = 404
  | some route => if route.allows method then route.Answers status else status = 405

/-- A request with its answer, and the seconds in between. -/
structure Exchange (σ : Type) where
  method : Method
  path : Str
  status : UInt16
  duration : σ
  answered : Answered method (routeOf path) status

def routeLabel (matchedPath : Option Route) : Str := matchedPath.elim "unmatched".toList Route.path

def Exchange.key {σ : Type} (x : Exchange σ) : HttpMetricKey :=
  ⟨x.method.asStr, routeLabel (routeOf x.path), x.status⟩

section Record
variable {σ : Type} [Seconds σ]

def recordHttpMetrics (inner : MetricsInner σ) (x : Exchange σ) : MetricsInner σ :=
  inner.recordHttpRequest x.method.asStr (routeLabel (routeOf x.path)) x.status x.duration

def recordTraffic (traffic : List (Exchange σ)) : MetricsInner σ :=
  traffic.foldl recordHttpMetrics .default

theorem mem_recordHttpMetrics {inner : MetricsInner σ} {x : Exchange σ} {key : HttpMetricKey} :
    key ∈ (recordHttpMetrics inner x).httpRequests ↔ key = x.key ∨ key ∈ inner.httpRequests :=
  BTreeMap.mem_upsert

theorem mem_recordTraffic {traffic : List (Exchange σ)} {key : HttpMetricKey} :
    key ∈ (recordTraffic traffic).httpRequests ↔ ∃ x ∈ traffic, key = x.key := by
  induction traffic using List.reverseRecOn with
  | nil =>
    constructor
    · intro h
      exact absurd h Std.ExtTreeMap.not_mem_empty
    · rintro ⟨x, hx, -⟩
      cases hx
  | append_singleton traffic x ih =>
    rw [recordTraffic, List.foldl_append]
    refine mem_recordHttpMetrics.trans ?_
    simp only [List.mem_append, List.mem_singleton]
    constructor
    · rintro (rfl | hkey)
      · exact ⟨x, .inr rfl, rfl⟩
      · obtain ⟨y, hy, rfl⟩ := ih.mp hkey
        exact ⟨y, .inl hy, rfl⟩
    · rintro ⟨y, hy | rfl, rfl⟩
      · exact .inr (ih.mpr ⟨y, hy, rfl⟩)
      · exact .inl rfl

/-- A set that holds every key that traffic with methods of `methods` can leave. -/
def BoundsKeys (σ : Type) [Seconds σ] (methods : Set Method) (keys : Finset HttpMetricKey) : Prop :=
  ∀ traffic : List (Exchange σ), (∀ x ∈ traffic, x.method ∈ methods) →
    ∀ key ∈ (recordTraffic traffic).httpRequests, key ∈ keys

end Record

/-! ## The three components of a key -/

instance finite_uInt16 : Finite UInt16 := Finite.of_injective UInt16.toFin (fun _ _ => UInt16.toFin_inj.mp)

theorem routeLabel_finite : (Set.range routeLabel).Finite := by
  have hroutes : Set.range routeLabel ⊆
      {"unmatched".toList, Route.livez.path, Route.readyz.path, Route.metrics.path,
        Route.resolve.path} := by
    rintro label ⟨route, rfl⟩
    rcases route with _ | route
    · simp [routeLabel]
    · cases route <;> simp [routeLabel]
  exact Set.Finite.subset (Set.toFinite _) hroutes

theorem Method.asStr_injective : Function.Injective Method.asStr := by
  rintro ⟨a, ha⟩ ⟨b, hb⟩ h
  cases h
  rfl

def unmatched {σ : Type} (duration : σ) (method : Method) : Exchange σ :=
  ⟨method, "/".toList, 404, duration, rfl⟩

section Bound
variable {σ : Type} [Seconds σ]

theorem BoundsKeys.finite {methods : Set Method} {keys : Finset HttpMetricKey}
    (h : BoundsKeys σ methods keys) : methods.Finite := by
  have hinjective : Function.Injective (fun method => (unmatched (0 : σ) method).key) := by
    intro a b hab
    exact Method.asStr_injective (congrArg HttpMetricKey.method hab)
  refine Set.Finite.subset (keys.finite_toSet.preimage hinjective.injOn) ?_
  intro method hmethod
  refine h [unmatched 0 method] ?_ _ (mem_recordTraffic.mpr ⟨_, List.mem_singleton_self _, rfl⟩)
  intro x hx
  rw [List.mem_singleton.mp hx]
  exact hmethod

theorem boundsKeys_of_finite {methods : Set Method} (h : methods.Finite) :
    ∃ keys, BoundsKeys σ methods keys := by
  have hfinite : ((fun k : Str × Str × UInt16 => HttpMetricKey.mk k.1 k.2.1 k.2.2) ''
      ((Method.asStr '' methods) ×ˢ (Set.range routeLabel) ×ˢ (Set.univ : Set UInt16))).Finite :=
    ((h.image _).prod (routeLabel_finite.prod Set.finite_univ)).image _
  refine ⟨hfinite.toFinset, ?_⟩
  intro traffic hmethods key hkey
  obtain ⟨x, hx, rfl⟩ := mem_recordTraffic.mp hkey
  rw [Set.Finite.mem_toFinset]
  exact ⟨⟨_, _, _⟩, ⟨⟨x.method, hmethods x hx, rfl⟩, ⟨_, rfl⟩, trivial⟩, rfl⟩

/-- The keys are as many as the methods that clients send. -/
theorem http_keys_bounded_iff_methods_finite (methods : Set Method) :
    (∃ keys, BoundsKeys σ methods keys) ↔ methods.Finite := by
  constructor
  · rintro ⟨keys, hkeys⟩
    exact hkeys.finite
  · exact boundsKeys_of_finite

end Bound

def extensionMethod (n : ℕ) : Method where
  asStr := List.replicate (n + 1) 'X'
  token := by
    refine ⟨by simp, ?_⟩
    intro c hc
    rw [List.eq_of_mem_replicate hc]
    decide

theorem extensionMethod_injective : Function.Injective extensionMethod := by
  intro m n h
  have hlength := congrArg (fun method => method.asStr.length) h
  simpa [extensionMethod] using hlength

instance : Seconds ℚ where
  ofMillis n := n / 1000

theorem http_keys_are_unbounded :
    ¬ ∃ keys : Finset HttpMetricKey, ∀ traffic : List (Exchange ℚ),
      ∀ key ∈ (recordTraffic traffic).httpRequests, key ∈ keys := by
  rintro ⟨keys, hkeys⟩
  have hbounds : BoundsKeys ℚ Set.univ keys := fun traffic _ => hkeys traffic
  exact Set.infinite_of_injective_forall_mem extensionMethod_injective (fun n => Set.mem_univ _)
    hbounds.finite

end VaultwardenEso.Provider
