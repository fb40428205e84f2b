import VaultwardenEso.Lib.Counter
import VaultwardenEso.Server
import VaultwardenEso.HttpMetrics

set_option autoImplicit false

/-!
# The two records of a resolve request

The handler records a request when it answers it, the middleware records the same request
when the answer comes back. The server is run together with the registry here; a request
between its two records is pending.
-/
namespace VaultwardenEso.Provider
open RustStr BwesoCore Client

instance : Fintype ResolveOutcome :=
  Fintype.ofList [.success, .error] (by intro outcome; cases outcome <;> decide)

instance : Fintype ErrorKind :=
  Fintype.ofList [.auth, .overloaded, .validation, .policyDenied, .notFound, .unsupportedAttachment,
    .ambiguousSelector, .unsupportedSharedItem, .upstreamHttp, .upstreamStatus, .crypto,
    .keyDerivation, .kdfParameters, .syncPayload, .endpoint, .unsupportedVersion]
    (by intro errorKind; cases errorKind <;> decide)

def Response.status : Response → StatusCode
  | .document _ => .ok
  | .error status _ => status

def RequestRecord.outcome (record : RequestRecord) : ResolveOutcome :=
  if record.errorKind.isNone then .success else .error

def RequestRecord.key (record : RequestRecord) : ResolveMetricKey :=
  ⟨record.outcome, record.errorKind, record.status.asU16⟩

def resolveHttpKey (status : UInt16) : HttpMetricKey :=
  ⟨"POST".toList, Route.resolve.path, status⟩

/-- The server with its registry. `pending` are the requests that their handler has recorded
and the middleware has not; `samples` are the records made for each request. -/
structure Accounted (σ : Type) where
  server : Server
  inner : MetricsInner σ
  pending : List ℕ
  samples : ℕ → List RequestRecord

def Accounted.initial {σ : Type} (now : ℕ) (policy : SelectorPolicy) (permits : Option ℕ) :
    Accounted σ :=
  ⟨Server.initial now policy permits, .default, [], fun _ => []⟩

/-- A move of a handler, with the seconds that it records if it does; the rest of the
middleware; any other step of the server; the record of any other exchange. -/
inductive Move (σ : Type) where
  | act (r : ℕ) (action : Action) (elapsed : σ)
  | finish (r : ℕ) (elapsed : σ)
  | serve (l : Label)
  | exchange (x : Exchange σ)

def Phase.answer : Phase → Option Response
  | .responded response => some response
  | _ => none

def Server.statusOf (server : Server) (r : ℕ) : Option UInt16 :=
  (server.phase r).answer.map (·.status.asU16)

/-! ## The exits of the handler -/

/-- The record of a request says what its response says. -/
structure RequestRecord.Describes (record : RequestRecord) (response : Response) : Prop where
  status : record.status = response.status
  success : record.outcome = .success ↔ response.status = .ok
  message : ∀ status message, response = .error status message →
    ∃ errorKind, record.errorKind = some errorKind ∧ message = publicErrorMessage errorKind

theorem describes_publicError {status : StatusCode} (h : status ≠ .ok) (errorKind : ErrorKind) :
    RequestRecord.Describes ⟨status, some errorKind⟩ (publicError status errorKind) where
  status := rfl
  success := ⟨nofun, fun hok => absurd hok h⟩
  message := by
    intro status' message hresponse
    cases hresponse
    exact ⟨errorKind, rfl, rfl⟩

theorem describes_document (document : SecretDocument) :
    RequestRecord.Describes ⟨.ok, none⟩ (.document document) where
  status := rfl
  success := ⟨fun _ => rfl, fun _ => rfl⟩
  message := nofun

theorem providerStatusAndKind_ne_ok (error : BitwardenClientError) :
    (providerStatusAndKind error).1 ≠ .ok := by
  unfold providerStatusAndKind
  split <;> exact StatusCode.noConfusion

theorem decodeBody_ne_ok {http : HttpStack} {request : Request} {status : StatusCode}
    (h : decodeBody http request = .error status) : status ≠ .ok := by
  unfold decodeBody at h
  split at h
  · cases h
    exact StatusCode.noConfusion
  · split at h
    · cases h
      exact StatusCode.noConfusion
    · split at h
      · cases h
      · cases h
        exact StatusCode.noConfusion

theorem selectorOf_ne_ok {http : HttpStack} {request : Request} {status : StatusCode}
    {errorKind : ErrorKind} (h : selectorOf (decodeBody http request) = .error (status, errorKind)) :
    status ≠ .ok := by
  unfold selectorOf at h
  split at h
  · rename_i refused hrefused
    cases h
    exact decodeBody_ne_ok hrefused
  · rename_i remoteRef _
    cases hselector : BitwardenSelector.tryFrom remoteRef with
    | ok selector =>
      rw [hselector] at h
      cases h
    | error error =>
      rw [hselector] at h
      have hpair : providerStatusAndKind error = (status, errorKind) := Except.error.inj h
      have hne := providerStatusAndKind_ne_ok error
      rw [hpair] at hne
      exact hne

/-- What a move adds to the records: nothing, or the one record of the response it gives. -/
def Outcome.Accounts (outcome : Outcome) : Prop :=
  (outcome.phase.answer = none ∧ outcome.records = []) ∨
    ∃ response record, outcome.phase = .responded response ∧ outcome.records = [record] ∧
      record.Describes response

theorem accounts_refuse {core : Core} {status : StatusCode} (h : status ≠ .ok)
    (errorKind : ErrorKind) : (Outcome.refuse core status errorKind).Accounts :=
  .inr ⟨_, _, rfl, rfl, describes_publicError h errorKind⟩

theorem handle_accounts {cfg : ServerConfig} {r : ℕ} {core : Core} {phase : Phase} {action : Action}
    {outcome : Outcome} (h : handle cfg r core phase action = some outcome) :
    phase.answer = none ∧ outcome.Accounts := by
  cases handle_cases h with
  | unauthorized | overloaded | notJson | denied =>
    exact ⟨rfl, accounts_refuse StatusCode.noConfusion _⟩
  | malformed status errorKind hselector =>
    exact ⟨rfl, accounts_refuse (selectorOf_ne_ok hselector) _⟩
  | document selector document => exact ⟨rfl, .inr ⟨_, _, rfl, rfl, describes_document _⟩⟩
  | error selector error => exact ⟨rfl, accounts_refuse (providerStatusAndKind_ne_ok error) _⟩
  | _ => exact ⟨rfl, .inl ⟨rfl, rfl⟩⟩

theorem serve_frame {cfg : ServerConfig} {server after : Server} {l : Label}
    (hl : ∀ r action, l ≠ .act r action) (h : step cfg server l = some after) :
    after.records = server.records ∧ ∀ r, (after.phase r).answer = (server.phase r).answer := by
  cases server_cases h with
  | arrive r habsent =>
    refine ⟨rfl, ?_⟩
    intro r'
    by_cases hr : r' = r
    · subst hr
      simp only [Function.update_self, habsent]
      rfl
    · simp only [Function.update_of_ne hr]
  | act r action => exact absurd rfl (hl r action)
  | tick | reload => exact ⟨rfl, fun _ => rfl⟩

/-- The records of a request are one that describes its response, or none so far. -/
def Accounted.Sampled {σ : Type} (s : Accounted σ) (r : ℕ) : Prop :=
  match (s.server.phase r).answer with
  | some response => ∃ record, s.samples r = [record] ∧ record.Describes response
  | none => s.samples r = []

theorem Accounted.sampled_some {σ : Type} {s : Accounted σ} {r : ℕ} {response : Response}
    (h : (s.server.phase r).answer = some response) :
    s.Sampled r ↔ ∃ record, s.samples r = [record] ∧ record.Describes response := by
  rw [Accounted.Sampled, h]

theorem Accounted.sampled_none {σ : Type} {s : Accounted σ} {r : ℕ}
    (h : (s.server.phase r).answer = none) :
    s.Sampled r ↔ s.samples r = [] := by
  rw [Accounted.Sampled, h]

section Machine
variable {σ : Type} [Seconds σ]

def recordSample (elapsed : σ) (inner : MetricsInner σ) (record : RequestRecord) : MetricsInner σ :=
  inner.recordResolveRequest record.status.asU16 record.outcome record.errorKind elapsed

def Accounted.take (s : Accounted σ) (r : ℕ) (elapsed : σ) (outcome : Outcome) : Accounted σ where
  server := s.server.take r outcome
  inner := outcome.records.foldl (recordSample elapsed) s.inner
  pending := if outcome.phase.answer.isSome then r :: s.pending else s.pending
  samples := Function.update s.samples r (s.samples r ++ outcome.records)

/-- The registry after the middleware has recorded the answer to `r`. -/
def Accounted.finish (s : Accounted σ) (r : ℕ) (elapsed : σ) (response : Response) : Accounted σ :=
  { s with
    inner := s.inner.recordHttpRequest "POST".toList Route.resolve.path response.status.asU16 elapsed
    pending := s.pending.erase r }

def accountedStep (cfg : ServerConfig) (s : Accounted σ) : Move σ → Option (Accounted σ)
  | .act r action elapsed =>
    (handle cfg r s.server.core (s.server.phase r) action).map (s.take r elapsed)
  | .finish r elapsed =>
    if r ∈ s.pending then (s.server.phase r).answer.map (s.finish r elapsed) else none
  | .serve (.act _ _) => none
  | .serve l => (step cfg s.server l).map (fun server => { s with server })
  | .exchange x =>
    if routeOf x.path = some .resolve ∧ x.method.asStr = "POST".toList then none
    else some { s with inner := recordHttpMetrics s.inner x }

/-! ## One move of the accounted server -/

theorem accountedStep_cases {cfg : ServerConfig} {s u : Accounted σ} {m : Move σ}
    (h : accountedStep cfg s m = some u) :
    (∃ r action elapsed outcome,
      handle cfg r s.server.core (s.server.phase r) action = some outcome ∧
        u = s.take r elapsed outcome) ∨
      (∃ r elapsed response, r ∈ s.pending ∧ (s.server.phase r).answer = some response ∧
        u = s.finish r elapsed response) ∨
      (∃ server, server.records = s.server.records ∧
        (∀ r, (server.phase r).answer = (s.server.phase r).answer) ∧ u = { s with server }) ∨
      ∃ x : Exchange σ, (¬ (routeOf x.path = some .resolve ∧ x.method.asStr = "POST".toList)) ∧
        u = { s with inner := recordHttpMetrics s.inner x } := by
  cases m with
  | act r action elapsed =>
    obtain ⟨outcome, houtcome, rfl⟩ := Option.map_eq_some_iff.mp h
    exact .inl ⟨r, action, elapsed, outcome, houtcome, rfl⟩
  | finish r elapsed =>
    simp only [accountedStep] at h
    split at h
    · rename_i hpending
      obtain ⟨response, hresponse, rfl⟩ := Option.map_eq_some_iff.mp h
      exact .inr (.inl ⟨r, elapsed, response, hpending, hresponse, rfl⟩)
    · cases h
  | serve l =>
    have hl : (∀ r action, l ≠ .act r action) ∧
        (step cfg s.server l).map (fun server => { s with server }) = some u := by
      cases l with
      | act r action => cases h
      | arrive r => exact ⟨nofun, h⟩
      | tick elapsed => exact ⟨nofun, h⟩
      | reload files => exact ⟨nofun, h⟩
    obtain ⟨server, hstep, rfl⟩ := Option.map_eq_some_iff.mp hl.2
    obtain ⟨hrecords, hanswers⟩ := serve_frame hl.1 hstep
    exact .inr (.inr (.inl ⟨server, hrecords, hanswers, rfl⟩))
  | exchange x =>
    simp only [accountedStep] at h
    split at h
    · cases h
    · rename_i hother
      cases h
      exact .inr (.inr (.inr ⟨x, hother, rfl⟩))

/-! ## What holds in every reachable state -/

theorem answer_take (s : Accounted σ) (r r' : ℕ) (elapsed : σ) (outcome : Outcome) :
    ((s.take r elapsed outcome).server.phase r').answer =
      if r' = r then outcome.phase.answer else (s.server.phase r').answer := by
  by_cases hr : r' = r
  · subst hr
    rw [if_pos rfl]
    exact congrArg Phase.answer (Function.update_self _ _ _)
  · rw [if_neg hr]
    exact congrArg Phase.answer (Function.update_of_ne hr _ _)

theorem sampled_take {cfg : ServerConfig} {s : Accounted σ} {r : ℕ} {action : Action} {elapsed : σ}
    {outcome : Outcome} (h : handle cfg r s.server.core (s.server.phase r) action = some outcome)
    (hs : ∀ r, s.Sampled r) (r' : ℕ) : (s.take r elapsed outcome).Sampled r' := by
  obtain ⟨hbefore, haccounts⟩ := handle_accounts h
  by_cases hr : r' = r
  · subst hr
    have hsamples : (s.take r' elapsed outcome).samples r' = outcome.records := by
      refine (Function.update_self _ _ _).trans ?_
      rw [(Accounted.sampled_none hbefore).mp (hs r'), List.nil_append]
    obtain ⟨hnone, hrecords⟩ | ⟨response, record, hphase, hrecords, hdescribes⟩ := haccounts
    · rw [Accounted.sampled_none (by rw [answer_take, if_pos rfl, hnone]), hsamples, hrecords]
    · rw [Accounted.sampled_some (by rw [answer_take, if_pos rfl, hphase]; rfl), hsamples]
      exact ⟨record, hrecords, hdescribes⟩
  · have hsamples : (s.take r elapsed outcome).samples r' = s.samples r' :=
      Function.update_of_ne hr _ _
    have hother := hs r'
    rw [Accounted.Sampled] at hother ⊢
    rw [answer_take, if_neg hr, hsamples]
    exact hother

theorem resolveCount_recordSample (inner : MetricsInner σ) (elapsed : σ) (record : RequestRecord)
    (key : ResolveMetricKey) :
    (recordSample elapsed inner record).resolveCount key =
      inner.resolveCount key + UInt64.ofNat ([record].countP (fun record => record.key = key)) := by
  unfold recordSample
  rw [MetricsInner.resolveCount_recordResolveRequest, Counter.increment_apply, List.countP_singleton]
  simp only [decide_eq_true_eq]
  rfl

theorem resolveCount_recordSamples (inner : MetricsInner σ) (elapsed : σ)
    (records : List RequestRecord) (key : ResolveMetricKey) :
    (records.foldl (recordSample elapsed) inner).resolveCount key =
      inner.resolveCount key + UInt64.ofNat (records.countP (fun record => record.key = key)) := by
  induction records generalizing inner with
  | nil => exact (UInt64.add_zero _).symm
  | cons record records ih =>
    rw [List.foldl_cons, ih, resolveCount_recordSample, UInt64.add_assoc, ← UInt64.ofNat_add,
      ← List.countP_append]
    rfl

theorem httpCount_recordSamples (inner : MetricsInner σ) (elapsed : σ)
    (records : List RequestRecord) :
    (records.foldl (recordSample elapsed) inner).httpCount = inner.httpCount := by
  induction records generalizing inner with
  | nil => rfl
  | cons record records ih =>
    rw [List.foldl_cons, ih]
    rfl

theorem routeLabel_eq_resolve {route : Option Route} (h : routeLabel route = Route.resolve.path) :
    route = some .resolve := by
  rcases route with _ | route
  · exact absurd h (by decide)
  · cases route <;> first | rfl | exact absurd h (by decide)

theorem httpCount_recordOther {inner : MetricsInner σ} {x : Exchange σ}
    (h : ¬ (routeOf x.path = some .resolve ∧ x.method.asStr = "POST".toList)) (status : UInt16) :
    (recordHttpMetrics inner x).httpCount (resolveHttpKey status) =
      inner.httpCount (resolveHttpKey status) := by
  unfold recordHttpMetrics
  rw [MetricsInner.httpCount_recordHttpRequest]
  refine Function.update_of_ne ?_ _ _
  intro hkey
  have hmethod := congrArg HttpMetricKey.method hkey
  have hroute := congrArg HttpMetricKey.route hkey
  exact h ⟨routeLabel_eq_resolve hroute.symm, hmethod.symm⟩

def Accounted.pendingWith (s : Accounted σ) (status : UInt16) : ℕ :=
  s.pending.countP (fun r => s.server.statusOf r = some status)

def recordsWith (records : List RequestRecord) (status : UInt16) : ℕ :=
  records.countP (fun record => record.status.asU16 = status)

/-- What is recorded once more than the middleware has recorded it is pending. -/
structure Accounted.Balanced (s : Accounted σ) : Prop where
  sampled : ∀ r, s.Sampled r
  answered : ∀ r ∈ s.pending, (s.server.phase r).answer.isSome = true
  resolves : ∀ key, s.inner.resolveCount key =
    UInt64.ofNat (s.server.records.countP (fun record => record.key = key))
  https : ∀ status, s.inner.httpCount (resolveHttpKey status) + UInt64.ofNat (s.pendingWith status) =
    UInt64.ofNat (recordsWith s.server.records status)

theorem balanced_initial (now : ℕ) (policy : SelectorPolicy) (permits : Option ℕ) :
    (Accounted.initial now policy permits : Accounted σ).Balanced where
  sampled := fun _ => rfl
  answered := nofun
  resolves := fun _ => rfl
  https := fun _ => rfl

section Take
variable {cfg : ServerConfig} {s : Accounted σ} {r : ℕ} {action : Action} {outcome : Outcome}

theorem Accounted.Balanced.fresh (hs : s.Balanced)
    (h : handle cfg r s.server.core (s.server.phase r) action = some outcome) : r ∉ s.pending := by
  intro hr
  have hanswered := hs.answered r hr
  rw [(handle_accounts h).1] at hanswered
  cases hanswered

theorem Accounted.Balanced.answered_take (hs : s.Balanced) (elapsed : σ)
    (h : handle cfg r s.server.core (s.server.phase r) action = some outcome) :
    ∀ r' ∈ (s.take r elapsed outcome).pending,
      ((s.take r elapsed outcome).server.phase r').answer.isSome = true := by
  have hold : ∀ r' ∈ s.pending,
      ((s.take r elapsed outcome).server.phase r').answer.isSome = true := by
    intro r' hr'
    have hne : r' ≠ r := fun heq => hs.fresh h (heq ▸ hr')
    rw [answer_take, if_neg hne]
    exact hs.answered r' hr'
  intro r' hr'
  simp only [Accounted.take] at hr'
  split at hr'
  · rename_i hanswer
    rcases List.mem_cons.mp hr' with rfl | hr'
    · rwa [answer_take, if_pos rfl]
    · exact hold r' hr'
  · exact hold r' hr'

theorem Accounted.Balanced.pendingWith_take (hs : s.Balanced) (elapsed : σ)
    (h : handle cfg r s.server.core (s.server.phase r) action = some outcome) (status : UInt16) :
    (s.take r elapsed outcome).pendingWith status =
      s.pendingWith status + recordsWith outcome.records status := by
  have hkept : s.pending.countP
      (fun r' => (s.take r elapsed outcome).server.statusOf r' = some status) =
        s.pendingWith status := by
    refine List.countP_congr ?_
    intro r' hr'
    have hne : r' ≠ r := fun heq => hs.fresh h (heq ▸ hr')
    rw [Server.statusOf, answer_take, if_neg hne, Server.statusOf]
  obtain ⟨hnone, hrecords⟩ | ⟨response, record, hphase, hrecords, hdescribes⟩ := (handle_accounts h).2
  · have hpending : (s.take r elapsed outcome).pending = s.pending := by
      simp only [Accounted.take, hnone]
      rfl
    rw [Accounted.pendingWith, hpending, hkept, hrecords]
    rfl
  · have hpending : (s.take r elapsed outcome).pending = r :: s.pending := by
      simp only [Accounted.take, hphase]
      rfl
    have hstatus : (s.take r elapsed outcome).server.statusOf r = some record.status.asU16 := by
      rw [Server.statusOf, answer_take, if_pos rfl, hphase, hdescribes.status]
      rfl
    rw [Accounted.pendingWith, hpending, List.countP_cons, hkept, hrecords, hstatus, recordsWith,
      List.countP_singleton]
    simp only [Option.some.injEq, decide_eq_true_eq]

theorem Accounted.Balanced.take (hs : s.Balanced) (elapsed : σ)
    (h : handle cfg r s.server.core (s.server.phase r) action = some outcome) :
    (s.take r elapsed outcome).Balanced where
  sampled := sampled_take h hs.sampled
  answered := hs.answered_take elapsed h
  resolves := by
    intro key
    have hcount : (s.take r elapsed outcome).inner.resolveCount key = s.inner.resolveCount key +
        UInt64.ofNat (outcome.records.countP (fun record => record.key = key)) :=
      resolveCount_recordSamples s.inner elapsed outcome.records key
    rw [hcount, hs.resolves key, ← UInt64.ofNat_add, ← List.countP_append]
    rfl
  https := by
    intro status
    have hcount : (s.take r elapsed outcome).inner.httpCount = s.inner.httpCount :=
      httpCount_recordSamples s.inner elapsed outcome.records
    have hrecords : recordsWith (s.take r elapsed outcome).server.records status =
        recordsWith s.server.records status + recordsWith outcome.records status :=
      List.countP_append
    rw [hcount, hs.pendingWith_take elapsed h, hrecords, UInt64.ofNat_add, ← UInt64.add_assoc,
      hs.https status, UInt64.ofNat_add]

end Take

theorem resolveHttpKey_inj {status status' : UInt16} :
    resolveHttpKey status = resolveHttpKey status' ↔ status = status' :=
  ⟨fun h => congrArg HttpMetricKey.status h, fun h => congrArg resolveHttpKey h⟩

theorem httpCount_finish (s : Accounted σ) (r : ℕ) (elapsed : σ) (response : Response)
    (status : UInt16) :
    (s.finish r elapsed response).inner.httpCount (resolveHttpKey status) =
      s.inner.httpCount (resolveHttpKey status) +
        UInt64.ofNat (if response.status.asU16 = status then 1 else 0) := by
  refine (congrFun (MetricsInner.httpCount_recordHttpRequest s.inner _ _ _ elapsed) _).trans ?_
  refine (Counter.increment_apply _ (resolveHttpKey response.status.asU16) _).trans ?_
  simp only [resolveHttpKey_inj]

theorem pendingWith_finish {s : Accounted σ} {r : ℕ} {response : Response} (elapsed : σ)
    (hr : r ∈ s.pending) (hanswer : (s.server.phase r).answer = some response) (status : UInt16) :
    s.pendingWith status = (s.finish r elapsed response).pendingWith status +
      (if response.status.asU16 = status then 1 else 0) := by
  have hstatus : s.server.statusOf r = some response.status.asU16 := by
    rw [Server.statusOf, hanswer]
    rfl
  rw [Accounted.pendingWith, (List.perm_cons_erase hr).countP_eq, List.countP_cons, hstatus]
  simp only [Option.some.injEq, decide_eq_true_eq]
  rfl

theorem Accounted.Balanced.finish {s : Accounted σ} {r : ℕ} {response : Response} (hs : s.Balanced)
    (elapsed : σ) (hr : r ∈ s.pending) (hanswer : (s.server.phase r).answer = some response) :
    (s.finish r elapsed response).Balanced where
  sampled := hs.sampled
  answered := fun r' hr' => hs.answered r' (List.mem_of_mem_erase hr')
  resolves := hs.resolves
  https := by
    intro status
    have hbalance := hs.https status
    rw [pendingWith_finish elapsed hr hanswer, UInt64.ofNat_add] at hbalance
    rw [httpCount_finish, UInt64.add_assoc, UInt64.add_comm (UInt64.ofNat _) (UInt64.ofNat _)]
    exact hbalance

theorem Accounted.Balanced.serve {s : Accounted σ} {server : Server} (hs : s.Balanced)
    (hrecords : server.records = s.server.records)
    (hanswers : ∀ r, (server.phase r).answer = (s.server.phase r).answer) :
    Accounted.Balanced { s with server } where
  sampled := by
    intro r
    have hsampled := hs.sampled r
    rw [Accounted.Sampled] at hsampled ⊢
    rw [hanswers r]
    exact hsampled
  answered := by
    intro r hr
    rw [hanswers r]
    exact hs.answered r hr
  resolves := by
    intro key
    rw [hrecords]
    exact hs.resolves key
  https := by
    intro status
    rw [hrecords]
    have hstatus : server.statusOf = s.server.statusOf := by
      funext r
      rw [Server.statusOf, hanswers r, Server.statusOf]
    have hbalance := hs.https status
    rw [Accounted.pendingWith] at hbalance ⊢
    rw [hstatus]
    exact hbalance

theorem Accounted.Balanced.exchange {s : Accounted σ} {x : Exchange σ} (hs : s.Balanced)
    (hother : ¬ (routeOf x.path = some .resolve ∧ x.method.asStr = "POST".toList)) :
    Accounted.Balanced { s with inner := recordHttpMetrics s.inner x } where
  sampled := hs.sampled
  answered := hs.answered
  resolves := hs.resolves
  https := by
    intro status
    rw [httpCount_recordOther hother]
    exact hs.https status

theorem reachable_balanced {cfg : ServerConfig} {now : ℕ} {policy : SelectorPolicy}
    {permits : Option ℕ} {s : Accounted σ}
    (h : Machine.Reachable (accountedStep cfg) (.initial now policy permits) s) : s.Balanced := by
  refine h.invariant (balanced_initial now policy permits) ?_
  intro s m u hs hstep
  obtain ⟨r, action, elapsed, outcome, houtcome, rfl⟩ | ⟨r, elapsed, response, hr, hanswer, rfl⟩ |
    ⟨server, hrecords, hanswers, rfl⟩ | ⟨x, hother, rfl⟩ := accountedStep_cases hstep
  · exact hs.take elapsed houtcome
  · exact hs.finish elapsed hr hanswer
  · exact hs.serve hrecords hanswers
  · exact hs.exchange hother

/-! ## The two registries -/

omit [Seconds σ] in
theorem sum_records (records : List RequestRecord) (status : UInt16) :
    ∑ label : ResolveOutcome × Option ErrorKind,
        records.countP (fun record => record.key = ⟨label.1, label.2, status⟩) =
      recordsWith records status := by
  rw [recordsWith, ← Counter.sum_countP_class records _
    (fun record => (record.outcome, record.errorKind))]
  refine Finset.sum_congr rfl ?_
  rintro ⟨outcome, errorKind⟩ -
  refine List.countP_congr ?_
  intro record _
  simp only [RequestRecord.key, ResolveMetricKey.mk.injEq, Bool.and_eq_true, decide_eq_true_eq,
    Prod.mk.injEq]
  tauto

theorem Accounted.Balanced.http_of_settled {s : Accounted σ} (hs : s.Balanced) (h : s.pending = [])
    (status : UInt16) :
    s.inner.httpCount (resolveHttpKey status) = UInt64.ofNat (recordsWith s.server.records status) := by
  rw [← hs.https status, Accounted.pendingWith, h]
  exact (UInt64.add_zero _).symm

/-- The records of the server are those of the requests in `answered`, one after the other. -/
structure Accounted.Logged (s : Accounted σ) (answered : List ℕ) : Prop where
  nodup : answered.Nodup
  mem : ∀ r, r ∈ answered ↔ (s.server.phase r).answer.isSome = true
  records : s.server.records = answered.flatMap s.samples

theorem Accounted.Logged.silent {cfg : ServerConfig} {s : Accounted σ} {r : ℕ} {action : Action}
    {outcome : Outcome} {answered : List ℕ} (hs : s.Logged answered) (elapsed : σ)
    (h : handle cfg r s.server.core (s.server.phase r) action = some outcome)
    (hnone : outcome.phase.answer = none) (hrecords : outcome.records = []) :
    (s.take r elapsed outcome).Logged answered where
  nodup := hs.nodup
  mem := by
    intro r'
    rw [hs.mem, answer_take]
    by_cases hr : r' = r
    · rw [if_pos hr, hnone, hr, (handle_accounts h).1]
    · rw [if_neg hr]
  records := by
    have hsamples : (s.take r elapsed outcome).samples = s.samples := by
      simp only [Accounted.take, hrecords, List.append_nil, Function.update_eq_self]
    have hkept : (s.take r elapsed outcome).server.records = s.server.records := by
      simp only [Accounted.take, Server.take, hrecords, List.append_nil]
    rw [hkept, hsamples, hs.records]

theorem Accounted.Logged.answer {cfg : ServerConfig} {s : Accounted σ} {r : ℕ} {action : Action}
    {outcome : Outcome} {answered : List ℕ} {record : RequestRecord} (hs : s.Logged answered)
    (hsampled : s.Sampled r) (elapsed : σ)
    (h : handle cfg r s.server.core (s.server.phase r) action = some outcome)
    (hanswer : outcome.phase.answer.isSome = true) (hrecords : outcome.records = [record]) :
    (s.take r elapsed outcome).Logged (answered ++ [r]) := by
  have hbefore : (s.server.phase r).answer = none := (handle_accounts h).1
  have hfresh : r ∉ answered := by
    rw [hs.mem, hbefore]
    exact Bool.false_ne_true
  refine ⟨?_, ?_, ?_⟩
  · rw [List.nodup_append]
    refine ⟨hs.nodup, List.nodup_singleton r, ?_⟩
    intro r' hr' r'' hr'' heq
    rw [List.mem_singleton.mp hr''] at heq
    exact hfresh (heq ▸ hr')
  · intro r'
    rw [List.mem_append, List.mem_singleton, hs.mem, answer_take]
    by_cases hr : r' = r
    · simp [hr, hanswer]
    · simp [hr]
  · have hkept : answered.flatMap (s.take r elapsed outcome).samples = answered.flatMap s.samples := by
      refine List.flatMap_congr ?_
      intro r' hr'
      have hne : r' ≠ r := fun heq => hfresh (heq ▸ hr')
      exact Function.update_of_ne hne _ _
    have hnew : (s.take r elapsed outcome).samples r = [record] := by
      refine (Function.update_self _ _ _).trans ?_
      rw [(Accounted.sampled_none hbefore).mp hsampled, hrecords, List.nil_append]
    rw [List.flatMap_append, List.flatMap_singleton, hkept, hnew, ← hs.records, ← hrecords]
    rfl

theorem reachable_logged {cfg : ServerConfig} {now : ℕ} {policy : SelectorPolicy}
    {permits : Option ℕ} {s : Accounted σ}
    (h : Machine.Reachable (accountedStep cfg) (.initial now policy permits) s) :
    ∃ answered, s.Logged answered := by
  refine (h.invariant (I := fun s => s.Balanced ∧ ∃ answered, s.Logged answered) ?_ ?_).2
  · refine ⟨balanced_initial now policy permits, [], List.nodup_nil, ?_, rfl⟩
    intro r
    exact iff_of_false List.not_mem_nil Bool.false_ne_true
  · intro s m u hs hstep
    obtain ⟨hbalanced, answered, hlogged⟩ := hs
    obtain ⟨r, action, elapsed, outcome, houtcome, rfl⟩ | ⟨r, elapsed, response, hr, hanswer, rfl⟩ |
      ⟨server, hrecords, hanswers, rfl⟩ | ⟨x, hother, rfl⟩ := accountedStep_cases hstep
    · refine ⟨hbalanced.take elapsed houtcome, ?_⟩
      obtain ⟨hnone, hrecords⟩ | ⟨response, record, hphase, hrecords, -⟩ := (handle_accounts houtcome).2
      · exact ⟨answered, hlogged.silent elapsed houtcome hnone hrecords⟩
      · refine ⟨answered ++ [r], ?_⟩
        exact hlogged.answer (hbalanced.sampled r) elapsed houtcome (by rw [hphase]; rfl) hrecords
    · refine ⟨hbalanced.finish elapsed hr hanswer, answered, ?_⟩
      exact ⟨hlogged.nodup, hlogged.mem, hlogged.records⟩
    · refine ⟨hbalanced.serve hrecords hanswers, answered, hlogged.nodup, ?_, ?_⟩
      · intro r
        rw [hanswers r]
        exact hlogged.mem r
      · rw [hrecords]
        exact hlogged.records
    · exact ⟨hbalanced.exchange hother, answered, hlogged.nodup, hlogged.mem, hlogged.records⟩

theorem Phase.answer_isSome {phase : Phase} :
    phase.answer.isSome = true ↔ ∃ response, phase = .responded response := by
  cases phase <;> simp [Phase.answer]

theorem resolve_requests_are_accounted (cfg : ServerConfig) (now : ℕ) (policy : SelectorPolicy)
    (permits : Option ℕ) (s : Accounted σ)
    (h : Machine.Reachable (accountedStep cfg) (.initial now policy permits) s) :
    (∀ r response, s.server.phase r = .responded response →
      ∃ record, s.samples r = [record] ∧ record.key.status = response.status.asU16 ∧
        (record.key.outcome = .success ↔ response.status.asU16 = 200) ∧
        ∀ status message, response = .error status message →
          ∃ errorKind, record.key.errorKind = some errorKind ∧
            message = publicErrorMessage errorKind) ∧
      (s.pending = [] → ∀ status,
        ∑ label : ResolveOutcome × Option ErrorKind,
            s.inner.resolveCount ⟨label.1, label.2, status⟩ =
          s.inner.httpCount (resolveHttpKey status) ∧
        (s.server.records.length < 2 ^ 64 →
          ∑ label : ResolveOutcome × Option ErrorKind,
              (s.inner.resolveCount ⟨label.1, label.2, status⟩).toNat =
            (s.inner.httpCount (resolveHttpKey status)).toNat)) ∧
      ∃ answered : List ℕ, answered.Nodup ∧
        (∀ r, r ∈ answered ↔ ∃ response, s.server.phase r = .responded response) ∧
        (∀ key, s.inner.resolveCount key =
          UInt64.ofNat ((answered.flatMap s.samples).countP (fun record => record.key = key))) ∧
        ∀ status, s.inner.httpCount (resolveHttpKey status) + UInt64.ofNat (s.pendingWith status) =
          UInt64.ofNat (recordsWith (answered.flatMap s.samples) status) := by
  have hs := reachable_balanced h
  refine ⟨?_, ?_, ?_⟩
  · intro r response hphase
    have hanswer : (s.server.phase r).answer = some response := by
      rw [hphase]
      rfl
    obtain ⟨record, hsamples, hdescribes⟩ := (Accounted.sampled_some hanswer).mp (hs.sampled r)
    refine ⟨record, hsamples, congrArg StatusCode.asU16 hdescribes.status, ?_, hdescribes.message⟩
    rw [StatusCode.asU16_eq_ok]
    exact hdescribes.success
  · intro hpending status
    simp only [hs.resolves, hs.http_of_settled hpending, ← sum_records]
    refine ⟨(Counter.ofNat_sum _ _).symm, ?_⟩
    intro hlength
    have hsum : ∑ label : ResolveOutcome × Option ErrorKind, s.server.records.countP
        (fun record => record.key = ⟨label.1, label.2, status⟩) < 2 ^ 64 := by
      rw [sum_records]
      exact Nat.lt_of_le_of_lt List.countP_le_length hlength
    rw [Counter.sum_toNat_ofNat hsum, UInt64.toNat_ofNat_of_lt' hsum]
  · obtain ⟨answered, hlogged⟩ := reachable_logged h
    refine ⟨answered, hlogged.nodup, ?_, ?_, ?_⟩
    · intro r
      rw [hlogged.mem, Phase.answer_isSome]
    · rw [← hlogged.records]
      exact hs.resolves
    · rw [← hlogged.records]
      exact hs.https

end Machine

def arrivedState : Accounted ℚ :=
  { Accounted.initial 0 sampleServerPolicy (some 1) with
    server :=
      { Server.initial 0 sampleServerPolicy (some 1) with
        phase := Function.update (fun _ => .absent) 0 .arrived } }

def refusedState : Accounted ℚ :=
  (arrivedState.take 0 (1 / 1000) (.refuse arrivedState.server.core .unauthorized .auth)).finish 0
    (2 / 1000) (publicError .unauthorized .auth)

theorem refusedState_reached :
    Machine.run (accountedStep sampleServerConfig) (.initial 0 sampleServerPolicy (some 1))
      [.serve (.arrive 0), .act 0 .authenticate (1 / 1000), .finish 0 (2 / 1000)] =
        some refusedState := by
  have hauth : sampleServerConfig.authorized 0 = false := by decide +kernel
  refine Machine.run_cons.mpr ⟨arrivedState, rfl, ?_⟩
  refine Machine.run_cons.mpr
    ⟨arrivedState.take 0 (1 / 1000) (.refuse arrivedState.server.core .unauthorized .auth), ?_, rfl⟩
  have hphase : arrivedState.server.phase 0 = .arrived := rfl
  simp only [accountedStep, hphase, handle, hauth, Bool.false_eq_true, if_false, Option.map_some]

theorem refused_request_is_accounted :
    refusedState.pending = [] ∧ ∑ label : ResolveOutcome × Option ErrorKind,
      refusedState.inner.resolveCount ⟨label.1, label.2, 401⟩ =
        refusedState.inner.httpCount (resolveHttpKey 401) :=
  ⟨rfl, ((resolve_requests_are_accounted sampleServerConfig 0 sampleServerPolicy (some 1) refusedState
    ⟨_, refusedState_reached⟩).2.1 rfl 401).1⟩

end VaultwardenEso.Provider
