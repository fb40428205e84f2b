import VaultwardenEso.Provenance
import VaultwardenEso.Requests

set_option autoImplicit false

/-!
# The requests of all calls together

Calls interleave as they like, and still what they send is one exchange after another: a login,
which is always the same, and at most one sync under the token that this login was granted.
-/
namespace VaultwardenEso.Client
open RustStr RustResult RustUrl Crypto Cipher Serde

/-- A fetch as the server sees it: whose it is, and the token it was granted. -/
structure Exchange where
  call : ℕ
  granted : Option Str

section Wire
variable {ω : Type} (client : BitwardenApiClient ω)

def Label.request : Label → Option ω
  | .beginFetch _ => client.tokenRequest.toOption
  | .loginAnswer _ (.ok session) => (client.syncRequest session.accessToken).toOption
  | _ => none

def wire (ls : List Label) : List ω := ls.filterMap (Label.request client)

def Exchange.requests (exchange : Exchange) : List ω :=
  client.tokenRequest.toOption.toList ++
    (exchange.granted.bind fun token => (client.syncRequest token).toOption).toList

end Wire

def Pc.fetchDone : Pc → Bool
  | .login _ | .syncing _ _ | .waitInstall _ | .install _ | .waitRead | .read | .finished _
  | .dropped => true
  | _ => false

def Granted (ls : List Label) (r : ℕ) (token : Str) : Prop :=
  ∃ (i : ℕ) (session : BitwardenSession),
    ls[i]? = some (.loginAnswer r (.ok session)) ∧ session.accessToken = token

/-- The exchanges say what has been sent; the last of them is open as long as its login is. -/
structure Exchanged {ω : Type} (client : BitwardenApiClient ω) (ls : List Label) (s : State)
    (exchanges : List Exchange) : Prop where
  sent : wire client ls = exchanges.flatMap (Exchange.requests client)
  pending : ∀ r began, s.pc r = .login began → ∃ before, exchanges = before ++ [⟨r, none⟩]
  done : ∀ e ∈ exchanges, (s.pc e.call).fetchDone = true
  once : (exchanges.map Exchange.call).Nodup
  granted : ∀ e ∈ exchanges, ∀ token, e.granted = some token → Granted ls e.call token

theorem Granted.snoc {ls : List Label} {r : ℕ} {token : Str} (h : Granted ls r token) (l : Label) :
    Granted (ls ++ [l]) r token := by
  obtain ⟨i, session, hi, htoken⟩ := h
  refine ⟨i, session, ?_, htoken⟩
  rw [List.getElem?_append_left (List.getElem?_eq_some_iff.mp hi).1]
  exact hi

section Steps
variable {ω : Type} {client : BitwardenApiClient ω} {cfg : Config} {s u : State} {l : Label}
  {ls : List Label} {exchanges : List Exchange}

theorem wire_snoc (ls : List Label) (l : Label) :
    wire client (ls ++ [l]) = wire client ls ++ (l.request client).toList := by
  rw [wire, List.filterMap_append, List.filterMap_cons]
  cases l.request client with
  | none => rfl
  | some request => rfl

theorem Pc.entered_fetchDone {p p' : Pc} (h : p.entered = some p') :
    p'.fetchDone = p.fetchDone ∧ ∀ began, p' ≠ .login began := by
  cases p <;> cases h <;> exact ⟨rfl, nofun⟩

theorem step_fetchDone (h : step cfg s l = some u) {r : ℕ} (hr : (s.pc r).fetchDone = true) :
    (u.pc r).fetchDone = true := by
  by_cases hmover : l.caller = some r
  · cases step_cases h with
    | tick elapsed => cases hmover
    | call r' selector hpc | lockRefresh r' hfree hpc | hit1 r' hpc hfresh | stale1 r' hpc hstale
    | hit2 r' hpc hfresh | stale2 r' hpc hstale | beginFetch r' hpc =>
      cases hmover
      rw [hpc] at hr
      cases hr
    | lockCache r' pc hfree hpc =>
      cases hmover
      simp only [State.goto, Function.update_self]
      rw [(Pc.entered_fetchDone hpc).1, hr]
    | _ =>
      cases hmover
      simp [State.goto, State.fail, Pc.fetchDone]
  · rw [(step_frame h hmover).1]
    exact hr

theorem step_login (h : step cfg s l = some u) {r began : ℕ} (hr : u.pc r = .login began) :
    s.pc r = .login began ∨ l = .beginFetch r := by
  by_cases hmover : l.caller = some r
  · cases step_cases h with
    | tick elapsed => cases hmover
    | beginFetch r' hpc =>
      cases hmover
      exact .inr rfl
    | lockCache r' pc hfree hpc =>
      cases hmover
      simp only [State.goto, Function.update_self] at hr
      exact absurd hr ((Pc.entered_fetchDone hpc).2 began)
    | _ =>
      cases hmover
      simp [State.goto, State.fail] at hr
  · rw [(step_frame h hmover).1] at hr
    exact .inl hr

theorem Exchanged.keep (hs : Exchanged client ls s exchanges) (h : step cfg s l = some u)
    (hrequest : l.request client = none) (hbegin : ∀ r, l ≠ .beginFetch r) :
    Exchanged client (ls ++ [l]) u exchanges where
  sent := by
    rw [wire_snoc, hrequest, hs.sent]
    exact List.append_nil _
  pending := by
    intro r began hr
    rcases step_login h hr with hlogin | hl
    · exact hs.pending r began hlogin
    · exact absurd hl (hbegin r)
  done := fun e he => step_fetchDone h (hs.done e he)
  once := hs.once
  granted := fun e he token htoken => (hs.granted e he token htoken).snoc l

theorem LocksOwned.login_unique (hlocks : LocksOwned s) {r r' began : ℕ}
    (hr : (s.pc r).holdsRefresh = true) (hr' : s.pc r' = .login began) : r' = r :=
  hlocks.refresh.unique (by rw [hr']; rfl) hr

theorem Exchanged.begin (hs : Exchanged client ls s exchanges) (hlocks : LocksOwned u) {r : ℕ}
    (h : step cfg s (.beginFetch r) = some u) :
    Exchanged client (ls ++ [.beginFetch r]) u (exchanges ++ [⟨r, none⟩]) := by
  cases step_cases h with
  | beginFetch _ hpc =>
    have hnew : ∀ e ∈ exchanges, e.call ≠ r := by
      intro e he heq
      have hdone := hs.done e he
      rw [heq, hpc] at hdone
      cases hdone
    have hlogin : (s.goto r (.login s.started)).pc r = .login s.started := by simp [State.goto]
    refine ⟨?_, ?_, ?_, ?_, ?_⟩
    · rw [wire_snoc, hs.sent, List.flatMap_append, List.flatMap_singleton]
      simp [Label.request, Exchange.requests]
    · intro r' began hr'
      have hr : r' = r := hlocks.login_unique (by rw [hlogin]; rfl) hr'
      rw [hr]
      exact ⟨exchanges, rfl⟩
    · intro e he
      rcases List.mem_append.mp he with he | he
      · exact step_fetchDone h (hs.done e he)
      · rw [List.mem_singleton.mp he, hlogin]
        rfl
    · rw [List.map_append, List.nodup_append]
      refine ⟨hs.once, List.nodup_singleton _, ?_⟩
      intro call hcall call' hcall'
      obtain ⟨e, he, rfl⟩ := List.mem_map.mp hcall
      rw [List.mem_singleton.mp hcall']
      exact hnew e he
    · intro e he token htoken
      rcases List.mem_append.mp he with he | he
      · exact (hs.granted e he token htoken).snoc _
      · rw [List.mem_singleton.mp he] at htoken
        cases htoken

theorem Exchanged.grant (hs : Exchanged client ls s exchanges) (hlocks : LocksOwned u) {r : ℕ}
    {session : BitwardenSession} (h : step cfg s (.loginAnswer r (.ok session)) = some u) :
    ∃ exchanges', Exchanged client (ls ++ [.loginAnswer r (.ok session)]) u exchanges' := by
  cases step_cases h with
  | loginOk _ began _ hpc =>
    obtain ⟨before, rfl⟩ := hs.pending r began hpc
    have hsyncing : (s.goto r (.syncing began session)).pc r = .syncing began session := by
      simp [State.goto]
    refine ⟨before ++ [⟨r, some session.accessToken⟩], ?_, ?_, ?_, ?_, ?_⟩
    · rw [wire_snoc, hs.sent, List.flatMap_append, List.flatMap_singleton, List.flatMap_append,
        List.flatMap_singleton]
      simp [Label.request, Exchange.requests]
    · intro r' began' hr'
      have hr : r' = r := hlocks.login_unique (by rw [hsyncing]; rfl) hr'
      rw [hr, hsyncing] at hr'
      cases hr'
    · intro e he
      rcases List.mem_append.mp he with he | he
      · exact step_fetchDone h (hs.done e (List.mem_append_left _ he))
      · rw [List.mem_singleton.mp he, hsyncing]
        rfl
    · have honce := hs.once
      rw [List.map_append] at honce ⊢
      exact honce
    · intro e he token htoken
      rcases List.mem_append.mp he with he | he
      · exact (hs.granted e (List.mem_append_left _ he) token htoken).snoc _
      · rw [List.mem_singleton.mp he] at htoken ⊢
        refine ⟨ls.length, session, ?_, Option.some.inj htoken⟩
        rw [List.getElem?_append_right (le_refl _), Nat.sub_self]
        rfl

theorem step_exchanged (hs : Exchanged client ls s exchanges) (hlocks : LocksOwned u)
    (h : step cfg s l = some u) : ∃ exchanges', Exchanged client (ls ++ [l]) u exchanges' := by
  cases l with
  | beginFetch r => exact ⟨_, hs.begin hlocks h⟩
  | loginAnswer r answer =>
    cases answer with
    | ok session => exact hs.grant hlocks h
    | error error => exact ⟨_, hs.keep h rfl nofun⟩
  | _ => exact ⟨_, hs.keep h rfl nofun⟩

end Steps

theorem run_exchanged {ω : Type} (client : BitwardenApiClient ω) {cfg : Config} {start : ℕ}
    {ls : List Label} {s : State} (h : Machine.run (step cfg) (State.initial start) ls = some s) :
    ∃ exchanges, Exchanged client ls s exchanges := by
  refine Machine.run_history (P := fun ls s => ∃ exchanges, Exchanged client ls s exchanges)
    ⟨[], ?_⟩ ?_ ls s h
  · refine ⟨rfl, ?_, ?_, List.nodup_nil, ?_⟩
    · intro r began hr
      cases hr
    · intro e he
      cases he
    · intro e he
      cases he
  · intro ls u l v hrun hu hstep
    obtain ⟨exchanges, hexchanges⟩ := hu
    exact step_exchanged hexchanges (reachable_locksOwned ⟨ls ++ [l], Machine.run_snoc.mpr
      ⟨u, hrun, hstep⟩⟩) hstep

theorem Account.login_token {account : Account} {P : Primitives} {http : Transport}
    {session : BitwardenSession} (h : account.login P http = .ok session) :
    ∃ url response, tokenUrl account.crate account.endpoints = .ok url ∧
      decodeJson http deserializeToken "token" (http.server url) = .ok response ∧
      response.accessToken = session.accessToken := by
  unfold Account.login loginWithApiKey at h
  cases hurl : tokenUrl account.crate account.endpoints with
  | error error =>
    rw [hurl] at h
    cases h
  | ok url =>
    rw [hurl] at h
    dsimp only at h
    cases hresponse : decodeJson http deserializeToken "token" (http.server url) with
    | error error =>
      rw [hresponse] at h
      cases h
    | ok response =>
      rw [hresponse] at h
      exact ⟨url, response, rfl, hresponse, (unlockSession_accessToken account.kdf h).symm⟩

/-- However the calls interleave, fail and are dropped: the requests of all of them are the
exchanges of single calls, one after the other and one for a call, and a sync carries the token
that the server gave in answer to the login just before it. -/
theorem requests_go_out_in_exchanges {ω : Type} {client : BitwardenApiClient ω}
    {K : KdfPrimitives} {cfg : Config} {server : ℕ → Transport} {start : ℕ} {ls : List Label} {s : State}
    (hrun : Machine.run (step cfg) (State.initial start) ls = some s)
    (hanswers : AnsweredBy (client.account K) cfg server ls) :
    ∃ exchanges : List Exchange, wire client ls = exchanges.flatMap (Exchange.requests client) ∧
      (exchanges.map Exchange.call).Nodup ∧
      ∀ e ∈ exchanges, ∀ token, e.granted = some token → ∃ i session url response,
        ls[i]? = some (.loginAnswer e.call (.ok session)) ∧
        tokenUrl client.crate client.endpoints = .ok url ∧
        decodeJson (server i) deserializeToken "token" ((server i).server url) = .ok response ∧
        response.accessToken = token := by
  obtain ⟨exchanges, hexchanges⟩ := run_exchanged client hrun
  refine ⟨exchanges, hexchanges.sent, hexchanges.once, ?_⟩
  intro e he token htoken
  obtain ⟨i, session, hi, hsession⟩ := hexchanges.granted e he token htoken
  have hlogin : (client.account K).login cfg.primitives (server i) = .ok session :=
    (hanswers i _ hi).symm
  obtain ⟨url, response, hurl, hresponse, hsame⟩ := Account.login_token hlogin
  exact ⟨i, session, url, response, hi, hurl, hresponse, hsame.trans hsession⟩

def fixtureClient : BitwardenApiClient PlainRequest where
  crate := vaultCrate
  http := plainCrate
  endpoints := .fromSingleOrigin vaultCrate ⟨vaultUrl⟩
  auth := ⟨"user.id".toList, "secret".toList, fixturePassword⟩
  device := .default

def abandonedLogin : List Label :=
  toSecondCheck 0 ++ [.beginFetch 0, .call 1 sampleSelector, .lockCache 1, .check 1, .drop 0,
    .lockRefresh 1, .lockCache 1, .check 1, .beginFetch 1,
    .loginAnswer 1 (.ok fixtureSession)]

theorem abandoned_login_is_an_exchange : ∃ exchanges : List Exchange,
    wire fixtureClient abandonedLogin = exchanges.flatMap (Exchange.requests fixtureClient) ∧
      (exchanges.map Exchange.call).Nodup := by
  have hrun : ∃ s, Machine.run (step fixtureConfig) (State.initial 0)
      abandonedLogin = some s := ⟨_, rfl⟩
  obtain ⟨s, hs⟩ := hrun
  have hanswers : AnsweredBy (fixtureClient.account fixtureKdf) fixtureConfig
      (fun _ => fixtureServer fixtureSyncDocument) abandonedLogin := by
    intro i l hi
    have hmem : l ∈ abandonedLogin := List.mem_of_getElem? hi
    simp only [abandonedLogin, toSecondCheck, List.cons_append, List.nil_append, List.mem_cons,
      List.not_mem_nil, or_false] at hmem
    rcases hmem with rfl | rfl | rfl | rfl | rfl | rfl | rfl | rfl | rfl | rfl | rfl | rfl | rfl |
      rfl | rfl | rfl
    all_goals first | exact fixtureAccount_login.symm | trivial
  obtain ⟨exchanges, hsent, honce, -⟩ := requests_go_out_in_exchanges hs hanswers
  exact ⟨exchanges, hsent, honce⟩

end VaultwardenEso.Client
