import VaultwardenEso.Server
import VaultwardenEso.Extraction

set_option autoImplicit false

/-! # What an answered request has been through -/
namespace VaultwardenEso.Client

theorem step_started {cfg : Config} {s u : State} {l : Label} {r : ℕ} (h : step cfg s l = some u)
    (hs : s.pc r ≠ .idle) : u.pc r ≠ .idle := by
  by_cases hmover : l.caller = some r
  · cases step_cases h with
    | tick elapsed => exact hs
    | lockCache r' pc _ hpc =>
      cases hmover
      simp only [State.goto, Function.update_self]
      intro hidle
      rw [hidle] at hpc
      cases hp : s.pc r <;> rw [hp] at hpc <;> cases hpc
    | _ =>
      cases hmover
      simp [State.goto, State.fail]
  · rw [(step_frame h hmover).1]
    exact hs

/-- A document is returned by the read of the cache, from the vault that is there. -/
theorem step_returns {cfg : Config} {s u : State} {l : Label} {r : ℕ}
    {document : BwesoCore.SecretDocument} (h : step cfg s l = some u)
    (hu : u.pc r = .finished (.ok document)) :
    s.pc r = .finished (.ok document) ∨ (s.pc r = .read ∧ ∃ fetched, s.cache = some fetched ∧
      resolveCached cfg.primitives fetched.vault (s.call r).selector = .ok document) := by
  by_cases hmover : l.caller = some r
  · cases step_cases h with
    | tick elapsed => cases hmover
    | read r' hpc =>
      cases hmover
      simp only [State.goto, Function.update_self, Pc.finished.injEq] at hu
      cases hcache : s.cache with
      | none =>
        rw [hcache] at hu
        cases hu
      | some fetched =>
        rw [hcache] at hu
        exact .inr ⟨hpc, fetched, rfl, hu⟩
    | lockCache r' pc _ hpc =>
      cases hmover
      simp only [State.goto, Function.update_self] at hu
      rw [hu] at hpc
      cases hp : s.pc r <;> rw [hp] at hpc <;> cases hpc
    | _ =>
      cases hmover
      simp [State.goto, State.fail] at hu
  · rw [(step_frame h hmover).1] at hu
    exact .inl hu

end VaultwardenEso.Client

namespace VaultwardenEso.Provider
open RustStr BwesoCore Crypto Cipher Client

def Allowed (r : ℕ) (selector : BitwardenSelector) (s : Server) : Prop :=
  s.phase r = .selected selector ∧ s.core.policy.rules.allows selector.key = true

/-- The call of the request is about to return `document`, from the vault in the cache. -/
def Reads (cfg : ServerConfig) (r : ℕ) (selector : BitwardenSelector) (document : SecretDocument)
    (s : Server) : Prop :=
  s.phase r = .calling selector ∧ s.core.client.pc r = .read ∧
    ∃ fetched, s.core.client.cache = some fetched ∧
    resolveCached cfg.client.primitives fetched.vault selector = .ok document

/-- What the run has passed through when a request is in a phase; `passed` says of a property whether it
held in one of the states so far. -/
def Story (cfg : ServerConfig) (passed : (Server → Prop) → Prop) (client : Client.State) (r : ℕ) :
    Phase → Prop
  | .admitted selector => passed (Allowed r selector)
  | .calling selector => passed (Allowed r selector) ∧ (client.call r).selector = selector ∧
      client.pc r ≠ .idle ∧ ∀ document, client.pc r = .finished (.ok document) →
      passed (Reads cfg r selector document)
  | .responded (.document document) => ∃ selector, cfg.authorized r = true ∧
      cfg.selection r = .ok selector ∧ passed (Allowed r selector) ∧
      passed (Reads cfg r selector document)
  | _ => True

theorem Story.mono {cfg : ServerConfig} {passed passed' : (Server → Prop) → Prop}
    {client client' : Client.State} {r : ℕ} {phase : Phase} (hpassed : ∀ Q, passed Q → passed' Q)
    (hpc : client'.pc r = client.pc r) (hcall : client'.call r = client.call r)
    (h : Story cfg passed client r phase) :
    Story cfg passed' client' r phase := by
  cases phase with
  | admitted selector => exact hpassed _ h
  | calling selector =>
    obtain ⟨hallowed, hselector, hidle, hreads⟩ := h
    refine ⟨hpassed _ hallowed, by rw [hcall]; exact hselector, by rw [hpc]; exact hidle, ?_⟩
    intro document hdocument
    rw [hpc] at hdocument
    exact hpassed _ (hreads document hdocument)
  | responded response =>
    cases response with
    | document document =>
      obtain ⟨selector, hauth, hselection, hallowed, hreads⟩ := h
      exact ⟨selector, hauth, hselection, hpassed _ hallowed, hpassed _ hreads⟩
    | error status message => trivial
  | _ => trivial

theorem handle_story {cfg : ServerConfig} {passed : (Server → Prop) → Prop} {s : Server} {r : ℕ}
    {action : Action} {outcome : Outcome} (hnow : ∀ Q, Q s → passed Q)
    (hjustified : (s.phase r).Justified cfg r) (hstory : Story cfg passed s.core.client r (s.phase r))
    (h : handle cfg r s.core (s.phase r) action = some outcome) :
    Story cfg passed outcome.core.client r outcome.phase := by
  generalize hphase : s.phase r = phase at h hstory hjustified
  cases handle_cases h with
  | admitted selector hallows => exact hnow _ ⟨hphase, hallows⟩
  | call selector client hclient =>
    cases step_cases hclient with
    | call _ _ hidle =>
      exact ⟨hstory, by simp [Outcome.go], by simp [Outcome.go, State.goto],
        by simp [Outcome.go, State.goto]⟩
  | provider selector l client hl hclient =>
    obtain ⟨hallowed, hselector, hidle, hreads⟩ := hstory
    have hcall := step_call hclient hidle
    refine ⟨hallowed, by simp only [Outcome.go, hcall, hselector], ?_, ?_⟩
    · exact step_started hclient hidle
    · intro document hdocument
      obtain hbefore | ⟨hread, fetched, hcache, hresult⟩ := step_returns hclient hdocument
      · exact hreads document hbefore
      · rw [hselector] at hresult
        exact hnow _ ⟨hphase, hread, fetched, hcache, hresult⟩
  | document selector document hfinished =>
    obtain ⟨hallowed, -, -, hreads⟩ := hstory
    exact ⟨selector, hjustified.1, hjustified.2, hallowed, hreads document hfinished⟩
  | _ => trivial

theorem run_story {cfg : ServerConfig} {now : ℕ} {policy : SelectorPolicy} {permits : Option ℕ}
    (r : ℕ) :
    ∀ ls s, Machine.run (step cfg) (.initial now policy permits) ls = some s →
      (s.phase r).Justified cfg r ∧
        Story cfg (Machine.Passed (step cfg) (.initial now policy permits) ls) s.core.client r
          (s.phase r) := by
  apply Machine.run_history
  · exact ⟨trivial, trivial⟩
  · intro ls s l u hrun hs hstep
    obtain ⟨hjustified, hstory⟩ := hs
    by_cases hmover : l.request = some r
    · have hpast : ∀ Q, Machine.Passed (step cfg) (.initial now policy permits) ls Q →
          Machine.Passed (step cfg) (.initial now policy permits) (ls ++ [l]) Q := fun Q h => h.snoc l
      have hnow : ∀ Q : Server → Prop, Q s →
          Machine.Passed (step cfg) (.initial now policy permits) (ls ++ [l]) Q :=
        fun Q hQ => (Machine.Passed.now hrun hQ).snoc l
      cases server_cases hstep with
      | arrive r' habsent =>
        cases hmover
        simp [Phase.Justified, Story]
      | act r' action outcome houtcome =>
        cases hmover
        have hstory' := handle_story hnow hjustified (hstory.mono hpast rfl rfl) houtcome
        have hjustified' := handle_justified hjustified houtcome
        simp only [Server.take, Function.update_self]
        exact ⟨hjustified', hstory'⟩
      | tick | reload => cases hmover
    · obtain ⟨hpc, hcall⟩ := step_client hstep hmover
      rw [step_phase hstep hmover]
      exact ⟨hjustified, hstory.mono (fun Q h => h.snoc l) hpc hcall⟩

theorem webhook_is_confined (cfg : ServerConfig) (now : ℕ) (policy : SelectorPolicy)
    (permits : Option ℕ) (ls : List Label) (s : Server) (r : ℕ) (document : SecretDocument)
    (hrun : Machine.run (step cfg) (.initial now policy permits) ls = some s)
    (hresponse : s.phase r = .responded (.document document)) :
    cfg.authorized r = true ∧
      ∃ remoteRef selector, decodeResolveRequest cfg.http (cfg.request r) = .ok remoteRef ∧
        BitwardenSelector.tryFrom remoteRef = .ok selector ∧
        (∃ ms u, ms <+: ls ∧ Machine.run (step cfg) (.initial now policy permits) ms = some u ∧
          u.phase r = .selected selector ∧ u.core.policy.rules.allows selector.key = true) ∧
        (∃ ms u fetched, ms <+: ls ∧ Machine.run (step cfg) (.initial now policy permits) ms = some u ∧
          u.phase r = .calling selector ∧ u.core.client.pc r = .read ∧
          u.core.client.cache = some fetched ∧
          Confined cfg.client.primitives fetched.vault selector document) := by
  have hstory := (run_story r ls s hrun).2
  rw [hresponse] at hstory
  obtain ⟨selector, hauth, hselection, hallowed, hreads⟩ := hstory
  obtain ⟨remoteRef, hdecode, hselector⟩ := selectorOf_eq_ok hselection
  obtain ⟨ms, u, hms, hu, hphase, hallows⟩ := hallowed
  obtain ⟨ms', u', hms', hu', hphase', hread, fetched, hcache, hresolve⟩ := hreads
  exact ⟨hauth, remoteRef, selector, hdecode, hselector, ⟨ms, u, hms, hu, hphase, hallows⟩,
    ms', u', fetched, hms', hu', hphase', hread, hcache, resolveCached_confined hresolve⟩

/-- No answer is stale: the vault it was read from was fresh since the provider was called, or fetched
after that. -/
theorem answer_is_acceptable {cfg : ServerConfig} {now : ℕ} {policy : SelectorPolicy}
    {permits : Option ℕ} {ls : List Label} {s : Server} {r : ℕ} {document : SecretDocument}
    (hrun : Machine.run (step cfg) (.initial now policy permits) ls = some s)
    (hresponse : s.phase r = .responded (.document document)) :
    Machine.Passed (step cfg) (.initial now policy permits) ls (fun u => ∃ fetched selector,
      u.core.client.cache = some fetched ∧
      resolveCached cfg.client.primitives fetched.vault selector = .ok document ∧
      Acceptable cfg.client u.core.client.now (u.core.client.call r) fetched) := by
  have hstory := (run_story r ls s hrun).2
  rw [hresponse] at hstory
  obtain ⟨selector, -, -, -, ms, u, hms, hu, -, hread, fetched, hcache, hresolve⟩ := hstory
  have hinv := reachable_freshnessInv (reachable_client ⟨ms, hu⟩)
  obtain ⟨fetched', hcache', hacceptable⟩ := hinv.reading r (by rw [hread]; rfl)
  rw [hcache] at hcache'
  cases hcache'
  exact ⟨ms, u, hms, hu, fetched, selector, hcache, hresolve, hacceptable⟩

def sampleCall : List Client.Label :=
  [.lockCache 2, .check 2, .lockRefresh 2, .lockCache 2, .check 2] ++ fetchOnce 2 3600 1767225600 ++
    [.lockCache 2, .install 2, .lockCache 2, .read 2]

def sampleActions : List Action :=
  [.authenticate, .acquire, .checkContentType, .readBody, .checkPolicy, .call] ++
    sampleCall.map .provider ++
    [.respond]

def sampleServed : List Label := .arrive 2 :: sampleActions.map (.act 2)

def Phase.value : Phase → Option Str
  | .responded (.document document) => document.data["value".toList]?
  | _ => none

theorem sampleServed_confined : ∃ s document,
    Machine.run (step sampleServerConfig) (.initial 0 sampleServerPolicy (some 1)) sampleServed = some s ∧
      s.phase 2 = .responded (.document document) ∧
      document.data["value".toList]? = some "app/database".toList ∧
      sampleServerConfig.authorized 2 = true := by
  have heval : (Machine.run (step sampleServerConfig) (.initial 0 sampleServerPolicy (some 1))
      sampleServed).bind (fun s => (s.phase 2).value) = some "app/database".toList := by
    decide +kernel
  obtain ⟨s, hs, hvalue⟩ := Option.bind_eq_some_iff.mp heval
  have hdocument : ∃ document, s.phase 2 = .responded (.document document) ∧
      document.data["value".toList]? = some "app/database".toList := by
    unfold Phase.value at hvalue
    split at hvalue
    · rename_i document hphase
      exact ⟨document, hphase, hvalue⟩
    · cases hvalue
  obtain ⟨document, hphase, hdata⟩ := hdocument
  obtain ⟨hauth, -⟩ := webhook_is_confined sampleServerConfig 0 sampleServerPolicy
    (some 1) sampleServed s 2
    document hs hphase
  exact ⟨s, document, hs, hphase, hdata, hauth⟩

end VaultwardenEso.Provider
