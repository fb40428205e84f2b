import VaultwardenEso.Confinement
import VaultwardenEso.DirectResolve
import VaultwardenEso.Permits

set_option autoImplicit false

/-!
# The handler read from top to bottom

`resolve` is written as one sequence of checks; the server runs it in pieces between those of
other requests. Every response it gives is the one of the sequence, with each of the three
shared things as it was at one step of the request's own.
-/
namespace VaultwardenEso.Provider
open RustStr BwesoCore Client

def resultResponse : Except BitwardenClientError SecretDocument → Response
  | .ok document => .document document
  | .error error => publicError (providerStatusAndKind error).1 (providerStatusAndKind error).2

/-- The handler from top to bottom, on what it finds: whether the semaphore is used up, the
active rules, and what the provider returns. -/
def resolve (cfg : ServerConfig) (r : ℕ) (full : Bool) (rules : PolicyRules)
    (provider : BitwardenSelector → Except BitwardenClientError SecretDocument) : Response :=
  if cfg.authorized r then
    if full then publicError .serviceUnavailable .overloaded
    else match selectorOf (decodeResolveRequest cfg.http (cfg.request r)) with
      | .error (status, errorKind) => publicError status errorKind
      | .ok selector =>
        if rules.allows selector.key then resultResponse (provider selector)
        else publicError .forbidden .policyDenied
  else publicError .unauthorized .auth

/-- The request asks for a permit. -/
def Acquires (r : ℕ) (full : Bool) (s : Server) (l : Label) : Prop :=
  l = .act r .acquire ∧ (full = true ↔ s.core.permits = some 0)

/-- The key of the request is held against the active rules. -/
def Checks (r : ℕ) (rules : PolicyRules) (s : Server) (l : Label) : Prop :=
  l = .act r .checkPolicy ∧ s.core.policy.rules = rules

/-- The provider comes to its result for the request. -/
def Provides (cfg : ServerConfig) (r : ℕ) (selector : BitwardenSelector)
    (result : Except BitwardenClientError SecretDocument) (s : Server) (l : Label) : Prop :=
  ∃ l', l = .act r (.provider l') ∧ Settles cfg.client r selector result s.core.client l'

/-- The response is that of the sequence, for what the request found at its own steps. -/
def Sequential (cfg : ServerConfig) (stepped : (Server → Label → Prop) → Prop) (r : ℕ)
    (response : Response) : Prop :=
  ∃ full rules provider, response = resolve cfg r full rules provider ∧
    (cfg.authorized r = true → stepped (Acquires r full) ∧
      (full = false → ∀ selector, cfg.selection r = .ok selector → stepped (Checks r rules) ∧
        (rules.allows selector.key = true →
          stepped (Provides cfg r selector (provider selector)))))

/-- What the steps so far say of a request, phase by phase. -/
def Traced (cfg : ServerConfig) (stepped : (Server → Label → Prop) → Prop) (client : Client.State)
    (r : ℕ) : Phase → Prop
  | .permitted | .awaitingBody | .selected _ => stepped (Acquires r false)
  | .admitted selector => stepped (Acquires r false) ∧
      ∃ rules, rules.allows selector.key = true ∧ stepped (Checks r rules)
  | .calling selector => (stepped (Acquires r false) ∧
      ∃ rules, rules.allows selector.key = true ∧ stepped (Checks r rules)) ∧
      (client.call r).selector = selector ∧ client.pc r ≠ .idle ∧
      ∀ result, client.pc r = .finished result → stepped (Provides cfg r selector result)
  | .responded response => Sequential cfg stepped r response
  | .absent | .arrived | .authorized | .dropped => True

/-! ## One response for every way out of the handler -/

section Ways
variable {cfg : ServerConfig} {stepped : (Server → Label → Prop) → Prop} {r : ℕ}

theorem sequential_unauthorized (hauth : cfg.authorized r = false) :
    Sequential cfg stepped r (publicError .unauthorized .auth) := by
  refine ⟨false, .allowAll, fun _ => .error .insecureEndpoint, ?_, ?_⟩
  · simp [resolve, hauth]
  · intro hyes
    rw [hauth] at hyes
    cases hyes

theorem sequential_overloaded (hauth : cfg.authorized r = true) (hfull : stepped (Acquires r true)) :
    Sequential cfg stepped r (publicError .serviceUnavailable .overloaded) := by
  refine ⟨true, .allowAll, fun _ => .error .insecureEndpoint, ?_, fun _ => ⟨hfull, nofun⟩⟩
  simp [resolve, hauth]

theorem sequential_refused (hauth : cfg.authorized r = true) (hfree : stepped (Acquires r false))
    {status : StatusCode} {errorKind : ErrorKind}
    (hselection : cfg.selection r = .error (status, errorKind)) :
    Sequential cfg stepped r (publicError status errorKind) := by
  refine ⟨false, .allowAll, fun _ => .error .insecureEndpoint, ?_, fun _ => ⟨hfree, ?_⟩⟩
  · rw [ServerConfig.selection] at hselection
    simp [resolve, hauth, hselection]
  · intro _ selector hselector
    rw [hselection] at hselector
    cases hselector

theorem sequential_denied (hauth : cfg.authorized r = true) (hfree : stepped (Acquires r false))
    {selector : BitwardenSelector} (hselection : cfg.selection r = .ok selector)
    {rules : PolicyRules} (hrules : stepped (Checks r rules))
    (hdenied : rules.allows selector.key = false) :
    Sequential cfg stepped r (publicError .forbidden .policyDenied) := by
  refine ⟨false, rules, fun _ => .error .insecureEndpoint, ?_, fun _ => ⟨hfree, ?_⟩⟩
  · have hselector := hselection
    rw [ServerConfig.selection] at hselector
    simp [resolve, hauth, hselector, hdenied]
  · intro _ selector' hselector'
    obtain rfl : selector = selector' := Except.ok.inj (hselection.symm.trans hselector')
    refine ⟨hrules, ?_⟩
    intro hallows
    rw [hdenied] at hallows
    cases hallows

theorem sequential_provided (hauth : cfg.authorized r = true) (hfree : stepped (Acquires r false))
    {selector : BitwardenSelector} (hselection : cfg.selection r = .ok selector)
    {rules : PolicyRules} (hrules : stepped (Checks r rules))
    (hallows : rules.allows selector.key = true)
    {result : Except BitwardenClientError SecretDocument}
    (hresult : stepped (Provides cfg r selector result)) :
    Sequential cfg stepped r (resultResponse result) := by
  refine ⟨false, rules, fun _ => result, ?_, fun _ => ⟨hfree, ?_⟩⟩
  · rw [ServerConfig.selection] at hselection
    simp [resolve, hauth, hselection, hallows]
  · intro _ selector' hselector'
    obtain rfl : selector = selector' := Except.ok.inj (hselection.symm.trans hselector')
    exact ⟨hrules, fun _ => hresult⟩

end Ways

theorem Sequential.mono {cfg : ServerConfig} {stepped stepped' : (Server → Label → Prop) → Prop}
    {r : ℕ} {response : Response} (hstepped : ∀ Q, stepped Q → stepped' Q)
    (h : Sequential cfg stepped r response) : Sequential cfg stepped' r response := by
  obtain ⟨full, rules, provider, hresponse, hfound⟩ := h
  refine ⟨full, rules, provider, hresponse, ?_⟩
  intro hauth
  obtain ⟨hacquires, hchecks⟩ := hfound hauth
  refine ⟨hstepped _ hacquires, ?_⟩
  intro hfull selector hselector
  obtain ⟨hrules, hprovides⟩ := hchecks hfull selector hselector
  exact ⟨hstepped _ hrules, fun hallows => hstepped _ (hprovides hallows)⟩

theorem Traced.mono {cfg : ServerConfig} {stepped stepped' : (Server → Label → Prop) → Prop}
    {client client' : Client.State} {r : ℕ} {phase : Phase} (hstepped : ∀ Q, stepped Q → stepped' Q)
    (hpc : client'.pc r = client.pc r) (hcall : client'.call r = client.call r)
    (h : Traced cfg stepped client r phase) : Traced cfg stepped' client' r phase := by
  cases phase with
  | permitted | awaitingBody | selected selector => exact hstepped _ h
  | admitted selector =>
    obtain ⟨hfree, rules, hallows, hrules⟩ := h
    exact ⟨hstepped _ hfree, rules, hallows, hstepped _ hrules⟩
  | calling selector =>
    obtain ⟨⟨hfree, rules, hallows, hrules⟩, hselector, hidle, hresult⟩ := h
    refine ⟨⟨hstepped _ hfree, rules, hallows, hstepped _ hrules⟩, ?_, ?_, ?_⟩
    · rw [hcall]
      exact hselector
    · rw [hpc]
      exact hidle
    · intro result hfinished
      rw [hpc] at hfinished
      exact hstepped _ (hresult result hfinished)
  | responded response => exact Sequential.mono hstepped h
  | absent | arrived | authorized | dropped => trivial

/-! ## Every run -/

theorem selectorOf_decoded {cfg : ServerConfig} {r : ℕ}
    (hjson : isJsonContentType cfg.http (cfg.request r) = true) :
    cfg.selection r = selectorOf (decodeBody cfg.http (cfg.request r)) := by
  rw [ServerConfig.selection, decodeResolveRequest, if_pos hjson]

theorem selection_of_content_type {cfg : ServerConfig} {r : ℕ}
    (hjson : ¬ isJsonContentType cfg.http (cfg.request r) = true) :
    cfg.selection r = .error (.unsupportedMediaType, .validation) := by
  rw [ServerConfig.selection, decodeResolveRequest, if_neg hjson]
  rfl

theorem handle_traced {cfg : ServerConfig} {stepped : (Server → Label → Prop) → Prop} {s : Server}
    {r : ℕ} {action : Action} {outcome : Outcome}
    (hnow : ∀ Q : Server → Label → Prop, Q s (.act r action) → stepped Q)
    (hjustified : (s.phase r).Justified cfg r)
    (htraced : Traced cfg stepped s.core.client r (s.phase r))
    (h : handle cfg r s.core (s.phase r) action = some outcome) :
    Traced cfg stepped outcome.core.client r outcome.phase := by
  generalize hphase : s.phase r = phase at h htraced hjustified
  cases handle_cases h with
  | unauthorized hauth => exact sequential_unauthorized hauth
  | unlimited hnone =>
    refine hnow _ ⟨rfl, ?_⟩
    simp [hnone]
  | overloaded hzero =>
    refine sequential_overloaded hjustified (hnow _ ⟨rfl, ?_⟩)
    simp [hzero]
  | permitted n hfree =>
    refine hnow _ ⟨rfl, ?_⟩
    simp [hfree]
  | json hjson => exact htraced
  | notJson hjson =>
    exact sequential_refused hjustified htraced
      (selection_of_content_type (Bool.not_eq_true _ ▸ hjson))
  | selected selector hselector => exact htraced
  | malformed status errorKind hrefused =>
    refine sequential_refused hjustified.1 htraced ?_
    rw [selectorOf_decoded hjustified.2, hrefused]
  | admitted selector hallows => exact ⟨htraced, _, hallows, hnow _ ⟨rfl, rfl⟩⟩
  | denied selector hdenied =>
    have hrules : stepped (Checks r s.core.policy.rules) := hnow _ ⟨rfl, rfl⟩
    exact sequential_denied hjustified.1 htraced hjustified.2 hrules hdenied
  | call selector client hclient =>
    cases step_cases hclient with
    | call _ _ hidle =>
      exact ⟨htraced, by simp [Outcome.go], by simp [Outcome.go, State.goto],
        by simp [Outcome.go, State.goto]⟩
  | provider selector l client hl hclient =>
    obtain ⟨hallowed, hselector, hidle, hresult⟩ := htraced
    refine ⟨hallowed, ?_, ?_, ?_⟩
    · simp only [Outcome.go, step_call hclient hidle, hselector]
    · exact step_started hclient hidle
    · intro result hfinished
      obtain hbefore | hsettles := step_settles hclient hfinished
      · exact hresult result hbefore
      · rw [hselector] at hsettles
        exact hnow _ ⟨l, rfl, hsettles⟩
  | document selector document hfinished =>
    obtain ⟨⟨hfree, rules, hallows, hrules⟩, -, -, hresult⟩ := htraced
    exact sequential_provided hjustified.1 hfree hjustified.2 hrules hallows (hresult _ hfinished)
  | error selector error hfinished =>
    obtain ⟨⟨hfree, rules, hallows, hrules⟩, -, -, hresult⟩ := htraced
    exact sequential_provided hjustified.1 hfree hjustified.2 hrules hallows (hresult _ hfinished)
  | authorized | dropArrived | dropBody | dropCall => trivial

section Runs
variable {cfg : ServerConfig} {now : ℕ} {policy : SelectorPolicy} {permits : Option ℕ}

theorem run_traced (r : ℕ) :
    ∀ ls s, Machine.run (step cfg) (.initial now policy permits) ls = some s →
      (s.phase r).Justified cfg r ∧
        Traced cfg (Machine.Stepped (step cfg) (.initial now policy permits) ls) s.core.client r
          (s.phase r) := by
  apply Machine.run_history
  · exact ⟨trivial, trivial⟩
  · intro ls s l u hrun hs hstep
    obtain ⟨hjustified, htraced⟩ := hs
    have hpast : ∀ Q, Machine.Stepped (step cfg) (.initial now policy permits) ls Q →
        Machine.Stepped (step cfg) (.initial now policy permits) (ls ++ [l]) Q := fun Q h => h.snoc l
    by_cases hmover : l.request = some r
    · cases server_cases hstep with
      | arrive r' habsent =>
        cases hmover
        simp [Phase.Justified, Traced]
      | act r' action outcome houtcome =>
        cases hmover
        have htraced' := handle_traced (fun Q hQ => Machine.Stepped.now hrun hQ) hjustified
          (htraced.mono hpast rfl rfl) houtcome
        have hjustified' := handle_justified hjustified houtcome
        simp only [Server.take, Function.update_self]
        exact ⟨hjustified', htraced'⟩
      | tick | reload => cases hmover
    · obtain ⟨hpc, hcall⟩ := step_client hstep hmover
      rw [step_phase hstep hmover]
      exact ⟨hjustified, htraced.mono hpast hpc hcall⟩

end Runs

theorem responses_are_sequential (cfg : ServerConfig) (now : ℕ) (policy : SelectorPolicy)
    (permits : Option ℕ) (ls : List Label) (s : Server) (r : ℕ) (response : Response)
    (hrun : Machine.run (step cfg) (.initial now policy permits) ls = some s)
    (hresponse : s.phase r = .responded response) :
    ∃ full rules provider, response = resolve cfg r full rules provider ∧
      (cfg.authorized r = true →
        Machine.Stepped (step cfg) (.initial now policy permits) ls (Acquires r full) ∧
        (full = false → ∀ selector, cfg.selection r = .ok selector →
          Machine.Stepped (step cfg) (.initial now policy permits) ls (Checks r rules) ∧
          (rules.allows selector.key = true →
            Machine.Stepped (step cfg) (.initial now policy permits) ls
              (Provides cfg r selector (provider selector))))) := by
  have htraced := (run_traced r ls s hrun).2
  rw [hresponse] at htraced
  exact htraced

theorem shed_request_is_sequential : ∃ s,
    Machine.run (step sampleServerConfig) (.initial 0 sampleServerPolicy (resolveSemaphore 1))
      (sampleCrowd ++ [.act 2 .acquire]) = some s ∧
    ∃ full rules provider, publicError .serviceUnavailable .overloaded =
        resolve sampleServerConfig 2 full rules provider ∧
      Machine.Stepped (step sampleServerConfig)
        (.initial 0 sampleServerPolicy (resolveSemaphore 1)) (sampleCrowd ++ [.act 2 .acquire])
        (Acquires 2 full) := by
  have hrun : ∃ s, Machine.run (step sampleServerConfig)
      (.initial 0 sampleServerPolicy (resolveSemaphore 1)) (sampleCrowd ++ [.act 2 .acquire]) =
        some s ∧ s.phase 2 = .responded (publicError .serviceUnavailable .overloaded) :=
    ⟨_, rfl, rfl⟩
  obtain ⟨s, hs, hphase⟩ := hrun
  obtain ⟨full, rules, provider, hresponse, hfound⟩ := responses_are_sequential sampleServerConfig 0
    sampleServerPolicy (resolveSemaphore 1) _ s 2 _ hs hphase
  have hauth : sampleServerConfig.authorized 2 = true := rfl
  exact ⟨s, hs, full, rules, provider, hresponse, (hfound hauth).1⟩

end VaultwardenEso.Provider
