import VaultwardenEso.Webhook
import VaultwardenEso.SingleFlight

set_option autoImplicit false

/-!
# The server: concurrent `/v1/resolve` requests

Every request runs the handler `resolve`, cut where it touches what requests share: the
semaphore, the selector policy and the client. The content of every request is a
parameter, so a label only says who moves.
-/
namespace VaultwardenEso.Provider
open RustStr BwesoCore Client

structure ServerConfig where
  client : Client.Config
  http : HttpStack
  auth : WebhookAuth
  request : ℕ → Request

def ServerConfig.authorized (cfg : ServerConfig) (r : ℕ) : Bool :=
  cfg.auth.isAuthorized cfg.http (cfg.request r)

/-- Where the handler of a request stands; from `permitted` on it holds its permit, if
permits are limited. -/
inductive Phase where
  | absent
  | arrived
  | authorized
  | permitted
  | awaitingBody
  | selected (selector : BitwardenSelector)
  | admitted (selector : BitwardenSelector)
  | calling (selector : BitwardenSelector)
  | responded (response : Response)
  | dropped

/-- What the requests share, but for the request metrics. -/
structure Core where
  client : Client.State
  policy : SelectorPolicy
  /-- The free permits of the semaphore; without a limit there is no semaphore. -/
  permits : Option ℕ

def Core.release (core : Core) : Core := { core with permits := core.permits.map (· + 1) }

/-- An entry of the request metrics: the status, and the kind of the error if it is one. -/
structure RequestRecord where
  status : StatusCode
  errorKind : Option ErrorKind

inductive Action where
  | authenticate
  | acquire
  | checkContentType
  | readBody
  | checkPolicy
  | call
  | provider (l : Client.Label)
  | respond
  | drop

/-- The handler's state after a move, and what it records. -/
structure Outcome where
  core : Core
  phase : Phase
  records : List RequestRecord

def Outcome.go (core : Core) (phase : Phase) : Outcome := ⟨core, phase, []⟩

def Outcome.refuse (core : Core) (status : StatusCode) (errorKind : ErrorKind) : Outcome :=
  ⟨core, .responded (publicError status errorKind), [⟨status, some errorKind⟩]⟩

def handle (cfg : ServerConfig) (r : ℕ) (core : Core) : Phase → Action → Option Outcome
  | .arrived, .authenticate =>
    if cfg.authorized r then some (.go core .authorized) else some (.refuse core .unauthorized .auth)
  | .authorized, .acquire => match core.permits with
    | none => some (.go core .permitted)
    | some 0 => some (.refuse core .serviceUnavailable .overloaded)
    | some (n + 1) => some (.go { core with permits := some n } .permitted)
  | .permitted, .checkContentType =>
    if isJsonContentType cfg.http (cfg.request r) then some (.go core .awaitingBody)
    else some (.refuse core.release .unsupportedMediaType .validation)
  | .awaitingBody, .readBody => match selectorOf (decodeBody cfg.http (cfg.request r)) with
    | .ok selector => some (.go core (.selected selector))
    | .error (status, errorKind) => some (.refuse core.release status errorKind)
  | .selected selector, .checkPolicy =>
    if core.policy.rules.allows selector.key then some (.go core (.admitted selector))
    else some (.refuse core.release .forbidden .policyDenied)
  | .admitted selector, .call =>
    (Client.step cfg.client core.client (.call r selector)).map (fun client =>
      .go { core with client } (.calling selector))
  | .calling selector, .provider l =>
    if l.advances = some r then
      (Client.step cfg.client core.client l).map (fun client => .go { core with client } (.calling selector))
    else none
  | .calling _, .respond => match core.client.pc r with
    | .finished (.ok document) => some ⟨core.release, .responded (.document document), [⟨.ok, none⟩]⟩
    | .finished (.error error) =>
      some (.refuse core.release (providerStatusAndKind error).1 (providerStatusAndKind error).2)
    | _ => none
  -- the connection is lost: before the handler runs, or at one of its awaits
  | .arrived, .drop => some (.go core .dropped)
  | .awaitingBody, .drop => some (.go core.release .dropped)
  | .calling _, .drop => (Client.step cfg.client core.client (.drop r)).map (fun client =>
      .go (Core.release { core with client }) .dropped)
  | _, _ => none

structure Server where
  core : Core
  phase : ℕ → Phase
  records : List RequestRecord

def Server.initial (now : ℕ) (policy : SelectorPolicy) (permits : Option ℕ) : Server :=
  ⟨⟨Client.State.initial now, policy, permits⟩, fun _ => .absent, []⟩

inductive Label where
  | arrive (r : ℕ)
  | act (r : ℕ) (action : Action)
  | tick (elapsed : ℕ)
  | reload (files : PolicyFiles)

def Label.request : Label → Option ℕ
  | .arrive r | .act r _ => some r
  | .tick _ | .reload _ => none

def Server.take (s : Server) (r : ℕ) (outcome : Outcome) : Server :=
  { core := outcome.core, phase := Function.update s.phase r outcome.phase,
    records := s.records ++ outcome.records }

def step (cfg : ServerConfig) (s : Server) : Label → Option Server
  | .arrive r => match s.phase r with
    | .absent => some { s with phase := Function.update s.phase r .arrived }
    | _ => none
  | .act r action => (handle cfg r s.core (s.phase r) action).map (s.take r)
  | .tick elapsed => (Client.step cfg.client s.core.client (.tick elapsed)).map (fun client =>
      { s with core := { s.core with client } })
  | .reload files => some { s with core := { s.core with policy := (s.core.policy.reload files).1 } }

/-! ## What a step does -/

inductive ServerStep (cfg : ServerConfig) (s : Server) : Label → Server → Prop
  | arrive (r : ℕ) (habsent : s.phase r = .absent) :
    ServerStep cfg s (.arrive r) { s with phase := Function.update s.phase r .arrived }
  | act (r : ℕ) (action : Action) (outcome : Outcome)
      (houtcome : handle cfg r s.core (s.phase r) action = some outcome) :
    ServerStep cfg s (.act r action) (s.take r outcome)
  | tick (elapsed : ℕ) (client : Client.State)
      (hclient : Client.step cfg.client s.core.client (.tick elapsed) = some client) :
    ServerStep cfg s (.tick elapsed) { s with core := { s.core with client } }
  | reload (files : PolicyFiles) :
    ServerStep cfg s (.reload files)
      { s with core := { s.core with policy := (s.core.policy.reload files).1 } }

theorem server_cases {cfg : ServerConfig} {s u : Server} {l : Label} (h : step cfg s l = some u) :
    ServerStep cfg s l u := by
  cases l with
  | arrive r =>
    simp only [step] at h
    split at h
    · rename_i habsent
      cases h
      exact .arrive r habsent
    · cases h
  | act r action =>
    obtain ⟨outcome, houtcome, rfl⟩ := Option.map_eq_some_iff.mp h
    exact .act r action outcome houtcome
  | tick elapsed =>
    obtain ⟨client, hclient, rfl⟩ := Option.map_eq_some_iff.mp h
    exact .tick elapsed client hclient
  | reload files =>
    cases h
    exact .reload files

theorem server_of_step {cfg : ServerConfig} {s u : Server} {l : Label} (h : ServerStep cfg s l u) :
    step cfg s l = some u := by
  cases h <;> simp [step, *]

theorem step_phase {cfg : ServerConfig} {s u : Server} {l : Label} {w : ℕ} (h : step cfg s l = some u)
    (hne : l.request ≠ some w) : u.phase w = s.phase w := by
  have hother : ∀ {r : ℕ}, some r ≠ some w → w ≠ r := by
    intro r h heq
    exact h (congrArg some heq.symm)
  cases server_cases h with
  | arrive r | act r => exact Function.update_of_ne (hother hne) _ _
  | tick | reload => rfl

/-- What a move can do, one constructor a branch. -/
inductive HandlerStep (cfg : ServerConfig) (r : ℕ) (core : Core) : Phase → Action → Outcome → Prop
  | authorized (hauth : cfg.authorized r = true) :
    HandlerStep cfg r core .arrived .authenticate (.go core .authorized)
  | unauthorized (hauth : cfg.authorized r = false) :
    HandlerStep cfg r core .arrived .authenticate (.refuse core .unauthorized .auth)
  | unlimited (hnone : core.permits = none) :
    HandlerStep cfg r core .authorized .acquire (.go core .permitted)
  | overloaded (hzero : core.permits = some 0) :
    HandlerStep cfg r core .authorized .acquire (.refuse core .serviceUnavailable .overloaded)
  | permitted (n : ℕ) (hfree : core.permits = some (n + 1)) :
    HandlerStep cfg r core .authorized .acquire (.go { core with permits := some n } .permitted)
  | json (hjson : isJsonContentType cfg.http (cfg.request r) = true) :
    HandlerStep cfg r core .permitted .checkContentType (.go core .awaitingBody)
  | notJson (hjson : isJsonContentType cfg.http (cfg.request r) = false) :
    HandlerStep cfg r core .permitted .checkContentType
      (.refuse core.release .unsupportedMediaType .validation)
  | selected (selector : BitwardenSelector)
      (hselector : selectorOf (decodeBody cfg.http (cfg.request r)) = .ok selector) :
    HandlerStep cfg r core .awaitingBody .readBody (.go core (.selected selector))
  | malformed (status : StatusCode) (errorKind : ErrorKind)
      (hselector : selectorOf (decodeBody cfg.http (cfg.request r)) = .error (status, errorKind)) :
    HandlerStep cfg r core .awaitingBody .readBody (.refuse core.release status errorKind)
  | admitted (selector : BitwardenSelector)
      (hallows : core.policy.rules.allows selector.key = true) :
    HandlerStep cfg r core (.selected selector) .checkPolicy (.go core (.admitted selector))
  | denied (selector : BitwardenSelector)
      (hdenied : core.policy.rules.allows selector.key = false) :
    HandlerStep cfg r core (.selected selector) .checkPolicy
      (.refuse core.release .forbidden .policyDenied)
  | call (selector : BitwardenSelector) (client : Client.State)
      (hclient : Client.step cfg.client core.client (.call r selector) = some client) :
    HandlerStep cfg r core (.admitted selector) .call
      (.go { core with client } (.calling selector))
  | provider (selector : BitwardenSelector) (l : Client.Label) (client : Client.State)
      (hl : l.advances = some r) (hclient : Client.step cfg.client core.client l = some client) :
    HandlerStep cfg r core (.calling selector) (.provider l)
      (.go { core with client } (.calling selector))
  | document (selector : BitwardenSelector) (document : SecretDocument)
      (hfinished : core.client.pc r = .finished (.ok document)) :
    HandlerStep cfg r core (.calling selector) .respond
      ⟨core.release, .responded (.document document), [⟨.ok, none⟩]⟩
  | error (selector : BitwardenSelector) (error : BitwardenClientError)
      (hfinished : core.client.pc r = .finished (.error error)) :
    HandlerStep cfg r core (.calling selector) .respond
      (.refuse core.release (providerStatusAndKind error).1 (providerStatusAndKind error).2)
  | dropArrived : HandlerStep cfg r core .arrived .drop (.go core .dropped)
  | dropBody : HandlerStep cfg r core .awaitingBody .drop (.go core.release .dropped)
  | dropCall (selector : BitwardenSelector) (client : Client.State)
      (hclient : Client.step cfg.client core.client (.drop r) = some client) :
    HandlerStep cfg r core (.calling selector) .drop
      (.go (Core.release { core with client }) .dropped)

theorem handle_cases {cfg : ServerConfig} {r : ℕ} {core : Core} {phase : Phase} {action : Action}
    {outcome : Outcome} (h : handle cfg r core phase action = some outcome) :
    HandlerStep cfg r core phase action outcome := by
  unfold handle at h
  split at h
  · split at h <;> cases h
    · rename_i hauth
      exact .authorized hauth
    · rename_i hauth
      exact .unauthorized (Bool.not_eq_true _ ▸ hauth)
  · split at h <;> cases h
    · rename_i hnone
      exact .unlimited hnone
    · rename_i hzero
      exact .overloaded hzero
    · rename_i n hfree
      exact .permitted n hfree
  · split at h <;> cases h
    · rename_i hjson
      exact .json hjson
    · rename_i hjson
      exact .notJson (Bool.not_eq_true _ ▸ hjson)
  · split at h <;> cases h
    · rename_i selector hselector
      exact .selected selector hselector
    · rename_i status errorKind hselector
      exact .malformed status errorKind hselector
  · split at h <;> cases h
    · rename_i hallows
      exact .admitted _ hallows
    · rename_i hdenied
      exact .denied _ (Bool.not_eq_true _ ▸ hdenied)
  · obtain ⟨client, hclient, rfl⟩ := Option.map_eq_some_iff.mp h
    exact .call _ client hclient
  · split at h
    · rename_i hl
      obtain ⟨client, hclient, rfl⟩ := Option.map_eq_some_iff.mp h
      exact .provider _ _ client hl hclient
    · cases h
  · split at h <;> cases h
    · rename_i document hfinished
      exact .document _ document hfinished
    · rename_i error hfinished
      exact .error _ error hfinished
  · cases h
    exact .dropArrived
  · cases h
    exact .dropBody
  · obtain ⟨client, hclient, rfl⟩ := Option.map_eq_some_iff.mp h
    exact .dropCall _ client hclient
  · cases h

theorem handle_of_step {cfg : ServerConfig} {r : ℕ} {core : Core} {phase : Phase} {action : Action}
    {outcome : Outcome} (h : HandlerStep cfg r core phase action outcome) :
    handle cfg r core phase action = some outcome := by
  cases h <;> simp [handle, *]

theorem handle_client {cfg : ServerConfig} {r : ℕ} {core : Core} {phase : Phase} {action : Action}
    {outcome : Outcome} (h : handle cfg r core phase action = some outcome) :
    outcome.core.client = core.client ∨
      ∃ l : Client.Label, l.caller = some r ∧
        Client.step cfg.client core.client l = some outcome.core.client := by
  cases handle_cases h with
  | call selector client hclient => exact .inr ⟨_, rfl, hclient⟩
  | provider selector l client hl hclient =>
    exact .inr ⟨l, Label.caller_of_advances hl, hclient⟩
  | dropCall selector client hclient => exact .inr ⟨_, rfl, hclient⟩
  | _ => exact .inl rfl

theorem step_client {cfg : ServerConfig} {s u : Server} {l : Label} {w : ℕ} (h : step cfg s l = some u)
    (hne : l.request ≠ some w) :
    u.core.client.pc w = s.core.client.pc w ∧ u.core.client.call w = s.core.client.call w := by
  cases server_cases h with
  | arrive | reload => exact ⟨rfl, rfl⟩
  | act r action outcome houtcome =>
    obtain hsame | ⟨l, hl, hstep⟩ := handle_client houtcome
    · rw [Server.take, hsame]
      exact ⟨rfl, rfl⟩
    · exact step_frame hstep (by rw [hl]; exact hne)
  | tick elapsed client hclient => exact step_frame hclient nofun

/-- The client of a server is one that its own calls lead to: what holds of all of those holds of it. -/
theorem reachable_client {cfg : ServerConfig} {now : ℕ} {policy : SelectorPolicy}
    {permits : Option ℕ} {s : Server}
    (h : Machine.Reachable (step cfg) (.initial now policy permits) s) :
    Machine.Reachable (Client.step cfg.client) (.initial now) s.core.client := by
  refine h.invariant (I := fun s => Machine.Reachable (Client.step cfg.client) (.initial now) s.core.client) ?_ ?_
  · exact Machine.Reachable.refl _ _
  · intro s l u hs hstep
    cases server_cases hstep with
    | arrive | reload => exact hs
    | act r action outcome houtcome =>
      obtain hsame | ⟨l, -, hclient⟩ := handle_client houtcome
      · rw [Server.take, hsame]
        exact hs
      · exact hs.next hclient
    | tick elapsed client hclient => exact hs.next hclient

def ServerConfig.selection (cfg : ServerConfig) (r : ℕ) :
    Except (StatusCode × ErrorKind) BitwardenSelector :=
  selectorOf (decodeResolveRequest cfg.http (cfg.request r))

/-- What the phase of a request says about the request itself. -/
def Phase.Justified (cfg : ServerConfig) (r : ℕ) : Phase → Prop
  | .authorized | .permitted => cfg.authorized r = true
  | .awaitingBody => cfg.authorized r = true ∧ isJsonContentType cfg.http (cfg.request r) = true
  | .selected selector | .admitted selector | .calling selector =>
    cfg.authorized r = true ∧ cfg.selection r = .ok selector
  | .absent | .arrived | .responded _ | .dropped => True

theorem handle_justified {cfg : ServerConfig} {r : ℕ} {core : Core} {phase : Phase} {action : Action}
    {outcome : Outcome} (hphase : phase.Justified cfg r)
    (h : handle cfg r core phase action = some outcome) :
    outcome.phase.Justified cfg r := by
  cases handle_cases h with
  | authorized hauth => exact hauth
  | json hjson => exact ⟨hphase, hjson⟩
  | selected selector hselector =>
    refine ⟨hphase.1, ?_⟩
    rw [ServerConfig.selection, decodeResolveRequest, if_pos hphase.2, hselector]
  | unlimited | permitted | admitted | call | provider => exact hphase
  | _ => trivial

/-! ## A server with three requests -/

def sampleBody (key : String) : Bytes :=
  asBytes ("\x7b\"remoteRef\":\x7b\"key\":\"" ++ key ++ "\",\"property\":\"name\"\x7d\x7d").toList

def sampleTree (key : String) : Serde.Json :=
  .obj [("remoteRef".toList, .obj [("key".toList, .str key.toList), ("property".toList, .str "name".toList)])]

def sampleHttp : HttpStack where
  toStr := fun bytes => (fromUtf8 bytes).filter (fun text => text.all (fun c => 32 ≤ c.toNat && c.toNat < 127))
  parseJson := fun bytes =>
    if bytes = sampleBody "name:app/database" then some (sampleTree "name:app/database")
    else if bytes = sampleBody "name:other" then some (sampleTree "name:other")
    else none

def sampleRequest (token key : String) : Request where
  authorization := some (asBytes ("Bearer " ++ token).toList)
  contentType := some (asBytes "application/json; charset=utf-8".toList)
  body := some (sampleBody key)

def sampleServerConfig : ServerConfig where
  client := sampleConfig
  http := sampleHttp
  auth := .required "webhook-token".toList
  request := fun r => match r with
    | 0 => sampleRequest "guess" "name:app/database"
    | 1 => sampleRequest "webhook-token" "name:other"
    | _ => sampleRequest "webhook-token" "name:app/database"

def sampleServerPolicy : SelectorPolicy :=
  ⟨.allowList ["name:app/database".toList] [], ⟨["name:app/database".toList], [], none, none⟩⟩

end VaultwardenEso.Provider
