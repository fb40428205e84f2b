import VaultwardenEso.Server

set_option autoImplicit false

/-! # Requests that are turned away -/
namespace VaultwardenEso.Provider
open RustStr BwesoCore Client

/-! ## Requests that are not authorized -/

def Phase.outside : Phase → Bool
  | .absent | .arrived | .responded _ | .dropped => true
  | _ => false

/-- The same server but for the requests that are not authorized, which stay outside. -/
structure SameInside (cfg : ServerConfig) (s s' : Server) : Prop where
  core : s.core = s'.core
  phase : ∀ r, cfg.authorized r = true → s.phase r = s'.phase r
  outside : ∀ r, cfg.authorized r = false → (s.phase r).outside = true

def keepsLabel (cfg : ServerConfig) (l : Label) : Bool := l.request.all cfg.authorized

theorem handle_outside {cfg : ServerConfig} {r : ℕ} {core : Core} {phase : Phase} {action : Action}
    {outcome : Outcome} (hauth : cfg.authorized r = false) (hphase : phase.outside = true)
    (h : handle cfg r core phase action = some outcome) :
    outcome.core = core ∧ outcome.phase.outside = true := by
  cases handle_cases h with
  | unauthorized | dropArrived => exact ⟨rfl, rfl⟩
  | authorized hauthorized =>
    rw [hauth] at hauthorized
    cases hauthorized
  | _ => cases hphase

theorem step_unauthorized {cfg : ServerConfig} {s s' u : Server} {l : Label} (hs : SameInside cfg s s')
    (hl : keepsLabel cfg l = false) (h : step cfg s l = some u) : SameInside cfg u s' := by
  have hmoves : ∀ r phase core records, cfg.authorized r = false → core = s.core →
      phase.outside = true → SameInside cfg ⟨core, Function.update s.phase r phase, records⟩ s' := by
    intro r phase core records hauth hcore hphase
    refine ⟨hcore.trans hs.core, ?_, ?_⟩
    · intro r' hr'
      have hne : r' ≠ r := by
        intro heq
        rw [heq, hauth] at hr'
        cases hr'
      rw [← hs.phase r' hr']
      exact Function.update_of_ne hne _ _
    · intro r' hr'
      by_cases heq : r' = r
      · rw [heq]
        simpa using hphase
      · simpa [heq] using hs.outside r' hr'
  cases server_cases h with
  | arrive r habsent =>
    have hauth : cfg.authorized r = false := by simpa [keepsLabel, Label.request] using hl
    exact hmoves r .arrived s.core s.records hauth rfl rfl
  | act r action outcome houtcome =>
    have hauth : cfg.authorized r = false := by simpa [keepsLabel, Label.request] using hl
    obtain ⟨hcore, hphase⟩ := handle_outside hauth (hs.outside r hauth) houtcome
    exact hmoves r outcome.phase outcome.core _ hauth hcore hphase
  | tick | reload => cases hl

theorem step_authorized {cfg : ServerConfig} {s s' u : Server} {l : Label} (hs : SameInside cfg s s')
    (hl : keepsLabel cfg l = true) (h : step cfg s l = some u) :
    ∃ u', step cfg s' l = some u' ∧ SameInside cfg u u' := by
  have hmoves : ∀ r phase core records records', cfg.authorized r = true →
      SameInside cfg ⟨core, Function.update s.phase r phase, records⟩
        ⟨core, Function.update s'.phase r phase, records'⟩ := by
    intro r phase core records records' hauth
    refine ⟨rfl, ?_, ?_⟩
    · intro r' hr'
      by_cases heq : r' = r
      · rw [heq]
        simp
      · simpa [heq] using hs.phase r' hr'
    · intro r' hr'
      have hne : r' ≠ r := by
        intro heq
        rw [heq, hauth] at hr'
        cases hr'
      simpa [hne] using hs.outside r' hr'
  cases server_cases h with
  | arrive r habsent =>
    have hauth : cfg.authorized r = true := by simpa [keepsLabel, Label.request] using hl
    rw [hs.phase r hauth] at habsent
    refine ⟨_, server_of_step (.arrive r habsent), ?_⟩
    rw [← hs.core]
    exact hmoves r .arrived s.core s.records s'.records hauth
  | act r action outcome houtcome =>
    have hauth : cfg.authorized r = true := by simpa [keepsLabel, Label.request] using hl
    rw [hs.phase r hauth, hs.core] at houtcome
    exact ⟨_, server_of_step (.act r action outcome houtcome),
      hmoves r outcome.phase outcome.core _ _ hauth⟩
  | tick elapsed client hclient =>
    rw [hs.core] at hclient
    refine ⟨_, server_of_step (.tick elapsed client hclient), ?_, hs.phase, hs.outside⟩
    simp only [hs.core]
  | reload files =>
    refine ⟨_, server_of_step (.reload files), ?_, hs.phase, hs.outside⟩
    simp only [hs.core]

theorem run_without_unauthorized {cfg : ServerConfig} {now : ℕ} {policy : SelectorPolicy}
    {permits : Option ℕ} {ls : List Label} {s : Server}
    (h : Machine.run (step cfg) (.initial now policy permits) ls = some s) :
    ∃ s', Machine.run (step cfg) (.initial now policy permits) (ls.filter (keepsLabel cfg)) = some s' ∧
      SameInside cfg s s' := by
  apply Machine.run_filter _ _ _ h
  · intro s s' l u hs _ hl hstep
    exact step_authorized hs hl hstep
  · intro s s' l u hs _ hl hstep
    exact step_unauthorized hs hl hstep
  · exact ⟨rfl, fun _ _ => rfl, fun _ _ => rfl⟩

/-! ## Requests that are refused -/

/-- The request is not authorized, or malformed, or asks for a key that the rules do not allow. -/
def Refused (cfg : ServerConfig) (rules : PolicyRules) (r : ℕ) : Prop :=
  cfg.authorized r = false ∨ (∃ refusal, cfg.selection r = .error refusal) ∨
    ∃ selector, cfg.selection r = .ok selector ∧ rules.allows selector.key = false

def Phase.uncalled : Phase → Bool
  | .admitted _ | .calling _ | .responded (.document _) => false
  | _ => true

theorem Refused.not_allowed {cfg : ServerConfig} {rules : PolicyRules} {r : ℕ}
    {selector : BitwardenSelector} (h : Refused cfg rules r)
    (hphase : Phase.Justified cfg r (.selected selector)) :
    rules.allows selector.key = false := by
  obtain hauth | ⟨refusal, hselection⟩ | ⟨selector', hselection, hrules⟩ := h
  · rw [hphase.1] at hauth
    cases hauth
  · rw [hphase.2] at hselection
    cases hselection
  · rw [hphase.2] at hselection
    cases hselection
    exact hrules

/-- The same effect on two servers: the request goes on to the same phase and takes or returns the
same permits, and neither the policy nor the client is touched. -/
structure SameOutcome (core₁ core₂ : Core) (o₁ o₂ : Outcome) : Prop where
  phase : o₁.phase = o₂.phase
  permits : o₁.core.permits = o₂.core.permits
  policy₁ : o₁.core.policy = core₁.policy
  policy₂ : o₂.core.policy = core₂.policy
  client₁ : o₁.core.client = core₁.client
  client₂ : o₂.core.client = core₂.client

theorem handle_refused {cfg : ServerConfig} {r : ℕ} {core₁ core₂ : Core} {phase : Phase}
    {action : Action} {o₁ : Outcome} (huncalled : phase.uncalled = true)
    (hphase : phase.Justified cfg r)
    (hrefused : action = .checkPolicy → Refused cfg core₁.policy.rules r)
    (hpermits : core₁.permits = core₂.permits) (hpolicy : core₁.policy = core₂.policy)
    (h : handle cfg r core₁ phase action = some o₁) :
    ∃ o₂, handle cfg r core₂ phase action = some o₂ ∧ o₁.phase.uncalled = true ∧
    SameOutcome core₁ core₂ o₁ o₂ := by
  have hrelease : core₁.release.permits = core₂.release.permits := by
    rw [Core.release, Core.release, hpermits]
  cases handle_cases h with
  | authorized hauth =>
    exact ⟨_, handle_of_step (.authorized hauth), rfl, rfl, hpermits, rfl, rfl, rfl, rfl⟩
  | unauthorized hauth =>
    exact ⟨_, handle_of_step (.unauthorized hauth), rfl, rfl, hpermits, rfl, rfl, rfl, rfl⟩
  | unlimited hnone =>
    exact ⟨_, handle_of_step (.unlimited (hpermits ▸ hnone)), rfl, rfl, hpermits, rfl, rfl, rfl, rfl⟩
  | overloaded hzero =>
    exact ⟨_, handle_of_step (.overloaded (hpermits ▸ hzero)), rfl, rfl, hpermits, rfl, rfl, rfl, rfl⟩
  | permitted n hfree =>
    exact ⟨_, handle_of_step (.permitted n (hpermits ▸ hfree)), rfl, rfl, rfl, rfl, rfl, rfl, rfl⟩
  | json hjson =>
    exact ⟨_, handle_of_step (.json hjson), rfl, rfl, hpermits, rfl, rfl, rfl, rfl⟩
  | notJson hjson =>
    exact ⟨_, handle_of_step (.notJson hjson), rfl, rfl, hrelease, rfl, rfl, rfl, rfl⟩
  | selected selector hselector =>
    exact ⟨_, handle_of_step (.selected selector hselector), rfl, rfl, hpermits, rfl, rfl, rfl, rfl⟩
  | malformed status errorKind hselector =>
    exact ⟨_, handle_of_step (.malformed status errorKind hselector), rfl, rfl, hrelease, rfl, rfl,
      rfl, rfl⟩
  | admitted selector hallows =>
    have hdenied := (hrefused rfl).not_allowed hphase
    rw [hallows] at hdenied
    cases hdenied
  | denied selector hdenied =>
    exact ⟨_, handle_of_step (.denied selector (hpolicy ▸ hdenied)), rfl, rfl, hrelease, rfl, rfl,
      rfl, rfl⟩
  | dropArrived => exact ⟨_, handle_of_step .dropArrived, rfl, rfl, hpermits, rfl, rfl, rfl, rfl⟩
  | dropBody => exact ⟨_, handle_of_step .dropBody, rfl, rfl, hrelease, rfl, rfl, rfl, rfl⟩
  | call | provider | document | error | dropCall => cases huncalled

structure SameRefusal (cfg : ServerConfig) (r : ℕ) (s₁ s₂ : Server) : Prop where
  phase : s₁.phase r = s₂.phase r
  uncalled : (s₁.phase r).uncalled = true
  justified : (s₁.phase r).Justified cfg r

section Pairs
variable {cfg : ServerConfig} {r : ℕ} {s₁ s₂ u₁ : Server} {l : Label}

theorem step_refused (hl : l.request = some r) (hs : SameRefusal cfg r s₁ s₂)
    (hrefused : l = .act r .checkPolicy → Refused cfg s₁.core.policy.rules r)
    (hpermits : s₁.core.permits = s₂.core.permits) (hpolicy : s₁.core.policy = s₂.core.policy)
    (h : step cfg s₁ l = some u₁) :
    ∃ u₂, step cfg s₂ l = some u₂ ∧ SameRefusal cfg r u₁ u₂ ∧ u₁.core.permits = u₂.core.permits ∧
      u₁.core.policy = s₁.core.policy ∧ u₂.core.policy = s₂.core.policy ∧
      u₁.core.client = s₁.core.client ∧ u₂.core.client = s₂.core.client := by
  cases server_cases h with
  | arrive r' habsent =>
    cases hl
    rw [hs.phase] at habsent
    exact ⟨_, server_of_step (.arrive r habsent),
      ⟨by simp, by simp [Phase.uncalled], by simp [Phase.Justified]⟩, hpermits, rfl, rfl, rfl, rfl⟩
  | act r' action o₁ ho₁ =>
    cases hl
    obtain ⟨o₂, ho₂, huncalled, hsame⟩ := handle_refused hs.uncalled hs.justified
      (fun haction => hrefused (by rw [haction])) hpermits hpolicy ho₁
    rw [hs.phase] at ho₂
    refine ⟨_, server_of_step (.act r action o₂ ho₂), ⟨?_, ?_, ?_⟩, hsame.permits, hsame.policy₁,
      hsame.policy₂, hsame.client₁, hsame.client₂⟩
    · simp [Server.take, hsame.phase]
    · simpa [Server.take] using huncalled
    · simpa [Server.take] using handle_justified hs.justified ho₁
  | tick | reload => cases hl

/-- Two runs side by side. The request `r`, refused in both, makes its moves in both at once, each at a
point where the semaphores and the policies agree; everything else goes on in either server as it may. -/
inductive Paired (cfg : ServerConfig) (r : ℕ) : Server → Server → Server → Server → Prop
  | refl (s₁ s₂ : Server) : Paired cfg r s₁ s₂ s₁ s₂
  | own {s₁ s₂ u₁ u₂ v₁ v₂ : Server} {l : Label} (hl : l.request = some r)
      (hpermits : s₁.core.permits = s₂.core.permits) (hpolicy : s₁.core.policy = s₂.core.policy)
      (hrefused : l = .act r .checkPolicy → Refused cfg s₁.core.policy.rules r)
      (h₁ : step cfg s₁ l = some u₁) (h₂ : step cfg s₂ l = some u₂) (rest : Paired cfg r u₁ u₂ v₁ v₂) :
      Paired cfg r s₁ s₂ v₁ v₂
  | left {s₁ s₂ u₁ v₁ v₂ : Server} {l : Label} (hl : l.request ≠ some r) (h : step cfg s₁ l = some u₁)
      (rest : Paired cfg r u₁ s₂ v₁ v₂) : Paired cfg r s₁ s₂ v₁ v₂
  | right {s₁ s₂ u₂ v₁ v₂ : Server} {l : Label} (hl : l.request ≠ some r) (h : step cfg s₂ l = some u₂)
      (rest : Paired cfg r s₁ u₂ v₁ v₂) : Paired cfg r s₁ s₂ v₁ v₂

theorem Paired.sameRefusal {v₁ v₂ : Server} (h : Paired cfg r s₁ s₂ v₁ v₂)
    (hs : SameRefusal cfg r s₁ s₂) :
    SameRefusal cfg r v₁ v₂ ∧ v₁.core.client.pc r = s₁.core.client.pc r ∧
      v₂.core.client.pc r = s₂.core.client.pc r := by
  induction h with
  | refl s₁ s₂ => exact ⟨hs, rfl, rfl⟩
  | own hl hpermits hpolicy hrefused h₁ h₂ _ ih =>
    obtain ⟨u₂', h₂', hsame, -, -, -, hclient₁, hclient₂⟩ :=
      step_refused hl hs hrefused hpermits hpolicy h₁
    rw [h₂] at h₂'
    cases h₂'
    obtain ⟨hend, hpc₁, hpc₂⟩ := ih hsame
    rw [hclient₁] at hpc₁
    rw [hclient₂] at hpc₂
    exact ⟨hend, hpc₁, hpc₂⟩
  | left hl h _ ih =>
    have hphase := step_phase h hl
    obtain ⟨hend, hpc₁, hpc₂⟩ := ih ⟨hphase.trans hs.phase, hphase ▸ hs.uncalled,
      hphase ▸ hs.justified⟩
    exact ⟨hend, hpc₁.trans (step_client h hl).1, hpc₂⟩
  | right hl h _ ih =>
    have hphase := step_phase h hl
    obtain ⟨hend, hpc₁, hpc₂⟩ := ih ⟨hs.phase.trans hphase.symm, hs.uncalled, hs.justified⟩
    exact ⟨hend, hpc₁, hpc₂.trans (step_client h hl).1⟩

def Responds (cfg : ServerConfig) (r : ℕ) (s : Server) : Prop :=
  ∃ ls v status message, (∀ l ∈ ls, l.request = some r) ∧ Machine.run (step cfg) s ls = some v ∧
    v.phase r = .responded (.error status message)

theorem Responds.move {s : Server} (action : Action) (outcome : Outcome)
    (h : HandlerStep cfg r s.core (s.phase r) action outcome)
    (hrest : Responds cfg r (s.take r outcome)) :
    Responds cfg r s := by
  obtain ⟨ls, v, status, message, hls, hrun, hv⟩ := hrest
  have hstep := server_of_step (.act r action outcome (handle_of_step h))
  refine ⟨.act r action :: ls, v, status, message, ?_, Machine.run_cons.mpr ⟨_, hstep, hrun⟩, hv⟩
  intro l hl
  rcases List.mem_cons.mp hl with rfl | hl
  · rfl
  · exact hls l hl

theorem Responds.refuse {s : Server} (action : Action) (core : Core) (status : StatusCode)
    (errorKind : ErrorKind)
    (h : HandlerStep cfg r s.core (s.phase r) action (.refuse core status errorKind)) :
    Responds cfg r s := by
  apply Responds.move action _ h
  exact ⟨[], _, status, publicErrorMessage errorKind, nofun, rfl,
    by simp [Server.take, Outcome.refuse, publicError]⟩

theorem responds_selected {s : Server} (selector : BitwardenSelector)
    (hphase : s.phase r = .selected selector)
    (hdenied : s.core.policy.rules.allows selector.key = false) : Responds cfg r s := by
  apply Responds.refuse .checkPolicy s.core.release .forbidden .policyDenied
  rw [hphase]
  exact .denied selector hdenied

theorem responds_awaitingBody {s : Server} (hphase : s.phase r = .awaitingBody)
    (hjustified : Phase.Justified cfg r .awaitingBody) (hrefused : Refused cfg s.core.policy.rules r) :
    Responds cfg r s := by
  cases hselector : selectorOf (decodeBody cfg.http (cfg.request r)) with
  | error refusal =>
    apply Responds.refuse .readBody s.core.release refusal.1 refusal.2
    rw [hphase]
    exact .malformed _ _ hselector
  | ok selector =>
    have hmove : HandlerStep cfg r s.core .awaitingBody .readBody
        (.go s.core (.selected selector)) := .selected selector hselector
    apply Responds.move .readBody (.go s.core (.selected selector))
    · rw [hphase]
      exact hmove
    · apply responds_selected selector
      · simp [Server.take, Outcome.go]
      · exact hrefused.not_allowed (handle_justified hjustified (handle_of_step hmove))

theorem responds_permitted {s : Server} (hphase : s.phase r = .permitted)
    (hauth : cfg.authorized r = true) (hrefused : Refused cfg s.core.policy.rules r) :
    Responds cfg r s := by
  cases hjson : isJsonContentType cfg.http (cfg.request r) with
  | true =>
    apply Responds.move .checkContentType (.go s.core .awaitingBody)
    · rw [hphase]
      exact .json hjson
    · refine responds_awaitingBody ?_ ⟨hauth, hjson⟩ hrefused
      simp [Server.take, Outcome.go]
  | false =>
    apply Responds.refuse .checkContentType s.core.release .unsupportedMediaType .validation
    rw [hphase]
    exact .notJson hjson

theorem responds_authorized {s : Server} (hphase : s.phase r = .authorized)
    (hauth : cfg.authorized r = true) (hrefused : Refused cfg s.core.policy.rules r) :
    Responds cfg r s := by
  have hgo : ∀ core : Core, core.policy = s.core.policy →
      HandlerStep cfg r s.core (s.phase r) .acquire (.go core .permitted) → Responds cfg r s := by
    intro core hpolicy hmove
    apply Responds.move .acquire _ hmove
    apply responds_permitted _ hauth
    · simpa [Server.take, Outcome.go, hpolicy] using hrefused
    · simp [Server.take, Outcome.go]
  cases hpermits : s.core.permits with
  | none =>
    apply hgo s.core rfl
    rw [hphase]
    exact .unlimited hpermits
  | some n =>
    cases n with
    | zero =>
      apply Responds.refuse .acquire s.core .serviceUnavailable .overloaded
      rw [hphase]
      exact .overloaded hpermits
    | succ n =>
      apply hgo { s.core with permits := some n } rfl
      rw [hphase]
      exact .permitted n hpermits

theorem responds_arrived {s : Server} (hphase : s.phase r = .arrived)
    (hrefused : Refused cfg s.core.policy.rules r) : Responds cfg r s := by
  cases hauth : cfg.authorized r with
  | true =>
    apply Responds.move .authenticate (.go s.core .authorized)
    · rw [hphase]
      exact .authorized hauth
    · refine responds_authorized ?_ hauth hrefused
      simp [Server.take, Outcome.go]
  | false =>
    apply Responds.refuse .authenticate s.core .unauthorized .auth
    rw [hphase]
    exact .unauthorized hauth

theorem refused_responds {s : Server} (habsent : s.phase r = .absent)
    (hrefused : Refused cfg s.core.policy.rules r) : Responds cfg r s := by
  have harrive : step cfg s (.arrive r) = some _ := server_of_step (.arrive r habsent)
  have harrived : Responds cfg r { s with phase := Function.update s.phase r .arrived } :=
    responds_arrived (Function.update_self r .arrived s.phase) hrefused
  obtain ⟨ls, v, status, message, hls, hrun, hv⟩ := harrived
  refine ⟨.arrive r :: ls, v, status, message, ?_, Machine.run_cons.mpr ⟨_, harrive, hrun⟩, hv⟩
  intro l hl
  rcases List.mem_cons.mp hl with rfl | hl
  · rfl
  · exact hls l hl

/-- What the request does alone on one server it does on the other, and neither client notices. -/
theorem run_refused {ls : List Label} {v₁ : Server} (hls : ∀ l ∈ ls, l.request = some r)
    (hs : SameRefusal cfg r s₁ s₂) (hrefused : Refused cfg s₁.core.policy.rules r)
    (hpermits : s₁.core.permits = s₂.core.permits) (hpolicy : s₁.core.policy = s₂.core.policy)
    (h : Machine.run (step cfg) s₁ ls = some v₁) :
    ∃ v₂, Machine.run (step cfg) s₂ ls = some v₂ ∧ v₁.phase r = v₂.phase r ∧
      v₁.core.client = s₁.core.client ∧ v₂.core.client = s₂.core.client := by
  induction ls generalizing s₁ s₂ with
  | nil =>
    cases h
    exact ⟨s₂, rfl, hs.phase, rfl, rfl⟩
  | cons l ls ih =>
    obtain ⟨u₁, hu₁, hrun⟩ := Machine.run_cons.mp h
    obtain ⟨u₂, hu₂, hsame, hpermits', hpolicy₁, hpolicy₂, hclient₁, hclient₂⟩ :=
      step_refused (hls l List.mem_cons_self) hs (fun _ => hrefused) hpermits hpolicy hu₁
    obtain ⟨v₂, hv₂, hphase, hend₁, hend₂⟩ :=
      ih (fun l' hl' => hls l' (List.mem_cons_of_mem _ hl')) hsame
      (by rw [hpolicy₁]; exact hrefused) hpermits' (by rw [hpolicy₁, hpolicy₂, hpolicy]) hrun
    exact ⟨v₂, Machine.run_cons.mpr ⟨u₂, hu₂, hv₂⟩, hphase, hend₁.trans hclient₁, hend₂.trans hclient₂⟩

end Pairs

theorem refused_requests_are_invisible (cfg : ServerConfig) :
    (∀ now policy permits ls s, Machine.run (step cfg) (.initial now policy permits) ls = some s →
      ∃ s', Machine.run (step cfg) (.initial now policy permits) (ls.filter (keepsLabel cfg)) = some s' ∧
        s'.core = s.core ∧ ∀ r, cfg.authorized r = true → s'.phase r = s.phase r) ∧
    (∀ r s₁ s₂, s₁.phase r = .absent → s₂.phase r = .absent → s₁.core.permits = s₂.core.permits →
      s₁.core.policy = s₂.core.policy → Refused cfg s₁.core.policy.rules r →
      ∃ ls v₁ v₂ status message, (∀ l ∈ ls, l.request = some r) ∧
        Machine.run (step cfg) s₁ ls = some v₁ ∧ v₁.phase r = .responded (.error status message) ∧
        Machine.run (step cfg) s₂ ls = some v₂ ∧ v₂.phase r = .responded (.error status message) ∧
        v₁.core.client = s₁.core.client ∧ v₂.core.client = s₂.core.client) ∧
    (∀ r s₁ s₂ v₁ v₂, Paired cfg r s₁ s₂ v₁ v₂ → s₁.phase r = .absent → s₂.phase r = .absent →
      v₁.phase r = v₂.phase r ∧ (∀ document, v₁.phase r ≠ .responded (.document document)) ∧
        v₁.core.client.pc r = s₁.core.client.pc r ∧ v₂.core.client.pc r = s₂.core.client.pc r) := by
  have hfresh : ∀ {r : ℕ} {s₁ s₂ : Server}, s₁.phase r = .absent → s₂.phase r = .absent →
      SameRefusal cfg r s₁ s₂ := by
    intro r s₁ s₂ h₁ h₂
    exact ⟨h₁.trans h₂.symm, by rw [h₁]; rfl, by rw [h₁]; trivial⟩
  refine ⟨?_, ?_, ?_⟩
  · intro now policy permits ls s h
    obtain ⟨s', hrun, hsame⟩ := run_without_unauthorized h
    exact ⟨s', hrun, hsame.core.symm, fun r hr => (hsame.phase r hr).symm⟩
  · intro r s₁ s₂ h₁ h₂ hpermits hpolicy hrefused
    obtain ⟨ls, v₁, status, message, hls, hrun, hv₁⟩ := refused_responds h₁ hrefused
    obtain ⟨v₂, hrun₂, hphase, hclient₁, hclient₂⟩ :=
      run_refused hls (hfresh h₁ h₂) hrefused hpermits hpolicy hrun
    exact ⟨ls, v₁, v₂, status, message, hls, hrun, hv₁, hrun₂, hphase.symm.trans hv₁, hclient₁,
      hclient₂⟩
  · intro r s₁ s₂ v₁ v₂ hpaired h₁ h₂
    obtain ⟨hend, hpc₁, hpc₂⟩ := hpaired.sameRefusal (hfresh h₁ h₂)
    refine ⟨hend.phase, ?_, hpc₁, hpc₂⟩
    intro document hdocument
    have huncalled := hend.uncalled
    rw [hdocument] at huncalled
    cases huncalled

def sampleCached : Server :=
  let s := Server.initial 0 sampleServerPolicy (some 1)
  let vault := CachedVault.new sampleConfig.latest (sampleSession 3600) sampleSync 0
  { s with core := { s.core with client := { s.core.client with cache := some ⟨vault, 0, 1767225600⟩ } } }

theorem sampleServer_refusals :
    (∃ s s', Machine.run (step sampleServerConfig) (.initial 0 sampleServerPolicy (some 1))
        [.arrive 0, .arrive 2, .act 2 .authenticate, .act 0 .authenticate, .act 2 .acquire] = some s ∧
      Machine.run (step sampleServerConfig) (.initial 0 sampleServerPolicy (some 1))
        [.arrive 2, .act 2 .authenticate, .act 2 .acquire] = some s' ∧
      s'.core = s.core ∧ s'.phase 2 = s.phase 2) ∧
    (∃ ls v₁ v₂ status message, Machine.run (step sampleServerConfig) (.initial 0 sampleServerPolicy (some 1)) ls =
        some v₁ ∧ v₁.phase 1 = .responded (.error status message) ∧
      Machine.run (step sampleServerConfig) sampleCached ls = some v₂ ∧
      v₂.phase 1 = .responded (.error status message)) := by
  obtain ⟨hdelete, htwo, -⟩ := refused_requests_are_invisible sampleServerConfig
  have hauth₀ : sampleServerConfig.authorized 0 = false := by decide +kernel
  have hauth₂ : sampleServerConfig.authorized 2 = true := by decide +kernel
  constructor
  · have hrun : ∃ s, Machine.run (step sampleServerConfig) (.initial 0 sampleServerPolicy (some 1))
        [.arrive 0, .arrive 2, .act 2 .authenticate, .act 0 .authenticate, .act 2 .acquire] = some s := by
      simp [Machine.run, step, handle, Server.initial, Server.take, Outcome.go, Outcome.refuse,
        hauth₀, hauth₂]
    obtain ⟨s, hs⟩ := hrun
    obtain ⟨s', hs', hcore, hphase⟩ := hdelete 0 sampleServerPolicy (some 1) _ s hs
    refine ⟨s, s', hs, ?_, hcore, hphase 2 hauth₂⟩
    simpa [keepsLabel, Label.request, hauth₀, hauth₂] using hs'
  · have hrefused : Refused sampleServerConfig sampleServerPolicy.rules 1 := by
      refine .inr (.inr ⟨⟨"name:other".toList, some "name".toList⟩, ?_, ?_⟩)
      · decide +kernel
      · decide +kernel
    obtain ⟨ls, v₁, v₂, status, message, -, h₁, hv₁, h₂, hv₂, -, -⟩ :=
      htwo 1 (.initial 0 sampleServerPolicy (some 1)) sampleCached rfl rfl rfl rfl hrefused
    exact ⟨ls, v₁, v₂, status, message, h₁, hv₁, h₂, hv₂⟩

end VaultwardenEso.Provider
