import VaultwardenEso.Permits
import VaultwardenEso.Requests
import VaultwardenEso.WebhookToken

set_option autoImplicit false

/-!
# Startup, from the arguments to the state of the server: `main.rs`, `api.rs`

`main` up to `build_router`. Every file is read at most once, so what the file system answers
is one value a file.
-/
namespace VaultwardenEso.Provider
open RustStr RustResult BwesoCore Client

structure Args extends PolicyArgs, WebhookAuthArgs where
  singleOriginUrl : Option Str
  identityUrl : Option Str
  apiUrl : Option Str
  clientId : Option Str
  clientIdFile : Option Str
  clientSecret : Option Str
  clientSecretFile : Option Str
  masterPassword : Option Str
  masterPasswordFile : Option Str
  deviceIdentifier : Str
  deviceName : Str
  deviceType : UInt8
  cacheTtlSeconds : UInt64
  httpConnectTimeoutSeconds : UInt64
  httpRequestTimeoutSeconds : UInt64
  caBundleFile : Option Str
  resolveConcurrencyLimit : UInt32

/-- What the file system answers for the files of the arguments, if they are asked for. -/
structure StartupFiles where
  clientId : Option Bytes
  clientSecret : Option Bytes
  masterPassword : Option Bytes
  webhookAuthToken : Option Bytes
  caBundle : Option Bytes
  policy : PolicyFiles

/-- The HTTP client as `with_options` configures it; `χ` is a certificate. -/
structure ClientBuilder (χ : Type) where
  userAgent : Str
  connectTimeout : ℕ
  timeout : ℕ
  followsRedirects : Bool
  rootCertificates : List χ

/-- The crates that startup calls: `url`, `Certificate::from_pem_bundle` and
`ClientBuilder::build`. -/
structure StartupCrates (χ ω : Type) where
  url : RustUrl.UrlCrate
  fromPemBundle : Bytes → Option (List χ)
  build : ClientBuilder χ → Option (HttpCrate ω)

/-- The failures of startup; the cause that the operating system or a crate gives is left out. -/
inductive StartupError where
  | valueAndFile (name : String)
  | read (name : String)
  | unconfigured (name : String)
  | validation (error : ValidationError)
  | zeroTimeout (name : String)
  | singleOrigin (error : BitwardenClientError)
  | split (error : BitwardenClientError)
  | bothEndpointModes
  | noEndpoint
  | caBundleRead (path : Str)
  | caBundleParse (path : Str)
  | caBundleEmpty (path : Str)
  | client
  | policy (error : PolicyError)
  | auth (error : WebhookAuthError)

def StartupError.message : StartupError → String
  | .valueAndFile name => "configure either " ++ name ++ " or " ++ name ++ "_file, not both"
  | .read name => "failed to read " ++ name ++ "_file"
  | .unconfigured name => "configure " ++ name ++ " or " ++ name ++ "_file"
  | .validation (.emptyField field) => field ++ " must not be empty"
  | .zeroTimeout name => name ++ " must be greater than zero"
  | .singleOrigin _ => "invalid single-origin Bitwarden/Vaultwarden endpoint configuration"
  | .split _ => "invalid split Bitwarden endpoint configuration"
  | .bothEndpointModes => "configure either BWESO_SINGLE_ORIGIN_URL or both BWESO_IDENTITY_URL " ++
      "and BWESO_API_URL, not both endpoint modes"
  | .noEndpoint => "configure BWESO_SINGLE_ORIGIN_URL for single-origin Vaultwarden/self-hosted " ++
      "Bitwarden, or both BWESO_IDENTITY_URL and BWESO_API_URL for split Bitwarden endpoints"
  | .caBundleRead path => "failed to read ca_bundle_file " ++ String.ofList path
  | .caBundleParse path => "failed to parse PEM certificates from " ++ String.ofList path
  | .caBundleEmpty path => "ca_bundle_file " ++ String.ofList path ++ " contained no PEM certificates"
  | .client => "failed to build Bitwarden-compatible API client"
  | .policy error => error.message
  | .auth error => error.message

/-! ## The parts -/

def readSensitiveArg (value file : Option Str) (name : String) (contents : Option Bytes) :
    Except StartupError Str := do
  let resolved ← match value, file with
    | some _, some _ => .error (.valueAndFile name)
    | some value, none => pure value
    | none, some _ => match contents.bind fromUtf8 with
      | none => .error (.read name)
      | some text => pure (trimEndMatches ['\r', '\n'] text)
    | none, none => .error (.unconfigured name)
  (requireNonEmpty resolved name).mapError .validation
  pure resolved

section Crates
variable {χ ω : Type} (crates : StartupCrates χ ω)

def endpointsFromArgs (args : Args) : Except StartupError BitwardenEndpoints :=
  match args.singleOriginUrl, args.identityUrl, args.apiUrl with
  | some singleOriginUrl, none, none =>
    ((BitwardenEndpoint.parse crates.url singleOriginUrl).mapError .singleOrigin).map
      (BitwardenEndpoints.fromSingleOrigin crates.url)
  | none, some identityUrl, some apiUrl =>
    (BitwardenEndpoints.parseSplit crates.url identityUrl apiUrl).mapError .split
  | some _, some _, _ | some _, _, some _ => .error .bothEndpointModes
  | _, _, _ => .error .noEndpoint

def loadExtraRootCertificates (path : Option Str) (contents : Option Bytes) :
    Except StartupError (List χ) :=
  match path with
  | none => .ok []
  | some path => match contents with
    | none => .error (.caBundleRead path)
    | some pem => match crates.fromPemBundle pem with
      | none => .error (.caBundleParse path)
      | some [] => .error (.caBundleEmpty path)
      | some certificates => .ok certificates

structure ConfiguredClient (ω : Type) extends BitwardenApiClient ω where
  cacheTtl : ℕ

structure BitwardenHttpConfig (χ : Type) where
  connectTimeout : ℕ
  requestTimeout : ℕ
  extraRootCertificates : List χ

def BitwardenHttpConfig.builder (config : BitwardenHttpConfig χ) : ClientBuilder χ where
  userAgent := "vaultwarden-eso-provider".toList
  connectTimeout := config.connectTimeout
  timeout := config.requestTimeout
  followsRedirects := false
  rootCertificates := config.extraRootCertificates

def withOptions (endpoints : BitwardenEndpoints) (auth : BitwardenAuth) (device : BitwardenDevice)
    (cacheTtl : ℕ) (httpConfig : BitwardenHttpConfig χ) : Except StartupError (ConfiguredClient ω) :=
  match crates.build httpConfig.builder with
  | some http => .ok { crate := crates.url, http, endpoints, auth, device, cacheTtl }
  | none => .error .client

def Args.httpConfig (args : Args) (extraRootCertificates : List χ) : BitwardenHttpConfig χ where
  connectTimeout := Duration.fromSecs args.httpConnectTimeoutSeconds.toNat
  requestTimeout := Duration.fromSecs args.httpRequestTimeoutSeconds.toNat
  extraRootCertificates

def providerFromArgs (args : Args) (files : StartupFiles) :
    Except StartupError (ConfiguredClient ω) := do
  let clientId ← readSensitiveArg args.clientId args.clientIdFile "client_id" files.clientId
  let clientSecret ← readSensitiveArg args.clientSecret args.clientSecretFile "client_secret"
    files.clientSecret
  let masterPassword ← readSensitiveArg args.masterPassword args.masterPasswordFile
    "master_password" files.masterPassword
  (requireNonEmpty args.deviceIdentifier "device_identifier").mapError .validation
  (requireNonEmpty args.deviceName "device_name").mapError .validation
  if args.httpConnectTimeoutSeconds = 0 then .error (.zeroTimeout "http_connect_timeout_seconds")
  else if args.httpRequestTimeoutSeconds = 0 then
    .error (.zeroTimeout "http_request_timeout_seconds")
  else do
    let endpoints ← endpointsFromArgs crates args
    let auth : BitwardenAuth := ⟨clientId, clientSecret, masterPassword⟩
    let device : BitwardenDevice := ⟨args.deviceType, args.deviceIdentifier, args.deviceName⟩
    let extraRootCertificates ← loadExtraRootCertificates crates args.caBundleFile files.caBundle
    withOptions crates endpoints auth device (Duration.fromSecs args.cacheTtlSeconds.toNat)
      (args.httpConfig extraRootCertificates)

structure AppState (ω : Type) where
  provider : ConfiguredClient ω
  selectorPolicy : SelectorPolicy
  auth : WebhookAuth
  resolveSemaphore : Option ℕ

def AppState.fromArgs (args : Args) (files : StartupFiles) : Except StartupError (AppState ω) := do
  let permits := Provider.resolveSemaphore args.resolveConcurrencyLimit
  let provider ← providerFromArgs crates args files
  let selectorPolicy ← (SelectorPolicy.fromArgs args.toPolicyArgs files.policy).mapError .policy
  let auth ← (WebhookAuth.fromArgs args.toWebhookAuthArgs files.webhookAuthToken).mapError .auth
  pure ⟨provider, selectorPolicy, auth, permits⟩

/-- What the process ends with if startup fails, and the text that it prints for it. -/
def AppState.refusal (args : Args) (files : StartupFiles) : Option (StartupError × String) :=
  match AppState.fromArgs crates args files with
  | .ok _ => none
  | .error error => some (error, error.message)

end Crates

/-! ## What startup accepts -/

/-- The text that exactly one of an argument and its file gives. -/
def givenText (value file : Option Str) (contents : Option Bytes) : Option Str :=
  match value, file with
  | some value, none => some value
  | none, some _ => (contents.bind fromUtf8).map (trimEndMatches ['\r', '\n'])
  | _, _ => none

theorem checked_eq_ok {ε α : Type} {value : Str} {name : String} {f : ValidationError → ε}
    {rest : Except ε α} {a : α} :
    ((requireNonEmpty value name).mapError f >>= fun _ => rest) = .ok a ↔
      trim value ≠ [] ∧ rest = .ok a := by
  rw [bind_eq_ok]
  simp only [mapError_eq_ok]
  constructor
  · rintro ⟨⟨⟩, hne, hrest⟩
    exact ⟨requireNonEmpty_eq_ok.mp hne, hrest⟩
  · rintro ⟨hne, hrest⟩
    exact ⟨(), requireNonEmpty_eq_ok.mpr hne, hrest⟩

theorem readSensitiveArg_eq_ok {value file : Option Str} {name : String} {contents : Option Bytes}
    {text : Str} : readSensitiveArg value file name contents = .ok text ↔
      givenText value file contents = some text ∧ trim text ≠ [] := by
  have hcheck : ∀ resolved : Str,
      ((requireNonEmpty resolved name).mapError StartupError.validation >>= fun _ =>
        (pure resolved : Except StartupError Str)) = .ok text ↔ resolved = text ∧ trim text ≠ [] := by
    intro resolved
    rw [checked_eq_ok, pure_eq_ok, and_comm]
    exact and_congr_right fun heq => by rw [heq]
  unfold readSensitiveArg givenText
  cases value with
  | some value =>
    cases file with
    | some path => simp [bind, Except.bind]
    | none =>
      rw [Option.some.injEq]
      exact hcheck value
  | none =>
    cases file with
    | none => simp [bind, Except.bind]
    | some path =>
      dsimp only
      cases contents.bind fromUtf8 with
      | none => simp [bind, Except.bind]
      | some raw =>
        rw [Option.map_some, Option.some.injEq]
        exact hcheck _

theorem readOptionalSensitiveArg_eq_ok {value file : Option Str} {name : String}
    {contents : Option Bytes} {token : Option Str} :
    readOptionalSensitiveArg value file name contents = .ok token ↔
      (value = none ∧ file = none ∧ token = none) ∨
        ∃ text, givenText value file contents = some text ∧ trim text ≠ [] ∧ token = some text := by
  have hcheck : ∀ resolved : Str,
      ((requireNonEmpty resolved name).mapError WebhookAuthError.validation >>= fun _ =>
        (pure (some resolved) : Except WebhookAuthError (Option Str))) = .ok token ↔
          trim resolved ≠ [] ∧ token = some resolved := by
    intro resolved
    rw [checked_eq_ok, pure_eq_ok]
    exact and_congr_right fun _ => eq_comm
  unfold readOptionalSensitiveArg givenText
  cases value with
  | some value =>
    cases file with
    | some path => simp
    | none => simpa using hcheck value
  | none =>
    cases file with
    | none =>
      constructor
      · intro h
        cases h
        exact .inl ⟨rfl, rfl, rfl⟩
      · rintro (⟨-, -, rfl⟩ | ⟨text, htext, -⟩)
        · rfl
        · cases htext
    | some path =>
      dsimp only
      cases contents.bind fromUtf8 with
      | none => simp
      | some raw => simpa using hcheck _

section Accepted
variable {χ ω : Type} {crates : StartupCrates χ ω} {args : Args} {files : StartupFiles}

def IsSecure (url : RustUrl.Url) : Prop :=
  url.scheme = "https".toList ∨ url.scheme = "http".toList ∧ IsLocalhost url

def GivesBase (crate : RustUrl.UrlCrate) (raw : Str) (baseUrl : RustUrl.Url) : Prop :=
  trim raw ≠ [] ∧ crate.parse raw = some baseUrl ∧ IsSecure baseUrl

theorem parseNamed_eq_ok {crate : RustUrl.UrlCrate} {raw : Str} {fieldName : String}
    {endpoint : BitwardenEndpoint} :
    BitwardenEndpoint.parseNamed crate raw fieldName = .ok endpoint ↔
      GivesBase crate raw endpoint.baseUrl := BitwardenEndpoint.parseNamed_eq_ok

/-- The endpoints of one of the two modes; the arguments of the other one are absent. -/
inductive GivesEndpoints (crate : RustUrl.UrlCrate) (args : Args) : BitwardenEndpoints → Prop
  | single {raw : Str} {baseUrl : RustUrl.Url}
      (hargs : args.singleOriginUrl = some raw ∧ args.identityUrl = none ∧ args.apiUrl = none)
      (hbase : GivesBase crate raw baseUrl) :
    GivesEndpoints crate args (.fromSingleOrigin crate ⟨baseUrl⟩)
  | split {identityRaw apiRaw : Str} {identity api : RustUrl.Url}
      (hargs : args.singleOriginUrl = none ∧ args.identityUrl = some identityRaw ∧
        args.apiUrl = some apiRaw)
      (hidentity : GivesBase crate identityRaw identity) (hapi : GivesBase crate apiRaw api) :
    GivesEndpoints crate args
      ⟨normalizeEndpointBase crate identity, normalizeEndpointBase crate api⟩

theorem parseSplit_eq_ok {crate : RustUrl.UrlCrate} {identityUrl apiUrl : Str}
    {endpoints : BitwardenEndpoints} :
    BitwardenEndpoints.parseSplit crate identityUrl apiUrl = .ok endpoints ↔
      ∃ identity api, GivesBase crate identityUrl identity ∧ GivesBase crate apiUrl api ∧
        endpoints = ⟨normalizeEndpointBase crate identity, normalizeEndpointBase crate api⟩ := by
  unfold BitwardenEndpoints.parseSplit
  simp only [bind_eq_ok, pure_eq_ok, parseNamed_eq_ok]
  constructor
  · rintro ⟨identity, hidentity, api, hapi, rfl⟩
    exact ⟨identity.baseUrl, api.baseUrl, hidentity, hapi, rfl⟩
  · rintro ⟨identity, api, hidentity, hapi, rfl⟩
    exact ⟨⟨identity⟩, hidentity, ⟨api⟩, hapi, rfl⟩

theorem endpointsFromArgs_eq_ok {endpoints : BitwardenEndpoints} :
    endpointsFromArgs crates args = .ok endpoints ↔ GivesEndpoints crates.url args endpoints := by
  constructor
  · intro h
    unfold endpointsFromArgs at h
    split at h
    · rename_i hsingle hidentity hapi
      obtain ⟨endpoint, hendpoint, rfl⟩ := map_eq_ok.mp h
      rw [mapError_eq_ok] at hendpoint
      exact .single ⟨hsingle, hidentity, hapi⟩ (parseNamed_eq_ok.mp hendpoint)
    · rename_i hsingle hidentity hapi
      obtain ⟨identity, api, hbases⟩ := parseSplit_eq_ok.mp (mapError_eq_ok.mp h)
      obtain ⟨hidentityBase, hapiBase, rfl⟩ := hbases
      exact .split ⟨hsingle, hidentity, hapi⟩ hidentityBase hapiBase
    · cases h
    · cases h
    · cases h
  · intro h
    cases h with
    | single hargs hbase =>
      obtain ⟨hsingle, hidentity, hapi⟩ := hargs
      simp only [endpointsFromArgs, hsingle, hidentity, hapi]
      exact map_eq_ok.mpr ⟨⟨_⟩, mapError_eq_ok.mpr (parseNamed_eq_ok.mpr hbase), rfl⟩
    | split hargs hidentityBase hapiBase =>
      obtain ⟨hsingle, hidentity, hapi⟩ := hargs
      simp only [endpointsFromArgs, hsingle, hidentity, hapi]
      exact mapError_eq_ok.mpr (parseSplit_eq_ok.mpr ⟨_, _, hidentityBase, hapiBase, rfl⟩)

/-- The extra roots: none without a bundle, and at least one with it. -/
def GivesRoots (crates : StartupCrates χ ω) (path : Option Str) (contents : Option Bytes)
    (certificates : List χ) : Prop :=
  if path = none then certificates = []
  else certificates ≠ [] ∧ contents.bind crates.fromPemBundle = some certificates

theorem loadExtraRootCertificates_eq_ok {path : Option Str} {contents : Option Bytes}
    {certificates : List χ} :
    loadExtraRootCertificates crates path contents = .ok certificates ↔
      GivesRoots crates path contents certificates := by
  unfold loadExtraRootCertificates GivesRoots
  cases path with
  | none => simp [eq_comm]
  | some path =>
    cases contents with
    | none => simp
    | some pem =>
      rw [if_neg (by simp), Option.bind_some]
      dsimp only
      cases crates.fromPemBundle pem with
      | none => simp
      | some found =>
        cases found with
        | nil => simp [eq_comm]
        | cons certificate rest =>
          simp only [Except.ok.injEq, Option.some.injEq]
          constructor
          · rintro rfl
            exact ⟨List.cons_ne_nil _ _, rfl⟩
          · exact fun h => h.2

theorem withOptions_eq_ok {endpoints : BitwardenEndpoints} {auth : BitwardenAuth}
    {device : BitwardenDevice} {cacheTtl : ℕ} {httpConfig : BitwardenHttpConfig χ}
    {configured : ConfiguredClient ω} :
    withOptions crates endpoints auth device cacheTtl httpConfig = .ok configured ↔
      ∃ http, crates.build httpConfig.builder = some http ∧
        configured = { crate := crates.url, http, endpoints, auth, device, cacheTtl } := by
  unfold withOptions
  cases crates.build httpConfig.builder with
  | none => simp
  | some http => simp [eq_comm]

structure Configures (crates : StartupCrates χ ω) (args : Args) (files : StartupFiles)
    (provider : ConfiguredClient ω) : Prop where
  crate : provider.crate = crates.url
  clientId : givenText args.clientId args.clientIdFile files.clientId = some provider.auth.clientId
  clientSecret : givenText args.clientSecret args.clientSecretFile files.clientSecret =
    some provider.auth.clientSecret
  masterPassword : givenText args.masterPassword args.masterPasswordFile files.masterPassword =
    some provider.auth.masterPassword
  device : provider.device = ⟨args.deviceType, args.deviceIdentifier, args.deviceName⟩
  present : ∀ text ∈ [provider.auth.clientId, provider.auth.clientSecret,
    provider.auth.masterPassword, provider.device.identifier, provider.device.name], trim text ≠ []
  endpoints : GivesEndpoints crates.url args provider.endpoints
  timeouts : args.httpConnectTimeoutSeconds ≠ 0 ∧ args.httpRequestTimeoutSeconds ≠ 0
  http : ∃ certificates, GivesRoots crates args.caBundleFile files.caBundle certificates ∧
    crates.build (args.httpConfig certificates).builder = some provider.http
  cacheTtl : provider.cacheTtl = Duration.fromSecs args.cacheTtlSeconds.toNat

theorem providerFromArgs_eq_ok {provider : ConfiguredClient ω} :
    providerFromArgs crates args files = .ok provider ↔ Configures crates args files provider := by
  constructor
  · intro h
    unfold providerFromArgs at h
    obtain ⟨clientId, hclientId, h⟩ := bind_eq_ok.mp h
    obtain ⟨clientSecret, hclientSecret, h⟩ := bind_eq_ok.mp h
    obtain ⟨masterPassword, hmasterPassword, h⟩ := bind_eq_ok.mp h
    obtain ⟨hidentifier, h⟩ := checked_eq_ok.mp h
    obtain ⟨hname, h⟩ := checked_eq_ok.mp h
    rw [readSensitiveArg_eq_ok] at hclientId hclientSecret hmasterPassword
    split at h
    · cases h
    · rename_i hconnect
      split at h
      · cases h
      · rename_i hrequest
        obtain ⟨endpoints, hendpoints, h⟩ := bind_eq_ok.mp h
        obtain ⟨certificates, hcertificates, h⟩ := bind_eq_ok.mp h
        obtain ⟨http, hbuild, rfl⟩ := withOptions_eq_ok.mp h
        refine ⟨rfl, hclientId.1, hclientSecret.1, hmasterPassword.1, rfl, ?_,
          endpointsFromArgs_eq_ok.mp hendpoints, ⟨hconnect, hrequest⟩,
          ⟨certificates, loadExtraRootCertificates_eq_ok.mp hcertificates, hbuild⟩, rfl⟩
        simp only [List.forall_mem_cons, List.not_mem_nil, false_imp_iff, implies_true, and_true]
        exact ⟨hclientId.2, hclientSecret.2, hmasterPassword.2, hidentifier, hname⟩
  · intro h
    obtain ⟨⟨crate, http, endpoints, auth, device⟩, cacheTtl⟩ := provider
    obtain ⟨hcrate, hclientId, hclientSecret, hmasterPassword, hdevice, hpresent, hendpoints,
      ⟨hconnect, hrequest⟩, ⟨certificates, hroots, hbuild⟩, hcacheTtl⟩ := h
    simp only [List.forall_mem_cons, List.not_mem_nil, false_imp_iff, implies_true, and_true]
      at hpresent
    dsimp only at *
    subst hcrate hdevice hcacheTtl
    obtain ⟨hid, hsecret, hpassword, hidentifier, hname⟩ := hpresent
    unfold providerFromArgs
    refine bind_eq_ok.mpr ⟨_, readSensitiveArg_eq_ok.mpr ⟨hclientId, hid⟩, ?_⟩
    refine bind_eq_ok.mpr ⟨_, readSensitiveArg_eq_ok.mpr ⟨hclientSecret, hsecret⟩, ?_⟩
    refine bind_eq_ok.mpr ⟨_, readSensitiveArg_eq_ok.mpr ⟨hmasterPassword, hpassword⟩, ?_⟩
    refine checked_eq_ok.mpr ⟨hidentifier, checked_eq_ok.mpr ⟨hname, ?_⟩⟩
    rw [if_neg hconnect, if_neg hrequest]
    refine bind_eq_ok.mpr ⟨_, endpointsFromArgs_eq_ok.mpr hendpoints, ?_⟩
    refine bind_eq_ok.mpr ⟨_, loadExtraRootCertificates_eq_ok.mpr hroots, ?_⟩
    exact withOptions_eq_ok.mpr ⟨http, hbuild, rfl⟩

inductive GivesAuth (args : WebhookAuthArgs) (contents : Option Bytes) : WebhookAuth → Prop
  | required {token : Str} (hflag : args.insecureAllowUnauthenticated = false)
      (hgiven : givenText args.webhookAuthToken args.webhookAuthTokenFile contents = some token)
      (hne : trim token ≠ []) : GivesAuth args contents (.required token)
  | disabledInsecure (hflag : args.insecureAllowUnauthenticated = true)
      (habsent : args.webhookAuthToken = none ∧ args.webhookAuthTokenFile = none) :
    GivesAuth args contents .disabledInsecure

theorem webhookAuth_eq_ok {args : WebhookAuthArgs} {contents : Option Bytes} {auth : WebhookAuth} :
    WebhookAuth.fromArgs args contents = .ok auth ↔ GivesAuth args contents auth := by
  unfold WebhookAuth.fromArgs
  rw [bind_eq_ok]
  simp only [readOptionalSensitiveArg_eq_ok]
  constructor
  · rintro ⟨token, htoken, h⟩
    rcases htoken with ⟨hvalue, hfile, rfl⟩ | ⟨text, hgiven, hne, rfl⟩
    · cases hflag : args.insecureAllowUnauthenticated with
      | true =>
        rw [hflag] at h
        cases h
        exact .disabledInsecure hflag ⟨hvalue, hfile⟩
      | false =>
        rw [hflag] at h
        cases h
    · cases hflag : args.insecureAllowUnauthenticated with
      | true =>
        rw [hflag] at h
        cases h
      | false =>
        rw [hflag] at h
        cases h
        exact .required hflag hgiven hne
  · intro h
    cases h with
    | required hflag hgiven hne =>
      refine ⟨_, .inr ⟨_, hgiven, hne, rfl⟩, ?_⟩
      rw [hflag]
      rfl
    | disabledInsecure hflag habsent =>
      refine ⟨_, .inl ⟨habsent.1, habsent.2, rfl⟩, ?_⟩
      rw [hflag]
      rfl

structure Starts (crates : StartupCrates χ ω) (args : Args) (files : StartupFiles)
    (state : AppState ω) : Prop where
  provider : Configures crates args files state.provider
  policy : SelectorPolicy.fromArgs args.toPolicyArgs files.policy = .ok state.selectorPolicy
  auth : GivesAuth args.toWebhookAuthArgs files.webhookAuthToken state.auth
  permits : state.resolveSemaphore = resolveSemaphore args.resolveConcurrencyLimit

theorem AppState.fromArgs_eq_ok {state : AppState ω} :
    AppState.fromArgs crates args files = .ok state ↔ Starts crates args files state := by
  unfold AppState.fromArgs
  simp only [bind_eq_ok, mapError_eq_ok, pure_eq_ok, providerFromArgs_eq_ok, webhookAuth_eq_ok]
  constructor
  · rintro ⟨provider, hprovider, policy, hpolicy, auth, hauth, rfl⟩
    exact ⟨hprovider, hpolicy, hauth, rfl⟩
  · rintro ⟨hprovider, hpolicy, hauth, hpermits⟩
    refine ⟨_, hprovider, _, hpolicy, _, hauth, ?_⟩
    rw [← hpermits]

end Accepted

/-! ## What a refusal tells -/

/-- What is left of a text: whether it is blank. -/
def redact (text : Str) : Str := if trim text = [] then [] else ['*']

/-- A secret file, without the line ends that are dropped from it. -/
def redactFile (contents : Option Bytes) : Option Bytes :=
  (contents.bind fromUtf8).map (fun text => asBytes (redact (trimEndMatches ['\r', '\n'] text)))

/-- A policy file of the same length: whether it has entries. -/
def FileView.redacted (view : FileView) : FileView where
  length := view.length
  bytes := view.contents.map (fun contents =>
    if policyEntries contents = [] then [] else asBytes ['*'])

def Args.redacted (args : Args) : Args :=
  { args with
    clientId := args.clientId.map redact
    clientSecret := args.clientSecret.map redact
    masterPassword := args.masterPassword.map redact
    webhookAuthToken := args.webhookAuthToken.map redact
    allowedKeys := args.allowedKeys.map redact
    allowedKeyPrefixes := args.allowedKeyPrefixes.map redact }

def StartupFiles.redacted (files : StartupFiles) : StartupFiles where
  clientId := redactFile files.clientId
  clientSecret := redactFile files.clientSecret
  masterPassword := redactFile files.masterPassword
  webhookAuthToken := redactFile files.webhookAuthToken
  caBundle := files.caBundle
  policy := ⟨files.policy.keys.redacted, files.policy.keyPrefixes.redacted⟩

theorem trim_redact {text : Str} : trim (redact text) = [] ↔ trim text = [] := by
  unfold redact
  split
  · rename_i h
    exact iff_of_true rfl h
  · rename_i h
    exact iff_of_false (by decide) h

theorem trimEndMatches_redact (text : Str) :
    trimEndMatches ['\r', '\n'] (redact text) = redact text := by
  unfold redact
  split <;> rfl

theorem requireNonEmpty_congr {value other : Str} (h : trim value = [] ↔ trim other = [])
    (name : String) : requireNonEmpty value name = requireNonEmpty other name := by
  unfold requireNonEmpty
  by_cases hblank : trim other = []
  · rw [if_pos hblank, if_pos (h.mpr hblank)]
  · rw [if_neg hblank, if_neg (fun hvalue => hblank (h.mp hvalue))]

theorem checked_alike {ε α β : Type} {R : α → β → Prop} {value other : Str} {a : α} {b : β}
    (h : trim value = [] ↔ trim other = []) (hab : R a b) (name : String)
    (f : ValidationError → ε) :
    Alike R (do (requireNonEmpty value name).mapError f; pure a)
      (do (requireNonEmpty other name).mapError f; pure b) := by
  rw [requireNonEmpty_congr h]
  exact (Alike.refl (R := fun _ _ => True) (fun _ => trivial) _).bind (fun _ _ _ => .ok hab)

theorem fromUtf8_redactFile (contents : Option Bytes) :
    (redactFile contents).bind fromUtf8 =
      (contents.bind fromUtf8).map (fun text => redact (trimEndMatches ['\r', '\n'] text)) := by
  unfold redactFile
  cases contents.bind fromUtf8 with
  | none => rfl
  | some text => exact fromUtf8_asBytes _

theorem readSensitiveArg_redact (value file : Option Str) (name : String)
    (contents : Option Bytes) :
    Alike (fun _ _ => True) (readSensitiveArg (value.map redact) file name (redactFile contents))
      (readSensitiveArg value file name contents) := by
  unfold readSensitiveArg
  rw [fromUtf8_redactFile]
  cases value with
  | some value =>
    cases file with
    | some path => exact .error _
    | none => exact checked_alike trim_redact trivial name _
  | none =>
    cases file with
    | none => exact .error _
    | some path =>
      cases contents.bind fromUtf8 with
      | none => exact .error _
      | some text =>
        rw [Option.map_some, Option.map_none]
        dsimp only
        rw [trimEndMatches_redact]
        exact checked_alike trim_redact trivial name _

theorem readOptionalSensitiveArg_redact (value file : Option Str) (name : String)
    (contents : Option Bytes) :
    Alike (fun redacted token => redacted.isSome = token.isSome)
      (readOptionalSensitiveArg (value.map redact) file name (redactFile contents))
      (readOptionalSensitiveArg value file name contents) := by
  unfold readOptionalSensitiveArg
  rw [fromUtf8_redactFile]
  cases value with
  | some value =>
    cases file with
    | some path => exact .error _
    | none => exact checked_alike trim_redact (by rfl) name _
  | none =>
    cases file with
    | none => exact .ok rfl
    | some path =>
      cases contents.bind fromUtf8 with
      | none => exact .error _
      | some text =>
        rw [Option.map_some, Option.map_none]
        dsimp only
        rw [trimEndMatches_redact]
        exact checked_alike trim_redact (by rfl) name _

theorem WebhookAuth.fromArgs_redacted (args : Args) (contents : Option Bytes) :
    Alike (fun _ _ => True)
      (WebhookAuth.fromArgs args.redacted.toWebhookAuthArgs (redactFile contents))
      (WebhookAuth.fromArgs args.toWebhookAuthArgs contents) := by
  have hflag : args.redacted.insecureAllowUnauthenticated = args.insecureAllowUnauthenticated := rfl
  unfold WebhookAuth.fromArgs
  refine (readOptionalSensitiveArg_redact _ _ _ _).bind ?_
  intro redacted token hsome
  rw [hflag]
  cases redacted with
  | none =>
    obtain rfl : token = none := Option.not_isSome_iff_eq_none.mp (by rw [← hsome]; decide)
    exact Alike.refl (fun _ => trivial) _
  | some redacted =>
    obtain ⟨token, rfl⟩ := Option.isSome_iff_exists.mp hsome.symm
    cases args.insecureAllowUnauthenticated with
    | true => exact .error _
    | false => exact .ok trivial

section Redacted
variable {χ ω : Type} (crates : StartupCrates χ ω)

theorem withOptions_alike (endpoints : BitwardenEndpoints) (auth other : BitwardenAuth)
    (device : BitwardenDevice) (cacheTtl : ℕ) (httpConfig : BitwardenHttpConfig χ) :
    Alike (fun _ _ => True) (withOptions crates endpoints auth device cacheTtl httpConfig)
      (withOptions crates endpoints other device cacheTtl httpConfig) := by
  unfold withOptions
  cases crates.build httpConfig.builder with
  | none => exact .error _
  | some http => exact .ok trivial

theorem providerFromArgs_redacted (args : Args) (files : StartupFiles) :
    Alike (fun _ _ => True) (providerFromArgs crates args.redacted files.redacted)
      (providerFromArgs crates args files) := by
  have hcheck : ∀ text name, Alike (fun _ _ => True)
      ((requireNonEmpty text name).mapError StartupError.validation)
      ((requireNonEmpty text name).mapError StartupError.validation) :=
    fun _ _ => Alike.refl (fun _ => trivial) _
  have hendpoints : Alike Eq (endpointsFromArgs crates args.redacted)
      (endpointsFromArgs crates args) := Alike.refl (fun _ => rfl) (endpointsFromArgs crates args)
  have hroots : Alike Eq (loadExtraRootCertificates crates args.caBundleFile files.caBundle)
      (loadExtraRootCertificates crates args.caBundleFile files.caBundle) :=
    Alike.refl (fun _ => rfl) _
  unfold providerFromArgs
  refine (readSensitiveArg_redact _ _ _ _).bind (fun _ _ _ => ?_)
  refine (readSensitiveArg_redact _ _ _ _).bind (fun _ _ _ => ?_)
  refine (readSensitiveArg_redact _ _ _ _).bind (fun _ _ _ => ?_)
  refine (hcheck args.deviceIdentifier _).bind (fun _ _ _ => ?_)
  refine (hcheck args.deviceName _).bind (fun _ _ _ => ?_)
  refine Alike.ite Iff.rfl (.error _) (Alike.ite Iff.rfl (.error _) ?_)
  refine hendpoints.bind ?_
  rintro endpoints _ rfl
  refine hroots.bind ?_
  rintro certificates _ rfl
  exact withOptions_alike crates _ _ _ _ _ _

/-! ### The policy -/

theorem normalizePolicyEntries_redact (entries : List Str) (name : String) :
    Alike (fun redacted normalized => redacted = [] ↔ normalized = [])
      (normalizePolicyEntries (entries.map redact) name) (normalizePolicyEntries entries name) := by
  have hentry : ∀ entry : Str, Alike (fun _ _ => True)
      (do (requireNonEmpty (trim (redact entry)) name).mapError PolicyError.validation
          pure (trim (redact entry)))
      (do (requireNonEmpty (trim entry) name).mapError PolicyError.validation
          pure (trim entry)) := by
    intro entry
    have hblank : trim (trim (redact entry)) = [] ↔ trim (trim entry) = [] := by
      rw [trim_trim, trim_trim]
      exact trim_redact
    exact checked_alike hblank trivial name _
  refine (Alike.mapM (R := fun _ _ => True) ?_).mono (fun _ _ => forall₂_nil_iff)
  rw [List.forall₂_map_left_iff]
  exact List.forall₂_same.mpr (fun entry _ => hentry entry)

theorem policyEntries_redacted (contents : Str) :
    policyEntries (if policyEntries contents = [] then [] else ['*']) = [] ↔
      policyEntries contents = [] := by
  by_cases hempty : policyEntries contents = []
  · rw [if_pos hempty]
    exact iff_of_true (by decide) hempty
  · rw [if_neg hempty]
    exact iff_of_false (by decide) hempty

theorem FileView.contents_redacted (view : FileView) :
    view.redacted.contents = view.contents.map (fun contents =>
      if policyEntries contents = [] then [] else ['*']) := by
  unfold FileView.redacted
  rw [FileView.contents]
  dsimp only
  cases view.contents with
  | none => rfl
  | some contents =>
    rw [Option.map_some, Option.map_some, Option.bind_some]
    split
    · exact fromUtf8_asBytes []
    · exact fromUtf8_asBytes ['*']

theorem readFileSource_redacted (file : Option Str) (view : FileView) (name : String) :
    Alike (fun redacted entries => redacted = [] ↔ entries = [])
      (readFileSource file view.redacted name) (readFileSource file view name) := by
  have hlength : view.redacted.length = view.length := rfl
  unfold readFileSource readPolicyFile
  rw [hlength, view.contents_redacted]
  cases file with
  | none => exact .ok Iff.rfl
  | some path =>
    dsimp only
    cases view.length with
    | none => exact .error _
    | some length =>
      refine Alike.ite Iff.rfl (.error _) ?_
      cases view.contents with
      | none => exact .error _
      | some contents => exact .ok (policyEntries_redacted contents)

theorem PolicySources.evaluate_redacted {redacted sources : PolicySources} (files : PolicyFiles)
    (hkeys : redacted.inlineKeys = [] ↔ sources.inlineKeys = [])
    (hprefixes : redacted.inlineKeyPrefixes = [] ↔ sources.inlineKeyPrefixes = [])
    (hkeysFile : redacted.keysFile = sources.keysFile)
    (hprefixesFile : redacted.keyPrefixesFile = sources.keyPrefixesFile) :
    Alike (fun _ _ => True)
      (redacted.evaluate ⟨files.keys.redacted, files.keyPrefixes.redacted⟩)
      (sources.evaluate files) := by
  have hfile : redacted.hasFile = sources.hasFile := by
    unfold hasFile
    rw [hkeysFile, hprefixesFile]
  unfold evaluate
  rw [hkeysFile, hprefixesFile, hfile]
  refine (readFileSource_redacted _ _ _).bind (fun redactedKeys keys hread => ?_)
  refine (readFileSource_redacted _ _ _).bind (fun redactedPrefixes prefixes hread' => ?_)
  have hempty : (redacted.inlineKeys ++ redactedKeys = [] ∧
        redacted.inlineKeyPrefixes ++ redactedPrefixes = []) ↔
      sources.inlineKeys ++ keys = [] ∧ sources.inlineKeyPrefixes ++ prefixes = [] := by
    rw [List.append_eq_nil_iff, List.append_eq_nil_iff, List.append_eq_nil_iff,
      List.append_eq_nil_iff, hkeys, hprefixes, hread, hread']
  exact Alike.ite (and_congr_right fun _ => hempty) (.error _)
    (Alike.ite hempty (.error _) (.ok trivial))

theorem SelectorPolicy.fromArgs_redacted (args : Args) (files : PolicyFiles) :
    Alike (fun _ _ => True)
      (SelectorPolicy.fromArgs args.redacted.toPolicyArgs
        ⟨files.keys.redacted, files.keyPrefixes.redacted⟩)
      (SelectorPolicy.fromArgs args.toPolicyArgs files) := by
  have hinline : (args.allowedKeys.map redact ≠ [] ∨ args.allowedKeyPrefixes.map redact ≠ []) ↔
      args.allowedKeys ≠ [] ∨ args.allowedKeyPrefixes ≠ [] := by
    rw [Ne, Ne, List.map_eq_nil_iff, List.map_eq_nil_iff]
  unfold SelectorPolicy.fromArgs
  refine Alike.ite (and_congr_right fun _ => and_congr_left fun _ => not_congr hinline) (.error _)
    (Alike.ite (and_congr_right fun _ => or_congr_left hinline) (.error _) ?_)
  refine (normalizePolicyEntries_redact args.allowedKeys _).bind (fun _ _ hkeys => ?_)
  refine (normalizePolicyEntries_redact args.allowedKeyPrefixes _).bind (fun _ _ hprefixes => ?_)
  refine Alike.bind (R := fun _ _ => True) ?_ (fun _ _ _ => .ok trivial)
  exact Alike.ite Iff.rfl (.ok trivial)
    (PolicySources.evaluate_redacted files hkeys hprefixes rfl rfl)

theorem AppState.fromArgs_redacted (args : Args) (files : StartupFiles) :
    Alike (fun _ _ => True) (AppState.fromArgs crates args.redacted files.redacted)
      (AppState.fromArgs crates args files) := by
  unfold AppState.fromArgs
  refine (providerFromArgs_redacted crates args files).bind (fun _ _ _ => ?_)
  refine ((SelectorPolicy.fromArgs_redacted args files.policy).mapError _).bind (fun _ _ _ => ?_)
  exact ((WebhookAuth.fromArgs_redacted args files.webhookAuthToken).mapError _).bind
    (fun _ _ _ => .ok trivial)

theorem AppState.refusal_redacted (args : Args) (files : StartupFiles) :
    AppState.refusal crates args.redacted files.redacted = AppState.refusal crates args files := by
  have halike := AppState.fromArgs_redacted crates args files
  unfold refusal
  cases houtcome : AppState.fromArgs crates args files with
  | error error => rw [(halike.error_iff error).mpr houtcome]
  | ok state =>
    cases hredacted : AppState.fromArgs crates args.redacted files.redacted with
    | error error =>
      rw [(halike.error_iff error).mp hredacted] at houtcome
      cases houtcome
    | ok redacted => rfl

end Redacted

end VaultwardenEso.Provider
