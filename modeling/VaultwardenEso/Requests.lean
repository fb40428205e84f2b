import VaultwardenEso.DirectResolve
import VaultwardenEso.Lib.Form

set_option autoImplicit false

/-!
# What the client sends: `api.rs`

The code says what a request has, and the HTTP crate what goes out. The server answers by
everything it has been sent so far.
-/
namespace VaultwardenEso.Client
open RustStr RustResult RustUrl Crypto Cipher Serde

structure BitwardenAuth where
  clientId : Str
  clientSecret : Str
  masterPassword : Str

@[ext] structure BitwardenDevice where
  deviceType : UInt8
  identifier : Str
  name : Str

def BitwardenDevice.default : BitwardenDevice where
  deviceType := 22
  identifier := "vaultwarden-eso-provider".toList
  name := "Vaultwarden ESO Provider".toList

inductive HttpMethod where
  | get
  | post
  deriving DecidableEq

/-- A request as the client puts it together before `send`. -/
structure RequestBuilder where
  method : HttpMethod
  url : Url
  headers : List (String × Str)
  form : Option (List (Str × Str))
  bearer : Option Str

def RequestBuilder.new (method : HttpMethod) (url : Url) : RequestBuilder :=
  ⟨method, url, [], none, none⟩

def RequestBuilder.header (builder : RequestBuilder) (name : String) (value : Str) :
    RequestBuilder :=
  { builder with headers := builder.headers ++ [(name, value)] }

def RequestBuilder.bitwardenHeaders (builder : RequestBuilder) : RequestBuilder :=
  builder.header "Bitwarden-Client-Version" "2025.12.0".toList

def RequestBuilder.withForm (builder : RequestBuilder) (pairs : List (Str × Str)) :
    RequestBuilder :=
  { builder with form := some pairs }

def RequestBuilder.bearerAuth (builder : RequestBuilder) (token : Str) : RequestBuilder :=
  { builder with bearer := some token }

/-- The HTTP crate under the client; `ω` is a request as it goes out. What `build` refuses fails
before anything is sent. -/
structure HttpCrate (ω : Type) where
  build : RequestBuilder → Option ω
  body : ω → Bytes

def HttpCrate.request {ω : Type} (http : HttpCrate ω) (builder : RequestBuilder) :
    Except BitwardenApiError ω :=
  match http.build builder with
  | some request => .ok request
  | none => .error .http

/-- The crate writes forms as the URL standard says. -/
def HttpCrate.WritesForms {ω : Type} (http : HttpCrate ω) : Prop :=
  ∀ builder pairs request, builder.form = some pairs → http.build builder = some request →
    http.body request = asBytes (UrlStandard.serialize pairs)

structure ApiKeyTokenRequest where
  grantType : Str
  scope : Str
  clientId : Str
  clientSecret : Str
  deviceIdentifier : Str
  deviceName : Str
  deviceType : UInt8

def ApiKeyTokenRequest.fields (request : ApiKeyTokenRequest) : List (Str × Str) :=
  [("grant_type".toList, request.grantType), ("scope".toList, request.scope),
    ("client_id".toList, request.clientId), ("client_secret".toList, request.clientSecret),
    ("deviceIdentifier".toList, request.deviceIdentifier), ("deviceName".toList, request.deviceName),
    ("deviceType".toList, decimal request.deviceType)]

/-- The fields of `BitwardenApiClient` that its requests are made of. -/
structure BitwardenApiClient (ω : Type) where
  crate : UrlCrate
  http : HttpCrate ω
  endpoints : BitwardenEndpoints
  auth : BitwardenAuth
  device : BitwardenDevice

section Client
variable {ω : Type}

def BitwardenApiClient.scope (client : BitwardenApiClient ω) : Str :=
  if "organization.".toList.isPrefixOf client.auth.clientId then "api.organization".toList
  else "api".toList

def BitwardenApiClient.apiKeyToken (client : BitwardenApiClient ω) : ApiKeyTokenRequest where
  grantType := "client_credentials".toList
  scope := client.scope
  clientId := client.auth.clientId
  clientSecret := client.auth.clientSecret
  deviceIdentifier := client.device.identifier
  deviceName := client.device.name
  deviceType := client.device.deviceType

def BitwardenApiClient.tokenRequest (client : BitwardenApiClient ω) :
    Except BitwardenApiError ω := do
  let url ← tokenUrl client.crate client.endpoints
  client.http.request
    (((RequestBuilder.new .post url).bitwardenHeaders).withForm client.apiKeyToken.fields)

def BitwardenApiClient.syncRequest (client : BitwardenApiClient ω) (accessToken : Str) :
    Except BitwardenApiError ω := do
  let url ← syncUrl client.crate client.endpoints
  client.http.request (((RequestBuilder.new .get url).bitwardenHeaders).bearerAuth accessToken)

/-! ## The token request is read back -/

theorem HttpCrate.request_eq_ok {http : HttpCrate ω} {builder : RequestBuilder} {request : ω} :
    http.request builder = .ok request ↔ http.build builder = some request := by
  unfold HttpCrate.request
  cases http.build builder <;> simp

theorem HttpCrate.request_error {http : HttpCrate ω} {builder : RequestBuilder}
    {error : BitwardenApiError} (h : http.request builder = .error error) : error = .http := by
  unfold HttpCrate.request at h
  cases hbuild : http.build builder with
  | some request =>
    rw [hbuild] at h
    cases h
  | none =>
    rw [hbuild] at h
    cases h
    rfl

def readForm (body : Bytes) : Option (List (Str × Str)) := (fromUtf8 body).bind UrlStandard.parse

theorem readForm_serialize (pairs : List (Str × Str)) :
    readForm (asBytes (UrlStandard.serialize pairs)) = some pairs := by
  rw [readForm, fromUtf8_asBytes, Option.bind_some, UrlStandard.parse_serialize]

theorem BitwardenApiClient.tokenRequest_eq_ok {client : BitwardenApiClient ω} {request : ω} :
    client.tokenRequest = .ok request ↔ ∃ url, tokenUrl client.crate client.endpoints = .ok url ∧
      client.http.build (((RequestBuilder.new .post url).bitwardenHeaders).withForm
        client.apiKeyToken.fields) = some request := by
  unfold BitwardenApiClient.tokenRequest
  rw [bind_eq_ok]
  exact exists_congr fun url => and_congr_right fun _ => HttpCrate.request_eq_ok

theorem ApiKeyTokenRequest.fields_injective : Function.Injective ApiKeyTokenRequest.fields := by
  rintro ⟨⟩ ⟨⟩ h
  simp only [fields, List.cons.injEq, Prod.mk.injEq, true_and, and_true] at h
  simp only [ApiKeyTokenRequest.mk.injEq]
  exact ⟨h.1, h.2.1, h.2.2.1, h.2.2.2.1, h.2.2.2.2.1, h.2.2.2.2.2.1,
    decimal_injective h.2.2.2.2.2.2⟩

theorem BitwardenApiClient.apiKeyToken_inj {client other : BitwardenApiClient ω} :
    other.apiKeyToken = client.apiKeyToken ↔ other.auth.clientId = client.auth.clientId ∧
      other.auth.clientSecret = client.auth.clientSecret ∧ other.device = client.device := by
  constructor
  · intro h
    exact ⟨congrArg ApiKeyTokenRequest.clientId h, congrArg ApiKeyTokenRequest.clientSecret h,
      BitwardenDevice.ext (congrArg ApiKeyTokenRequest.deviceType h)
        (congrArg ApiKeyTokenRequest.deviceIdentifier h)
        (congrArg ApiKeyTokenRequest.deviceName h)⟩
  · intro ⟨hid, hsecret, hdevice⟩
    have hscope : other.scope = client.scope := by
      unfold scope
      rw [hid]
    unfold apiKeyToken
    rw [hscope, hid, hsecret, hdevice]

theorem BitwardenApiClient.readForm_tokenRequest {client : BitwardenApiClient ω} {request : ω}
    (hforms : client.http.WritesForms) (h : client.tokenRequest = .ok request) :
    readForm (client.http.body request) = some client.apiKeyToken.fields := by
  obtain ⟨url, -, hbuild⟩ := tokenRequest_eq_ok.mp h
  rw [hforms _ _ request rfl hbuild, readForm_serialize]

/-- Whatever characters the credentials have, the server finds in the form just the seven pairs
that were meant. The same login comes from the same credentials and device, and these and the
URL decide what is sent: the master password has no part in it. -/
theorem token_request_is_read_back {client : BitwardenApiClient ω} {request : ω}
    (hforms : client.http.WritesForms) (h : client.tokenRequest = .ok request) :
    readForm (client.http.body request) = some client.apiKeyToken.fields ∧
    ∀ other : BitwardenApiClient ω, other.http = client.http →
      (other.tokenRequest = .ok request → other.auth.clientId = client.auth.clientId ∧
        other.auth.clientSecret = client.auth.clientSecret ∧ other.device = client.device) ∧
      (tokenUrl other.crate other.endpoints = tokenUrl client.crate client.endpoints →
        other.auth.clientId = client.auth.clientId →
        other.auth.clientSecret = client.auth.clientSecret → other.device = client.device →
        other.tokenRequest = .ok request) := by
  have hread := BitwardenApiClient.readForm_tokenRequest hforms h
  refine ⟨hread, ?_⟩
  intro other hhttp
  constructor
  · intro hother
    have hread' : readForm (other.http.body request) = some other.apiKeyToken.fields :=
      BitwardenApiClient.readForm_tokenRequest (by rw [hhttp]; exact hforms) hother
    rw [hhttp, hread] at hread'
    have hfields := ApiKeyTokenRequest.fields_injective (Option.some.inj hread').symm
    exact BitwardenApiClient.apiKeyToken_inj.mp hfields
  · intro hurl hid hsecret hdevice
    have htoken := BitwardenApiClient.apiKeyToken_inj.mpr ⟨hid, hsecret, hdevice⟩
    obtain ⟨url, hurl', hbuild⟩ := BitwardenApiClient.tokenRequest_eq_ok.mp h
    refine BitwardenApiClient.tokenRequest_eq_ok.mpr ⟨url, hurl.trans hurl', ?_⟩
    rw [htoken, hhttp]
    exact hbuild

end Client

structure PlainRequest where
  method : HttpMethod
  url : Url
  headers : List (String × Str)
  body : Bytes

/-- Enough of the crate for URLs without user information. -/
def plainCrate : HttpCrate PlainRequest where
  build := fun builder => some {
    method := builder.method
    url := builder.url
    headers := [("User-Agent", "vaultwarden-eso-provider".toList)] ++ builder.headers ++
      (builder.form.map fun _ =>
        ("Content-Type", "application/x-www-form-urlencoded".toList)).toList ++
      (builder.bearer.map fun token => ("Authorization", "Bearer ".toList ++ token)).toList
    body := (builder.form.map fun pairs => asBytes (UrlStandard.serialize pairs)).getD [] }
  body := PlainRequest.body

theorem plainCrate_writesForms : plainCrate.WritesForms := by
  intro builder pairs request hform hbuild
  cases hbuild
  simp only [plainCrate, hform, Option.map_some, Option.getD_some]

def forgedClient : BitwardenApiClient PlainRequest where
  crate := crateFor []
  http := plainCrate
  endpoints := ⟨plainUrl "https" (.ipv4 10 0 0 1) none, plainUrl "https" (.ipv4 10 0 0 1) none⟩
  auth := ⟨"user.id".toList, "x&scope=api.organization".toList, []⟩
  device := .default

theorem forged_secret_stays_one : ∃ request, forgedClient.tokenRequest = .ok request ∧
    readForm request.body = some [("grant_type".toList, "client_credentials".toList),
      ("scope".toList, "api".toList), ("client_id".toList, "user.id".toList),
      ("client_secret".toList, "x&scope=api.organization".toList),
      ("deviceIdentifier".toList, "vaultwarden-eso-provider".toList),
      ("deviceName".toList, "Vaultwarden ESO Provider".toList),
      ("deviceType".toList, "22".toList)] := by
  obtain ⟨request, hrequest⟩ : ∃ request, forgedClient.tokenRequest = .ok request := ⟨_, rfl⟩
  have hfields : forgedClient.apiKeyToken.fields = _ := rfl
  have hread := (token_request_is_read_back plainCrate_writesForms hrequest).1
  exact ⟨request, hrequest, hread.trans (congrArg some hfields)⟩

/-! ## Fetches, request by request -/

section Sending
variable {ω : Type}

/-- A server that answers by all that it has been sent. -/
structure Upstream (ω : Type) where
  parseJson : Bytes → Option Json
  answer : List ω → HttpAnswer

def Upstream.transport (upstream : Upstream ω) (sent : List ω) : Transport where
  parseJson := upstream.parseJson
  server := fun _ => upstream.answer sent

def Upstream.down (upstream : Upstream ω) : Transport where
  parseJson := upstream.parseJson
  server := fun _ => .failed

variable (K : KdfPrimitives) (cfg : Config) (upstream : Upstream ω) (client : BitwardenApiClient ω)

def BitwardenApiClient.loginWithApiKey (sent : List ω) :
    Except BitwardenClientError BitwardenSession × List ω :=
  match client.tokenRequest with
  | .error error => (.error (.api error), sent)
  | .ok request =>
    let sent := sent ++ [request]
    match decodeJson (upstream.transport sent) deserializeToken "token" (upstream.answer sent) with
    | .error error => (.error (.api error), sent)
    | .ok response =>
      ((unlockSession K cfg.primitives client.auth.masterPassword response).1, sent)

def BitwardenApiClient.sync (session : BitwardenSession) (sent : List ω) :
    Except BitwardenClientError SyncResponse × List ω :=
  match client.syncRequest session.accessToken with
  | .error error => (.error (.api error), sent)
  | .ok request =>
    let sent := sent ++ [request]
    ((decodeJson (upstream.transport sent) SyncDocument.deserializeSync "sync"
      (upstream.answer sent)).mapError .api, sent)

def BitwardenApiClient.fetchVault (now : ℕ) (sent : List ω) :
    Except BitwardenClientError CachedVault × List ω :=
  match client.loginWithApiKey K cfg upstream sent with
  | (.error error, sent) => (.error error, sent)
  | (.ok session, sent) =>
    match client.sync upstream session sent with
    | (.error error, sent) => (.error error, sent)
    | (.ok sync, sent) => (.ok (CachedVault.new cfg.latest session sync now), sent)

def BitwardenApiClient.account : Account where
  kdf := K
  crate := client.crate
  endpoints := client.endpoints
  masterPassword := client.auth.masterPassword

/-- The login is that of the account; a request that cannot be made is a connection that is down. -/
theorem BitwardenApiClient.loginWithApiKey_eq (sent : List ω) :
    ∃ http : Transport, (client.loginWithApiKey K cfg upstream sent).1 =
      (client.account K).login cfg.primitives http := by
  unfold BitwardenApiClient.loginWithApiKey Account.login account Client.loginWithApiKey
  cases hrequest : client.tokenRequest with
  | error error =>
    refine ⟨upstream.down, ?_⟩
    rw [tokenRequest, bind_eq_error] at hrequest
    rcases hrequest with hurl | ⟨url, hurl, hrefused⟩
    · simp only [hurl]
    · rw [HttpCrate.request_error hrefused]
      simp only [hurl]
      rfl
  | ok request =>
    refine ⟨upstream.transport (sent ++ [request]), ?_⟩
    obtain ⟨url, hurl, -⟩ := tokenRequest_eq_ok.mp hrequest
    have hanswer : (upstream.transport (sent ++ [request])).server url =
      upstream.answer (sent ++ [request]) := rfl
    simp only [hurl, hanswer]
    cases decodeJson (upstream.transport (sent ++ [request])) deserializeToken "token"
        (upstream.answer (sent ++ [request])) with
    | error error => rfl
    | ok response => rfl

theorem BitwardenApiClient.sync_eq (session : BitwardenSession) (sent : List ω) :
    ∃ http : Transport, (client.sync upstream session sent).1 = (client.account K).sync http := by
  unfold BitwardenApiClient.sync Account.sync Client.sync account
  cases hrequest : client.syncRequest session.accessToken with
  | error error =>
    refine ⟨upstream.down, ?_⟩
    rw [syncRequest, bind_eq_error] at hrequest
    rcases hrequest with hurl | ⟨url, hurl, hrefused⟩
    · simp only [hurl]
      rfl
    · rw [HttpCrate.request_error hrefused]
      simp only [hurl]
      rfl
  | ok request =>
    obtain ⟨url, hurl, -⟩ := bind_eq_ok.mp hrequest
    refine ⟨upstream.transport (sent ++ [request]), ?_⟩
    simp only [hurl]
    rfl

/-- What is said of fetches from any server is said of those that are sent request by request. -/
theorem BitwardenApiClient.fetchVault_eq (now : ℕ) (sent : List ω) :
    ∃ atLogin atSync : Transport, (client.fetchVault K cfg upstream now sent).1 =
      (client.account K).fetchVault cfg atLogin atSync now := by
  obtain ⟨atLogin, hlogin⟩ := client.loginWithApiKey_eq K cfg upstream sent
  unfold BitwardenApiClient.fetchVault Account.fetchVault
  generalize client.loginWithApiKey K cfg upstream sent = outcome at hlogin ⊢
  rcases outcome with ⟨_ | session, sent'⟩
  · refine ⟨atLogin, upstream.down, ?_⟩
    rw [← hlogin]
    rfl
  · obtain ⟨http, hsync⟩ := client.sync_eq K upstream session sent'
    refine ⟨atLogin, http, ?_⟩
    rw [← hlogin, ← hsync]
    dsimp only [bind, Except.bind]
    rcases client.sync upstream session sent' with ⟨_ | sync, sent''⟩
    · rfl
    · rfl

end Sending

/-! ## What the server learns of the master password -/

section Learning
variable {ω : Type}

def BitwardenApiClient.withPassword (client : BitwardenApiClient ω) (password : Str) :
    BitwardenApiClient ω :=
  { client with auth := { client.auth with masterPassword := password } }

variable (K : KdfPrimitives) (cfg : Config) (upstream : Upstream ω) (client : BitwardenApiClient ω)

def BitwardenApiClient.unlocked (sent : List ω) : Bool :=
  (client.loginWithApiKey K cfg upstream sent).1.isOk

/-- What is sent by fetches one after the other. A fetch that is given up ends with its login. -/
def BitwardenApiClient.sentBy : List Bool → List ω → List ω
  | [], sent => sent
  | false :: rest, sent => sentBy rest (client.fetchVault K cfg upstream 0 sent).2
  | true :: rest, sent => sentBy rest (client.loginWithApiKey K cfg upstream sent).2

/-- Which of these fetches have unlocked the user key, as far as they have gone on. -/
def BitwardenApiClient.unlockedBy : List Bool → List ω → List Bool
  | [], _ => []
  | false :: rest, sent => client.unlocked K cfg upstream sent ::
      unlockedBy rest (client.fetchVault K cfg upstream 0 sent).2
  | true :: rest, sent => unlockedBy rest (client.loginWithApiKey K cfg upstream sent).2

theorem BitwardenApiClient.withPassword_tokenRequest (password : Str) :
    (client.withPassword password).tokenRequest = client.tokenRequest := rfl

theorem BitwardenApiClient.withPassword_syncRequest (password accessToken : Str) :
    (client.withPassword password).syncRequest accessToken = client.syncRequest accessToken := rfl

theorem BitwardenApiClient.sent_login (password : Str) (sent : List ω) :
    ((client.withPassword password).loginWithApiKey K cfg upstream sent).2 =
      (client.loginWithApiKey K cfg upstream sent).2 := by
  unfold BitwardenApiClient.loginWithApiKey
  rw [withPassword_tokenRequest]
  cases client.tokenRequest with
  | error error => rfl
  | ok request =>
    dsimp only
    cases decodeJson (upstream.transport (sent ++ [request])) deserializeToken "token"
        (upstream.answer (sent ++ [request])) with
    | error error => rfl
    | ok response => rfl

theorem unlockSession_accessToken {P : Primitives} {masterPassword : Str} {response : TokenResponse}
    {session : BitwardenSession} (h : (unlockSession K P masterPassword response).1 = .ok session) :
    session.accessToken = response.accessToken := by
  unfold unlockSession at h
  split at h
  · cases h
  · split at h
    · cases h
    · obtain ⟨userKey, -, hsession⟩ := bind_eq_ok.mp h
      rw [pure_eq_ok] at hsession
      rw [← hsession]

theorem BitwardenApiClient.same_accessToken (password : Str) (sent : List ω)
    (session session' : BitwardenSession)
    (h : (client.loginWithApiKey K cfg upstream sent).1 = .ok session)
    (h' : ((client.withPassword password).loginWithApiKey K cfg upstream sent).1 = .ok session') :
    session'.accessToken = session.accessToken := by
  unfold BitwardenApiClient.loginWithApiKey at h h'
  rw [withPassword_tokenRequest] at h'
  cases hrequest : client.tokenRequest with
  | error error =>
    rw [hrequest] at h
    cases h
  | ok request =>
    rw [hrequest] at h h'
    dsimp only at h h'
    cases hresponse : decodeJson (upstream.transport (sent ++ [request])) deserializeToken "token"
        (upstream.answer (sent ++ [request])) with
    | error error =>
      rw [hresponse] at h
      cases h
    | ok response =>
      rw [hresponse] at h h'
      rw [unlockSession_accessToken K h, unlockSession_accessToken K h']

theorem BitwardenApiClient.sent_sync {password : Str} {session session' : BitwardenSession}
    (h : session'.accessToken = session.accessToken) (sent : List ω) :
    ((client.withPassword password).sync upstream session' sent).2 =
      (client.sync upstream session sent).2 := by
  unfold BitwardenApiClient.sync
  rw [withPassword_syncRequest, h]

theorem BitwardenApiClient.fetchVault_sent (now : ℕ) (sent : List ω) :
    (client.fetchVault K cfg upstream now sent).2 =
      match client.loginWithApiKey K cfg upstream sent with
      | (.error _, sent) => sent
      | (.ok session, sent) => (client.sync upstream session sent).2 := by
  unfold BitwardenApiClient.fetchVault
  rcases client.loginWithApiKey K cfg upstream sent with ⟨_ | session, sent'⟩
  · rfl
  · dsimp only
    rcases client.sync upstream session sent' with ⟨_ | sync, sent''⟩
    · rfl
    · rfl

theorem BitwardenApiClient.sent_fetch {password : Str} {sent : List ω}
    (h : (client.withPassword password).unlocked K cfg upstream sent =
      client.unlocked K cfg upstream sent) (now : ℕ) :
    ((client.withPassword password).fetchVault K cfg upstream now sent).2 =
      (client.fetchVault K cfg upstream now sent).2 := by
  have hsent := client.sent_login K cfg upstream password sent
  have htoken := client.same_accessToken K cfg upstream password sent
  rw [fetchVault_sent, fetchVault_sent]
  unfold unlocked at h
  generalize client.loginWithApiKey K cfg upstream sent = outcome at hsent htoken h ⊢
  generalize (client.withPassword password).loginWithApiKey K cfg upstream sent = outcome'
    at hsent htoken h ⊢
  rcases outcome with ⟨_ | session, after⟩
  · rcases outcome' with ⟨_ | session', after'⟩
    · exact hsent
    · cases h
  · rcases outcome' with ⟨_ | session', after'⟩
    · cases h
    · obtain rfl : after' = after := hsent
      exact client.sent_sync upstream (htoken session session' rfl rfl) after'

theorem BitwardenApiClient.sentBy_same {password : Str} (schedule : List Bool)
    (sent : List ω) (h : (client.withPassword password).unlockedBy K cfg upstream schedule
      sent = client.unlockedBy K cfg upstream schedule sent) :
    (client.withPassword password).sentBy K cfg upstream schedule sent =
      client.sentBy K cfg upstream schedule sent := by
  induction schedule generalizing sent with
  | nil => rfl
  | cons givenUp rest ih =>
    cases givenUp with
    | true =>
      rw [unlockedBy, unlockedBy, sent_login] at h
      rw [sentBy, sentBy, sent_login]
      exact ih _ h
    | false =>
      rw [unlockedBy, unlockedBy, List.cons.injEq] at h
      obtain ⟨hunlocked, hrest⟩ := h
      rw [sent_fetch K cfg upstream client hunlocked] at hrest
      rw [sentBy, sentBy, sent_fetch K cfg upstream client hunlocked]
      exact ih _ hrest

/-- A server that answers as it likes, and for as long as it likes, learns of the master
password only which of its answers it unlocks. -/
theorem requests_tell_which_answers_unlock (schedule : List Bool) (sent : List ω) :
    Function.FactorsThrough
      (fun password => (client.withPassword password).sentBy K cfg upstream schedule sent)
      (fun password => (client.withPassword password).unlockedBy K cfg upstream schedule sent) := by
  intro password password' h
  exact (client.withPassword password').sentBy_same K cfg upstream schedule sent h

end Learning

end VaultwardenEso.Client
