import VaultwardenEso.Client
import VaultwardenEso.Lib.Url

set_option autoImplicit false

/-! # Endpoints and the URLs of requests: `lib.rs`, `api.rs` -/
namespace VaultwardenEso.Client
open RustStr RustResult RustUrl BwesoCore

structure BitwardenEndpoint where
  baseUrl : Url
  deriving DecidableEq

structure BitwardenEndpoints where
  identityUrl : Url
  apiUrl : Url
  deriving DecidableEq

section Crate
variable (crate : UrlCrate)

def BitwardenEndpoint.parseNamed (raw : Str) (fieldName : String) :
    Except BitwardenClientError BitwardenEndpoint := do
  (requireNonEmpty raw fieldName).mapError .validation
  match crate.parse raw with
  | none => .error .invalidEndpoint
  | some baseUrl =>
    let host := baseUrl.hostStr.getD []
    let isLocalhost := host = "localhost".toList ∨ host = "127.0.0.1".toList ∨ host = "::1".toList
    if baseUrl.scheme ≠ "https".toList ∧ ¬ (baseUrl.scheme = "http".toList ∧ isLocalhost) then
      .error .insecureEndpoint
    else pure ⟨baseUrl⟩

def BitwardenEndpoint.parse (raw : Str) : Except BitwardenClientError BitwardenEndpoint :=
  BitwardenEndpoint.parseNamed crate raw "single_origin_url"

def trimSegment (segment : Str) : Str := trimSlashes (segment.dropWhile (· = '/'))

def appendPathSegments (baseUrl : Url) (segments : List Str) : Url :=
  let url := (baseUrl.setQuery none).setFragment none
  let path := segments.foldl (fun path segment => path ++ '/' :: trimSegment segment)
    (trimSlashes url.path)
  crate.setPath url path

def normalizeEndpointBase (baseUrl : Url) : Url := appendPathSegments crate baseUrl []

def BitwardenEndpoints.fromSingleOrigin (endpoint : BitwardenEndpoint) : BitwardenEndpoints where
  identityUrl := appendPathSegments crate endpoint.baseUrl ["identity".toList]
  apiUrl := appendPathSegments crate endpoint.baseUrl ["api".toList]

def BitwardenEndpoints.parseSplit (identityUrl apiUrl : Str) :
    Except BitwardenClientError BitwardenEndpoints := do
  let identity ← BitwardenEndpoint.parseNamed crate identityUrl "identity_url"
  let api ← BitwardenEndpoint.parseNamed crate apiUrl "api_url"
  pure ⟨normalizeEndpointBase crate identity.baseUrl, normalizeEndpointBase crate api.baseUrl⟩

def endpointUrl (baseUrl : Url) (segments : List Str) : Except BitwardenApiError Url :=
  let url := (baseUrl.setQuery none).setFragment none
  if url.cannotBeABase then .error .invalidBaseUrl
  else .ok { url with path := segments.foldl crate.push (popIfEmpty url.path) }

def tokenUrl (endpoints : BitwardenEndpoints) : Except BitwardenApiError Url :=
  endpointUrl crate endpoints.identityUrl ["connect".toList, "token".toList]

def preloginUrl (endpoints : BitwardenEndpoints) : Except BitwardenApiError Url :=
  endpointUrl crate endpoints.identityUrl ["accounts".toList, "prelogin".toList, "password".toList]

def syncUrl (endpoints : BitwardenEndpoints) : Except BitwardenApiError Url := do
  let url ← endpointUrl crate endpoints.apiUrl ["sync".toList]
  pure (url.appendPair "excludeDomains".toList "true".toList)

end Crate

/-! ## Acceptance -/

/-- The host that `http` is allowed for, as the code compares it. -/
def IsLocalhost (url : Url) : Prop :=
  url.hostStr.getD [] = "localhost".toList ∨ url.hostStr.getD [] = "127.0.0.1".toList ∨
    url.hostStr.getD [] = "::1".toList

theorem BitwardenEndpoint.parseNamed_eq_ok {crate : UrlCrate} {raw : Str} {fieldName : String}
    {endpoint : BitwardenEndpoint} :
    BitwardenEndpoint.parseNamed crate raw fieldName = .ok endpoint ↔
      trim raw ≠ [] ∧ crate.parse raw = some endpoint.baseUrl ∧
        (endpoint.baseUrl.scheme = "https".toList ∨
          endpoint.baseUrl.scheme = "http".toList ∧ IsLocalhost endpoint.baseUrl) := by
  unfold BitwardenEndpoint.parseNamed
  rw [bind_eq_ok]
  simp only [mapError_eq_ok]
  cases crate.parse raw with
  | none => simp
  | some baseUrl =>
    dsimp only
    split
    · rename_i hrefused
      constructor
      · rintro ⟨-, -, h⟩
        cases h
      · rintro ⟨-, hurl, haccepted⟩
        cases hurl
        rcases haccepted with hhttps | hhttp
        · exact absurd hhttps hrefused.1
        · exact absurd hhttp hrefused.2
    · rename_i haccepted
      constructor
      · rintro ⟨_, hne, h⟩
        rw [pure_eq_ok] at h
        subst h
        exact ⟨requireNonEmpty_eq_ok.mp hne, rfl, or_iff_not_and_not.mpr haccepted⟩
      · rintro ⟨hne, hurl, -⟩
        cases hurl
        exact ⟨(), requireNonEmpty_eq_ok.mpr hne, rfl⟩

/-- The hosts of the machine itself. -/
def IsLoopback (host : Host) : Prop :=
  (∃ name, host = .domain name ∧ name.text = "localhost".toList) ∨ host = .ipv4 127 0 0 1 ∨
    host = .ipv6 #v[0, 0, 0, 0, 0, 0, 0, 1]

/-- The comparison with `::1` never holds: an IPv6 host is serialized in brackets. -/
theorem isLocalhost_iff {url : Url} :
    IsLocalhost url ↔ ∃ host, url.host = some host ∧
      ((∃ name, host = .domain name ∧ name.text = "localhost".toList) ∨ host = .ipv4 127 0 0 1) := by
  unfold IsLocalhost Url.hostStr
  cases url.host with
  | none => simp
  | some host =>
    have hname : host.text = "localhost".toList ↔
        ∃ name, host = .domain name ∧ name.text = "localhost".toList :=
      Host.text_eq_domain (c := 'l') (by decide) (by decide) (by decide)
    have hipv4 : host.text = "127.0.0.1".toList ↔ host = .ipv4 127 0 0 1 := by
      rw [show "127.0.0.1".toList = ipv4Text 127 0 0 1 by decide]
      exact Host.text_eq_ipv4
    have hipv6 : host.text ≠ "::1".toList := Host.text_ne_of_colon (by decide) (by decide)
    rw [Option.map_some, Option.getD_some, hname, hipv4]
    simp only [hipv6, or_false, Option.some.injEq, exists_eq_left']

theorem BitwardenEndpoint.parse_isOk {crate : UrlCrate} {raw : Str} {url : Url}
    (hne : trim raw ≠ []) (hurl : crate.parse raw = some url) (fieldName : String) :
    (∃ endpoint, BitwardenEndpoint.parseNamed crate raw fieldName = .ok endpoint) ↔
      url.scheme = "https".toList ∨ url.scheme = "http".toList ∧ IsLocalhost url := by
  simp only [BitwardenEndpoint.parseNamed_eq_ok, hurl, Option.some.injEq]
  constructor
  · rintro ⟨endpoint, -, rfl, haccepted⟩
    exact haccepted
  · intro haccepted
    exact ⟨⟨url⟩, hne, rfl, haccepted⟩

theorem BitwardenEndpoints.parseSplit_isOk (crate : UrlCrate) (identity api : Str) :
    (∃ endpoints, BitwardenEndpoints.parseSplit crate identity api = .ok endpoints) ↔
      (∃ endpoint, BitwardenEndpoint.parse crate identity = .ok endpoint) ∧
        ∃ endpoint, BitwardenEndpoint.parse crate api = .ok endpoint := by
  have hname : ∀ raw fieldName,
      (∃ endpoint, BitwardenEndpoint.parse crate raw = .ok endpoint) ↔
        ∃ endpoint, BitwardenEndpoint.parseNamed crate raw fieldName = .ok endpoint := by
    intro raw fieldName
    simp only [BitwardenEndpoint.parse, BitwardenEndpoint.parseNamed_eq_ok]
  rw [hname identity "identity_url", hname api "api_url"]
  constructor
  · rintro ⟨endpoints, h⟩
    obtain ⟨identity, hidentity, h⟩ := bind_eq_ok.mp h
    obtain ⟨api, hapi, -⟩ := bind_eq_ok.mp h
    exact ⟨⟨identity, hidentity⟩, api, hapi⟩
  · rintro ⟨⟨identity, hidentity⟩, api, hapi⟩
    exact ⟨_, bind_eq_ok.mpr ⟨identity, hidentity, bind_eq_ok.mpr ⟨api, hapi, rfl⟩⟩⟩

/-- Exactly the hosts of the machine itself may be reached over `http`, the IPv6 address
    excepted. -/
theorem endpoint_acceptance_iff (crate : UrlCrate) (raw : Str) (url : Url) (hne : trim raw ≠ [])
    (hurl : crate.parse raw = some url) :
    (((∃ endpoint, BitwardenEndpoint.parse crate raw = .ok endpoint) ↔
        url.scheme = "https".toList ∨ url.scheme = "http".toList ∧
          ∃ host, url.host = some host ∧ IsLoopback host) ↔
      ¬ (url.scheme = "http".toList ∧ url.host = some (.ipv6 #v[0, 0, 0, 0, 0, 0, 0, 1]))) ∧
    ∀ identity api,
      (∃ endpoints, BitwardenEndpoints.parseSplit crate identity api = .ok endpoints) ↔
        (∃ endpoint, BitwardenEndpoint.parse crate identity = .ok endpoint) ∧
          ∃ endpoint, BitwardenEndpoint.parse crate api = .ok endpoint := by
  refine ⟨?_, BitwardenEndpoints.parseSplit_isOk crate⟩
  rw [BitwardenEndpoint.parse, BitwardenEndpoint.parse_isOk hne hurl, isLocalhost_iff]
  constructor
  · rintro hagrees ⟨hhttp, hhost⟩
    have hloopback := hagrees.mpr (.inr ⟨hhttp, _, hhost, .inr (.inr rfl)⟩)
    rcases hloopback with hhttps | ⟨-, host, hhost', hname⟩
    · rw [hhttp] at hhttps
      exact absurd hhttps (by decide)
    · rw [hhost] at hhost'
      cases hhost'
      rcases hname with ⟨name, hname, -⟩ | hname
      · cases hname
      · cases hname
  · intro hother
    refine or_congr_right (and_congr_right fun hhttp => exists_congr fun host =>
      and_congr_right fun hhost => ?_)
    constructor
    · exact Or.imp_right .inl
    · rintro (hname | hipv4 | rfl)
      · exact .inl hname
      · exact .inr hipv4
      · exact absurd ⟨hhttp, hhost⟩ hother

def plainUrl (scheme : String) (host : Host) (port : Option UInt16) : Url :=
  ⟨scheme.toList, [], none, some host, port, ['/'], none, none⟩

def isPathChar (c : Char) : Bool :=
  0x20 < c.toNat && c.toNat < 0x7F && !"\"#<>?`\x7b\x7d\\^".toList.contains c

/-- A crate that knows the given texts only. -/
def crateFor (table : List (String × Url)) : UrlCrate where
  parse := fun raw => (table.find? (fun entry => entry.1.toList = raw)).map (·.2)
  normalizePath := fun path => if path = [] then ['/'] else path
  encodeSegment := id
  pathChar := isPathChar

def ipv4Crate : UrlCrate :=
  crateFor [("http://127.0.0.1:8080", plainUrl "http" (.ipv4 127 0 0 1) (some 8080))]

theorem ipv4_loopback_is_accepted :
    (∃ endpoint, BitwardenEndpoint.parse ipv4Crate "http://127.0.0.1:8080".toList = .ok endpoint) ↔
      "http".toList = "https".toList ∨ "http".toList = "http".toList ∧
        ∃ host, some (Host.ipv4 127 0 0 1) = some host ∧ IsLoopback host :=
  (endpoint_acceptance_iff ipv4Crate "http://127.0.0.1:8080".toList
    (plainUrl "http" (.ipv4 127 0 0 1) (some 8080)) (by decide) (by decide)).1.mpr (by decide)

def ipv6Crate : UrlCrate :=
  crateFor [("http://[::1]:8080",
    plainUrl "http" (.ipv6 #v[0, 0, 0, 0, 0, 0, 0, 1]) (some 8080))]

theorem ipv6_loopback_is_refused :
    ¬ ∀ (raw : Str) (url : Url), trim raw ≠ [] → ipv6Crate.parse raw = some url →
      ((∃ endpoint, BitwardenEndpoint.parse ipv6Crate raw = .ok endpoint) ↔
        url.scheme = "https".toList ∨ url.scheme = "http".toList ∧
          ∃ host, url.host = some host ∧ IsLoopback host) := by
  intro h
  have hagrees := h "http://[::1]:8080".toList
    (plainUrl "http" (.ipv6 #v[0, 0, 0, 0, 0, 0, 0, 1]) (some 8080)) (by decide) (by decide)
  obtain ⟨endpoint, hendpoint⟩ := hagrees.mpr (.inr ⟨rfl, _, rfl, .inr (.inr rfl)⟩)
  have hrefused : BitwardenEndpoint.parse ipv6Crate "http://[::1]:8080".toList =
      .error .insecureEndpoint := by decide
  rw [hrefused] at hendpoint
  cases hendpoint

/-! ## The URLs of requests -/

def withPath (baseUrl : Url) (path : Str) : Url :=
  { baseUrl with path := path, query := none, fragment := none }

def requestUrl (baseUrl : Url) (rest : String) : Url :=
  withPath baseUrl (trimSlashes baseUrl.path ++ rest.toList)

section Requests
variable {crate : UrlCrate}

theorem trimSegment_plain {segment : Str} (h : Plain segment) : trimSegment segment = segment := by
  have hstart : segment.dropWhile (· = '/') = segment := by
    obtain ⟨c, rest, rfl⟩ := List.exists_cons_of_ne_nil h.1
    rw [List.dropWhile_cons_of_neg]
    simpa using (List.ne_of_not_mem_cons h.slash_not_mem).symm
  rw [trimSegment, hstart]
  apply trimSlashes_eq_self
  intro hlast
  exact h.slash_not_mem (List.mem_of_getLast? hlast)

theorem appendPathSegments_plain (h : crate.Standard) {baseUrl : Url}
    (hpath : crate.NormalPath baseUrl.path) {segment : Str} (hplain : Plain segment) :
    appendPathSegments crate baseUrl [segment] =
      withPath baseUrl (trimSlashes baseUrl.path ++ '/' :: segment) := by
  unfold appendPathSegments UrlCrate.setPath
  dsimp only [Url.setQuery, Url.setFragment, List.foldl_cons, List.foldl_nil]
  rw [trimSegment_plain hplain, h.normalize_normal _ (NormalPath.append h hpath hplain)]
  rfl

theorem normalizeEndpointBase_eq (h : crate.Standard) {baseUrl : Url}
    (hpath : crate.NormalPath baseUrl.path) :
    ∃ path, normalizeEndpointBase crate baseUrl = withPath baseUrl path ∧
      path.head? = some '/' ∧ (path = ['/'] ∨ path.getLast? ≠ some '/') ∧
      trimSlashes path = trimSlashes baseUrl.path := by
  unfold normalizeEndpointBase appendPathSegments UrlCrate.setPath
  dsimp only [Url.setQuery, Url.setFragment, List.foldl_nil]
  rcases NormalPath.trimSlashes h.pathChar_slash hpath with hnil | hnormal
  · refine ⟨['/'], ?_, rfl, .inl rfl, ?_⟩
    · rw [hnil, h.normalize_nil]
      rfl
    · rw [hnil]
      rfl
  · refine ⟨trimSlashes baseUrl.path, ?_, hnormal.1, .inr (trimSlashes_getLast? _),
      trimSlashes_trimSlashes _⟩
    rw [h.normalize_normal _ hnormal]
    rfl

theorem endpointUrl_eq (h : crate.Standard) {baseUrl : Url} {path : Str}
    (hhead : path.head? = some '/') (hlast : path = ['/'] ∨ path.getLast? ≠ some '/')
    {segments : List Str} (hne : segments ≠ []) (hplain : ∀ segment ∈ segments, Plain segment) :
    endpointUrl crate (withPath baseUrl path) segments =
      .ok (withPath baseUrl (trimSlashes path ++ joinSegments segments)) := by
  unfold endpointUrl
  dsimp only [Url.setQuery, Url.setFragment]
  rw [← push_popIfEmpty h hne hplain hhead hlast]
  exact if_neg (by simp [Url.cannotBeABase, withPath, hhead])

theorem endpointUrl_singleOrigin (h : crate.Standard) {baseUrl : Url}
    (hpath : crate.NormalPath baseUrl.path) {segment : Str} (hsegment : Plain segment)
    {segments : List Str} (hne : segments ≠ []) (hplain : ∀ segment ∈ segments, Plain segment) :
    endpointUrl crate (appendPathSegments crate baseUrl [segment]) segments =
      .ok (withPath baseUrl (trimSlashes baseUrl.path ++ joinSegments (segment :: segments))) := by
  have hnormal := NormalPath.append h hpath hsegment
  rw [appendPathSegments_plain h hpath hsegment,
    endpointUrl_eq h hnormal.1 (.inr (hsegment.getLast? _)) hne hplain,
    trimSlashes_eq_self (hsegment.getLast? _)]
  simp [joinSegments]

theorem endpointUrl_split (h : crate.Standard) {baseUrl : Url}
    (hpath : crate.NormalPath baseUrl.path) {segments : List Str} (hne : segments ≠ [])
    (hplain : ∀ segment ∈ segments, Plain segment) :
    endpointUrl crate (normalizeEndpointBase crate baseUrl) segments =
      .ok (withPath baseUrl (trimSlashes baseUrl.path ++ joinSegments segments)) := by
  obtain ⟨path, hbase, hhead, hlast, htrim⟩ := normalizeEndpointBase_eq h hpath
  rw [hbase, endpointUrl_eq h hhead hlast hne hplain, htrim]

theorem BitwardenEndpoint.parseNamed_path (h : crate.Standard) {raw : Str} {fieldName : String}
    {endpoint : BitwardenEndpoint}
    (hparse : BitwardenEndpoint.parseNamed crate raw fieldName = .ok endpoint) :
    crate.parse raw = some endpoint.baseUrl ∧ crate.NormalPath endpoint.baseUrl.path := by
  obtain ⟨-, hurl, haccepted⟩ := BitwardenEndpoint.parseNamed_eq_ok.mp hparse
  refine ⟨hurl, h.parse_path raw _ hurl ?_⟩
  rcases haccepted with hhttps | hhttp
  · exact .inr hhttps
  · exact .inl hhttp.1

/-- Requests go to the origin of the base, whatever ends its path. -/
theorem request_urls_stay_on_origin (crate : UrlCrate) (h : crate.Standard) :
    (∀ raw endpoint, BitwardenEndpoint.parse crate raw = .ok endpoint →
      crate.parse raw = some endpoint.baseUrl ∧
      tokenUrl crate (.fromSingleOrigin crate endpoint) =
        .ok (requestUrl endpoint.baseUrl "/identity/connect/token") ∧
      preloginUrl crate (.fromSingleOrigin crate endpoint) =
        .ok (requestUrl endpoint.baseUrl "/identity/accounts/prelogin/password") ∧
      syncUrl crate (.fromSingleOrigin crate endpoint) =
        .ok ((requestUrl endpoint.baseUrl "/api/sync").setQuery
          (some "excludeDomains=true".toList))) ∧
    (∀ identity api endpoints, BitwardenEndpoints.parseSplit crate identity api = .ok endpoints →
      ∃ identityUrl apiUrl, crate.parse identity = some identityUrl ∧
        crate.parse api = some apiUrl ∧
        tokenUrl crate endpoints = .ok (requestUrl identityUrl "/connect/token") ∧
        preloginUrl crate endpoints =
          .ok (requestUrl identityUrl "/accounts/prelogin/password") ∧
        syncUrl crate endpoints =
          .ok ((requestUrl apiUrl "/sync").setQuery (some "excludeDomains=true".toList))) ∧
    ∀ (baseUrl : Url) n query fragment rest,
      requestUrl { baseUrl with
          path := baseUrl.path ++ List.replicate n '/', query := query, fragment := fragment } rest =
        requestUrl baseUrl rest := by
  refine ⟨?_, ?_, ?_⟩
  · intro raw endpoint hparse
    obtain ⟨hurl, hpath⟩ := BitwardenEndpoint.parseNamed_path h hparse
    refine ⟨hurl, ?_, ?_, ?_⟩
    · exact endpointUrl_singleOrigin h hpath (by decide) (by decide) (by decide)
    · exact endpointUrl_singleOrigin h hpath (by decide) (by decide) (by decide)
    · have hsync : endpointUrl crate (appendPathSegments crate endpoint.baseUrl ["api".toList])
          ["sync".toList] = .ok (requestUrl endpoint.baseUrl "/api/sync") :=
        endpointUrl_singleOrigin h hpath (by decide) (by decide) (by decide)
      exact bind_eq_ok.mpr ⟨_, hsync, rfl⟩
  · intro identity api endpoints hparse
    obtain ⟨identityEndpoint, hidentity, hparse⟩ := bind_eq_ok.mp hparse
    obtain ⟨apiEndpoint, hapi, hparse⟩ := bind_eq_ok.mp hparse
    rw [pure_eq_ok] at hparse
    subst hparse
    obtain ⟨hidentityUrl, hidentityPath⟩ := BitwardenEndpoint.parseNamed_path h hidentity
    obtain ⟨hapiUrl, hapiPath⟩ := BitwardenEndpoint.parseNamed_path h hapi
    refine ⟨_, _, hidentityUrl, hapiUrl, ?_, ?_, ?_⟩
    · exact endpointUrl_split h hidentityPath (by decide) (by decide)
    · exact endpointUrl_split h hidentityPath (by decide) (by decide)
    · have hsync : endpointUrl crate (normalizeEndpointBase crate apiEndpoint.baseUrl)
          ["sync".toList] = .ok (requestUrl apiEndpoint.baseUrl "/sync") :=
        endpointUrl_split h hapiPath (by decide) (by decide)
      exact bind_eq_ok.mpr ⟨_, hsync, rfl⟩
  · intro baseUrl n query fragment rest
    rw [requestUrl, requestUrl, trimSlashes_append_replicate]
    rfl

end Requests

theorem isPathChar_of_isLower {c : Char} (h : c.isLower = true) : isPathChar c = true := by
  have hall : ∀ m : Fin 26, isPathChar (Char.ofNat (m.val + 97)) = true := by decide
  have hrange : 97 ≤ c.toNat ∧ c.toNat ≤ 122 := by
    obtain ⟨hlow, hhigh⟩ := (Bool.and_eq_true _ _).mp h
    exact ⟨UInt32.le_iff_toNat_le.mp (of_decide_eq_true hlow),
      UInt32.le_iff_toNat_le.mp (of_decide_eq_true hhigh)⟩
  have hc := hall ⟨c.toNat - 97, by omega⟩
  rwa [Nat.sub_add_cancel hrange.1, Char.ofNat_toNat] at hc

theorem crateFor_standard {table : List (String × Url)}
    (h : ∀ entry ∈ table, (crateFor table).NormalPath entry.2.path) : (crateFor table).Standard where
  parse_path := by
    intro raw url hurl _
    obtain ⟨entry, hentry, rfl⟩ := Option.map_eq_some_iff.mp hurl
    exact h entry (List.mem_of_find?_eq_some hentry)
  normalize_normal := by
    rintro path ⟨hhead, -⟩
    refine if_neg ?_
    rintro rfl
    cases hhead
  normalize_nil := rfl
  encode_plain := fun _ _ => rfl
  pathChar_slash := show isPathChar '/' = true by decide
  pathChar_lower := fun _ => isPathChar_of_isLower

def vaultUrl : Url where
  scheme := "https".toList
  username := []
  password := none
  host := some (.domain ⟨"vault.example.test".toList, by decide, by
    have hall : "vault.example.test".toList.all (fun c => c ∉ ":/?#[]@".toList) = true := by decide
    intro c hc
    exact of_decide_eq_true (List.all_eq_true.mp hall c hc), by
    intro a b c d h
    have hv : 'v' ∈ ipv4Text a b c d := h ▸ (by decide)
    exact absurd (mem_ipv4Text hv) (by decide)⟩)
  port := none
  path := "/base/".toList
  query := none
  fragment := none

def vaultCrate : UrlCrate := crateFor [("https://vault.example.test/base/", vaultUrl)]

theorem vault_requests_stay_on_origin :
    ∃ endpoint, BitwardenEndpoint.parse vaultCrate "https://vault.example.test/base/".toList =
        .ok endpoint ∧
      tokenUrl vaultCrate (.fromSingleOrigin vaultCrate endpoint) =
        .ok (withPath vaultUrl "/base/identity/connect/token".toList) := by
  have hstandard : vaultCrate.Standard := crateFor_standard (by decide)
  have hparse : BitwardenEndpoint.parse vaultCrate "https://vault.example.test/base/".toList =
      .ok ⟨vaultUrl⟩ := by decide
  obtain ⟨-, htoken, -⟩ := (request_urls_stay_on_origin vaultCrate hstandard).1 _ _ hparse
  exact ⟨_, hparse, htoken⟩

end VaultwardenEso.Client
