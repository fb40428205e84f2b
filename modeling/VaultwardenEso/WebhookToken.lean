import VaultwardenEso.Webhook

set_option autoImplicit false

/-!
# The webhook token, from the arguments to the header that carries it

Startup checks that the token is not blank, a request is matched after its header value was
read as text and split. Which tokens pass both is settled here.
-/
namespace VaultwardenEso.Provider
open RustStr RustResult BwesoCore

structure WebhookAuthArgs where
  webhookAuthToken : Option Str
  webhookAuthTokenFile : Option Str
  insecureAllowUnauthenticated : Bool

inductive WebhookAuthError where
  | valueAndFile (name : String)
  | validation (error : ValidationError)
  | read (name : String)
  | conflicting
  | unconfigured
  deriving DecidableEq

def WebhookAuthError.message : WebhookAuthError → String
  | .valueAndFile name => "configure either " ++ name ++ " or " ++ name ++ "_file, not both"
  | .validation (.emptyField field) => field ++ " must not be empty"
  | .read name => "failed to read " ++ name ++ "_file"
  | .conflicting => "configure either BWESO_WEBHOOK_AUTH_TOKEN or " ++
      "BWESO_INSECURE_ALLOW_UNAUTHENTICATED=true, not both"
  | .unconfigured => "configure BWESO_WEBHOOK_AUTH_TOKEN, or explicitly set " ++
      "BWESO_INSECURE_ALLOW_UNAUTHENTICATED=true for local tests"

/-- `contents` is what the file system answers for the path, if it is asked. -/
def readOptionalSensitiveArg (value file : Option Str) (name : String) (contents : Option Bytes) :
    Except WebhookAuthError (Option Str) :=
  match value, file with
  | some _, some _ => .error (.valueAndFile name)
  | some value, none => do
    (requireNonEmpty value name).mapError .validation
    pure (some value)
  | none, some _ =>
    match contents.bind fromUtf8 with
    | none => .error (.read name)
    | some text => do
      let resolved := trimEndMatches ['\r', '\n'] text
      (requireNonEmpty resolved name).mapError .validation
      pure (some resolved)
  | none, none => .ok none

def WebhookAuth.fromArgs (args : WebhookAuthArgs) (contents : Option Bytes) :
    Except WebhookAuthError WebhookAuth := do
  let token ← readOptionalSensitiveArg args.webhookAuthToken args.webhookAuthTokenFile
    "webhook_auth_token" contents
  match token, args.insecureAllowUnauthenticated with
  | some _, true => .error .conflicting
  | some token, false => pure (.required token)
  | none, true => pure .disabledInsecure
  | none, false => .error .unconfigured

theorem readOptionalSensitiveArg_eq_some {value file : Option Str} {name : String}
    {contents : Option Bytes} {token : Str}
    (h : readOptionalSensitiveArg value file name contents = .ok (some token)) :
    trim token ≠ [] := by
  unfold readOptionalSensitiveArg at h
  split at h
  · cases h
  · obtain ⟨_, hcheck, hpure⟩ := bind_eq_ok.mp h
    cases hpure
    exact requireNonEmpty_eq_ok.mp (mapError_eq_ok.mp hcheck)
  · split at h
    · cases h
    · obtain ⟨_, hcheck, hpure⟩ := bind_eq_ok.mp h
      cases hpure
      exact requireNonEmpty_eq_ok.mp (mapError_eq_ok.mp hcheck)
  · cases h

theorem WebhookAuth.fromArgs_required {args : WebhookAuthArgs} {contents : Option Bytes}
    {token : Str} (h : WebhookAuth.fromArgs args contents = .ok (.required token)) :
    trim token ≠ [] := by
  obtain ⟨read, hread, hmatch⟩ := bind_eq_ok.mp h
  split at hmatch
  · cases hmatch
  · cases hmatch
    exact readOptionalSensitiveArg_eq_some hread
  · cases hmatch
  · cases hmatch

/-! ## The header -/

/-- Visible ASCII, space and tab: what `HeaderValue::to_str` passes. -/
def isVisibleAscii (c : Char) : Bool := (32 ≤ c.toNat && c.toNat < 127) || c.toNat == 9

theorem isVisibleAscii_iff {c : Char} :
    isVisibleAscii c = true ↔ (32 ≤ c.toNat ∧ c.toNat < 127) ∨ c.toNat = 9 := by
  simp [isVisibleAscii]

/-- A header value is read as text when all of it is visible, and then it is that text. -/
def ReadsVisibleText (http : HttpStack) : Prop :=
  ∀ value raw, http.toStr value = some raw ↔ value = asBytes raw ∧ ∀ c ∈ raw, isVisibleAscii c = true

theorem isVisibleAscii_of_toLower {c : Char} (h : isVisibleAscii c.toLower = true) :
    isVisibleAscii c = true := by
  unfold Char.toLower at h
  split at h
  · rename_i hupper
    have hlow : 65 ≤ c.toNat := UInt32.le_iff_toNat_le.mp hupper.1
    have hhigh : c.toNat ≤ 90 := UInt32.le_iff_toNat_le.mp hupper.2
    rw [isVisibleAscii_iff]
    omega
  · exact h

def IsBearerScheme (scheme : Str) : Prop := eqIgnoreAsciiCase scheme "Bearer".toList = true

theorem IsBearerScheme.visible {scheme : Str} (h : IsBearerScheme scheme) :
    ∀ c ∈ scheme, isVisibleAscii c = true := by
  intro c hc
  have hletters : (toAsciiLowercase "Bearer".toList).all isVisibleAscii = true := by decide
  exact isVisibleAscii_of_toLower
    (List.all_eq_true.mp hletters _ (mem_toLower_of_eqIgnoreAsciiCase h hc))

theorem IsBearerScheme.no_space {scheme : Str} (h : IsBearerScheme scheme) : ' ' ∉ scheme := by
  intro hspace
  have hmem := mem_toLower_of_eqIgnoreAsciiCase h hspace
  exact absurd hmem (by decide)

def credentials (scheme token : Str) : Bytes := asBytes scheme ++ asBytes [' '] ++ asBytes token

theorem credentials_eq (scheme token : Str) :
    credentials scheme token = asBytes (scheme ++ ' ' :: token) := by
  rw [credentials, ← asBytes_append, ← asBytes_append, List.append_assoc]
  rfl

theorem isAuthorized_required_iff {http : HttpStack} (hhttp : ReadsVisibleText http) (token : Str)
    (request : Request) :
    (WebhookAuth.required token).isAuthorized http request = true ↔
      (token ≠ [] ∧ trim token = token ∧ ∀ c ∈ token, isVisibleAscii c = true) ∧
        ∃ scheme, IsBearerScheme scheme ∧ request.authorization = some (credentials scheme token) := by
  constructor
  · intro h
    unfold WebhookAuth.isAuthorized at h
    dsimp only at h
    split at h
    · cases h
    · rename_i raw hraw
      obtain ⟨value, hvalue, hread⟩ := Option.bind_eq_some_iff.mp hraw
      obtain ⟨rfl, hvisible⟩ := (hhttp value raw).mp hread
      split at h
      · cases h
      · rename_i scheme sent hsplit
        obtain ⟨rfl, -⟩ := splitOnce_eq_some hsplit
        simp only [Bool.and_eq_true, decide_eq_true_eq, beq_iff_eq] at h
        obtain ⟨⟨⟨hscheme, hne⟩, htrim⟩, hbytes⟩ := h
        obtain rfl := asBytes_injective hbytes
        refine ⟨⟨hne, htrim, ?_⟩, scheme, hscheme, ?_⟩
        · intro c hc
          exact hvisible c (List.mem_append_right scheme (List.mem_cons_of_mem ' ' hc))
        · rw [hvalue, credentials_eq]
  · rintro ⟨⟨hne, htrim, hvisible⟩, scheme, hscheme, hauthorization⟩
    have hread : http.toStr (credentials scheme token) = some (scheme ++ ' ' :: token) := by
      refine (hhttp _ _).mpr ⟨credentials_eq scheme token, ?_⟩
      intro c hc
      rcases List.mem_append.mp hc with hc | hc
      · exact hscheme.visible c hc
      · rcases List.mem_cons.mp hc with rfl | hc
        · decide
        · exact hvisible c hc
    have hscheme' : eqIgnoreAsciiCase scheme "Bearer".toList = true := hscheme
    unfold WebhookAuth.isAuthorized
    simp only [hauthorization, Option.bind_some, hread, splitOnce_append hscheme.no_space, hscheme',
      hne, htrim, ne_eq, not_false_eq_true, decide_true, BEq.rfl, Bool.and_self]

def headerToStr (value : Bytes) : Option Str :=
  let raw := value.map (fun byte => Char.ofNat byte.toNat)
  if raw.all isVisibleAscii then some raw else none

theorem isVisibleAscii_lt {c : Char} (h : isVisibleAscii c = true) : c.toNat < 128 := by
  rw [isVisibleAscii_iff] at h
  omega

theorem toNat_ofNat_byte (byte : UInt8) : (Char.ofNat byte.toNat).toNat = byte.toNat := by
  have hbyte := byte.toNat_lt
  have hvalid : byte.toNat.isValidChar := Or.inl (by omega)
  rw [Char.ofNat, dif_pos hvalid]
  rfl

theorem ofNat_toNat_ascii {c : Char} (h : c.toNat < 128) :
    Char.ofNat (UInt8.ofNat c.toNat).toNat = c := by
  have hsize : c.toNat < UInt8.size := Nat.lt_trans h (by decide)
  rw [UInt8.toNat_ofNat_of_lt' hsize, Char.ofNat_toNat]

theorem headerToStr_readsVisibleText (parseJson : Bytes → Option Serde.Json) :
    ReadsVisibleText ⟨headerToStr, parseJson⟩ := by
  intro value raw
  simp only [headerToStr, Option.ite_none_right_eq_some, Option.some.injEq, List.all_eq_true]
  constructor
  · rintro ⟨hvisible, rfl⟩
    refine ⟨?_, hvisible⟩
    rw [asBytes_ascii (fun c hc => isVisibleAscii_lt (hvisible c hc)), List.map_map]
    refine (List.map_id'' ?_ value).symm
    intro byte
    simp only [Function.comp_apply, toNat_ofNat_byte, UInt8.ofNat_toNat]
  · rintro ⟨rfl, hvisible⟩
    have hraw : (asBytes raw).map (fun byte => Char.ofNat byte.toNat) = raw := by
      rw [asBytes_ascii (fun c hc => isVisibleAscii_lt (hvisible c hc)), List.map_map]
      conv_rhs => rw [← List.map_id raw]
      refine List.map_congr_left ?_
      intro c hc
      exact ofNat_toNat_ascii (isVisibleAscii_lt (hvisible c hc))
    rw [hraw]
    exact ⟨hvisible, rfl⟩

def bearerRequest (token : Str) : Request := ⟨some (credentials "Bearer".toList token), none, none⟩

theorem accepted_token_is_the_only_one_that_works {http : HttpStack} (hhttp : ReadsVisibleText http)
    {args : WebhookAuthArgs} {contents : Option Bytes} {token : Str}
    (haccepted : WebhookAuth.fromArgs args contents = .ok (.required token)) :
    ((∀ request : Request, (WebhookAuth.required token).isAuthorized http request = true ↔
          ∃ scheme, IsBearerScheme scheme ∧
            request.authorization = some (credentials scheme token)) ∧
        (WebhookAuth.required token).isAuthorized http (bearerRequest token) = true) ↔
      trim token = token ∧ ∀ c ∈ token, isVisibleAscii c = true := by
  have hne : token ≠ [] := by
    intro hnil
    rw [hnil] at haccepted
    exact WebhookAuth.fromArgs_required haccepted rfl
  constructor
  · rintro ⟨-, hbearer⟩
    obtain ⟨⟨-, htrim, hvisible⟩, -⟩ := (isAuthorized_required_iff hhttp token _).mp hbearer
    exact ⟨htrim, hvisible⟩
  · rintro ⟨htrim, hvisible⟩
    have hiff : ∀ request : Request, (WebhookAuth.required token).isAuthorized http request = true ↔
        ∃ scheme, IsBearerScheme scheme ∧
          request.authorization = some (credentials scheme token) := by
      intro request
      rw [isAuthorized_required_iff hhttp]
      exact and_iff_right ⟨hne, htrim, hvisible⟩
    exact ⟨hiff, (hiff _).mpr ⟨"Bearer".toList, by unfold IsBearerScheme; decide, rfl⟩⟩

def tokenArgs (token : String) : WebhookAuthArgs := ⟨some token.toList, none, false⟩

def plainHttp : HttpStack := ⟨headerToStr, fun _ => none⟩

theorem plain_token_works :
    (∀ request : Request,
        (WebhookAuth.required "expected-webhook-token".toList).isAuthorized plainHttp request = true ↔
          ∃ scheme, IsBearerScheme scheme ∧
            request.authorization = some (credentials scheme "expected-webhook-token".toList)) ∧
      (WebhookAuth.required "expected-webhook-token".toList).isAuthorized plainHttp
        (bearerRequest "expected-webhook-token".toList) = true :=
  (accepted_token_is_the_only_one_that_works (headerToStr_readsVisibleText _)
    (by rfl : WebhookAuth.fromArgs (tokenArgs "expected-webhook-token") none = .ok (.required _))).mpr
    ⟨by decide, List.all_eq_true.mp (by decide)⟩

/-- A space after the token passes the startup check, and no request passes afterwards. -/
theorem padded_token_never_works :
    ¬ ∀ (http : HttpStack) (args : WebhookAuthArgs) (contents : Option Bytes) (token : Str),
      ReadsVisibleText http → WebhookAuth.fromArgs args contents = .ok (.required token) →
        (∀ request : Request, (WebhookAuth.required token).isAuthorized http request = true ↔
          ∃ scheme, IsBearerScheme scheme ∧
            request.authorization = some (credentials scheme token)) ∧
        (WebhookAuth.required token).isAuthorized http (bearerRequest token) = true := by
  intro h
  have hpadded := h plainHttp (tokenArgs "webhook-token ") none "webhook-token ".toList
    (headerToStr_readsVisibleText _) rfl
  exact absurd hpadded.2 (by decide)

end VaultwardenEso.Provider
