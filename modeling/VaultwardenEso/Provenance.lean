import VaultwardenEso.SequentialHandler
import VaultwardenEso.Unlock

set_option autoImplicit false

/-!
# Where a served value comes from

Nothing the server of the vault says is believed without a tag. What reaches a response is the
plaintext of an authentic string, under a key from an authentic string, up to the key that is
stretched from the master password.
-/
namespace VaultwardenEso.Cipher
open RustStr RustResult Crypto

section Values
variable {R : Str → Str → Prop} {value : Str}

theorem LoginRel.values {e : EncryptedLogin} {d : DecryptedLogin} (h : LoginRel R e d)
    (hv : value ∈ d.values) : ∃ text ∈ e.strings, R text value := by
  simp only [DecryptedLogin.values, List.mem_append] at hv
  simp only [EncryptedLogin.strings, List.mem_append]
  rcases hv with (hv | hv) | hv
  · obtain ⟨text, htext, hr⟩ := optionRel_mem_right h.username hv
    exact ⟨text, .inl (.inl htext), hr⟩
  · obtain ⟨text, htext, hr⟩ := optionRel_mem_right h.password hv
    exact ⟨text, .inl (.inr htext), hr⟩
  · obtain ⟨text, htext, hr⟩ := optionRel_mem_right h.totp hv
    exact ⟨text, .inr htext, hr⟩

theorem SshKeyRel.values {e : EncryptedSshKey} {d : DecryptedSshKey} (h : SshKeyRel R e d)
    (hv : value ∈ d.values) : ∃ text ∈ e.strings, R text value := by
  simp only [DecryptedSshKey.values, List.mem_append] at hv
  simp only [EncryptedSshKey.strings, List.mem_append]
  rcases hv with (hv | hv) | hv
  · obtain ⟨text, htext, hr⟩ := optionRel_mem_right h.privateKey hv
    exact ⟨text, .inl (.inl htext), hr⟩
  · obtain ⟨text, htext, hr⟩ := optionRel_mem_right h.publicKey hv
    exact ⟨text, .inl (.inr htext), hr⟩
  · obtain ⟨text, htext, hr⟩ := optionRel_mem_right h.keyFingerprint hv
    exact ⟨text, .inr htext, hr⟩

theorem ItemRel.values {e : EncryptedCipher} {d : DecryptedCipher} (h : ItemRel R e d)
    (hv : value ∈ d.values) : ∃ text ∈ e.strings, R text value := by
  simp only [DecryptedCipher.values, List.mem_append, List.mem_flatMap] at hv
  simp only [EncryptedCipher.strings, List.mem_append, List.mem_flatMap]
  rcases hv with (((hv | hv) | ⟨login, hlogin, hv⟩) | ⟨sshKey, hsshKey, hv⟩) | ⟨field, hfield, hv⟩
  · obtain ⟨text, htext, hr⟩ := optionRel_mem_right h.name hv
    exact ⟨text, .inl (.inl (.inl (.inl htext))), hr⟩
  · obtain ⟨text, htext, hr⟩ := optionRel_mem_right h.notes hv
    exact ⟨text, .inl (.inl (.inl (.inr htext))), hr⟩
  · obtain ⟨login', hlogin', hrel⟩ := optionRel_mem_right h.login hlogin
    obtain ⟨text, htext, hr⟩ := hrel.values hv
    exact ⟨text, .inl (.inr ⟨login', hlogin', htext⟩), hr⟩
  · obtain ⟨sshKey', hsshKey', hrel⟩ := optionRel_mem_right h.sshKey hsshKey
    obtain ⟨text, htext, hr⟩ := hrel.values hv
    exact ⟨text, .inr ⟨sshKey', hsshKey', htext⟩, hr⟩
  · obtain ⟨field', hfield', hrel⟩ := forall₂_mem_right h.fields hfield
    obtain ⟨text, htext, hr⟩ := optionRel_mem_right hrel.value hv
    have hstring : text ∈ field'.strings := List.mem_append_right _ htext
    exact ⟨text, .inl (.inl (.inr ⟨field', hfield', hstring⟩)), hr⟩

end Values

/-- `value` is what an authentic string of the item says, under the key that the item selects. -/
def Vouched (P : Primitives) (userKey : AuthenticatedSymmetricKey) (cipher : EncryptedCipher)
    (value : Str) : Prop :=
  ∃ selected, SelectsKey P cipher userKey selected ∧ ∃ text ∈ cipher.strings,
    AuthenticString P selected text ∧ Opens P selected text value

theorem vouched_of_decrypt {P : Primitives} {userKey : AuthenticatedSymmetricKey}
    {cipher : EncryptedCipher} {plain : DecryptedCipher} {value : Str}
    (h : cipher.decrypt P userKey = .ok plain) (hv : value ∈ plain.values) :
    Vouched P userKey cipher value := by
  obtain ⟨selected, hkey, hrel⟩ := (EncryptedCipher.decrypt_eq_ok P).mp h
  obtain ⟨text, htext, hopens⟩ := hrel.values hv
  exact ⟨selected, decryptionKey_eq_ok.mp hkey, text, htext, hopens.authentic, hopens⟩

end VaultwardenEso.Cipher

namespace VaultwardenEso.Client
open RustStr RustResult BwesoCore Crypto Cipher Serde

theorem resolveCached_vouched {P : Primitives} {cached : CachedVault} {selector : BitwardenSelector}
    {document : SecretDocument} (h : resolveCached P cached selector = .ok document) {key value : Str}
    (hvalue : document.data[key]? = some value) :
    ∃ cipher ∈ cached.sync.ciphers, cipher.organizationId = none ∧
      Vouched P cached.session.userKey cipher value := by
  obtain ⟨cipher, hmem, plain, horg, hdecrypt, -, hdata, -⟩ := resolveCached_confined h
  exact ⟨cipher, hmem, horg, vouched_of_decrypt hdecrypt (hdata key value hvalue)⟩

theorem fetchVault_eq_ok {account : Account} {cfg : Config} {atLogin atSync : Transport} {now : ℕ}
    {cached : CachedVault} (h : account.fetchVault cfg atLogin atSync now = .ok cached) :
    account.login cfg.primitives atLogin = .ok cached.session ∧
      account.sync atSync = .ok cached.sync := by
  obtain ⟨session, hlogin, h⟩ := bind_eq_ok.mp h
  obtain ⟨sync, hsync, h⟩ := bind_eq_ok.mp h
  rw [pure_eq_ok] at h
  subst h
  exact ⟨hlogin, hsync⟩

/-- The user key is in an authentic string of a login answer, under the stretched password. -/
def Account.Unlocks (account : Account) (P : Primitives) (http : Transport)
    (userKey : AuthenticatedSymmetricKey) : Prop :=
  ∃ url response unlock, tokenUrl account.crate account.endpoints = .ok url ∧
    decodeJson http deserializeToken "token" (http.server url) = .ok response ∧
    response.unlock = some unlock ∧ OpensUserKey account.kdf P account.masterPassword unlock userKey

theorem Account.unlocks_of_login {account : Account} {P : Primitives} {http : Transport}
    {session : BitwardenSession} (hK : account.kdf.TakesParams)
    (h : account.login P http = .ok session) : account.Unlocks P http session.userKey := by
  obtain ⟨url, response, unlock, hurl, hresponse, hunlock, hopens, -⟩ :=
    (loginWithApiKey_eq_ok hK).mp h
  exact ⟨url, response, unlock, hurl, hresponse, hunlock, hopens⟩

end VaultwardenEso.Client

namespace VaultwardenEso.Provider
open RustStr BwesoCore Crypto Cipher Client Serde

def Label.AnsweredBy (account : Account) (cfg : ServerConfig) (http : Transport) : Label → Prop
  | .act _ (.provider l) => l.AnsweredBy account cfg.client http
  | _ => True

/-- `server` is the vault's server at each step of the run. -/
def AnsweredBy (account : Account) (cfg : ServerConfig) (server : ℕ → Transport) (ls : List Label) :
    Prop :=
  ∀ (i : ℕ) (l : Label), ls[i]? = some l → l.AnsweredBy account cfg (server i)

section Upstream
variable {account : Account} {cfg : ServerConfig} {server : ℕ → Transport}

theorem AnsweredBy.of_prefix {ls ms : List Label} (h : AnsweredBy account cfg server ls)
    (hms : ms <+: ls) : AnsweredBy account cfg server ms := by
  obtain ⟨rest, rfl⟩ := hms
  intro i l hi
  refine h i l ?_
  rw [List.getElem?_append_left (List.getElem?_eq_some_iff.mp hi).1]
  exact hi

theorem AnsweredBy.last {ls : List Label} {l : Label} (h : AnsweredBy account cfg server (ls ++ [l])) :
    l.AnsweredBy account cfg (server ls.length) := by
  refine h ls.length l ?_
  rw [List.getElem?_append_right (le_refl _), Nat.sub_self]
  rfl

theorem handle_answers {r : ℕ} {core : Core} {phase : Phase} {action : Action} {outcome : Outcome}
    (h : handle cfg r core phase action = some outcome) {http : Transport}
    (hanswered : (Label.act r action).AnsweredBy account cfg http) :
    outcome.core.client = core.client ∨ ∃ l, l.AnsweredBy account cfg.client http ∧
      Client.step cfg.client core.client l = some outcome.core.client := by
  cases handle_cases h with
  | call selector client hclient => exact .inr ⟨.call r selector, trivial, hclient⟩
  | provider selector l client hl hclient => exact .inr ⟨l, hanswered, hclient⟩
  | dropCall selector client hclient => exact .inr ⟨.drop r, trivial, hclient⟩
  | _ => exact .inl rfl

theorem step_answers {s u : Server} {l : Label} (h : step cfg s l = some u) {http : Transport}
    (hanswered : l.AnsweredBy account cfg http) :
    u.core.client = s.core.client ∨ ∃ l', l'.AnsweredBy account cfg.client http ∧
      Client.step cfg.client s.core.client l' = some u.core.client := by
  cases server_cases h with
  | arrive | reload => exact .inl rfl
  | act r action outcome houtcome => exact handle_answers houtcome hanswered
  | tick elapsed client hclient =>
    refine .inr ⟨_, ?_, hclient⟩
    trivial

def extend (moment : ℕ → ℕ) (n now : ℕ) (i : ℕ) : ℕ := if i < n then moment i else now

/-- The client of a run of the server runs on its own, with the same answers in the same order. -/
theorem run_client {now : ℕ} {policy : SelectorPolicy} {permits : Option ℕ} :
    ∀ ls s, Machine.run (step cfg) (.initial now policy permits) ls = some s →
      AnsweredBy account cfg server ls → ∃ (ms : List Client.Label) (moment : ℕ → ℕ),
        Machine.run (Client.step cfg.client) (.initial now) ms = some s.core.client ∧
        Client.AnsweredBy account cfg.client (fun i => server (moment i)) ms ∧ Monotone moment ∧
        ∀ i < ms.length, moment i < ls.length := by
  apply Machine.run_history
  · intro _
    refine ⟨[], fun _ => 0, rfl, ?_, monotone_const, ?_⟩
    · intro i l hi
      cases hi
    · intro i hi
      cases hi
  · intro ls u l v _ hu hstep hanswered
    obtain ⟨ms, moment, hrun, hanswers, hmono, hmoment⟩ :=
      hu (hanswered.of_prefix (List.prefix_append ls [l]))
    rw [List.length_append, List.length_singleton]
    obtain hsame | ⟨l', hl', hclient⟩ := step_answers hstep hanswered.last
    · rw [hsame]
      exact ⟨ms, moment, hrun, hanswers, hmono, fun i hi => Nat.lt_succ_of_lt (hmoment i hi)⟩
    · refine ⟨ms ++ [l'], extend moment ms.length ls.length,
        Machine.run_snoc.mpr ⟨_, hrun, hclient⟩, ?_, ?_, ?_⟩
      · intro i k hi
        by_cases hlt : i < ms.length
        · rw [List.getElem?_append_left hlt] at hi
          simp only [extend, if_pos hlt]
          exact hanswers i k hi
        · have hlast : i = ms.length := by
            have hbound := (List.getElem?_eq_some_iff.mp hi).1
            rw [List.length_append, List.length_singleton] at hbound
            omega
          subst hlast
          rw [List.getElem?_append_right (le_refl _), Nat.sub_self] at hi
          cases hi
          simp only [extend, if_neg hlt]
          exact hl'
      · intro i j hij
        simp only [extend]
        by_cases hj : j < ms.length
        · rw [if_pos hj, if_pos (hij.trans_lt hj)]
          exact hmono hij
        · rw [if_neg hj]
          by_cases hi : i < ms.length
          · rw [if_pos hi]
            exact (hmoment i hi).le
          · rw [if_neg hi]
      · intro i hi
        rw [List.length_append, List.length_singleton] at hi
        simp only [extend]
        by_cases hlt : i < ms.length
        · rw [if_pos hlt]
          exact Nat.lt_succ_of_lt (hmoment i hlt)
        · rw [if_neg hlt]
          exact Nat.lt_succ_self _

end Upstream

/-- Every value that is served traces back to the master password, whatever the server of the vault
has answered. -/
theorem served_values_trace_to_password (account : Account) (hK : account.kdf.TakesParams)
    (cfg : ServerConfig) (server : ℕ → Transport) (now : ℕ) (policy : SelectorPolicy)
    (permits : Option ℕ) (ls : List Label) (s : Server) (r : ℕ) (document : SecretDocument)
    (key value : Str)
    (hrun : Machine.run (step cfg) (.initial now policy permits) ls = some s)
    (hanswered : AnsweredBy account cfg server ls)
    (hresponse : s.phase r = .responded (.document document))
    (hvalue : document.data[key]? = some value) :
    ∃ i j userKey sync, i ≤ j ∧ j < ls.length ∧
      account.Unlocks cfg.client.primitives (server i) userKey ∧
      account.sync (server j) = .ok sync ∧ ∃ cipher ∈ sync.ciphers, cipher.organizationId = none ∧
        Vouched cfg.client.primitives userKey cipher value := by
  have hstory := (run_story r ls s hrun).2
  rw [hresponse] at hstory
  obtain ⟨selector, -, -, -, ms, u, hms, hu, -, -, fetched, hcache, hresolve⟩ := hstory
  obtain ⟨cipher, hcipher, horg, hvouched⟩ := resolveCached_vouched hresolve hvalue
  obtain ⟨calls, moment, hcalls, hanswers, hmono, hmoment⟩ :=
    run_client ms u hu (hanswered.of_prefix hms)
  have hinv := run_directInv calls _ hcalls hanswers
  obtain ⟨i, j, fetchedAt, hij, hj, hfetch⟩ := hinv.slot fetched hcache
  obtain ⟨hlogin, hsync⟩ := fetchVault_eq_ok hfetch
  refine ⟨moment i, moment j, fetched.vault.session.userKey, fetched.vault.sync, hmono hij.le,
    ?_, account.unlocks_of_login hK hlogin, hsync, cipher, hcipher, horg, hvouched⟩
  exact (hmoment j hj).trans_le hms.length_le

/-! ## A request served from the account of the fixtures -/

theorem Phase.value_eq_some {phase : Phase} {value : Str} (h : phase.value = some value) :
    ∃ document, phase = .responded (.document document) ∧
      document.data["value".toList]? = some value := by
  unfold Phase.value at h
  split at h
  · exact ⟨_, rfl, h⟩
  · cases h

def fixtureServerConfig : ServerConfig := { sampleServerConfig with client := fixtureConfig }

def fixtureCall : List Client.Label :=
  [.lockCache 2, .check 2, .lockRefresh 2, .lockCache 2, .check 2, .beginFetch 2,
    .loginAnswer 2 (.ok fixtureSession), .syncAnswer 2 (.ok fixtureSync) 1767225600, .lockCache 2,
    .install 2, .lockCache 2, .read 2]

def fixtureActions : List Action :=
  [.authenticate, .acquire, .checkContentType, .readBody, .checkPolicy, .call] ++
    fixtureCall.map .provider ++ [.respond]

def fixtureServed : List Label := .arrive 2 :: fixtureActions.map (.act 2)

theorem fixtureServed_answered : AnsweredBy fixtureAccount fixtureServerConfig
    (fun _ => fixtureServer fixtureSyncDocument) fixtureServed := by
  intro i l hi
  have hmem : l ∈ fixtureServed := List.mem_of_getElem? hi
  simp only [fixtureServed, fixtureActions, fixtureCall, List.map_cons, List.map_nil, List.cons_append,
    List.nil_append, List.mem_cons, List.not_mem_nil, or_false] at hmem
  rcases hmem with rfl | rfl | rfl | rfl | rfl | rfl | rfl | rfl | rfl | rfl | rfl | rfl | rfl | rfl |
    rfl | rfl | rfl | rfl | rfl | rfl
  all_goals first | exact fixtureAccount_login.symm | exact fixtureAccount_sync.symm | trivial

theorem fixture_value_traces_to_password : ∃ s document,
    Machine.run (step fixtureServerConfig) (.initial 0 sampleServerPolicy (some 1)) fixtureServed =
        some s ∧ s.phase 2 = .responded (.document document) ∧
      document.data["value".toList]? = some "app/database".toList ∧
      ∃ userKey, fixtureAccount.Unlocks fixtureRecording.primitives
          (fixtureServer fixtureSyncDocument) userKey ∧
        ∃ cipher, Vouched fixtureRecording.primitives userKey cipher "app/database".toList := by
  have heval : (Machine.run (step fixtureServerConfig) (.initial 0 sampleServerPolicy (some 1))
      fixtureServed).bind (fun s => (s.phase 2).value) = some "app/database".toList := by
    decide +kernel
  obtain ⟨s, hs, hvalue⟩ := Option.bind_eq_some_iff.mp heval
  obtain ⟨document, hphase, hdata⟩ := Phase.value_eq_some hvalue
  obtain ⟨i, j, userKey, sync, -, -, hunlocks, -, cipher, -, -, hvouched⟩ :=
    served_values_trace_to_password fixtureAccount fixtureKdf_takesParams fixtureServerConfig
      (fun _ => fixtureServer fixtureSyncDocument) 0 sampleServerPolicy (some 1) fixtureServed s 2
      document "value".toList "app/database".toList hs fixtureServed_answered hphase hdata
  exact ⟨s, document, hs, hphase, hdata, userKey, hunlocks, cipher, hvouched⟩

end VaultwardenEso.Provider
