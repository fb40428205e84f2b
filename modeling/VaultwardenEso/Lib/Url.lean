import VaultwardenEso.Lib.Str

set_option autoImplicit false

/-!
# URLs as the `url` crate stores them

A parsed URL is its components, already in the form in which they are serialized. Parsing, the
normalisation of paths and the encoding of segments are tables and rules of the URL standard
and stay a parameter; what is relied on is stated as `UrlCrate.Standard`.
-/
namespace RustUrl
open RustStr

/-! ## Hosts -/

def decimal (n : UInt8) : Str := Nat.toDigits 10 n.toNat

def ipv4Text (a b c d : UInt8) : Str :=
  decimal a ++ '.' :: (decimal b ++ '.' :: (decimal c ++ '.' :: decimal d))

def zeroRun (pieces : List UInt16) : Option (ℕ × ℕ) :=
  let runs := (List.range pieces.length).map
    (fun i => (i, ((pieces.drop i).takeWhile (· = 0)).length))
  let longest := runs.foldl (fun best run => if best.2 < run.2 then run else best) (0, 0)
  if 2 ≤ longest.2 then some longest else none

def hexPieces (pieces : List UInt16) : Str :=
  [':'].intercalate (pieces.map (fun piece => Nat.toDigits 16 piece.toNat))

def ipv6Text (pieces : Vector UInt16 8) : Str :=
  match zeroRun pieces.toList with
  | none => hexPieces pieces.toList
  | some (start, length) =>
    hexPieces (pieces.toList.take start) ++ "::".toList ++
      hexPieces (pieces.toList.drop (start + length))

example : ipv6Text #v[0, 0, 0, 0, 0, 0, 0, 1] = "::1".toList := by decide

/-- A domain name is stored in lower case and without any delimiter of a URL. A host that reads
    as an IPv4 address is one, and no domain name. -/
structure DomainName where
  text : Str
  lower : toAsciiLowercase text = text
  no_delimiter : ∀ c ∈ text, c ∉ ":/?#[]@".toList
  not_ipv4 : ∀ a b c d, text ≠ ipv4Text a b c d

instance : DecidableEq DomainName := fun a b =>
  decidable_of_iff (a.text = b.text) (by cases a; cases b; simp)

inductive Host where
  | domain (name : DomainName)
  | ipv4 (a b c d : UInt8)
  | ipv6 (pieces : Vector UInt16 8)
  deriving DecidableEq

/-- The host as it is serialized: an IPv6 address stands in square brackets. -/
def Host.text : Host → Str
  | .domain name => name.text
  | .ipv4 a b c d => ipv4Text a b c d
  | .ipv6 pieces => '[' :: ipv6Text pieces ++ [']']

theorem isDigit_of_mem_decimal {n : UInt8} {c : Char} (h : c ∈ decimal n) : c.isDigit = true :=
  Nat.isDigit_of_mem_toDigits (by omega) (by omega) h

theorem decimal_injective : Function.Injective decimal := by
  intro m n h
  have hvalue := congrArg (fun digits => Nat.ofDigitChars 10 digits 0) h
  simp only [decimal, Nat.ofDigitChars_ten_toDigits] at hvalue
  exact UInt8.toNat_inj.mp hvalue

theorem dot_not_mem_decimal (n : UInt8) : '.' ∉ decimal n := by
  intro h
  exact absurd (isDigit_of_mem_decimal h) (by decide)

theorem split_ipv4Text (a b c d : UInt8) :
    split '.' (ipv4Text a b c d) = [decimal a, decimal b, decimal c, decimal d] := by
  rw [split, ipv4Text, List.splitOn_append_cons_self_of_not_mem (dot_not_mem_decimal a),
    List.splitOn_append_cons_self_of_not_mem (dot_not_mem_decimal b),
    List.splitOn_append_cons_self_of_not_mem (dot_not_mem_decimal c),
    List.splitOn_eq_singleton (dot_not_mem_decimal d)]

theorem ipv4Text_inj {a b c d a' b' c' d' : UInt8} :
    ipv4Text a b c d = ipv4Text a' b' c' d' ↔ a = a' ∧ b = b' ∧ c = c' ∧ d = d' := by
  constructor
  · intro h
    have hpieces := congrArg (split '.') h
    rw [split_ipv4Text, split_ipv4Text] at hpieces
    simp only [List.cons.injEq, and_true] at hpieces
    obtain ⟨ha, hb, hc, hd⟩ := hpieces
    exact ⟨decimal_injective ha, decimal_injective hb, decimal_injective hc, decimal_injective hd⟩
  · rintro ⟨rfl, rfl, rfl, rfl⟩
    rfl

theorem mem_ipv4Text {a b c d : UInt8} {x : Char} (h : x ∈ ipv4Text a b c d) :
    x.isDigit = true ∨ x = '.' := by
  simp only [ipv4Text, List.mem_append, List.mem_cons] at h
  rcases h with h | h | h | h | h | h | h
  · exact .inl (isDigit_of_mem_decimal h)
  · exact .inr h
  · exact .inl (isDigit_of_mem_decimal h)
  · exact .inr h
  · exact .inl (isDigit_of_mem_decimal h)
  · exact .inr h
  · exact .inl (isDigit_of_mem_decimal h)

theorem Host.text_eq_ipv4 {host : Host} {a b c d : UInt8} :
    host.text = ipv4Text a b c d ↔ host = .ipv4 a b c d := by
  cases host with
  | domain name => simp [Host.text, name.not_ipv4 a b c d]
  | ipv4 a' b' c' d' => simp [Host.text, ipv4Text_inj]
  | ipv6 pieces =>
    simp only [Host.text, reduceCtorEq, iff_false]
    intro h
    have hbracket : '[' ∈ ipv4Text a b c d := h ▸ List.mem_cons_self
    exact absurd (mem_ipv4Text hbracket) (by decide)

theorem Host.text_eq_domain {host : Host} {text : Str} {c : Char} (hc : c ∈ text)
    (hletter : ¬ (c.isDigit = true ∨ c = '.')) (hbracket : '[' ∉ text) :
    host.text = text ↔ ∃ name, host = .domain name ∧ name.text = text := by
  cases host with
  | domain name => simp [Host.text]
  | ipv4 a b c' d =>
    simp only [reduceCtorEq, false_and, exists_false, iff_false]
    rintro rfl
    exact hletter (mem_ipv4Text hc)
  | ipv6 pieces =>
    simp only [reduceCtorEq, false_and, exists_false, iff_false]
    rintro rfl
    exact hbracket List.mem_cons_self

theorem Host.text_ne_of_colon {host : Host} {text : Str} (hcolon : ':' ∈ text)
    (hbracket : '[' ∉ text) : host.text ≠ text := by
  rintro rfl
  cases host with
  | domain name => exact name.no_delimiter ':' hcolon (by decide)
  | ipv4 a b c d => exact absurd (mem_ipv4Text hcolon) (by decide)
  | ipv6 pieces => exact hbracket List.mem_cons_self

/-! ## URLs -/

structure Url where
  scheme : Str
  username : Str
  password : Option Str
  host : Option Host
  port : Option UInt16
  path : Str
  query : Option Str
  fragment : Option Str
  deriving DecidableEq

def Url.hostStr (url : Url) : Option Str := url.host.map Host.text

def Url.cannotBeABase (url : Url) : Bool := url.host.isNone && url.path.head? != some '/'

def Url.setQuery (url : Url) (query : Option Str) : Url := { url with query := query }

def Url.setFragment (url : Url) (fragment : Option Str) : Url := { url with fragment := fragment }

/-- `query_pairs_mut().append_pair`, for a name and a value that are left as they are. -/
def Url.appendPair (url : Url) (name value : Str) : Url :=
  match url.query with
  | none | some [] => { url with query := some (name ++ '=' :: value) }
  | some query => { url with query := some (query ++ '&' :: (name ++ '=' :: value)) }

/-! ## Paths -/

/-- What the crate computes by the rules of the URL standard. -/
structure UrlCrate where
  parse : Str → Option Url
  /-- The path that `set_path` leaves on an `http` or `https` URL. -/
  normalizePath : Str → Str
  /-- A segment as `push` appends it. -/
  encodeSegment : Str → Str
  /-- The characters of a path that are not percent-encoded. -/
  pathChar : Char → Bool

def UrlCrate.setPath (crate : UrlCrate) (url : Url) (path : Str) : Url :=
  { url with path := crate.normalizePath path }

def popIfEmpty (path : Str) : Str :=
  if path.length ≤ 1 then path
  else if path.getLast? = some '/' then path.dropLast
  else path

/-- `push`. The path of an `http` or `https` URL is never empty. -/
def UrlCrate.push (crate : UrlCrate) (path segment : Str) : Str :=
  if segment = ".".toList ∨ segment = "..".toList then path
  else (if path.length = 1 then path else path ++ ['/']) ++ crate.encodeSegment segment

def dotSegments : List Str :=
  [".", "%2e", "..", ".%2e", "%2e.", "%2e%2e"].map String.toList

/-- Text that is part of a path as it stands. -/
def UrlCrate.Verbatim (crate : UrlCrate) (text : Str) : Prop :=
  (∀ c ∈ text, crate.pathChar c = true) ∧
    ∀ segment ∈ split '/' text, toAsciiLowercase segment ∉ dotSegments

/-- A path as parsing leaves it. -/
def UrlCrate.NormalPath (crate : UrlCrate) (path : Str) : Prop :=
  path.head? = some '/' ∧ crate.Verbatim path

instance (crate : UrlCrate) (text : Str) : Decidable (crate.Verbatim text) :=
  decidable_of_iff (text.all crate.pathChar = true ∧
    (split '/' text).all (fun segment => !dotSegments.contains (toAsciiLowercase segment)) = true)
    (by simp [UrlCrate.Verbatim])

instance (crate : UrlCrate) (path : Str) : Decidable (crate.NormalPath path) :=
  inferInstanceAs (Decidable (_ ∧ _))

def Plain (segment : Str) : Prop := segment ≠ [] ∧ ∀ c ∈ segment, c.isLower = true

instance (segment : Str) : Decidable (Plain segment) :=
  decidable_of_iff (segment ≠ [] ∧ segment.all Char.isLower = true) (by simp [Plain])

/-- What callers rely on. -/
structure UrlCrate.Standard (crate : UrlCrate) : Prop where
  parse_path : ∀ raw url, crate.parse raw = some url →
    url.scheme = "http".toList ∨ url.scheme = "https".toList → crate.NormalPath url.path
  normalize_normal : ∀ path, crate.NormalPath path → crate.normalizePath path = path
  normalize_nil : crate.normalizePath [] = ['/']
  encode_plain : ∀ segment, Plain segment → crate.encodeSegment segment = segment
  pathChar_slash : crate.pathChar '/' = true
  pathChar_lower : ∀ c, c.isLower = true → crate.pathChar c = true

def joinSegments (segments : List Str) : Str := segments.flatMap ('/' :: ·)

def trimSlashes (path : Str) : Str := trimEndMatches ['/'] path

section Paths
variable {crate : UrlCrate}

theorem Plain.slash_not_mem {segment : Str} (h : Plain segment) : '/' ∉ segment := by
  intro hslash
  exact absurd (h.2 '/' hslash) (by decide)

theorem verbatim_append (hslash : crate.pathChar '/' = true) {path rest : Str} :
    crate.Verbatim (path ++ '/' :: rest) ↔ crate.Verbatim path ∧ crate.Verbatim rest := by
  unfold UrlCrate.Verbatim
  rw [split, List.splitOn_append_cons_self]
  simp only [List.mem_append, List.mem_cons, or_imp, forall_and, forall_eq, hslash, true_and]
  unfold split
  tauto

theorem verbatim_plain (h : crate.Standard) {segment : Str} (hplain : Plain segment) :
    crate.Verbatim segment := by
  refine ⟨fun c hc => h.pathChar_lower c (hplain.2 c hc), ?_⟩
  rw [split, List.splitOn_eq_singleton hplain.slash_not_mem]
  intro other hother
  rw [List.mem_singleton.mp hother]
  intro hdot
  have hhead : ∀ text ∈ dotSegments, text.head?.map Char.isLower = some false := by decide
  obtain ⟨c, rest, rfl⟩ := List.exists_cons_of_ne_nil hplain.1
  have hc := hplain.2 c List.mem_cons_self
  have hlower : c.toLower.isLower = false := Option.some.inj (hhead _ hdot)
  rw [toLower_of_isLower hc, hc] at hlower
  cases hlower

theorem verbatim_trimSlashes (hslash : crate.pathChar '/' = true) {path : Str}
    (h : crate.Verbatim path) : crate.Verbatim (trimSlashes path) := by
  induction path using List.reverseRecOn with
  | nil => exact h
  | append_singleton path c ih =>
    unfold trimSlashes trimEndMatches at ih ⊢
    by_cases hc : c = '/'
    · subst hc
      rw [List.rdropWhile_concat_pos _ _ _ (by simp)]
      exact ih ((verbatim_append hslash).mp h).1
    · rw [List.rdropWhile_concat_neg _ _ _ (by simpa using hc)]
      exact h

theorem NormalPath.trimSlashes (hslash : crate.pathChar '/' = true) {path : Str}
    (h : crate.NormalPath path) :
    RustUrl.trimSlashes path = [] ∨ crate.NormalPath (RustUrl.trimSlashes path) := by
  obtain ⟨rest, hrest⟩ : RustUrl.trimSlashes path <+: path := List.rdropWhile_prefix _ _
  cases hpath : RustUrl.trimSlashes path with
  | nil => exact .inl rfl
  | cons c tail =>
    rw [← hpath]
    refine .inr ⟨?_, verbatim_trimSlashes hslash h.2⟩
    have hhead := h.1
    rw [← hrest, hpath] at hhead
    rw [hpath]
    exact hhead

theorem NormalPath.append (h : crate.Standard) {path segment : Str} (hpath : crate.NormalPath path)
    (hplain : Plain segment) :
    crate.NormalPath (RustUrl.trimSlashes path ++ '/' :: segment) := by
  refine ⟨?_, (verbatim_append h.pathChar_slash).mpr
    ⟨verbatim_trimSlashes h.pathChar_slash hpath.2, verbatim_plain h hplain⟩⟩
  rcases NormalPath.trimSlashes h.pathChar_slash hpath with hnil | hnormal
  · rw [hnil]
    rfl
  · rw [List.head?_append, hnormal.1]
    rfl

theorem trimSlashes_getLast? (path : Str) : (trimSlashes path).getLast? ≠ some '/' := by
  intro h
  have hne : trimSlashes path ≠ [] := by
    intro hnil
    rw [hnil] at h
    cases h
  have hlast := List.rdropWhile_last_not (fun c => decide (c ∈ ['/'])) path hne
  rw [List.getLast?_eq_some_getLast hne] at h
  exact hlast (decide_eq_true (List.mem_singleton.mpr (Option.some.inj h)))

theorem trimSlashes_eq_self {path : Str} (h : path.getLast? ≠ some '/') : trimSlashes path = path := by
  unfold trimSlashes trimEndMatches
  rw [List.rdropWhile_eq_self_iff]
  intro hne hlast
  rw [List.getLast?_eq_some_getLast hne] at h
  exact h (congrArg some (List.mem_singleton.mp (of_decide_eq_true hlast)))

theorem trimSlashes_trimSlashes (path : Str) : trimSlashes (trimSlashes path) = trimSlashes path :=
  trimSlashes_eq_self (trimSlashes_getLast? path)

theorem trimSlashes_append_replicate (path : Str) (n : ℕ) :
    trimSlashes (path ++ List.replicate n '/') = trimSlashes path := by
  induction n with
  | zero => rw [List.replicate_zero, List.append_nil]
  | succ n ih =>
    rw [List.replicate_succ', ← List.append_assoc, trimSlashes, trimEndMatches,
      List.rdropWhile_concat_pos _ _ _ (by simp)]
    exact ih

theorem Plain.getLast? {segment : Str} (h : Plain segment) (path : Str) :
    (path ++ '/' :: segment).getLast? ≠ some '/' := by
  intro hlast
  have hsegment : segment.getLast? = some '/' := by
    obtain ⟨c, rest, rfl⟩ := List.exists_cons_of_ne_nil h.1
    simpa using hlast
  exact h.slash_not_mem (List.mem_of_getLast? hsegment)

/-! ## Building paths from segments -/

theorem push_plain (h : crate.Standard) (path : Str) {segment : Str} (hplain : Plain segment) :
    crate.push path segment = (if path.length = 1 then path else path ++ ['/']) ++ segment := by
  have hdot : ∀ c ∈ segment, c ≠ '.' := by
    rintro c hc rfl
    exact absurd (hplain.2 _ hc) (by decide)
  unfold UrlCrate.push
  rw [if_neg, h.encode_plain segment hplain]
  rintro (rfl | rfl)
  · exact hdot '.' (by decide) rfl
  · exact hdot '.' (by decide) rfl

theorem foldl_push (h : crate.Standard) {segments : List Str}
    (hplain : ∀ segment ∈ segments, Plain segment) {path : Str} (hpath : path.length ≠ 1) :
    segments.foldl crate.push path = path ++ joinSegments segments := by
  induction segments generalizing path with
  | nil => exact (List.append_nil path).symm
  | cons segment segments ih =>
    obtain ⟨hsegment, hrest⟩ := List.forall_mem_cons.mp hplain
    have hpos := List.length_pos_of_ne_nil hsegment.1
    rw [List.foldl_cons, push_plain h path hsegment, if_neg hpath, ih hrest]
    · simp [joinSegments]
    · simp only [List.length_append, List.length_singleton]
      omega

theorem foldl_push_root (h : crate.Standard) {segments : List Str} (hne : segments ≠ [])
    (hplain : ∀ segment ∈ segments, Plain segment) :
    segments.foldl crate.push ['/'] = joinSegments segments := by
  obtain ⟨segment, segments, rfl⟩ := List.exists_cons_of_ne_nil hne
  obtain ⟨hsegment, hrest⟩ := List.forall_mem_cons.mp hplain
  have hpos := List.length_pos_of_ne_nil hsegment.1
  rw [List.foldl_cons, push_plain h _ hsegment, if_pos List.length_singleton,
    foldl_push h hrest]
  · simp [joinSegments]
  · simp only [List.length_append, List.length_singleton]
    omega

theorem push_popIfEmpty (h : crate.Standard) {segments : List Str} (hne : segments ≠ [])
    (hplain : ∀ segment ∈ segments, Plain segment) {path : Str} (hhead : path.head? = some '/')
    (hlast : path = ['/'] ∨ path.getLast? ≠ some '/') :
    segments.foldl crate.push (popIfEmpty path) = trimSlashes path ++ joinSegments segments := by
  rcases hlast with rfl | hlast
  · exact foldl_push_root h hne hplain
  · have hpop : popIfEmpty path = path := by
      unfold popIfEmpty
      rw [if_neg hlast, ite_self]
    rw [hpop, trimSlashes_eq_self hlast]
    refine foldl_push h hplain ?_
    intro hlength
    obtain ⟨c, rfl⟩ := List.length_eq_one_iff.mp hlength
    exact hlast hhead

end Paths

end RustUrl
