import Mathlib.Tactic
import Mathlib.Data.List.DropRight

set_option autoImplicit false

/-!
# String slices of the Rust standard library

A `str` is a list of Unicode scalar values. Only operations whose result does
not depend on byte offsets are given, each after the documented behaviour of
the method whose name it keeps.
-/
namespace RustStr

abbrev Str := List Char
abbrev Bytes := List UInt8

/-- The Unicode property `White_Space`, which `char::is_whitespace` tests. -/
def isWhitespace (c : Char) : Bool :=
  (9 ≤ c.toNat && c.toNat ≤ 13) || c.toNat == 0x20 || c.toNat == 0x85 || c.toNat == 0xA0 ||
  c.toNat == 0x1680 || (0x2000 ≤ c.toNat && c.toNat ≤ 0x200A) || c.toNat == 0x2028 ||
  c.toNat == 0x2029 || c.toNat == 0x202F || c.toNat == 0x205F || c.toNat == 0x3000

def trimStart (s : Str) : Str := s.dropWhile isWhitespace

def trimEnd (s : Str) : Str := s.rdropWhile isWhitespace

def trim (s : Str) : Str := trimEnd (trimStart s)

def trimEndMatches (chars : List Char) (s : Str) : Str := s.rdropWhile (fun c => c ∈ chars)

theorem trim_eq_self_of_ends {s : Str} (hf : ∀ c ∈ s.head?, isWhitespace c = false)
    (hl : ∀ c ∈ s.getLast?, isWhitespace c = false) : trim s = s := by
  have hstart : trimStart s = s := by
    cases s with
    | nil => rfl
    | cons c s => simp [trimStart, hf c (by simp)]
  rw [trim, hstart, trimEnd, List.rdropWhile_eq_self_iff]
  intro hs
  simp [hl _ (List.getLast_mem_getLast? hs)]

theorem trim_head? (s : Str) : ∀ c ∈ (trim s).head?, isWhitespace c = false := by
  intro c hc
  have hstart : c ∈ (trimStart s).head? := by
    obtain ⟨t, ht⟩ : trim s <+: trimStart s := List.rdropWhile_prefix _ _
    rw [← ht]
    cases hs : trim s with
    | nil => simp [hs] at hc
    | cons d u => simpa [hs] using hc
  have := List.head?_dropWhile_not isWhitespace s
  simp_all [trimStart]

theorem trim_getLast? (s : Str) : ∀ c ∈ (trim s).getLast?, isWhitespace c = false := by
  intro c hc
  have hne : trim s ≠ [] := by
    rintro h
    simp [h] at hc
  have hlast := List.rdropWhile_last_not isWhitespace (trimStart s) hne
  rw [List.getLast?_eq_some_getLast hne] at hc
  cases hc
  simpa [trim, trimEnd] using hlast

theorem trim_trim (s : Str) : trim (trim s) = trim s :=
  trim_eq_self_of_ends (trim_head? s) (trim_getLast? s)

theorem trim_append {p s : Str} (hp : p.head?.map isWhitespace = some false) (hs : s ≠ [])
    (hlast : ∀ c ∈ s.getLast?, isWhitespace c = false) : trim (p ++ s) = p ++ s := by
  obtain ⟨first, hfirst, hspace⟩ := Option.map_eq_some_iff.mp hp
  apply trim_eq_self_of_ends
  · intro c hc
    rw [List.head?_append, hfirst, Option.some_or] at hc
    cases hc
    exact hspace
  · intro c hc
    rw [List.getLast?_append_of_ne_nil _ hs] at hc
    exact hlast c hc

theorem trim_concat {c : Char} (hc : isWhitespace c = true) (s : Str) :
    trim (s ++ [c]) = trim s := by
  unfold trim trimStart
  rw [List.dropWhile_append]
  split
  · rename_i hblank
    rw [List.isEmpty_iff.mp hblank, List.dropWhile_cons_of_pos hc]
    rfl
  · exact List.rdropWhile_concat_pos _ _ _ hc

theorem mem_of_mem_trim {c : Char} {s : Str} (h : c ∈ trim s) : c ∈ s :=
  (List.dropWhile_suffix _).mem ((List.rdropWhile_prefix _ _).mem h)

def stripPrefix (pat s : Str) : Option Str :=
  if pat.isPrefixOf s then some (s.drop pat.length) else none

theorem stripPrefix_eq_some {pat s t : Str} : stripPrefix pat s = some t ↔ s = pat ++ t := by
  unfold stripPrefix
  constructor
  · intro h
    split at h
    · rename_i hp
      obtain ⟨u, rfl⟩ := List.isPrefixOf_iff_prefix.mp hp
      simp_all
    · cases h
  · rintro rfl
    simp

theorem stripPrefix_eq_none {pat s : Str} : stripPrefix pat s = none ↔ ¬ pat <+: s := by
  unfold stripPrefix
  rw [← List.isPrefixOf_iff_prefix]
  split <;> simp_all

@[simp] theorem stripPrefix_append (pat t : Str) : stripPrefix pat (pat ++ t) = some t :=
  stripPrefix_eq_some.mpr rfl

def splitOnce (c : Char) : Str → Option (Str × Str)
  | [] => none
  | d :: s => if d = c then some ([], s) else (splitOnce c s).map (fun p => (d :: p.1, p.2))

theorem splitOnce_append {c : Char} {s t : Str} (h : c ∉ s) :
    splitOnce c (s ++ c :: t) = some (s, t) := by
  induction s with
  | nil => simp [splitOnce]
  | cons d s ih =>
    simp only [List.mem_cons, not_or] at h
    simp [splitOnce, Ne.symm h.1, ih h.2]

theorem splitOnce_eq_some {c : Char} {s before after : Str}
    (h : splitOnce c s = some (before, after)) : s = before ++ c :: after ∧ c ∉ before := by
  induction s generalizing before with
  | nil => cases h
  | cons d s ih =>
    simp only [splitOnce] at h
    split at h
    · rename_i hd
      cases h
      rw [hd]
      exact ⟨rfl, List.not_mem_nil⟩
    · rename_i hd
      obtain ⟨⟨rest, after⟩, hrest, hsplit⟩ := Option.map_eq_some_iff.mp h
      cases hsplit
      obtain ⟨rfl, hnot⟩ := ih hrest
      refine ⟨rfl, ?_⟩
      simp only [List.mem_cons, not_or]
      exact ⟨Ne.symm hd, hnot⟩

def rsplitOnce (c : Char) (s : Str) : Option (Str × Str) :=
  (splitOnce c s.reverse).map (fun p => (p.2.reverse, p.1.reverse))

/-- `split` at a character; the pieces of the empty text are one empty piece. -/
def split (c : Char) (s : Str) : List Str := s.splitOn c

theorem not_mem_of_mem_split {c : Char} {s piece : Str} (h : piece ∈ split c s) : c ∉ piece := by
  induction s generalizing piece with
  | nil =>
    rw [List.mem_singleton.mp h]
    exact List.not_mem_nil
  | cons d s ih =>
    unfold split at h ih
    rw [List.splitOn_cons_eq_if_modifyHead] at h
    split at h
    · rcases List.mem_cons.mp h with rfl | h
      · exact List.not_mem_nil
      · exact ih h
    · rename_i hd
      cases hpieces : s.splitOn c with
      | nil => exact absurd hpieces (List.splitOn_ne_nil c s)
      | cons first rest =>
        rw [hpieces] at h ih
        rcases List.mem_cons.mp h with rfl | h
        · simp only [List.mem_cons, not_or]
          refine ⟨?_, ih List.mem_cons_self⟩
          rintro rfl
          exact hd (beq_self_eq_true _)
        · exact ih (List.mem_cons_of_mem _ h)

theorem intercalate_split (c : Char) (s : Str) : [c].intercalate (split c s) = s :=
  List.intercalate_splitOn c

theorem mem_of_mem_split {c d : Char} {s piece : Str} (hpiece : piece ∈ split c s)
    (hd : d ∈ piece) : d ∈ s := by
  rw [← intercalate_split c s]
  generalize split c s = pieces at hpiece
  induction pieces with
  | nil => cases hpiece
  | cons first rest ih =>
    cases rest with
    | nil =>
      rw [List.mem_singleton.mp hpiece] at hd
      simpa using hd
    | cons next rest =>
      rw [List.intercalate_cons_cons]
      rcases List.mem_cons.mp hpiece with rfl | hpiece
      · exact List.mem_append_left _ (List.mem_append_left _ hd)
      · exact List.mem_append_right _ (ih hpiece)

/-- A final carriage return is part of the line ending only before a line feed. -/
def stripCarriageReturn (line : Str) : Str :=
  if line.getLast? = some '\r' then line.dropLast else line

/-- `lines`: pieces ended by a line feed, then the unterminated rest if it is not empty. -/
def lines (s : Str) : List Str :=
  (split '\n' s).dropLast.map stripCarriageReturn ++ ((split '\n' s).getLast?.filter (· ≠ [])).toList

theorem trim_stripCarriageReturn (line : Str) : trim (stripCarriageReturn line) = trim line := by
  unfold stripCarriageReturn
  split
  · rename_i hlast
    obtain ⟨front, rfl⟩ := List.getLast?_eq_some_iff.mp hlast
    rw [List.dropLast_concat, trim_concat (by decide)]
  · rfl

/-- What is read line by line can be read from the pieces between line feeds, if neither an
    empty line nor a carriage return at the end of one says anything. -/
theorem flatMap_lines {α : Type} {f : Str → List α} (hnil : f [] = [])
    (hreturn : ∀ line, f (stripCarriageReturn line) = f line) (s : Str) :
    (lines s).flatMap f = (split '\n' s).flatMap f := by
  obtain ⟨terminated, last, hsplit⟩ : ∃ terminated last, split '\n' s = terminated ++ [last] :=
    ⟨_, _, (List.dropLast_append_getLast (List.splitOn_ne_nil '\n' s)).symm⟩
  rw [lines, hsplit, List.dropLast_concat, List.getLast?_concat, List.flatMap_append,
    List.flatMap_append, List.flatMap_map]
  simp only [hreturn]
  by_cases hlast : last = []
  · subst hlast
    simp [hnil]
  · simp [hlast, Option.filter_some]

def toAsciiLowercase (s : Str) : Str := s.map Char.toLower

theorem toLower_of_isLower {c : Char} (h : c.isLower = true) : c.toLower = c := by
  obtain ⟨hlow, -⟩ := (Bool.and_eq_true _ _).mp h
  have hge : 97 ≤ c.toNat := UInt32.le_iff_toNat_le.mp (of_decide_eq_true hlow)
  unfold Char.toLower
  rw [dif_neg]
  intro hupper
  have hle : c.toNat ≤ 90 := UInt32.le_iff_toNat_le.mp hupper.2
  omega

def eqIgnoreAsciiCase (s t : Str) : Bool := toAsciiLowercase s == toAsciiLowercase t

theorem mem_toLower_of_eqIgnoreAsciiCase {s t : Str} (h : eqIgnoreAsciiCase s t = true) {c : Char}
    (hc : c ∈ s) : c.toLower ∈ toAsciiLowercase t := by
  have heq : toAsciiLowercase s = toAsciiLowercase t := beq_iff_eq.mp h
  rw [← heq]
  exact List.mem_map_of_mem hc

def decimalValue : ℕ → Str → Option ℕ
  | n, [] => some n
  | n, c :: s => if c.isDigit then decimalValue (10 * n + (c.toNat - '0'.toNat)) s else none

/-- `str::parse` to an unsigned type: one leading `+` is allowed, leading zeros too, and
    no sign may stand alone. -/
def parseUnsigned (max : ℕ) (s : Str) : Option ℕ :=
  match s with
  | [] | ['+'] | ['-'] => none
  | '+' :: digits => (decimalValue 0 digits).filter (· ≤ max)
  | digits => (decimalValue 0 digits).filter (· ≤ max)

def hexValue (c : Char) : Option ℕ :=
  if 48 ≤ c.toNat ∧ c.toNat ≤ 57 then some (c.toNat - 48)
  else if 65 ≤ c.toNat ∧ c.toNat ≤ 70 then some (c.toNat - 55)
  else if 97 ≤ c.toNat ∧ c.toNat ≤ 102 then some (c.toNat - 87)
  else none

theorem hexValue_digitChar {k : ℕ} (h : k < 16) : hexValue (Nat.digitChar k) = some k := by
  have hall : ∀ m : Fin 16, hexValue (Nat.digitChar m.val) = some m.val := by decide
  exact hall ⟨k, h⟩

theorem decimalValue_le {n m : ℕ} {s : Str} (h : decimalValue n s = some m) :
    n * 10 ^ s.length ≤ m := by
  induction s generalizing n with
  | nil =>
    cases h
    simp
  | cons c s ih =>
    rw [decimalValue] at h
    split at h
    · have hle := ih h
      rw [List.length_cons, pow_succ, Nat.mul_comm (10 ^ s.length), ← Nat.mul_assoc]
      refine le_trans ?_ hle
      gcongr
      omega
    · cases h

theorem digitChar_eq_ofNat {k : ℕ} (h : k < 10) : Nat.digitChar k = Char.ofNat (k + 48) := by
  have hall : ∀ m : Fin 10, Nat.digitChar m.val = Char.ofNat (m.val + 48) := by decide
  exact hall ⟨k, h⟩

theorem isDigit_iff {c : Char} : c.isDigit = true ↔ ∃ k < 10, c = Nat.digitChar k := by
  constructor
  · intro h
    have hrange : 48 ≤ c.toNat ∧ c.toNat ≤ 57 := by
      simpa [Char.isDigit, UInt32.le_iff_toNat_le] using h
    refine ⟨c.toNat - 48, by omega, ?_⟩
    rw [digitChar_eq_ofNat (by omega), Nat.sub_add_cancel hrange.1, Char.ofNat_toNat]
  · rintro ⟨k, hk, rfl⟩
    have hall : ∀ m : Fin 10, (Nat.digitChar m.val).isDigit = true := by decide
    exact hall ⟨k, hk⟩

theorem toNat_digitChar {k : ℕ} (h : k < 10) : (Nat.digitChar k).toNat = k + 48 := by
  have hall : ∀ m : Fin 10, (Nat.digitChar m.val).toNat = m.val + 48 := by decide
  exact hall ⟨k, h⟩

theorem decimalValue_digit (n : ℕ) {k : ℕ} (hk : k < 10) (s : Str) :
    decimalValue n (Nat.digitChar k :: s) = decimalValue (10 * n + k) s := by
  rw [decimalValue, if_pos (isDigit_iff.mpr ⟨k, hk, rfl⟩), toNat_digitChar hk]
  rfl

theorem decimalValue_append (n : ℕ) (s t : Str) :
    decimalValue n (s ++ t) = (decimalValue n s).bind (fun m => decimalValue m t) := by
  induction s generalizing n with
  | nil => rfl
  | cons c s ih =>
    rw [List.cons_append, decimalValue, decimalValue]
    split
    · exact ih _
    · rfl

theorem decimalValue_toDigits (n : ℕ) : decimalValue 0 (Nat.toDigits 10 n) = some n := by
  induction n using Nat.strongRecOn with
  | ind n ih =>
    rcases Nat.lt_or_ge n 10 with hlt | hge
    · rw [Nat.toDigits_of_lt_base hlt, decimalValue_digit 0 hlt]
      simp [decimalValue]
    · rw [Nat.toDigits_of_base_le (by omega) hge, decimalValue_append, ih (n / 10) (by omega),
        Option.bind_some, decimalValue_digit _ (Nat.mod_lt n (by omega)), Nat.div_add_mod]
      rfl

theorem decimalValue_eq_digit {d : ℕ} (hpos : 0 < d) (hd : d < 10) {s : Str} :
    decimalValue 0 s = some d ↔ ∃ zeros, s = List.replicate zeros '0' ++ [Nat.digitChar d] := by
  constructor
  · intro h
    induction s with
    | nil =>
      cases h
      omega
    | cons c s ih =>
      by_cases hc : c.isDigit = true
      · obtain ⟨k, hk, rfl⟩ := isDigit_iff.mp hc
        rw [decimalValue_digit 0 hk, Nat.mul_zero, Nat.zero_add] at h
        rcases Nat.eq_zero_or_pos k with rfl | hkpos
        · obtain ⟨zeros, rfl⟩ := ih h
          exact ⟨zeros + 1, rfl⟩
        · have hle := decimalValue_le h
          cases s with
          | nil =>
            cases h
            exact ⟨0, rfl⟩
          | cons c s =>
            have hten : 10 ≤ 10 ^ (c :: s).length := Nat.le_self_pow (by simp) 10
            nlinarith
      · rw [decimalValue, if_neg hc] at h
        cases h
  · rintro ⟨zeros, rfl⟩
    induction zeros with
    | zero =>
      rw [List.replicate_zero, List.nil_append, decimalValue_digit 0 hd]
      simp [decimalValue]
    | succ zeros ih => exact (decimalValue_digit 0 (k := 0) (by omega) _).trans ih

theorem parseUnsigned_eq_digit {max d : ℕ} (hpos : 0 < d) (hd : d < 10) (hmax : d ≤ max) {s : Str} :
    parseUnsigned max s = some d ↔ ∃ sign zeros, (sign = [] ∨ sign = ['+']) ∧
      s = sign ++ (List.replicate zeros '0' ++ [Nat.digitChar d]) := by
  have hfilter : ∀ digits, (decimalValue 0 digits).filter (· ≤ max) = some d ↔
      ∃ zeros, digits = List.replicate zeros '0' ++ [Nat.digitChar d] := by
    intro digits
    rw [← decimalValue_eq_digit hpos hd, Option.filter_eq_some_iff]
    simp [hmax]
  have hdigits : ∀ zeros c rest, c :: rest = List.replicate zeros '0' ++ [Nat.digitChar d] →
      c.isDigit = true := by
    intro zeros c rest h
    have hc : c ∈ List.replicate zeros '0' ++ [Nat.digitChar d] := h ▸ List.mem_cons_self
    rcases List.mem_append.mp hc with hc | hc
    · rw [List.eq_of_mem_replicate hc]
      decide
    · rw [List.mem_singleton.mp hc]
      exact isDigit_iff.mpr ⟨d, hd, rfl⟩
  unfold parseUnsigned
  split
  · simp
  · constructor
    · nofun
    · rintro ⟨sign, zeros, rfl | rfl, h⟩
      · exact absurd (hdigits zeros _ _ h) (by decide)
      · simp at h
  · constructor
    · nofun
    · rintro ⟨sign, zeros, rfl | rfl, h⟩
      · exact absurd (hdigits zeros _ _ h) (by decide)
      · simp at h
  · rename_i digits _
    rw [hfilter]
    constructor
    · rintro ⟨zeros, rfl⟩
      exact ⟨['+'], zeros, .inr rfl, rfl⟩
    · rintro ⟨sign, zeros, rfl | rfl, h⟩
      · exact absurd (hdigits zeros _ _ h) (by decide)
      · exact ⟨zeros, (List.cons.inj h).2⟩
  · rename_i hplus
    rw [hfilter]
    constructor
    · rintro ⟨zeros, rfl⟩
      exact ⟨[], zeros, .inl rfl, rfl⟩
    · rintro ⟨sign, zeros, rfl | rfl, h⟩
      · exact ⟨zeros, h⟩
      · exact absurd h (hplus _)

def asBytes (s : Str) : Bytes := s.flatMap String.utf8EncodeChar

def fromUtf8 (bytes : Bytes) : Option Str := bytes.toByteArray.utf8Decode?.map Array.toList

@[simp] theorem fromUtf8_asBytes (s : Str) : fromUtf8 (asBytes s) = some s := by
  have h := List.utf8Decode?_utf8Encode (l := s)
  simp only [List.utf8Encode] at h
  simp [fromUtf8, asBytes, h]

example : fromUtf8 (asBytes "clé".toList) = some "clé".toList := by decide

theorem asBytes_append (s t : Str) : asBytes (s ++ t) = asBytes s ++ asBytes t :=
  List.flatMap_append

theorem asBytes_injective : Function.Injective asBytes := by
  intro s t h
  have hdecoded := congrArg fromUtf8 h
  rw [fromUtf8_asBytes, fromUtf8_asBytes] at hdecoded
  exact Option.some.inj hdecoded

theorem utf8EncodeChar_ascii {c : Char} (h : c.toNat < 128) :
    String.utf8EncodeChar c = [UInt8.ofNat c.toNat] := by
  have hle : c.toNat ≤ 127 := by omega
  simp [String.utf8EncodeChar, hle]

theorem asBytes_ascii {s : Str} (h : ∀ c ∈ s, c.toNat < 128) :
    asBytes s = s.map (fun c => UInt8.ofNat c.toNat) := by
  induction s with
  | nil => rfl
  | cons c s ih =>
    rw [List.map_cons, ← ih (fun d hd => h d (List.mem_cons_of_mem c hd)),
      ← List.singleton_append, asBytes_append]
    simp [asBytes, utf8EncodeChar_ascii (h c List.mem_cons_self)]

end RustStr
