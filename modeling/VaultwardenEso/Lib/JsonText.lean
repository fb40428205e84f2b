import VaultwardenEso.Lib.Serde

set_option autoImplicit false

/-!
# JSON texts

A writer without white space and a reader for the grammar of JSON, so that there is a pair of
them that round-trips. A number with a fraction or an exponent, or out of the range of 64 bits,
keeps its text.
-/
namespace JsonText
open RustStr Serde

/-! ## Strings -/

def shortEscape (c : Char) : Option Char :=
  if c = '"' then some '"'
  else if c = '\\' then some '\\'
  else if c = '\x08' then some 'b'
  else if c = '\x0c' then some 'f'
  else if c = '\n' then some 'n'
  else if c = '\r' then some 'r'
  else if c = '\t' then some 't'
  else none

def escapeChar (c : Char) : Str :=
  match shortEscape c with
  | some letter => ['\\', letter]
  | none =>
    if c.toNat < 32 then
      ['\\', 'u', '0', '0', Nat.digitChar (c.toNat / 16), Nat.digitChar (c.toNat % 16)]
    else [c]

def writeString (s : Str) : Str := '"' :: (s.flatMap escapeChar ++ ['"'])

def unescape (letter : Char) : Option Char :=
  if letter = '"' then some '"'
  else if letter = '\\' then some '\\'
  else if letter = '/' then some '/'
  else if letter = 'b' then some '\x08'
  else if letter = 'f' then some '\x0c'
  else if letter = 'n' then some '\n'
  else if letter = 'r' then some '\r'
  else if letter = 't' then some '\t'
  else none

def hex4 (a b c d : Char) : Option ℕ := do
  let a ← hexValue a
  let b ← hexValue b
  let c ← hexValue c
  let d ← hexValue d
  pure (((a * 16 + b) * 16 + c) * 16 + d)

/-- Reads up to the closing quote and hands over what follows it. The two halves of a surrogate
pair are one character, and neither of them stands alone. -/
def readString : Str → Option (Str × Str)
  | [] => none
  | '"' :: s => some ([], s)
  | '\\' :: 'u' :: a :: b :: c :: d :: s =>
    match hex4 a b c d with
    | none => none
    | some n =>
      if 0xDC00 ≤ n ∧ n ≤ 0xDFFF then none
      else if 0xD800 ≤ n ∧ n ≤ 0xDBFF then
        match s with
        | '\\' :: 'u' :: a' :: b' :: c' :: d' :: s =>
          match hex4 a' b' c' d' with
          | none => none
          | some m =>
            if 0xDC00 ≤ m ∧ m ≤ 0xDFFF then
              (readString s).map (fun p =>
                (Char.ofNat (0x10000 + (n - 0xD800) * 0x400 + (m - 0xDC00)) :: p.1, p.2))
            else none
        | _ => none
      else (readString s).map (fun p => (Char.ofNat n :: p.1, p.2))
  | '\\' :: letter :: s =>
    match unescape letter with
    | none => none
    | some c => (readString s).map (fun p => (c :: p.1, p.2))
  | c :: s => if c.toNat < 32 then none else (readString s).map (fun p => (c :: p.1, p.2))

theorem readString_plain {c : Char} (hquote : c ≠ '"') (hbackslash : c ≠ '\\') (h : 32 ≤ c.toNat)
    (s : Str) : readString (c :: s) = (readString s).map (fun p => (c :: p.1, p.2)) := by
  rw [readString, if_neg (by omega)]
  · exact hquote
  · exact fun _ _ _ _ _ hc => absurd hc hbackslash
  · exact fun _ _ hc => absurd hc hbackslash

theorem readString_letter {letter c : Char} (h : unescape letter = some c) (s : Str) :
    readString ('\\' :: letter :: s) = (readString s).map (fun p => (c :: p.1, p.2)) := by
  have hu : letter ≠ 'u' := by
    rintro rfl
    cases h
  rw [readString, h]
  exact fun _ _ _ _ _ hc => absurd hc hu

theorem unescape_shortEscape {c letter : Char} (h : shortEscape c = some letter) :
    unescape letter = some c := by
  unfold shortEscape at h
  split_ifs at h with h1 h2 h3 h4 h5 h6 h7
  all_goals
    cases h
    subst c
    rfl

theorem readString_escapeChar (c : Char) (s : Str) :
    readString (escapeChar c ++ s) = (readString s).map (fun p => (c :: p.1, p.2)) := by
  unfold escapeChar
  cases hshort : shortEscape c with
  | some letter => exact readString_letter (unescape_shortEscape hshort) s
  | none =>
    dsimp only
    split
    · rename_i hcontrol
      have hhigh := hexValue_digitChar (show c.toNat / 16 < 16 by omega)
      have hlow := hexValue_digitChar (show c.toNat % 16 < 16 by omega)
      have hvalue : hex4 '0' '0' (Nat.digitChar (c.toNat / 16)) (Nat.digitChar (c.toNat % 16)) =
          some c.toNat := by
        have hzero : hexValue '0' = some 0 := by decide
        rw [hex4, hzero, hhigh, hlow]
        refine congrArg some ?_
        omega
      simp only [List.cons_append, List.nil_append]
      rw [readString, hvalue]
      dsimp only
      rw [if_neg (by omega), if_neg (by omega), Char.ofNat_toNat]
    · rename_i hprinting
      refine readString_plain ?_ ?_ (by omega) s
      · rintro rfl
        cases hshort
      · rintro rfl
        cases hshort

theorem readString_writeString (s rest : Str) :
    readString (s.flatMap escapeChar ++ '"' :: rest) = some (s, rest) := by
  induction s with
  | nil => rfl
  | cons c s ih =>
    rw [List.flatMap_cons, List.append_assoc, readString_escapeChar, ih]
    rfl

/-! ## Numbers -/

def readFraction : Str → Option (Str × Str)
  | '.' :: s =>
    if (s.takeWhile Char.isDigit) = [] then none
    else some ('.' :: s.takeWhile Char.isDigit, s.dropWhile Char.isDigit)
  | s => some ([], s)

def readExponent : Str → Option (Str × Str)
  | [] => some ([], [])
  | e :: s =>
    if e = 'e' ∨ e = 'E' then
      let sign := s.takeWhile (fun c => c = '+' ∨ c = '-')
      let digits := (s.drop sign.length).takeWhile Char.isDigit
      if sign.length ≤ 1 ∧ digits ≠ [] then
        some (e :: (sign ++ digits), s.drop (sign.length + digits.length))
      else none
    else some ([], e :: s)

/-- A whole number: what does not fit into 64 bits is a float, and so is the negative zero. -/
def wholeNumber (negative : Bool) (digits : Str) : Json :=
  let n := (decimalValue 0 digits).getD 0
  if negative then
    if 0 < n ∧ n ≤ 2 ^ 63 then .int (-n) else .float ('-' :: digits)
  else if n < 2 ^ 64 then .int n else .float digits

def readUnsigned (negative : Bool) (s : Str) : Option (Json × Str) :=
  let digits := s.takeWhile Char.isDigit
  if digits = [] ∨ (digits.head? = some '0' ∧ 1 < digits.length) then none
  else do
    let (fraction, rest) ← readFraction (s.dropWhile Char.isDigit)
    let (exponent, rest) ← readExponent rest
    if fraction = [] ∧ exponent = [] then pure (wholeNumber negative digits, rest)
    else pure (.float ((if negative then ['-'] else []) ++ digits ++ fraction ++ exponent), rest)

def readNumber : Str → Option (Json × Str)
  | '-' :: s => readUnsigned true s
  | s => readUnsigned false s

def writeInt (i : ℤ) : Str :=
  if i < 0 then '-' :: Nat.toDigits 10 i.natAbs else Nat.toDigits 10 i.natAbs

/-- What may follow a value inside a text. -/
def Ends (rest : Str) : Prop := ∀ c ∈ rest.head?, c = ',' ∨ c = ']' ∨ c = '}'

theorem toDigits_ne_nil (n : ℕ) : Nat.toDigits 10 n ≠ [] := by
  rcases Nat.lt_or_ge n 10 with hlt | hge
  · rw [Nat.toDigits_of_lt_base hlt]
    exact List.cons_ne_nil _ _
  · rw [Nat.toDigits_of_base_le (by omega) hge]
    simp

theorem toDigits_head {n : ℕ} (h : (Nat.toDigits 10 n).head? = some '0') : n = 0 := by
  induction n using Nat.strongRecOn with
  | ind n ih =>
    rcases Nat.lt_or_ge n 10 with hlt | hge
    · rw [Nat.toDigits_of_lt_base hlt] at h
      have hall : ∀ m : Fin 10, Nat.digitChar m.val = '0' → m.val = 0 := by decide
      exact hall ⟨n, hlt⟩ (Option.some.inj h)
    · rw [Nat.toDigits_of_base_le (by omega) hge,
        List.head?_append_of_ne_nil _ (toDigits_ne_nil (n / 10))] at h
      have hzero := ih (n / 10) (by omega) h
      omega

theorem toDigits_not_padded (n : ℕ) :
    ¬ ((Nat.toDigits 10 n).head? = some '0' ∧ 1 < (Nat.toDigits 10 n).length) := by
  intro h
  obtain ⟨hhead, hlength⟩ := h
  rw [toDigits_head hhead, Nat.toDigits_zero] at hlength
  exact absurd hlength (by decide)

theorem ends_nil : Ends [] := by
  intro c hc
  cases hc

theorem Ends.not_digit {rest : Str} (h : Ends rest) : rest.takeWhile Char.isDigit = [] ∧
    rest.dropWhile Char.isDigit = rest := by
  cases rest with
  | nil => exact ⟨rfl, rfl⟩
  | cons c rest =>
    have hc : c.isDigit = false := by
      rcases h c rfl with rfl | rfl | rfl <;> rfl
    simp [hc]

theorem Ends.readFraction {rest : Str} (h : Ends rest) : readFraction rest = some ([], rest) := by
  cases rest with
  | nil => rfl
  | cons c rest => rcases h c rfl with rfl | rfl | rfl <;> rfl

theorem Ends.readExponent {rest : Str} (h : Ends rest) : readExponent rest = some ([], rest) := by
  cases rest with
  | nil => rfl
  | cons c rest => rcases h c rfl with rfl | rfl | rfl <;> rfl

theorem readUnsigned_toDigits (negative : Bool) (n : ℕ) {rest : Str} (h : Ends rest) :
    readUnsigned negative (Nat.toDigits 10 n ++ rest) =
      some (wholeNumber negative (Nat.toDigits 10 n), rest) := by
  have hdigits : ∀ c ∈ Nat.toDigits 10 n, c.isDigit = true := by
    intro c hc
    exact Nat.isDigit_of_mem_toDigits (by omega) (by omega) hc
  have htake : (Nat.toDigits 10 n ++ rest).takeWhile Char.isDigit = Nat.toDigits 10 n := by
    rw [List.takeWhile_append_of_pos hdigits, h.not_digit.1, List.append_nil]
  have hdrop : (Nat.toDigits 10 n ++ rest).dropWhile Char.isDigit = rest := by
    rw [List.dropWhile_append_of_pos hdigits, h.not_digit.2]
  unfold readUnsigned
  simp only [htake, hdrop, h.readFraction]
  rw [if_neg]
  · simp [h.readExponent]
  · simp only [not_or]
    exact ⟨toDigits_ne_nil n, toDigits_not_padded n⟩

theorem wholeNumber_toDigits {i : ℤ} (hlow : -2 ^ 63 ≤ i) (hhigh : i < 2 ^ 64) :
    wholeNumber (decide (i < 0)) (Nat.toDigits 10 i.natAbs) = .int i := by
  unfold wholeNumber
  rw [decimalValue_toDigits, Option.getD_some]
  by_cases hneg : i < 0
  · have hvalue : -(i.natAbs : ℤ) = i := by omega
    have hfits : 0 < i.natAbs ∧ i.natAbs ≤ 2 ^ 63 := by omega
    simp only [decide_eq_true hneg, if_true, if_pos hfits, hvalue]
  · have hvalue : (i.natAbs : ℤ) = i := by omega
    have hfits : i.natAbs < 2 ^ 64 := by omega
    simp only [decide_eq_false hneg, Bool.false_eq_true, if_false, if_pos hfits, hvalue]

theorem toDigits_ne_minus (n : ℕ) (rest s : Str) : Nat.toDigits 10 n ++ rest ≠ '-' :: s := by
  intro h
  obtain ⟨c, digits, hdigits⟩ := List.exists_cons_of_ne_nil (toDigits_ne_nil n)
  have hc : c.isDigit = true :=
    Nat.isDigit_of_mem_toDigits (b := 10) (n := n) (by omega) (by omega)
      (hdigits ▸ List.mem_cons_self)
  rw [hdigits, List.cons_append, List.cons.injEq] at h
  rw [h.1] at hc
  exact absurd hc (by decide)

theorem readNumber_writeInt {i : ℤ} (hlow : -2 ^ 63 ≤ i) (hhigh : i < 2 ^ 64) {rest : Str}
    (h : Ends rest) : readNumber (writeInt i ++ rest) = some (.int i, rest) := by
  have hwhole := wholeNumber_toDigits hlow hhigh
  unfold writeInt
  split
  · rename_i hneg
    rw [decide_eq_true hneg] at hwhole
    rw [List.cons_append, readNumber, readUnsigned_toDigits true i.natAbs h, hwhole]
  · rename_i hpos
    rw [decide_eq_false hpos] at hwhole
    rw [readNumber, readUnsigned_toDigits false i.natAbs h, hwhole]
    exact toDigits_ne_minus i.natAbs rest

/-! ## Values -/

def isBlank (c : Char) : Bool := c == ' ' || c == '\n' || c == '\r' || c == '\t'

def skip (s : Str) : Str := s.dropWhile isBlank

mutual

def write : Json → Str
  | .null => "null".toList
  | .bool b => if b then "true".toList else "false".toList
  | .int i => writeInt i
  | .float raw => raw
  | .str s => writeString s
  | .arr items => '[' :: writeItems items
  | .obj members => '\x7b' :: writeMembers members

def writeItems : List Json → Str
  | [] => [']']
  | item :: items => write item ++ writeMoreItems items

def writeMoreItems : List Json → Str
  | [] => [']']
  | item :: items => ',' :: (write item ++ writeMoreItems items)

def writeMembers : List (Str × Json) → Str
  | [] => ['\x7d']
  | member :: members => writeMember member ++ writeMoreMembers members

def writeMoreMembers : List (Str × Json) → Str
  | [] => ['\x7d']
  | member :: members => ',' :: (writeMember member ++ writeMoreMembers members)

def writeMember : Str × Json → Str
  | (name, value) => writeString name ++ ':' :: write value

end

mutual

/-- A value and what follows it; every step into the text takes a unit of fuel. -/
def readValue : ℕ → Str → Option (Json × Str)
  | 0, _ => none
  | fuel + 1, s =>
    match skip s with
    | [] => none
    | c :: t =>
      if c = '"' then (readString t).map (fun p => (.str p.1, p.2))
      else if c = '[' then
        if (skip t).head? = some ']' then some (.arr [], (skip t).tail)
        else do
          let (item, t) ← readValue fuel t
          let (items, t) ← readMoreItems fuel t
          pure (.arr (item :: items), t)
      else if c = '\x7b' then
        if (skip t).head? = some '\x7d' then some (.obj [], (skip t).tail)
        else do
          let (member, t) ← readMember fuel t
          let (members, t) ← readMoreMembers fuel t
          pure (.obj (member :: members), t)
      else if c = 'n' then (stripPrefix "ull".toList t).map (fun t => (.null, t))
      else if c = 't' then (stripPrefix "rue".toList t).map (fun t => (.bool true, t))
      else if c = 'f' then (stripPrefix "alse".toList t).map (fun t => (.bool false, t))
      else readNumber (c :: t)

def readMoreItems : ℕ → Str → Option (List Json × Str)
  | 0, _ => none
  | fuel + 1, s =>
    match skip s with
    | [] => none
    | c :: t =>
      if c = ']' then some ([], t)
      else if c = ',' then do
        let (item, t) ← readValue fuel t
        let (items, t) ← readMoreItems fuel t
        pure (item :: items, t)
      else none

def readMoreMembers : ℕ → Str → Option (List (Str × Json) × Str)
  | 0, _ => none
  | fuel + 1, s =>
    match skip s with
    | [] => none
    | c :: t =>
      if c = '\x7d' then some ([], t)
      else if c = ',' then do
        let (member, t) ← readMember fuel t
        let (members, t) ← readMoreMembers fuel t
        pure (member :: members, t)
      else none

def readMember : ℕ → Str → Option ((Str × Json) × Str)
  | 0, _ => none
  | fuel + 1, s =>
    match skip s with
    | [] => none
    | c :: t =>
      if c = '"' then do
        let (name, t) ← readString t
        if (skip t).head? = some ':' then do
          let (value, t) ← readValue fuel (skip t).tail
          pure ((name, value), t)
        else none
      else none

end

def parse (s : Str) : Option Json :=
  (readValue (s.length + 1) s).bind (fun p => if skip p.2 = [] then some p.1 else none)

/-- The trees that are read back: whole numbers of 64 bits and no others. -/
inductive Writable : Json → Prop
  | null : Writable .null
  | bool (b : Bool) : Writable (.bool b)
  | int (i : ℤ) (hlow : -2 ^ 63 ≤ i) (hhigh : i < 2 ^ 64) : Writable (.int i)
  | str (s : Str) : Writable (.str s)
  | arr (items : List Json) (h : ∀ item ∈ items, Writable item) : Writable (.arr items)
  | obj (members : List (Str × Json)) (h : ∀ member ∈ members, Writable member.2) :
    Writable (.obj members)

/-- The value is read back from any text that goes on behind it as an array or object does. -/
def ReadsBack (j : Json) : Prop :=
  ∀ (fuel : ℕ) (rest : Str), (write j).length < fuel → Ends rest →
    readValue fuel (write j ++ rest) = some (j, rest)

theorem skip_cons {c : Char} (h : isBlank c = false) (s : Str) : skip (c :: s) = c :: s := by
  simp [skip, h]

theorem writeInt_head (i : ℤ) : ∃ c s, writeInt i = c :: s ∧ (c.isDigit = true ∨ c = '-') := by
  unfold writeInt
  split
  · exact ⟨_, _, rfl, .inr rfl⟩
  · obtain ⟨c, digits, hdigits⟩ := List.exists_cons_of_ne_nil (toDigits_ne_nil i.natAbs)
    refine ⟨c, digits, hdigits, .inl ?_⟩
    exact Nat.isDigit_of_mem_toDigits (b := 10) (n := i.natAbs) (by omega) (by omega)
      (hdigits ▸ List.mem_cons_self)

theorem numberStart_ne {c d : Char} (h : c.isDigit = true ∨ c = '-')
    (hdigit : d.isDigit = false) (hminus : d ≠ '-') : c ≠ d := by
  rintro rfl
  rcases h with hc | hc
  · rw [hdigit] at hc
    cases hc
  · exact hminus hc

theorem write_head {j : Json} (h : Writable j) :
    ∃ c s, write j = c :: s ∧ isBlank c = false ∧ c ≠ ']' := by
  cases h with
  | null => exact ⟨_, _, rfl, rfl, by decide⟩
  | bool b => cases b <;> exact ⟨_, _, rfl, rfl, by decide⟩
  | int i hlow hhigh =>
    obtain ⟨c, s, hwrite, hc⟩ := writeInt_head i
    refine ⟨c, s, hwrite, ?_, numberStart_ne hc rfl (by decide)⟩
    rw [Bool.eq_false_iff]
    intro hblank
    simp only [isBlank, Bool.or_eq_true, beq_iff_eq] at hblank
    rcases hblank with ((rfl | rfl) | rfl) | rfl <;> exact absurd hc (by decide)
  | str s => exact ⟨_, _, rfl, rfl, by decide⟩
  | arr items h => exact ⟨_, _, rfl, rfl, by decide⟩
  | obj members h => exact ⟨_, _, rfl, rfl, by decide⟩

theorem ends_writeMoreItems (items : List Json) (rest : Str) : Ends (writeMoreItems items ++ rest) := by
  cases items with
  | nil =>
    intro c hc
    cases hc
    exact .inr (.inl rfl)
  | cons item items =>
    intro c hc
    cases hc
    exact .inl rfl

theorem ends_writeMoreMembers (members : List (Str × Json)) (rest : Str) :
    Ends (writeMoreMembers members ++ rest) := by
  cases members with
  | nil =>
    intro c hc
    cases hc
    exact .inr (.inr rfl)
  | cons member members =>
    intro c hc
    cases hc
    exact .inl rfl

theorem readsBack_int {i : ℤ} (hlow : -2 ^ 63 ≤ i) (hhigh : i < 2 ^ 64) : ReadsBack (.int i) := by
  intro fuel rest hfuel hrest
  obtain ⟨c, s, hwrite, hc⟩ := writeInt_head i
  obtain ⟨d, t, hhead, hblank, -⟩ := write_head (.int i hlow hhigh)
  cases fuel with
  | zero => omega
  | succ fuel =>
    have hnumber := readNumber_writeInt hlow hhigh hrest
    obtain rfl : c = d := (List.cons.inj (hwrite.symm.trans hhead)).1
    rw [write, readValue]
    rw [hwrite, List.cons_append] at hnumber ⊢
    rw [skip_cons hblank]
    dsimp only
    rw [if_neg (numberStart_ne hc rfl (by decide)), if_neg (numberStart_ne hc rfl (by decide)),
      if_neg (numberStart_ne hc rfl (by decide)), if_neg (numberStart_ne hc rfl (by decide)),
      if_neg (numberStart_ne hc rfl (by decide)), if_neg (numberStart_ne hc rfl (by decide)), hnumber]

theorem readsBack_str (s : Str) : ReadsBack (.str s) := by
  intro fuel rest hfuel hrest
  cases fuel with
  | zero => omega
  | succ fuel =>
    rw [write, writeString, readValue, List.cons_append, skip_cons rfl]
    dsimp only
    rw [if_pos rfl, List.append_assoc, List.singleton_append, readString_writeString]
    rfl

theorem readMoreItems_write {items : List Json} (h : ∀ item ∈ items, ReadsBack item) (fuel : ℕ)
    (rest : Str) (hfuel : (writeMoreItems items).length < fuel) :
    readMoreItems fuel (writeMoreItems items ++ rest) = some (items, rest) := by
  induction items generalizing fuel with
  | nil =>
    cases fuel with
    | zero => omega
    | succ fuel => rfl
  | cons item items ih =>
    cases fuel with
    | zero => omega
    | succ fuel =>
      rw [writeMoreItems, List.length_cons, List.length_append] at hfuel
      have hitem := h item List.mem_cons_self fuel (writeMoreItems items ++ rest) (by omega)
        (ends_writeMoreItems items rest)
      have hitems := ih (fun next hnext => h next (List.mem_cons_of_mem item hnext)) fuel (by omega)
      rw [writeMoreItems, readMoreItems, List.cons_append, skip_cons rfl]
      dsimp only
      rw [if_neg (by decide), if_pos rfl, List.append_assoc, hitem]
      simp only [Option.bind_eq_bind, Option.bind_some, hitems]
      rfl

theorem readMember_write {member : Str × Json} (h : ReadsBack member.2)
    (hvalue : Writable member.2) (fuel : ℕ) (rest : Str)
    (hfuel : (writeMember member).length < fuel) (hrest : Ends rest) :
    readMember fuel (writeMember member ++ rest) = some (member, rest) := by
  obtain ⟨name, value⟩ := member
  cases fuel with
  | zero => omega
  | succ fuel =>
    rw [writeMember, writeString] at hfuel ⊢
    simp only [List.length_append, List.length_cons] at hfuel
    obtain ⟨c, s, hwrite, hblank, -⟩ := write_head hvalue
    have hread := h fuel rest (by dsimp only; omega) hrest
    have htext : '"' :: (name.flatMap escapeChar ++ ['"']) ++ ':' :: write value ++ rest =
        '"' :: (name.flatMap escapeChar ++ '"' :: (':' :: (write value ++ rest))) := by simp
    rw [htext, readMember, skip_cons rfl]
    dsimp only
    rw [if_pos rfl, readString_writeString]
    simp only [Option.bind_eq_bind, Option.bind_some]
    rw [skip_cons rfl, List.head?_cons, if_pos rfl, List.tail_cons]
    dsimp only at hread
    rw [hread]
    rfl

theorem readMoreMembers_write {members : List (Str × Json)}
    (h : ∀ member ∈ members, ReadsBack member.2) (hvalues : ∀ member ∈ members, Writable member.2)
    (fuel : ℕ) (rest : Str) (hfuel : (writeMoreMembers members).length < fuel) :
    readMoreMembers fuel (writeMoreMembers members ++ rest) = some (members, rest) := by
  induction members generalizing fuel with
  | nil =>
    cases fuel with
    | zero => omega
    | succ fuel => rfl
  | cons member members ih =>
    cases fuel with
    | zero => omega
    | succ fuel =>
      rw [writeMoreMembers, List.length_cons, List.length_append] at hfuel
      have hmember := readMember_write (h member List.mem_cons_self)
        (hvalues member List.mem_cons_self) fuel (writeMoreMembers members ++ rest) (by omega)
        (ends_writeMoreMembers members rest)
      have hmembers := ih (fun next hnext => h next (List.mem_cons_of_mem member hnext))
        (fun next hnext => hvalues next (List.mem_cons_of_mem member hnext)) fuel (by omega)
      rw [writeMoreMembers, readMoreMembers, List.cons_append, skip_cons rfl]
      dsimp only
      rw [if_neg (by decide), if_pos rfl, List.append_assoc, hmember]
      simp only [Option.bind_eq_bind, Option.bind_some, hmembers]
      rfl

theorem readsBack_arr {items : List Json} (h : ∀ item ∈ items, ReadsBack item)
    (hitems : ∀ item ∈ items, Writable item) : ReadsBack (.arr items) := by
  intro fuel rest hfuel hrest
  cases fuel with
  | zero => omega
  | succ fuel =>
    cases items with
    | nil => rfl
    | cons item items =>
      rw [write, writeItems, List.length_cons, List.length_append] at hfuel
      obtain ⟨c, s, hwrite, hblank, hne⟩ := write_head (hitems item List.mem_cons_self)
      have hitem := h item List.mem_cons_self fuel (writeMoreItems items ++ rest) (by omega)
        (ends_writeMoreItems items rest)
      have hmore := readMoreItems_write
        (fun next hnext => h next (List.mem_cons_of_mem item hnext)) fuel rest (by omega)
      have hopen : ¬ (skip (write item ++ (writeMoreItems items ++ rest))).head? = some ']' := by
        rw [hwrite, List.cons_append, skip_cons hblank]
        intro heq
        exact hne (Option.some.inj heq)
      rw [write, writeItems, readValue, List.cons_append, skip_cons rfl]
      dsimp only
      rw [if_neg (by decide), if_pos rfl, List.append_assoc, if_neg hopen, hitem]
      simp only [Option.bind_eq_bind, Option.bind_some, hmore]
      rfl

theorem readsBack_obj {members : List (Str × Json)}
    (h : ∀ member ∈ members, ReadsBack member.2)
    (hvalues : ∀ member ∈ members, Writable member.2) : ReadsBack (.obj members) := by
  intro fuel rest hfuel hrest
  cases fuel with
  | zero => omega
  | succ fuel =>
    cases members with
    | nil => rfl
    | cons member members =>
      rw [write, writeMembers, List.length_cons, List.length_append] at hfuel
      have hmember := readMember_write (h member List.mem_cons_self)
        (hvalues member List.mem_cons_self) fuel (writeMoreMembers members ++ rest) (by omega)
        (ends_writeMoreMembers members rest)
      have hmore := readMoreMembers_write
        (fun next hnext => h next (List.mem_cons_of_mem member hnext))
        (fun next hnext => hvalues next (List.mem_cons_of_mem member hnext)) fuel rest (by omega)
      have hopen : ¬ (skip (writeMember member ++ (writeMoreMembers members ++ rest))).head? =
          some '\x7d' := by
        obtain ⟨name, value⟩ := member
        rw [writeMember, writeString, List.cons_append, List.cons_append, skip_cons rfl]
        exact fun heq => absurd (Option.some.inj heq) (by decide)
      rw [write, writeMembers, readValue, List.cons_append, skip_cons rfl]
      dsimp only
      rw [if_neg (by decide), if_neg (by decide), if_pos rfl, List.append_assoc, if_neg hopen,
        hmember]
      simp only [Option.bind_eq_bind, Option.bind_some, hmore]
      rfl

theorem readsBack_word {c : Char} {word : Str} {j : Json} (hwrite : write j = c :: word)
    (hread : ∀ fuel rest, readValue (fuel + 1) (c :: (word ++ rest)) = some (j, rest)) :
    ReadsBack j := by
  intro fuel rest hfuel hrest
  cases fuel with
  | zero => omega
  | succ fuel =>
    rw [hwrite, List.cons_append]
    exact hread fuel rest

theorem Writable.readsBack {j : Json} (h : Writable j) : ReadsBack j := by
  induction h with
  | null => exact readsBack_word rfl fun fuel rest => rfl
  | bool b => cases b <;> exact readsBack_word rfl fun fuel rest => rfl
  | int i hlow hhigh => exact readsBack_int hlow hhigh
  | str s => exact readsBack_str s
  | arr items hitems ih => exact readsBack_arr ih hitems
  | obj members hmembers ih => exact readsBack_obj ih hmembers

/-- What is written is read back. -/
theorem parse_write {j : Json} (h : Writable j) : parse (write j) = some j := by
  have hread := h.readsBack ((write j).length + 1) [] (Nat.lt_succ_self _) ends_nil
  rw [List.append_nil] at hread
  rw [parse, hread]
  rfl

theorem Writable.of_textual {j : Json} (h : Textual j) : Writable j := by
  induction h with
  | null => exact .null
  | str s => exact .str s
  | obj members _ _ ih => exact .obj members ih

def serdeJson : SerdeJson where
  toVec := fun j => asBytes (write j)
  fromSlice := fun bytes => (fromUtf8 bytes).bind parse

theorem serdeJson_roundTrips : serdeJson.RoundTrips := by
  intro j h
  simp only [serdeJson, fromUtf8_asBytes, Option.bind_some, parse_write (.of_textual h)]

example : write (.obj [("a".toList, .arr [.int (-7), .null]), ("b".toList, .str "\n\x01é".toList)]) =
    "\x7b\"a\":[-7,null],\"b\":\"\\n\\u0001é\"\x7d".toList := by
  decide

end JsonText
