import VaultwardenEso.Lib.Str

set_option autoImplicit false

/-!
# `application/x-www-form-urlencoded`

The serializer and the parser of the URL standard. Encoded text is ASCII, so it is a text like
any other here.
-/
namespace UrlStandard
open RustStr

/-! ## Bytes -/

def unchanged (b : UInt8) : Bool :=
  b == 0x2A || b == 0x2D || b == 0x2E || (0x30 ≤ b && b ≤ 0x39) || (0x41 ≤ b && b ≤ 0x5A) ||
  b == 0x5F || (0x61 ≤ b && b ≤ 0x7A)

def hexDigit (n : ℕ) : Char := Char.ofNat (if n < 10 then 48 + n else 55 + n)

def encodeByte (b : UInt8) : Str :=
  if unchanged b then [Char.ofNat b.toNat]
  else if b = 0x20 then ['+']
  else ['%', hexDigit (b.toNat / 16), hexDigit (b.toNat % 16)]

/-- A plus sign is a space; a percent sign that two hexadecimal digits do not follow is itself. -/
def decodeBytes : Str → Bytes
  | [] => []
  | ['%', a] => 0x25 :: decodeBytes [a]
  | '%' :: a :: b :: s =>
    match hexValue a, hexValue b with
    | some high, some low => UInt8.ofNat (16 * high + low) :: decodeBytes s
    | _, _ => 0x25 :: decodeBytes (a :: b :: s)
  | '+' :: s => 0x20 :: decodeBytes s
  | c :: s => String.utf8EncodeChar c ++ decodeBytes s

theorem hexValue_hexDigit {n : ℕ} (h : n < 16) : hexValue (hexDigit n) = some n := by
  have hall : ∀ m : Fin 16, hexValue (hexDigit m.val) = some m.val := by decide
  exact hall ⟨n, h⟩

theorem hexDigit_ne {n : ℕ} (h : n < 16) : hexDigit n ≠ '&' ∧ hexDigit n ≠ '=' := by
  have hall : ∀ m : Fin 16, hexDigit m.val ≠ '&' ∧ hexDigit m.val ≠ '=' := by decide
  exact hall ⟨n, h⟩

theorem unchanged_spec {b : UInt8} (h : unchanged b = true) :
    b.toNat < 128 ∧ b.toNat ≠ 0x25 ∧ b.toNat ≠ 0x26 ∧ b.toNat ≠ 0x2B ∧ b.toNat ≠ 0x3D := by
  simp only [unchanged, Bool.or_eq_true, Bool.and_eq_true, beq_iff_eq, decide_eq_true_eq,
    UInt8.le_iff_toNat_le, ← UInt8.toNat_inj, UInt8.reduceToNat] at h
  omega

theorem char_ofNat_toNat {n : ℕ} (h : n < 128) : (Char.ofNat n).toNat = n := by
  have hvalid : n.isValidChar := Or.inl (by omega)
  rw [Char.ofNat, dif_pos hvalid]
  rfl

theorem char_ofNat_ne {n : ℕ} {c : Char} (h : n < 128) (hc : n ≠ c.toNat) : Char.ofNat n ≠ c := by
  intro heq
  apply hc
  rw [← heq, char_ofNat_toNat h]

theorem decodeBytes_verbatim {c : Char} (hplus : c ≠ '+') (hpercent : c ≠ '%') (s : Str) :
    decodeBytes (c :: s) = String.utf8EncodeChar c ++ decodeBytes s := by
  rw [decodeBytes]
  · exact fun _ h => absurd h hpercent
  · exact fun _ _ _ h => absurd h hpercent
  · exact hplus

theorem decodeBytes_encodeByte (b : UInt8) (s : Str) :
    decodeBytes (encodeByte b ++ s) = b :: decodeBytes s := by
  have hb : b.toNat < 256 := b.toNat_lt
  unfold encodeByte
  split
  · rename_i hkept
    obtain ⟨hascii, hpercent, -, hplus, -⟩ := unchanged_spec hkept
    rw [List.singleton_append, decodeBytes_verbatim (char_ofNat_ne hascii hplus)
      (char_ofNat_ne hascii hpercent), utf8EncodeChar_ascii (by rwa [char_ofNat_toNat hascii]),
      char_ofNat_toNat hascii, UInt8.ofNat_toNat]
    rfl
  · split
    · rename_i hspace
      rw [hspace]
      simp [decodeBytes]
    · have hvalue : 16 * (b.toNat / 16) + b.toNat % 16 = b.toNat := Nat.div_add_mod _ 16
      simp only [List.cons_append, List.nil_append, decodeBytes,
        hexValue_hexDigit (show b.toNat / 16 < 16 by omega),
        hexValue_hexDigit (show b.toNat % 16 < 16 by omega), hvalue, UInt8.ofNat_toNat]

theorem separator_not_mem_encodeByte (b : UInt8) : '&' ∉ encodeByte b ∧ '=' ∉ encodeByte b := by
  have hb : b.toNat < 256 := b.toNat_lt
  unfold encodeByte
  split
  · rename_i hkept
    obtain ⟨hascii, -, hand, -, hequals⟩ := unchanged_spec hkept
    simp only [List.mem_singleton]
    exact ⟨(char_ofNat_ne (c := '&') hascii hand).symm, (char_ofNat_ne (c := '=') hascii hequals).symm⟩
  · split
    · decide
    · have hhigh := hexDigit_ne (show b.toNat / 16 < 16 by omega)
      have hlow := hexDigit_ne (show b.toNat % 16 < 16 by omega)
      simp [hhigh.1.symm, hhigh.2.symm, hlow.1.symm, hlow.2.symm]

/-! ## Names and values -/

def byteSerialize (s : Str) : Str := (asBytes s).flatMap encodeByte

def decodeText (s : Str) : Option Str := fromUtf8 (decodeBytes s)

theorem decodeBytes_flatMap (bytes : Bytes) (s : Str) :
    decodeBytes (bytes.flatMap encodeByte ++ s) = bytes ++ decodeBytes s := by
  induction bytes with
  | nil => rfl
  | cons b bytes ih =>
    rw [List.flatMap_cons, List.append_assoc, decodeBytes_encodeByte, ih, List.cons_append]

theorem decodeText_byteSerialize (s : Str) : decodeText (byteSerialize s) = some s := by
  have hbytes := decodeBytes_flatMap (asBytes s) []
  rw [List.append_nil, decodeBytes, List.append_nil] at hbytes
  rw [decodeText, byteSerialize, hbytes, fromUtf8_asBytes]

theorem separator_not_mem_byteSerialize (s : Str) :
    '&' ∉ byteSerialize s ∧ '=' ∉ byteSerialize s := by
  simp only [byteSerialize, List.mem_flatMap, not_exists, not_and]
  exact ⟨fun b _ => (separator_not_mem_encodeByte b).1, fun b _ => (separator_not_mem_encodeByte b).2⟩

/-! ## Pairs -/

def pairText (pair : Str × Str) : Str := byteSerialize pair.1 ++ '=' :: byteSerialize pair.2

def appendPair (target : Str) (pair : Str × Str) : Str :=
  (if target = [] then [] else target ++ ['&']) ++ pairText pair

def serialize (pairs : List (Str × Str)) : Str := pairs.foldl appendPair []

/-- The name ends at the first equals sign; without one the value is empty. -/
def readPair (piece : Str) : Option (Str × Str) := do
  let (name, value) := (splitOnce '=' piece).getD (piece, [])
  pure (← decodeText name, ← decodeText value)

/-- Pairs as the URL standard parses them, except that a text must be UTF-8. -/
def parse (s : Str) : Option (List (Str × Str)) :=
  ((split '&' s).filter (· ≠ [])).mapM readPair

theorem pairText_ne_nil (pair : Str × Str) : pairText pair ≠ [] := by simp [pairText]

theorem and_not_mem_pairText (pair : Str × Str) : '&' ∉ pairText pair := by
  have hname := (separator_not_mem_byteSerialize pair.1).1
  have hvalue := (separator_not_mem_byteSerialize pair.2).1
  simp [pairText, hname, hvalue]

theorem readPair_pairText (pair : Str × Str) : readPair (pairText pair) = some pair := by
  rw [readPair, pairText, splitOnce_append (separator_not_mem_byteSerialize pair.1).2,
    Option.getD_some]
  simp only [decodeText_byteSerialize]
  rfl

theorem intercalate_append_head {α : Type} (sep front head : List α) (pieces : List (List α)) :
    sep.intercalate ((front ++ head) :: pieces) = front ++ sep.intercalate (head :: pieces) := by
  cases pieces with
  | nil => simp
  | cons next pieces => simp [List.intercalate_cons_cons]

theorem foldl_appendPair {target : Str} (h : target ≠ []) (pairs : List (Str × Str)) :
    pairs.foldl appendPair target = ['&'].intercalate (target :: pairs.map pairText) := by
  induction pairs generalizing target with
  | nil => simp
  | cons pair pairs ih =>
    rw [List.foldl_cons, appendPair, if_neg h, ih (by simp), intercalate_append_head, List.map_cons,
      List.intercalate_cons_cons]

theorem serialize_eq (pairs : List (Str × Str)) :
    serialize pairs = ['&'].intercalate (pairs.map pairText) := by
  cases pairs with
  | nil => rfl
  | cons pair pairs =>
    rw [serialize, List.foldl_cons, appendPair, if_pos rfl, List.nil_append,
      foldl_appendPair (pairText_ne_nil pair), List.map_cons]

/-- A form is read back as the pairs that were written, whatever their texts are. -/
theorem parse_serialize (pairs : List (Str × Str)) : parse (serialize pairs) = some pairs := by
  cases pairs with
  | nil => rfl
  | cons pair pairs =>
    have hsplit : split '&' (serialize (pair :: pairs)) = (pair :: pairs).map pairText := by
      rw [serialize_eq]
      apply List.splitOn_intercalate
      · intro piece hpiece
        obtain ⟨written, -, rfl⟩ := List.mem_map.mp hpiece
        exact and_not_mem_pairText written
      · simp
    have hkept : ((pair :: pairs).map pairText).filter (· ≠ []) = (pair :: pairs).map pairText := by
      apply List.filter_eq_self.mpr
      intro piece hpiece
      obtain ⟨written, -, rfl⟩ := List.mem_map.mp hpiece
      exact decide_eq_true (pairText_ne_nil written)
    rw [parse, hsplit, hkept, List.mapM_map]
    generalize pair :: pairs = written
    induction written with
    | nil => rfl
    | cons pair written ih =>
      rw [List.mapM_cons, ih]
      simp [readPair_pairText]

example : serialize [("q".toList, "é&=+ %".toList), ("n".toList, [])] =
    "q=%C3%A9%26%3D%2B+%25&n=".toList := by decide

end UrlStandard
