import VaultwardenEso.Lib.Str
import Mathlib.Data.List.GetD

set_option autoImplicit false

/-! # The standard padded base64 alphabet, decoded strictly -/
namespace Base64
open RustStr

def alphabet : Str := "ABCDEFGHIJKLMNOPQRSTUVWXYZabcdefghijklmnopqrstuvwxyz0123456789+/".toList

def letter (n : ℕ) : Char := alphabet.getD n 'A'

def sextet (c : Char) : Option ℕ :=
  if 65 ≤ c.toNat ∧ c.toNat ≤ 90 then some (c.toNat - 65)
  else if 97 ≤ c.toNat ∧ c.toNat ≤ 122 then some (c.toNat - 71)
  else if 48 ≤ c.toNat ∧ c.toNat ≤ 57 then some (c.toNat + 4)
  else if c = '+' then some 62
  else if c = '/' then some 63
  else none

def encode : Bytes → Str
  | [] => []
  | [a] => [letter (a.toNat / 4), letter (a.toNat % 4 * 16), '=', '=']
  | [a, b] => [letter (a.toNat / 4), letter (a.toNat % 4 * 16 + b.toNat / 16),
      letter (b.toNat % 16 * 4), '=']
  | a :: b :: c :: rest => letter (a.toNat / 4) :: letter (a.toNat % 4 * 16 + b.toNat / 16) ::
      letter (b.toNat % 16 * 4 + c.toNat / 64) :: letter (c.toNat % 64) :: encode rest

/-- The last group may be padded, and the bits its padding leaves over must be zero. -/
def decode : Str → Option Bytes
  | [] => some []
  | w :: x :: y :: z :: rest =>
    if rest = [] ∧ z = '=' then
      if y = '=' then do
        let p ← sextet w
        let q ← sextet x
        if q % 16 = 0 then some [UInt8.ofNat (p * 4 + q / 16)] else none
      else do
        let p ← sextet w
        let q ← sextet x
        let r ← sextet y
        if r % 4 = 0 then some [UInt8.ofNat (p * 4 + q / 16), UInt8.ofNat (q % 16 * 16 + r / 4)] else none
    else do
      let p ← sextet w
      let q ← sextet x
      let r ← sextet y
      let s ← sextet z
      let bytes ← decode rest
      some (UInt8.ofNat (p * 4 + q / 16) :: UInt8.ofNat (q % 16 * 16 + r / 4) ::
        UInt8.ofNat (r % 4 * 64 + s) :: bytes)
  | _ => none

theorem sextet_letter {n : ℕ} (h : n < 64) : sextet (letter n) = some n := by
  have hall : ∀ m : Fin 64, sextet (letter m.val) = some m.val := by decide +kernel
  exact hall ⟨n, h⟩

theorem letter_mem (n : ℕ) : letter n ∈ alphabet := by
  unfold letter
  by_cases h : n < alphabet.length
  · rw [List.getD_eq_getElem _ _ h]
    exact List.getElem_mem h
  · rw [List.getD_eq_default _ _ (by omega)]
    decide

theorem letter_ne_pad (n : ℕ) : letter n ≠ '=' := by
  intro h
  have hmem := letter_mem n
  rw [h] at hmem
  exact absurd hmem (by decide)

private theorem ofNat_eq {a : UInt8} {n : ℕ} (h : n = a.toNat) : UInt8.ofNat n = a := by
  rw [h, UInt8.ofNat_toNat]

theorem decode_encode (bytes : Bytes) : decode (encode bytes) = some bytes := by
  induction bytes using encode.induct with
  | case1 => rfl
  | case2 a =>
    have ha := a.toNat_lt
    have hp : sextet (letter (a.toNat / 4)) = some (a.toNat / 4) := sextet_letter (by omega)
    have hq : sextet (letter (a.toNat % 4 * 16)) = some (a.toNat % 4 * 16) := sextet_letter (by omega)
    have hbits : a.toNat % 4 * 16 % 16 = 0 := by omega
    simp only [encode, decode, hp, hq, hbits, and_self, ↓reduceIte, bind, Option.bind,
      ofNat_eq (show a.toNat / 4 * 4 + a.toNat % 4 * 16 / 16 = a.toNat by omega)]
  | case3 a b =>
    have ha := a.toNat_lt
    have hb := b.toNat_lt
    have hp : sextet (letter (a.toNat / 4)) = some (a.toNat / 4) := sextet_letter (by omega)
    have hq : sextet (letter (a.toNat % 4 * 16 + b.toNat / 16)) =
      some (a.toNat % 4 * 16 + b.toNat / 16) := sextet_letter (by omega)
    have hr : sextet (letter (b.toNat % 16 * 4)) = some (b.toNat % 16 * 4) := sextet_letter (by omega)
    have hbits : b.toNat % 16 * 4 % 4 = 0 := by omega
    simp only [encode, decode, hp, hq, hr, hbits, letter_ne_pad, and_self, ↓reduceIte, bind, Option.bind,
      ofNat_eq (show a.toNat / 4 * 4 + (a.toNat % 4 * 16 + b.toNat / 16) / 16 = a.toNat by omega),
      ofNat_eq (show (a.toNat % 4 * 16 + b.toNat / 16) % 16 * 16 + b.toNat % 16 * 4 / 4 = b.toNat by omega)]
  | case4 a b c rest ih =>
    have ha := a.toNat_lt
    have hb := b.toNat_lt
    have hc := c.toNat_lt
    have hp : sextet (letter (a.toNat / 4)) = some (a.toNat / 4) := sextet_letter (by omega)
    have hq : sextet (letter (a.toNat % 4 * 16 + b.toNat / 16)) =
      some (a.toNat % 4 * 16 + b.toNat / 16) := sextet_letter (by omega)
    have hr : sextet (letter (b.toNat % 16 * 4 + c.toNat / 64)) =
      some (b.toNat % 16 * 4 + c.toNat / 64) := sextet_letter (by omega)
    have hs : sextet (letter (c.toNat % 64)) = some (c.toNat % 64) := sextet_letter (by omega)
    simp only [encode, decode, hp, hq, hr, hs, ih, letter_ne_pad, and_false, ↓reduceIte, bind, Option.bind,
      ofNat_eq (show a.toNat / 4 * 4 + (a.toNat % 4 * 16 + b.toNat / 16) / 16 = a.toNat by omega),
      ofNat_eq (show (a.toNat % 4 * 16 + b.toNat / 16) % 16 * 16 +
        (b.toNat % 16 * 4 + c.toNat / 64) / 4 = b.toNat by omega),
      ofNat_eq (show (b.toNat % 16 * 4 + c.toNat / 64) % 4 * 64 + c.toNat % 64 = c.toNat by omega)]

theorem encode_subset (bytes : Bytes) : ∀ c ∈ encode bytes, c ∈ '=' :: alphabet := by
  induction bytes using encode.induct with
  | case1 => simp [encode]
  | case2 a => simp [encode, letter_mem]
  | case3 a b => simp [encode, letter_mem]
  | case4 a b c rest ih =>
    intro d hd
    simp only [encode, List.mem_cons] at hd
    rcases hd with rfl | rfl | rfl | rfl | hd
    · exact List.mem_cons_of_mem _ (letter_mem _)
    · exact List.mem_cons_of_mem _ (letter_mem _)
    · exact List.mem_cons_of_mem _ (letter_mem _)
    · exact List.mem_cons_of_mem _ (letter_mem _)
    · exact ih d hd

theorem letter_run {count first start : ℕ}
    (hrun : ∀ m : Fin count, letter (m.val + start) = Char.ofNat (m.val + first)) {c : Char}
    (hlow : first ≤ c.toNat) (hhigh : c.toNat < first + count) :
    letter (c.toNat - first + start) = c := by
  have hletter := hrun ⟨c.toNat - first, by omega⟩
  rwa [Nat.sub_add_cancel hlow, Char.ofNat_toNat] at hletter

theorem letter_sextet {c : Char} {n : ℕ} (h : sextet c = some n) : n < 64 ∧ letter n = c := by
  have hupper : ∀ m : Fin 26, letter (m.val + 0) = Char.ofNat (m.val + 65) := by decide +kernel
  have hlower : ∀ m : Fin 26, letter (m.val + 26) = Char.ofNat (m.val + 97) := by decide +kernel
  have hdigit : ∀ m : Fin 10, letter (m.val + 52) = Char.ofNat (m.val + 48) := by decide +kernel
  unfold sextet at h
  split at h
  · rename_i hrange
    cases h
    exact ⟨by omega, letter_run hupper hrange.1 (by omega)⟩
  split at h
  · rename_i hrange
    cases h
    refine ⟨by omega, ?_⟩
    rw [show c.toNat - 71 = c.toNat - 97 + 26 by omega]
    exact letter_run hlower hrange.1 (by omega)
  split at h
  · rename_i hrange
    cases h
    refine ⟨by omega, ?_⟩
    rw [show c.toNat + 4 = c.toNat - 48 + 52 by omega]
    exact letter_run hdigit hrange.1 (by omega)
  split at h
  · rename_i hplus
    cases h
    exact ⟨by omega, hplus ▸ rfl⟩
  split at h
  · rename_i hslash
    cases h
    exact ⟨by omega, hslash ▸ rfl⟩
  · cases h

private theorem toNat_ofNat {n : ℕ} (h : n < 256) : (UInt8.ofNat n).toNat = n := by
  rw [UInt8.toNat_ofNat', Nat.mod_eq_of_lt h]

theorem encode_of_decode {text : Str} {bytes : Bytes} (h : decode text = some bytes) :
    encode bytes = text := by
  fun_induction decode text generalizing bytes with
  | case1 =>
    cases h
    rfl
  | case2 w x z rest hlast =>
    obtain ⟨p, hp, h⟩ := Option.bind_eq_some_iff.mp h
    obtain ⟨q, hq, h⟩ := Option.bind_eq_some_iff.mp h
    obtain ⟨hbits, h⟩ := Option.ite_none_right_eq_some.mp h
    cases h
    obtain ⟨hp, rfl⟩ := letter_sextet hp
    obtain ⟨hq, rfl⟩ := letter_sextet hq
    rw [hlast.1, hlast.2, encode, toNat_ofNat (by omega),
      show (p * 4 + q / 16) / 4 = p by omega, show (p * 4 + q / 16) % 4 * 16 = q by omega]
  | case3 w x y z rest hlast hpad =>
    obtain ⟨p, hp, h⟩ := Option.bind_eq_some_iff.mp h
    obtain ⟨q, hq, h⟩ := Option.bind_eq_some_iff.mp h
    obtain ⟨r, hr, h⟩ := Option.bind_eq_some_iff.mp h
    obtain ⟨hbits, h⟩ := Option.ite_none_right_eq_some.mp h
    cases h
    obtain ⟨hp, rfl⟩ := letter_sextet hp
    obtain ⟨hq, rfl⟩ := letter_sextet hq
    obtain ⟨hr, rfl⟩ := letter_sextet hr
    rw [hlast.1, hlast.2, encode, toNat_ofNat (by omega), toNat_ofNat (by omega),
      show (p * 4 + q / 16) / 4 = p by omega,
      show (p * 4 + q / 16) % 4 * 16 + (q % 16 * 16 + r / 4) / 16 = q by omega,
      show (q % 16 * 16 + r / 4) % 16 * 4 = r by omega]
  | case4 w x y z rest _ ih =>
    obtain ⟨p, hp, h⟩ := Option.bind_eq_some_iff.mp h
    obtain ⟨q, hq, h⟩ := Option.bind_eq_some_iff.mp h
    obtain ⟨r, hr, h⟩ := Option.bind_eq_some_iff.mp h
    obtain ⟨s, hs, h⟩ := Option.bind_eq_some_iff.mp h
    obtain ⟨tail, htail, h⟩ := Option.bind_eq_some_iff.mp h
    cases h
    obtain ⟨hp, rfl⟩ := letter_sextet hp
    obtain ⟨hq, rfl⟩ := letter_sextet hq
    obtain ⟨hr, rfl⟩ := letter_sextet hr
    obtain ⟨hs, rfl⟩ := letter_sextet hs
    rw [encode, ih htail, toNat_ofNat (by omega), toNat_ofNat (by omega), toNat_ofNat (by omega),
      show (p * 4 + q / 16) / 4 = p by omega,
      show (p * 4 + q / 16) % 4 * 16 + (q % 16 * 16 + r / 4) / 16 = q by omega,
      show (q % 16 * 16 + r / 4) % 16 * 4 + (r % 4 * 64 + s) / 64 = r by omega,
      show (r % 4 * 64 + s) % 64 = s by omega]
  | case5 => cases h

/-- Strict decoding accepts exactly the encodings. -/
theorem decode_eq_some {text : Str} {bytes : Bytes} :
    decode text = some bytes ↔ text = encode bytes := by
  constructor
  · intro h
    exact (encode_of_decode h).symm
  · rintro rfl
    exact decode_encode bytes

end Base64
