import VaultwardenEso.CryptoSealing
import VaultwardenEso.Lib.Base64

set_option autoImplicit false

/-!
# Primitives replayed from a recording

Base64 is computed. AES-256-CBC and HMAC-SHA256 answer from recorded calls; off
the recording the cipher only pads and the tag is constant. Any recording whose
ciphertexts cannot be mistaken for padded plaintexts satisfies `Inverts`, so
concrete vectors of the real primitives can stand for them.
-/
namespace VaultwardenEso.Crypto
open RustStr

structure CbcCall where
  key : Bytes
  iv : Bytes
  plain : Bytes
  data : Bytes
  deriving DecidableEq

structure HmacCall where
  key : Bytes
  message : Bytes
  tag : Bytes
  deriving DecidableEq

structure Recording where
  cbc : List CbcCall
  hmac : List HmacCall

/-- PKCS#7 padding to 16-byte blocks. -/
def pad (plain : Bytes) : Bytes :=
  plain ++ List.replicate (16 - plain.length % 16) (UInt8.ofNat (16 - plain.length % 16))

def unpad (data : Bytes) : Option Bytes :=
  match data.getLast? with
  | some n => if 1 ≤ n.toNat ∧ n.toNat ≤ 16 then some (data.take (data.length - n.toNat)) else none
  | none => none

theorem pad_getLast? (plain : Bytes) :
    (pad plain).getLast? = some (UInt8.ofNat (16 - plain.length % 16)) := by
  have hpos : 16 - plain.length % 16 ≠ 0 := by omega
  simp [pad, List.getLast?_append, List.getLast?_replicate, hpos]

theorem padding_toNat (plain : Bytes) :
    (UInt8.ofNat (16 - plain.length % 16)).toNat = 16 - plain.length % 16 := by
  rw [UInt8.toNat_ofNat', Nat.mod_eq_of_lt (by omega)]

theorem unpad_pad (plain : Bytes) : unpad (pad plain) = some plain := by
  unfold unpad
  simp only [pad_getLast?, padding_toNat]
  rw [if_pos (by omega)]
  simp [pad]

namespace Recording

def encrypt (t : Recording) (key iv plain : Bytes) : Bytes :=
  match t.cbc.find? (fun call => call.key = key ∧ call.iv = iv ∧ call.plain = plain) with
  | some call => call.data
  | none => pad plain

def decrypt (t : Recording) (key iv data : Bytes) : Option Bytes :=
  match t.cbc.find? (fun call => call.key = key ∧ call.iv = iv ∧ call.data = data) with
  | some call => some call.plain
  | none => unpad data

def tag (t : Recording) (key message : Bytes) : Bytes :=
  match t.hmac.find? (fun call => call.key = key ∧ call.message = message) with
  | some call => call.tag
  | none => List.replicate hmacSha256Length 0

def primitives (t : Recording) : Primitives :=
  ⟨Base64.decode, fun key => some (t.tag key), t.decrypt⟩

def encoders (t : Recording) : Encoders := ⟨Base64.encode, t.encrypt⟩

/-- Every recorded ciphertext is whole blocks ending in a byte that is no padding, no two
    calls clash, and every recorded tag has 32 bytes. -/
def Consistent (t : Recording) : Prop :=
  (∀ call ∈ t.cbc, t.decrypt call.key call.iv call.data = some call.plain ∧
    call.data.length % aesCbcIvLength = 0 ∧ ∃ n ∈ call.data.getLast?, 16 < n.toNat) ∧
  ∀ call ∈ t.hmac, call.tag.length = hmacSha256Length

theorem decrypt_encrypt {t : Recording} (ht : t.Consistent) (key iv plain : Bytes) :
    t.decrypt key iv (t.encrypt key iv plain) = some plain := by
  cases hfind : t.cbc.find? (fun call => call.key = key ∧ call.iv = iv ∧ call.plain = plain) with
  | some call =>
    have hmem := List.mem_of_find?_eq_some hfind
    have hcall := List.find?_some hfind
    simp only [decide_eq_true_eq] at hcall
    obtain ⟨rfl, rfl, rfl⟩ := hcall
    simp only [encrypt, hfind]
    exact (ht.1 call hmem).1
  | none =>
    simp only [encrypt, hfind]
    cases hback : t.cbc.find? (fun call => call.key = key ∧ call.iv = iv ∧ call.data = pad plain) with
    | none => simp only [decrypt, hback, unpad_pad]
    | some call =>
      have hcall := List.find?_some hback
      simp only [decide_eq_true_eq] at hcall
      obtain ⟨-, -, n, hn, hlarge⟩ := ht.1 call (List.mem_of_find?_eq_some hback)
      rw [hcall.2.2, pad_getLast?, Option.mem_some_iff] at hn
      rw [← hn, padding_toNat] at hlarge
      omega

theorem encrypt_blocks {t : Recording} (ht : t.Consistent) (key iv plain : Bytes) :
    t.encrypt key iv plain ≠ [] ∧ (t.encrypt key iv plain).length % aesCbcIvLength = 0 := by
  unfold encrypt
  split
  · rename_i call hfind
    obtain ⟨-, hblocks, n, hn, -⟩ := ht.1 call (List.mem_of_find?_eq_some hfind)
    exact ⟨by rintro h; simp [h] at hn, hblocks⟩
  · refine ⟨by have h := pad_getLast? plain; rintro h'; simp [h'] at h, ?_⟩
    simp only [pad, List.length_append, List.length_replicate, aesCbcIvLength]
    omega

theorem inverts {t : Recording} (ht : t.Consistent) : Inverts t.primitives t.encoders where
  base64_decode := Base64.decode_encode
  base64_alphabet := fun bytes h => absurd (Base64.encode_subset bytes _ h) (by decide)
  cbc_decrypt := fun key iv plain _ _ => decrypt_encrypt ht key iv plain
  cbc_blocks := encrypt_blocks ht
  hmac_length := by
    intro key tag message h
    cases h
    unfold Recording.tag
    split
    · rename_i call hfind
      exact ht.2 call (List.mem_of_find?_eq_some hfind)
    · exact List.length_replicate

end Recording

end VaultwardenEso.Crypto
