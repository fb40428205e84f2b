import VaultwardenEso.Lib.Serde
import VaultwardenEso.Client

set_option autoImplicit false

/-!
# The sync document

The derived decoders of `SyncResponse` and of the item structs, and the edit that
writes an explicit null for members the document leaves out.
-/
namespace VaultwardenEso.SyncDocument
open RustStr Serde Cipher Client

def member (name : String) : Member := ⟨name.toList, []⟩

def fieldsMember : Member := member "fields"

def loginMember : Member := member "login"

def sshKeyMember : Member := member "sshKey"

def ciphersMember : Member := ⟨"ciphers".toList, ["Ciphers".toList]⟩

def fieldTable : List Member := [member "name", member "value", member "type"]

def loginTable : List Member := [member "username", member "password", member "totp"]

def sshKeyTable : List Member := [member "privateKey", member "publicKey", member "keyFingerprint"]

def cipherOptionals : List Member :=
  [member "organizationId", member "key", member "name", member "notes", fieldsMember, loginMember,
    sshKeyMember]

def cipherTable : List Member := member "id" :: member "type" :: cipherOptionals

def syncTable : List Member := [ciphersMember]

def deserializeField (j : Json) : Option EncryptedField := do
  let slots ← record fieldTable j
  let name ← optional string (slots (member "name"))
  let value ← optional string (slots (member "value"))
  let fieldType ← optional u8 (slots (member "type"))
  return ⟨name, value, fieldType⟩

def deserializeLogin (j : Json) : Option EncryptedLogin := do
  let slots ← record loginTable j
  let username ← optional string (slots (member "username"))
  let password ← optional string (slots (member "password"))
  let totp ← optional string (slots (member "totp"))
  return ⟨username, password, totp⟩

def deserializeSshKey (j : Json) : Option EncryptedSshKey := do
  let slots ← record sshKeyTable j
  let privateKey ← optional string (slots (member "privateKey"))
  let publicKey ← optional string (slots (member "publicKey"))
  let keyFingerprint ← optional string (slots (member "keyFingerprint"))
  return ⟨privateKey, publicKey, keyFingerprint⟩

def deserializeCipher (j : Json) : Option EncryptedCipher := do
  let slots ← record cipherTable j
  let id ← required string (slots (member "id"))
  let cipherType ← required u8 (slots (member "type"))
  let organizationId ← optional string (slots (member "organizationId"))
  let key ← optional string (slots (member "key"))
  let name ← optional string (slots (member "name"))
  let notes ← optional string (slots (member "notes"))
  let fields ← defaulted deserializeField (slots fieldsMember)
  let login ← optional deserializeLogin (slots loginMember)
  let sshKey ← optional deserializeSshKey (slots sshKeyMember)
  return ⟨id, cipherType, organizationId, key, name, notes, fields, login, sshKey⟩

def deserializeSync (j : Json) : Option SyncResponse := do
  let slots ← record syncTable j
  let ciphers ← defaulted deserializeCipher (slots ciphersMember)
  return ⟨ciphers⟩

/-! ## Explicit nulls -/

/-- The members chosen in one cipher: its own, and those of the structs inside it. -/
structure CipherPositions where
  here : Member → Bool
  field : ℕ → Member → Bool
  login : Member → Bool
  sshKey : Member → Bool

structure Positions where
  here : Member → Bool
  cipher : ℕ → CipherPositions

def fillCipher (S : CipherPositions) (j : Json) : Json :=
  fillNulls cipherOptionals S.here
    (mapMember cipherTable fieldsMember (mapItems (fun i => fillNulls fieldTable (S.field i)))
      (mapMember cipherTable loginMember (fillNulls loginTable S.login)
        (mapMember cipherTable sshKeyMember (fillNulls sshKeyTable S.sshKey) j)))

/-- The document with an explicit null for every chosen member that it leaves out. -/
def fillSync (S : Positions) (j : Json) : Json :=
  fillNulls syncTable S.here
    (mapMember syncTable ciphersMember (mapItems (fun i => fillCipher (S.cipher i))) j)

theorem fieldTable_distinct : Distinct fieldTable := by decide

theorem loginTable_distinct : Distinct loginTable := by decide

theorem sshKeyTable_distinct : Distinct sshKeyTable := by decide

theorem cipherTable_distinct : Distinct cipherTable := by decide

theorem syncTable_distinct : Distinct syncTable := by decide

theorem deserializeField_fill (S : Member → Bool) (j : Json) (f : EncryptedField)
    (h : deserializeField j = some f) : deserializeField (fillNulls fieldTable S j) = some f := by
  apply record_bind_fillNulls fieldTable_distinct _ S h
  intro slots slots' hsame
  rw [optional_same (hsame (member "name") (by decide)), optional_same (hsame (member "value") (by decide)),
    optional_same (hsame (member "type") (by decide))]

theorem deserializeLogin_fill (S : Member → Bool) (j : Json) (l : EncryptedLogin)
    (h : deserializeLogin j = some l) : deserializeLogin (fillNulls loginTable S j) = some l := by
  apply record_bind_fillNulls loginTable_distinct _ S h
  intro slots slots' hsame
  rw [optional_same (hsame (member "username") (by decide)), optional_same (hsame (member "password") (by decide)),
    optional_same (hsame (member "totp") (by decide))]

theorem deserializeSshKey_fill (S : Member → Bool) (j : Json) (k : EncryptedSshKey)
    (h : deserializeSshKey j = some k) : deserializeSshKey (fillNulls sshKeyTable S j) = some k := by
  apply record_bind_fillNulls sshKeyTable_distinct _ S h
  intro slots slots' hsame
  rw [optional_same (hsame (member "privateKey") (by decide)), optional_same (hsame (member "publicKey") (by decide)),
    optional_same (hsame (member "keyFingerprint") (by decide))]

/-- The edit of one cipher writes a null for its list of fields. -/
def FillsFields (S : CipherPositions) (j : Json) : Prop :=
  S.here fieldsMember = true ∧ Lacks fieldsMember j

def editedSlots (S : CipherPositions) (slots : Slots) : Slots := fun m =>
  if m = fieldsMember then (slots m).map (mapItems (fun i => fillNulls fieldTable (S.field i)))
  else if m = loginMember then (slots m).map (fillNulls loginTable S.login)
  else if m = sshKeyMember then (slots m).map (fillNulls sshKeyTable S.sshKey)
  else slots m

theorem record_fillCipher (S : CipherPositions) {j : Json} {slots : Slots}
    (h : record cipherTable j = some slots) :
    ∃ slots', record cipherTable (fillCipher S j) = some slots' ∧ ∀ m ∈ cipherTable, slots' m =
      if m ∈ cipherOptionals ∧ S.here m = true ∧ Lacks m j then some .null
      else editedSlots S slots m := by
  have hfields : fieldsMember ∈ cipherTable := by decide
  have hlogin : loginMember ∈ cipherTable := by decide
  have hsshKey : sshKeyMember ∈ cipherTable := by decide
  have hsub : cipherOptionals ⊆ cipherTable := by decide
  have hnodup : cipherOptionals.Nodup := by decide
  obtain ⟨slots₁, hrec₁, hslots₁⟩ := record_mapMember cipherTable_distinct hsshKey
    (fillNulls sshKeyTable S.sshKey) h
  obtain ⟨slots₂, hrec₂, hslots₂⟩ := record_mapMember cipherTable_distinct hlogin
    (fillNulls loginTable S.login) hrec₁
  obtain ⟨slots₃, hrec₃, hslots₃⟩ := record_mapMember cipherTable_distinct hfields
    (mapItems (fun i => fillNulls fieldTable (S.field i))) hrec₂
  obtain ⟨slots', hrec', hslots'⟩ := record_fillNulls cipherTable_distinct hsub hnodup S.here hrec₃
  refine ⟨slots', hrec', ?_⟩
  intro m hm
  have hlacks : Lacks m (mapMember cipherTable fieldsMember
      (mapItems (fun i => fillNulls fieldTable (S.field i)))
      (mapMember cipherTable loginMember (fillNulls loginTable S.login)
        (mapMember cipherTable sshKeyMember (fillNulls sshKeyTable S.sshKey) j))) ↔ Lacks m j := by
    rw [lacks_mapMember cipherTable_distinct hfields hm, lacks_mapMember cipherTable_distinct hlogin hm,
      lacks_mapMember cipherTable_distinct hsshKey hm]
  have hedited : slots₃ m = editedSlots S slots m := by
    have hne₁ : fieldsMember ≠ loginMember := by decide
    have hne₂ : fieldsMember ≠ sshKeyMember := by decide
    have hne₃ : loginMember ≠ sshKeyMember := by decide
    rw [hslots₃ m hm, hslots₂ m hm, hslots₁ m hm, editedSlots]
    by_cases h₁ : m = fieldsMember
    · rw [if_pos h₁, if_pos h₁, h₁, if_neg hne₁, if_neg hne₂]
    · rw [if_neg h₁, if_neg h₁]
      by_cases h₂ : m = loginMember
      · rw [if_pos h₂, if_pos h₂, h₂, if_neg hne₃]
      · rw [if_neg h₂, if_neg h₂]
  rw [hslots' m hm, hedited]
  simp only [hlacks]

theorem deserializeCipher_eq_some {j : Json} {c : EncryptedCipher} :
    deserializeCipher j = some c ↔ ∃ slots, record cipherTable j = some slots ∧
      required string (slots (member "id")) = some c.id ∧
      required u8 (slots (member "type")) = some c.cipherType ∧
      optional string (slots (member "organizationId")) = some c.organizationId ∧
      optional string (slots (member "key")) = some c.key ∧
      optional string (slots (member "name")) = some c.name ∧
      optional string (slots (member "notes")) = some c.notes ∧
      defaulted deserializeField (slots fieldsMember) = some c.fields ∧
      optional deserializeLogin (slots loginMember) = some c.login ∧
      optional deserializeSshKey (slots sshKeyMember) = some c.sshKey := by
  simp only [deserializeCipher, Option.bind_eq_bind, Option.bind_eq_some_iff, Option.pure_def,
    Option.some.injEq]
  constructor
  · intro h
    obtain ⟨slots, hrec, id, h₁, type, h₂, org, h₃, key, h₄, name, h₅, notes, h₆, fields, h₇,
      login, h₈, sshKey, h₉, rfl⟩ := h
    exact ⟨slots, hrec, h₁, h₂, h₃, h₄, h₅, h₆, h₇, h₈, h₉⟩
  · intro h
    obtain ⟨slots, hrec, h₁, h₂, h₃, h₄, h₅, h₆, h₇, h₈, h₉⟩ := h
    exact ⟨slots, hrec, _, h₁, _, h₂, _, h₃, _, h₄, _, h₅, _, h₆, _, h₇, _, h₈, _, h₉, rfl⟩

/-- A null in place of the absent list of fields is refused. -/
theorem deserializeCipher_fill_none (S : CipherPositions) (j : Json) (c : EncryptedCipher)
    (h : deserializeCipher j = some c) (hfills : FillsFields S j) :
    deserializeCipher (fillCipher S j) = none := by
  obtain ⟨slots, hrec, -⟩ := deserializeCipher_eq_some.mp h
  obtain ⟨slots', hrec', hslots'⟩ := record_fillCipher S hrec
  rw [Option.eq_none_iff_forall_not_mem]
  intro c' hc'
  obtain ⟨slots'', hrec'', -, -, -, -, -, -, hfields, -⟩ := deserializeCipher_eq_some.mp hc'
  have hslots : slots'' = slots' := Option.some.inj (hrec''.symm.trans hrec')
  rw [hslots, hslots' fieldsMember (by decide), if_pos ⟨by decide, hfills.1, hfills.2⟩] at hfields
  cases hfields

theorem deserializeCipher_fill (S : CipherPositions) (j : Json) (c : EncryptedCipher)
    (h : deserializeCipher j = some c) (hfills : ¬ FillsFields S j) :
    deserializeCipher (fillCipher S j) = some c := by
  obtain ⟨slots, hrec, hid, htype, horg, hkey, hname, hnotes, hfields, hlogin, hsshKey⟩ :=
    deserializeCipher_eq_some.mp h
  obtain ⟨slots', hrec', hslots'⟩ := record_fillCipher S hrec
  have hrequired : ∀ m ∈ [member "id", member "type"], slots' m = slots m := by
    intro m hm
    have hne : m ∈ cipherTable ∧ m ∉ cipherOptionals ∧ m ≠ fieldsMember ∧ m ≠ loginMember ∧
        m ≠ sshKeyMember := by
      fin_cases hm <;> decide
    rw [hslots' m hne.1, if_neg (fun hp => hne.2.1 hp.1), editedSlots, if_neg hne.2.2.1,
      if_neg hne.2.2.2.1, if_neg hne.2.2.2.2]
  have hsame : ∀ m ∈ cipherTable, SameUpToNull (editedSlots S slots m) (slots' m) := by
    intro m hm
    rw [hslots' m hm]
    split
    · rename_i hp
      have hnone : slots m = none := slots_of_lacks hrec hp.2.2
      refine .inr ⟨?_, rfl⟩
      simp only [editedSlots, hnone, Option.map_none, ite_self]
    · exact .inl rfl
  have hplain : ∀ m ∈ [member "organizationId", member "key", member "name", member "notes"],
      optional string (slots' m) = optional string (slots m) := by
    intro m hm
    have hne : m ∈ cipherTable ∧ m ≠ fieldsMember ∧ m ≠ loginMember ∧ m ≠ sshKeyMember := by
      fin_cases hm <;> decide
    rw [optional_same (hsame m hne.1), editedSlots, if_neg hne.2.1, if_neg hne.2.2.1, if_neg hne.2.2.2]
  refine deserializeCipher_eq_some.mpr ⟨slots', hrec', ?_, ?_, ?_, ?_, ?_, ?_, ?_, ?_, ?_⟩
  · rw [hrequired _ (by decide), hid]
  · rw [hrequired _ (by decide), htype]
  · rw [hplain _ (by decide), horg]
  · rw [hplain _ (by decide), hkey]
  · rw [hplain _ (by decide), hname]
  · rw [hplain _ (by decide), hnotes]
  · rw [hslots' fieldsMember (by decide), if_neg (fun hp => hfills hp.2), editedSlots, if_pos rfl,
      defaulted_mapItems (fun _ _ => False) (fun i j f hf _ => deserializeField_fill (S.field i) j f hf)
        (fun _ _ _ _ hbad => hbad.elim) hfields]
    exact fun _ _ _ => id
  · rw [optional_same (hsame loginMember (by decide))]
    exact optional_map fillNulls_eq_null (deserializeLogin_fill S.login) hlogin
  · rw [optional_same (hsame sshKeyMember (by decide))]
    exact optional_map fillNulls_eq_null (deserializeSshKey_fill S.sshKey) hsshKey

/-! ## The whole document -/

def cipherItems (doc : Json) : List Json :=
  slotItems ((record syncTable doc).bind (fun slots => slots ciphersMember))

/-- The edit writes a null for a list member that the document leaves out: `ciphers`, or the
`fields` of one of the ciphers. -/
def FillsList (S : Positions) (doc : Json) : Prop :=
  (S.here ciphersMember = true ∧ Lacks ciphersMember doc) ∨
    ∃ i j, (cipherItems doc)[i]? = some j ∧ FillsFields (S.cipher i) j

theorem deserializeSync_eq_some {j : Json} {r : SyncResponse} :
    deserializeSync j = some r ↔ ∃ slots, record syncTable j = some slots ∧
      defaulted deserializeCipher (slots ciphersMember) = some r.ciphers := by
  simp only [deserializeSync, Option.bind_eq_bind, Option.bind_eq_some_iff, Option.pure_def,
    Option.some.injEq]
  constructor
  · intro h
    obtain ⟨slots, hrec, ciphers, hciphers, rfl⟩ := h
    exact ⟨slots, hrec, hciphers⟩
  · intro h
    obtain ⟨slots, hrec, hciphers⟩ := h
    exact ⟨slots, hrec, _, hciphers, rfl⟩

theorem absent_members_decode_as_null (S : Positions) (doc : Json) (r : SyncResponse)
    (h : deserializeSync doc = some r) :
    deserializeSync (fillSync S doc) = some r ↔ ¬ FillsList S doc := by
  have hmem : ciphersMember ∈ syncTable := by decide
  obtain ⟨slots, hrec, hciphers⟩ := deserializeSync_eq_some.mp h
  obtain ⟨edited, hrec₁, hedited⟩ := record_mapMember syncTable_distinct hmem
    (mapItems (fun i => fillCipher (S.cipher i))) hrec
  obtain ⟨slots', hrec', hslots'⟩ := record_fillNulls syncTable_distinct (List.Subset.refl _)
    syncTable_distinct.1 S.here hrec₁
  have hitems : cipherItems doc = slotItems (slots ciphersMember) := by
    rw [cipherItems, hrec, Option.bind_some]
  have hdecode : deserializeSync (fillSync S doc) = some r ↔
      defaulted deserializeCipher (slots' ciphersMember) = some r.ciphers := by
    rw [deserializeSync_eq_some]
    constructor
    · intro hdec
      obtain ⟨slots'', hrec'', hdec⟩ := hdec
      have heq : slots'' = slots' := Option.some.inj (hrec''.symm.trans hrec')
      rw [← heq]
      exact hdec
    · intro hdec
      exact ⟨slots', hrec', hdec⟩
  have hlacks := lacks_mapMember syncTable_distinct hmem hmem
      (mapItems (fun i => fillCipher (S.cipher i))) doc
  rw [hdecode, hslots' _ hmem]
  by_cases hnull : S.here ciphersMember = true ∧ Lacks ciphersMember doc
  · rw [if_pos ⟨hmem, hnull.1, hlacks.mpr hnull.2⟩]
    have hfills : FillsList S doc := .inl hnull
    constructor
    · intro hdec
      cases hdec
    · intro hnot
      exact absurd hfills hnot
  · rw [if_neg (fun hp => hnull ⟨hp.2.1, hlacks.mp hp.2.2⟩), hedited _ hmem, if_pos rfl,
      defaulted_mapItems (fun i j => FillsFields (S.cipher i) j)
        (fun i => deserializeCipher_fill (S.cipher i)) (fun i => deserializeCipher_fill_none (S.cipher i)) hciphers,
      ← hitems, FillsList, or_iff_right hnull]
    push Not
    exact Iff.rfl

def sampleCipherDocument : Json :=
  .obj [("id".toList, .str "cipher-login".toList), ("type".toList, .int 1), ("login".toList, .obj [])]

def sampleDocument : Json := .obj [("ciphers".toList, .arr [sampleCipherDocument])]

def sampleResponse : SyncResponse :=
  ⟨[⟨"cipher-login".toList, 1, none, none, none, none, [], some ⟨none, none, none⟩, none⟩]⟩

def fieldsPosition : Positions :=
  ⟨fun _ => false, fun _ => ⟨fun m => m = fieldsMember, fun _ _ => false, fun _ => false, fun _ => false⟩⟩

def otherPositions : Positions :=
  ⟨fun _ => true, fun _ => ⟨fun m => m ≠ fieldsMember, fun _ _ => true, fun _ => true, fun _ => true⟩⟩

theorem sampleDocument_null_fields_refused :
    deserializeSync sampleDocument = some sampleResponse ∧
      fillSync fieldsPosition sampleDocument = .obj [("ciphers".toList, .arr [.obj
        [("id".toList, .str "cipher-login".toList), ("type".toList, .int 1), ("login".toList, .obj []),
          ("fields".toList, .null)]])] ∧
      deserializeSync (fillSync fieldsPosition sampleDocument) = none := by
  refine ⟨by decide +kernel, ?_, by decide +kernel⟩
  rfl

theorem sampleDocument_other_nulls :
    deserializeSync sampleDocument = some sampleResponse ∧
      deserializeSync (fillSync otherPositions sampleDocument) = some sampleResponse := by
  have hdoc : deserializeSync sampleDocument = some sampleResponse := by decide +kernel
  have hciphers : ¬ Lacks ciphersMember sampleDocument := by decide +kernel
  refine ⟨hdoc, (absent_members_decode_as_null otherPositions sampleDocument sampleResponse hdoc).mpr ?_⟩
  intro hfills
  obtain hfills | ⟨i, j, -, hfills⟩ := hfills
  · exact hciphers hfills.2
  · have hskipped : (otherPositions.cipher i).here fieldsMember = false := rfl
    rw [FillsFields, hskipped] at hfills
    cases hfills.1

end VaultwardenEso.SyncDocument
