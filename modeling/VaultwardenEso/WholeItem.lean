import Mathlib.Data.List.ReduceOption
import VaultwardenEso.Extraction

set_option autoImplicit false

/-!
# A whole item against its single properties

A whole document is built by insertion, so the last custom field of a name decides what
stands under that name, over an earlier one and over a conventional field. A single property
is found by search: conventional names first, then the first custom field of the name.
-/
namespace VaultwardenEso.Cipher
open RustStr BwesoCore

def DecryptedCipher.valuesUnder (cipher : DecryptedCipher) (name : Str) : List (Option Str) :=
  (cipher.fields.filter (fun field => field.name = some name)).map (·.value)

/-- The value of the first custom field of that name, if the field has one. -/
def DecryptedCipher.firstCustom (cipher : DecryptedCipher) (name : Str) : Option Str :=
  (cipher.valuesUnder name).head?.join

/-- The value of the last custom field of that name that has one. -/
def DecryptedCipher.lastCustom (cipher : DecryptedCipher) (name : Str) : Option Str :=
  (cipher.valuesUnder name).reduceOption.getLast?

def DecryptedField.valueUnder (name : Str) (field : DecryptedField) : Option Str :=
  if field.name = some name then field.value else none

theorem DecryptedCipher.firstCustom_eq_find (cipher : DecryptedCipher) (name : Str) :
    cipher.firstCustom name =
      (cipher.fields.find? (fun field => field.name = some name)).bind (·.value) := by
  rw [firstCustom, valuesUnder, List.head?_map, List.head?_filter]
  cases cipher.fields.find? (fun field => field.name = some name) <;> rfl

theorem DecryptedCipher.reduceOption_valuesUnder (cipher : DecryptedCipher) (name : Str) :
    (cipher.valuesUnder name).reduceOption =
      cipher.fields.filterMap (DecryptedField.valueUnder name) := by
  rw [valuesUnder, List.reduceOption, List.filterMap_map, List.filterMap_filter]
  simp only [decide_eq_true_eq]
  rfl

/-! ## What stands under a key of the document -/

theorem getElem?_insertField {document : SecretDocument} {field : DecryptedField} {key : Str}
    (hkey : trim key ≠ []) :
    (insertField document field).data[key]? =
      (field.valueUnder key).or document.data[key]? := by
  unfold insertField DecryptedField.valueUnder
  cases hname : field.name with
  | none => simp
  | some name =>
    cases hvalue : field.value with
    | none => simp
    | some value =>
      dsimp only
      by_cases hsame : name = key
      · subst hsame
        rw [if_pos hkey, Std.ExtTreeMap.getElem?_insert_self]
        simp
      · have hother : (if some name = some key then some value else none) = none :=
          if_neg (fun h => hsame (Option.some.inj h))
        rw [hother, Option.none_or]
        split
        · rw [BTreeMap.getElem?_insert_eq, if_neg (Ne.symm hsame)]
        · rfl

theorem getElem?_insertFields {key : Str} (hkey : trim key ≠ []) (fields : List DecryptedField)
    (document : SecretDocument) :
    (fields.foldl insertField document).data[key]? =
      (fields.filterMap (DecryptedField.valueUnder key)).getLast?.or document.data[key]? := by
  induction fields generalizing document with
  | nil => rfl
  | cons field fields ih =>
    rw [List.foldl_cons, ih, getElem?_insertField hkey, List.filterMap_cons]
    cases field.valueUnder key with
    | none => rfl
    | some value =>
      rw [Option.some_or]
      dsimp only
      rw [List.getLast?_cons]
      cases (fields.filterMap (DecryptedField.valueUnder key)).getLast?
      · rfl
      · rfl

theorem DecryptedCipher.getElem?_toSecretDocument {cipher : DecryptedCipher} {key : Str}
    {document : SecretDocument} (h : cipher.toSecretDocument = .ok document) (hkey : trim key ≠ []) :
    document.data[key]? = (cipher.lastCustom key).or cipher.conventionalDocument.data[key]? := by
  unfold toSecretDocument at h
  dsimp only at h
  split at h
  · cases h
  · cases h
    rw [lastCustom, reduceOption_valuesUnder]
    exact getElem?_insertFields hkey cipher.fields cipher.conventionalDocument

/-! ## Custom fields -/

theorem DecryptedCipher.extractProperty_marked {cipher : DecryptedCipher} {mark : String}
    (hmark : mark ∈ ["field.", "custom."]) {name : Str} (hne : name ≠ [])
    (hlast : ∀ c ∈ name.getLast?, isWhitespace c = false) :
    cipher.extractProperty (mark.toList ++ name) =
      existing (mark.toList ++ name) (cipher.firstCustom name) := by
  have htrim : trim (mark.toList ++ name) = mark.toList ++ name := by
    refine trim_append ?_ hne hlast
    rcases List.mem_pair.mp hmark with rfl | rfl
    · decide
    · decide
  have hconventional : cipher.conventional (mark.toList ++ name) = none := by
    rcases List.mem_pair.mp hmark with rfl | rfl
    · simp [conventional]
    · simp [conventional]
  unfold extractProperty
  dsimp only
  rw [htrim, hconventional, firstCustom_eq_find]
  rcases List.mem_pair.mp hmark with rfl | rfl
  · rw [stripPrefix_append]
    rfl
  · rw [stripPrefix_append]
    rfl

theorem DecryptedCipher.extractProperty_field {cipher : DecryptedCipher} {name : Str}
    (hne : trim name ≠ []) (hend : trimEnd name = name) :
    cipher.extractProperty ("field.".toList ++ name) =
      existing ("field.".toList ++ name) (cipher.firstCustom name) := by
  have hname : name ≠ [] := by
    intro hnil
    rw [hnil] at hne
    exact hne rfl
  refine extractProperty_marked List.mem_cons_self hname ?_
  intro c hc
  rw [List.getLast?_eq_some_getLast hname] at hc
  cases hc
  have hlast := List.rdropWhile_eq_self_iff.mp hend hname
  simpa using hlast

theorem DecryptedCipher.lastCustom_isSome {cipher : DecryptedCipher} {name : Str}
    (h : ∃ field ∈ cipher.fields, field.name = some name ∧ field.value.isSome = true) :
    ∃ value, cipher.lastCustom name = some value := by
  obtain ⟨field, hfield, hname, hvalue⟩ := h
  obtain ⟨value, hvalue⟩ := Option.isSome_iff_exists.mp hvalue
  have hunder : field.valueUnder name = some value := by
    rw [DecryptedField.valueUnder, if_pos hname, hvalue]
  have hmem : value ∈ cipher.fields.filterMap (DecryptedField.valueUnder name) :=
    List.mem_filterMap.mpr ⟨field, hfield, hunder⟩
  rw [DecryptedCipher.lastCustom, DecryptedCipher.reduceOption_valuesUnder]
  exact ⟨_, List.getLast?_eq_some_getLast (List.ne_nil_of_mem hmem)⟩

theorem existing_ok {property value : Str} {stored : Option Str} :
    existing property stored = .ok value ↔ stored = some value := by
  constructor
  · exact existing_eq_ok
  · rintro rfl
    rfl

theorem custom_field_agrees_with_document (cipher : DecryptedCipher) (name : Str)
    (document : SecretDocument) (hne : trim name ≠ []) (hend : trimEnd name = name)
    (hdocument : cipher.toSecretDocument = .ok document)
    (hfield : ∃ field ∈ cipher.fields, field.name = some name ∧ field.value.isSome = true) :
    (∃ value, document.data[name]? = some value ∧
        cipher.extractProperty ("field.".toList ++ name) = .ok value) ↔
      cipher.firstCustom name = cipher.lastCustom name := by
  obtain ⟨last, hlast⟩ := DecryptedCipher.lastCustom_isSome hfield
  rw [DecryptedCipher.getElem?_toSecretDocument hdocument hne, hlast, Option.some_or,
    DecryptedCipher.extractProperty_field hne hend]
  simp only [existing_ok, Option.some.injEq]
  constructor
  · rintro ⟨value, rfl, hfirst⟩
    exact hfirst
  · intro hfirst
    exact ⟨last, rfl, hfirst⟩

def sampleItem (fields : List DecryptedField) : DecryptedCipher :=
  ⟨"item".toList, 1, none, some "Item".toList, none, fields,
    some ⟨none, some "login-secret".toList, none⟩, none⟩

def customField (name value : String) : DecryptedField :=
  ⟨some name.toList, some value.toList, none⟩

def singleItem : DecryptedCipher := sampleItem [customField "token" "first"]

def repeatedItem : DecryptedCipher :=
  sampleItem [customField "token" "first", customField "token" "second"]

theorem single_custom_field_agrees :
    ∃ document value, singleItem.toSecretDocument = .ok document ∧
      document.data["token".toList]? = some value ∧
      singleItem.extractProperty "field.token".toList = .ok value := by
  have hfield : ∃ field ∈ singleItem.fields,
      field.name = some "token".toList ∧ field.value.isSome = true :=
    ⟨customField "token" "first", List.mem_singleton_self _, rfl, rfl⟩
  have h := (custom_field_agrees_with_document singleItem "token".toList _ (by decide)
    (by decide) rfl hfield).mpr (by decide)
  obtain ⟨value, hshown, hextracted⟩ := h
  exact ⟨_, value, rfl, hshown, hextracted⟩

/-- The search stops at the first field of the name; the document holds the last one. -/
theorem repeated_custom_field_disagrees :
    ¬ ∀ (cipher : DecryptedCipher) (name : Str) (document : SecretDocument),
      trim name ≠ [] → trimEnd name = name → cipher.toSecretDocument = .ok document →
        (∃ field ∈ cipher.fields, field.name = some name ∧ field.value.isSome = true) →
          ∃ value, document.data[name]? = some value ∧
            cipher.extractProperty ("field.".toList ++ name) = .ok value := by
  intro h
  have hfield : ∃ field ∈ repeatedItem.fields,
      field.name = some "token".toList ∧ field.value.isSome = true :=
    ⟨customField "token" "first", List.mem_cons_self, rfl, rfl⟩
  obtain ⟨value, hshown, hextracted⟩ :=
    h repeatedItem "token".toList _ (by decide) (by decide) rfl hfield
  have hfirst : value = "first".toList := by
    have hfound : repeatedItem.extractProperty ("field.".toList ++ "token".toList) =
        .ok "first".toList := by decide
    rw [hfound] at hextracted
    exact (Except.ok.inj hextracted).symm
  rw [hfirst] at hshown
  exact absurd hshown (by decide)

/-! ## Conventional fields -/

inductive ConventionalField where
  | notes
  | username
  | password
  | totp
  | privateKey
  | publicKey
  | keyFingerprint
  deriving DecidableEq, Repr

def ConventionalField.key : ConventionalField → Str
  | notes => "notes".toList
  | username => "username".toList
  | password => "password".toList
  | totp => "totp".toList
  | privateKey => "privateKey".toList
  | publicKey => "publicKey".toList
  | keyFingerprint => "keyFingerprint".toList

def ConventionalField.member (cipher : DecryptedCipher) : ConventionalField → Option Str
  | notes => cipher.notes
  | username => cipher.login.bind (·.username)
  | password => cipher.login.bind (·.password)
  | totp => cipher.login.bind (·.totp)
  | privateKey => cipher.sshKey.bind (·.privateKey)
  | publicKey => cipher.sshKey.bind (·.publicKey)
  | keyFingerprint => cipher.sshKey.bind (·.keyFingerprint)

theorem getElem?_insertOptional (document : SecretDocument) (name key : Str) (value : Option Str) :
    (insertOptional document name value).data[key]? =
      (if key = name then value else none).or document.data[key]? := by
  cases value with
  | none => simp [insertOptional]
  | some value =>
    unfold insertOptional
    dsimp only
    rw [BTreeMap.getElem?_insert_eq]
    by_cases hkey : key = name
    · rw [if_pos hkey, if_pos hkey, Option.some_or]
    · rw [if_neg hkey, if_neg hkey, Option.none_or]

theorem ConventionalField.key_injective : Function.Injective ConventionalField.key := by
  intro field other h
  cases field <;> cases other <;> first | rfl | exact absurd h (by decide)

theorem getElem?_insertMember (document : SecretDocument) (field inserted : ConventionalField)
    (value : Option Str) :
    (insertOptional document inserted.key value).data[field.key]? =
      (if field = inserted then value else none).or document.data[field.key]? := by
  rw [getElem?_insertOptional]
  simp only [ConventionalField.key_injective.eq_iff]

def ConventionalField.all : List ConventionalField :=
  [notes, username, password, totp, privateKey, publicKey, keyFingerprint]

theorem DecryptedCipher.conventionalDocument_eq (cipher : DecryptedCipher) :
    cipher.conventionalDocument = ConventionalField.all.foldl
      (fun document field => insertOptional document field.key (field.member cipher))
      SecretDocument.empty := by
  obtain ⟨id, cipherType, organizationId, name, notes, fields, login, sshKey⟩ := cipher
  cases login <;> cases sshKey <;> rfl

theorem getElem?_conventionalDocument (cipher : DecryptedCipher) (field : ConventionalField) :
    cipher.conventionalDocument.data[field.key]? = field.member cipher := by
  rw [cipher.conventionalDocument_eq]
  simp only [ConventionalField.all, List.foldl_cons, List.foldl_nil, getElem?_insertMember]
  cases field <;> simp [SecretDocument.empty]

theorem ConventionalField.trim_key (field : ConventionalField) : trim field.key = field.key := by
  cases field <;> decide

theorem ConventionalField.key_ne_nil (field : ConventionalField) : field.key ≠ [] := by
  cases field <;> decide

theorem ConventionalField.not_attachment (field : ConventionalField) :
    ("attachment.".toList.isPrefixOf field.key || "attachments.".toList.isPrefixOf field.key) =
      false := by
  cases field <;> decide

theorem ConventionalField.conventional_key (cipher : DecryptedCipher) (field : ConventionalField) :
    cipher.conventional field.key = some (field.member cipher) := by
  cases field <;> rfl

theorem extractProperty_conventional (cipher : DecryptedCipher) (field : ConventionalField) :
    cipher.extractProperty field.key = existing field.key (field.member cipher) := by
  unfold DecryptedCipher.extractProperty
  dsimp only
  rw [field.trim_key, if_neg field.key_ne_nil, field.not_attachment, if_neg Bool.false_ne_true,
    field.conventional_key]

/-- A custom field takes the place of a conventional one in the document exactly when it is the
    last valued one of that name and its value is another. -/
theorem document_keeps_conventional (cipher : DecryptedCipher) (field : ConventionalField)
    (document : SecretDocument) (hdocument : cipher.toSecretDocument = .ok document) :
    (∀ value, cipher.extractProperty field.key = .ok value →
        document.data[field.key]? = some value) ↔
      ∀ value custom, field.member cipher = some value →
        cipher.lastCustom field.key = some custom → custom = value := by
  have hkey : trim field.key ≠ [] := by
    rw [field.trim_key]
    exact field.key_ne_nil
  rw [DecryptedCipher.getElem?_toSecretDocument hdocument hkey, getElem?_conventionalDocument,
    extractProperty_conventional]
  simp only [existing_ok]
  constructor
  · intro h value custom hvalue hcustom
    have hshown := h value hvalue
    rw [hcustom, Option.some_or] at hshown
    exact Option.some.inj hshown
  · intro h value hvalue
    cases hcustom : cipher.lastCustom field.key with
    | none => rw [Option.none_or, hvalue]
    | some custom => rw [Option.some_or, h value custom hvalue hcustom]

theorem document_keeps_login_password :
    ∃ document, singleItem.toSecretDocument = .ok document ∧
      ∀ value, singleItem.extractProperty "password".toList = .ok value →
        document.data["password".toList]? = some value := by
  refine ⟨_, rfl, ?_⟩
  refine (document_keeps_conventional singleItem .password _ rfl).mpr ?_
  intro value custom _ hcustom
  cases hcustom

theorem custom_password_replaces_login_password :
    ¬ ∀ (cipher : DecryptedCipher) (field : ConventionalField) (document : SecretDocument),
      cipher.toSecretDocument = .ok document →
        ∀ value, cipher.extractProperty field.key = .ok value →
          document.data[field.key]? = some value := by
  intro h
  have hshown := h (sampleItem [customField "password" "custom-secret"]) .password _ rfl
    "login-secret".toList (by decide)
  exact absurd hshown (by decide)

end VaultwardenEso.Cipher
