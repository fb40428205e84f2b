import VaultwardenEso.WholeItem

set_option autoImplicit false

/-!
# What an item shows, key by key

The document of a whole item is read as a function of its key, and a custom field is
addressed by its name alone or behind one of two prefixes.
-/
namespace VaultwardenEso.Cipher
open RustStr BwesoCore

/-! ## The keys of a document -/

def ConventionalField.called (key : Str) : Option ConventionalField :=
  ConventionalField.all.find? (fun field => field.key = key)

/-- The last valued custom field of that name, unless the name is blank, and else the
    conventional field that is called so. -/
def DecryptedCipher.shownUnder (cipher : DecryptedCipher) (key : Str) : Option Str :=
  (if trim key ≠ [] then cipher.lastCustom key else none).or
    ((ConventionalField.called key).bind (fun field => field.member cipher))

theorem ConventionalField.mem_all (field : ConventionalField) : field ∈ ConventionalField.all := by
  cases field <;> decide

theorem ConventionalField.called_eq_some {key : Str} {field : ConventionalField} :
    ConventionalField.called key = some field ↔ field.key = key := by
  constructor
  · intro h
    simpa using List.find?_some h
  · rintro rfl
    cases hcalled : ConventionalField.called field.key with
    | none =>
      have hmissed := List.find?_eq_none.mp hcalled field field.mem_all
      simp at hmissed
    | some other =>
      have hkey : other.key = field.key := by simpa using List.find?_some hcalled
      rw [ConventionalField.key_injective hkey]

theorem ConventionalField.trim_key_ne_nil (field : ConventionalField) : trim field.key ≠ [] := by
  rw [field.trim_key]
  exact field.key_ne_nil

theorem getElem?_conventionalDocument_called (cipher : DecryptedCipher) (key : Str) :
    cipher.conventionalDocument.data[key]? =
      (ConventionalField.called key).bind (fun field => field.member cipher) := by
  cases hcalled : ConventionalField.called key with
  | some field =>
    rw [← ConventionalField.called_eq_some.mp hcalled]
    exact getElem?_conventionalDocument cipher field
  | none =>
    have hother : ∀ field : ConventionalField, key ≠ field.key := by
      rintro field rfl
      rw [ConventionalField.called_eq_some.mpr rfl] at hcalled
      cases hcalled
    rw [cipher.conventionalDocument_eq]
    simp only [ConventionalField.all, List.foldl_cons, List.foldl_nil, getElem?_insertOptional,
      if_neg (hother _), Option.none_or]
    simp [SecretDocument.empty]

theorem getElem?_insertField_blank {key : Str} (hkey : trim key = []) (document : SecretDocument)
    (field : DecryptedField) :
    (insertField document field).data[key]? = document.data[key]? := by
  unfold insertField
  split
  · rename_i name value _ _
    split
    · rename_i hname
      rw [BTreeMap.getElem?_insert_eq, if_neg]
      rintro rfl
      exact hname hkey
    · rfl
  · rfl

theorem getElem?_insertFields_blank {key : Str} (hkey : trim key = [])
    (fields : List DecryptedField) (document : SecretDocument) :
    (fields.foldl insertField document).data[key]? = document.data[key]? := by
  induction fields generalizing document with
  | nil => rfl
  | cons field fields ih => rw [List.foldl_cons, ih, getElem?_insertField_blank hkey]

theorem DecryptedCipher.getElem?_filled (cipher : DecryptedCipher) (key : Str) :
    (cipher.fields.foldl insertField cipher.conventionalDocument).data[key]? =
      cipher.shownUnder key := by
  unfold shownUnder
  rw [← getElem?_conventionalDocument_called]
  by_cases hkey : trim key = []
  · rw [getElem?_insertFields_blank hkey, if_neg (not_not_intro hkey), Option.none_or]
  · rw [getElem?_insertFields hkey, if_pos hkey, lastCustom, reduceOption_valuesUnder]

/-! ## Metadata -/

theorem insertOptional_metadata (document : SecretDocument) (key : Str) (value : Option Str) :
    (insertOptional document key value).metadata = document.metadata := by
  cases value <;> rfl

theorem insertField_metadata (document : SecretDocument) (field : DecryptedField) :
    (insertField document field).metadata = document.metadata := by
  unfold insertField
  split
  · split <;> rfl
  · rfl

theorem insertFields_metadata (fields : List DecryptedField) (document : SecretDocument) :
    (fields.foldl insertField document).metadata = document.metadata := by
  induction fields generalizing document with
  | nil => rfl
  | cons field fields ih => rw [List.foldl_cons, ih, insertField_metadata]

theorem DecryptedCipher.conventionalDocument_metadata (cipher : DecryptedCipher) :
    cipher.conventionalDocument.metadata = ∅ := by
  rw [cipher.conventionalDocument_eq]
  simp only [ConventionalField.all, List.foldl_cons, List.foldl_nil, insertOptional_metadata]
  rfl

/-! ## The document -/

theorem isEmpty_data_iff (document : SecretDocument) :
    document.data.isEmpty = true ↔ ∀ key : Str, document.data[key]? = none := by
  rw [Std.ExtTreeMap.isEmpty_iff, Std.ExtTreeMap.eq_empty_iff_forall_not_mem]
  simp only [Std.ExtTreeMap.mem_iff_isSome_getElem?, Option.not_isSome_iff_eq_none]

theorem DecryptedCipher.toSecretDocument_error (cipher : DecryptedCipher) :
    (∃ error, cipher.toSecretDocument = .error error) ↔ ∀ key, cipher.shownUnder key = none := by
  simp only [← cipher.getElem?_filled, ← isEmpty_data_iff]
  unfold toSecretDocument
  dsimp only
  split
  · rename_i hempty
    exact iff_of_true ⟨_, rfl⟩ hempty
  · rename_i hempty
    refine iff_of_false ?_ hempty
    rintro ⟨error, herror⟩
    cases herror

theorem DecryptedCipher.toSecretDocument_ok {cipher : DecryptedCipher} {document : SecretDocument}
    (h : cipher.toSecretDocument = .ok document) :
    document.metadata = ∅ ∧ ∀ key, document.data[key]? = cipher.shownUnder key := by
  unfold toSecretDocument at h
  dsimp only at h
  split at h
  · cases h
  · cases h
    refine ⟨?_, cipher.getElem?_filled⟩
    rw [insertFields_metadata, conventionalDocument_metadata]

theorem DecryptedCipher.toSecretDocument_toOption (cipher : DecryptedCipher) :
    cipher.toSecretDocument.toOption =
      let document := cipher.fields.foldl insertField cipher.conventionalDocument
      if document.data.isEmpty then none else some document := by
  unfold toSecretDocument
  dsimp only
  split <;> rfl

theorem DecryptedCipher.lastCustom_mem {cipher : DecryptedCipher} {name value : Str}
    (h : cipher.lastCustom name = some value) :
    ∃ field ∈ cipher.fields, field.name = some name ∧ field.value = some value := by
  rw [lastCustom, reduceOption_valuesUnder] at h
  obtain ⟨field, hfield, hunder⟩ := List.mem_filterMap.mp (List.mem_of_getLast? h)
  unfold DecryptedField.valueUnder at hunder
  split at hunder
  · rename_i hname
    exact ⟨field, hfield, hname, hunder⟩
  · cases hunder

/-- A stored value is shown, or a custom field of the name shows its own in its place. -/
def Kept (cipher : DecryptedCipher) (document : SecretDocument) (name value : Str) : Prop :=
  document.data[name]? = some value ∨
    ∃ other ∈ cipher.fields, other.name = some name ∧ other.value.isSome = true ∧
      document.data[name]? = other.value

theorem DecryptedCipher.kept_of_lastCustom {cipher : DecryptedCipher} {document : SecretDocument}
    (h : cipher.toSecretDocument = .ok document) {name shown : Str} (hname : trim name ≠ [])
    (hshown : cipher.lastCustom name = some shown) (value : Str) :
    Kept cipher document name value := by
  obtain ⟨other, hother, hothername, hothervalue⟩ := lastCustom_mem hshown
  refine .inr ⟨other, hother, hothername, by rw [hothervalue]; rfl, ?_⟩
  rw [(toSecretDocument_ok h).2, shownUnder, if_pos hname, hshown, hothervalue, Option.some_or]

theorem DecryptedCipher.kept_custom {cipher : DecryptedCipher} {document : SecretDocument}
    (h : cipher.toSecretDocument = .ok document) {field : DecryptedField}
    (hfield : field ∈ cipher.fields) {name value : Str} (hname : field.name = some name)
    (hblank : trim name ≠ []) (hvalue : field.value = some value) :
    Kept cipher document name value := by
  obtain ⟨shown, hshown⟩ := lastCustom_isSome ⟨field, hfield, hname, by rw [hvalue]; rfl⟩
  exact kept_of_lastCustom h hblank hshown value

theorem DecryptedCipher.kept_conventional {cipher : DecryptedCipher} {document : SecretDocument}
    (h : cipher.toSecretDocument = .ok document) {field : ConventionalField} {value : Str}
    (hvalue : field.member cipher = some value) : Kept cipher document field.key value := by
  cases hcustom : cipher.lastCustom field.key with
  | some shown => exact kept_of_lastCustom h field.trim_key_ne_nil hcustom value
  | none =>
    refine .inl ?_
    rw [(toSecretDocument_ok h).2, shownUnder, if_pos field.trim_key_ne_nil, hcustom,
      Option.none_or, ConventionalField.called_eq_some.mpr rfl, Option.bind_some, hvalue]

theorem DecryptedCipher.shownUnder_eq_none (cipher : DecryptedCipher) :
    (∀ key, cipher.shownUnder key = none) ↔
      (∀ field : ConventionalField, field.member cipher = none) ∧
        ¬ ∃ field ∈ cipher.fields, ∃ name value,
          field.name = some name ∧ trim name ≠ [] ∧ field.value = some value := by
  constructor
  · intro h
    refine ⟨?_, ?_⟩
    · intro field
      have hnone := (Option.or_eq_none_iff.mp (h field.key)).2
      rwa [ConventionalField.called_eq_some.mpr rfl, Option.bind_some] at hnone
    · rintro ⟨field, hfield, name, value, hname, hblank, hvalue⟩
      have hnone := (Option.or_eq_none_iff.mp (h name)).1
      obtain ⟨shown, hshown⟩ := lastCustom_isSome ⟨field, hfield, hname, by rw [hvalue]; rfl⟩
      rw [if_pos hblank, hshown] at hnone
      cases hnone
  · rintro ⟨hconventional, hcustom⟩ key
    refine Option.or_eq_none_iff.mpr ⟨?_, ?_⟩
    · split
      · rename_i hblank
        cases hlast : cipher.lastCustom key with
        | none => rfl
        | some shown =>
          obtain ⟨field, hfield, hname, hvalue⟩ := lastCustom_mem hlast
          exact absurd ⟨field, hfield, key, shown, hname, hblank, hvalue⟩ hcustom
      · rfl
    · cases ConventionalField.called key with
      | none => rfl
      | some field => exact hconventional field

theorem DecryptedCipher.shownUnder_blank {cipher : DecryptedCipher} {key : Str}
    (hkey : trim key = []) : cipher.shownUnder key = none := by
  rw [shownUnder, if_neg (not_not_intro hkey), Option.none_or]
  cases hcalled : ConventionalField.called key with
  | none => rfl
  | some field =>
    rw [← ConventionalField.called_eq_some.mp hcalled] at hkey
    exact absurd hkey field.trim_key_ne_nil

/-- What a whole item shows, and what it does not depend on. -/
theorem whole_item_contents (cipher : DecryptedCipher) :
    ((∃ error, cipher.toSecretDocument = .error error) ↔
      (∀ field : ConventionalField, field.member cipher = none) ∧
        ¬ ∃ field ∈ cipher.fields, ∃ name value,
          field.name = some name ∧ trim name ≠ [] ∧ field.value = some value) ∧
    (∀ document, cipher.toSecretDocument = .ok document →
      document.metadata = ∅ ∧
      (∀ key, document.data[key]? = cipher.shownUnder key) ∧
      (∀ field ∈ cipher.fields, ∀ name value, field.name = some name → trim name ≠ [] →
        field.value = some value → Kept cipher document name value) ∧
      (∀ (field : ConventionalField) value, field.member cipher = some value →
        Kept cipher document field.key value) ∧
      ∀ key ∈ document.data, trim key ≠ []) ∧
    ∀ id cipherType organizationId name,
      { cipher with
          id := id, cipherType := cipherType, organizationId := organizationId,
          name := name }.toSecretDocument.toOption = cipher.toSecretDocument.toOption := by
  refine ⟨?_, ?_, ?_⟩
  · rw [cipher.toSecretDocument_error, cipher.shownUnder_eq_none]
  · intro document h
    obtain ⟨hmetadata, hshown⟩ := DecryptedCipher.toSecretDocument_ok h
    refine ⟨hmetadata, hshown, ?_, fun _ _ => DecryptedCipher.kept_conventional h, ?_⟩
    · intro field hfield name value hname hblank hvalue
      exact DecryptedCipher.kept_custom h hfield hname hblank hvalue
    · intro key hkey hblank
      rw [Std.ExtTreeMap.mem_iff_isSome_getElem?, hshown,
        DecryptedCipher.shownUnder_blank hblank] at hkey
      cases hkey
  · intro id cipherType organizationId name
    rw [DecryptedCipher.toSecretDocument_toOption, DecryptedCipher.toSecretDocument_toOption]
    rfl

/-! ## Addressing a custom field -/

def conventionalNames : List Str :=
  ["name", "notes", "username", "login.username", "password", "login.password", "totp",
    "login.totp", "privateKey", "sshPrivateKey", "sshKey.privateKey", "publicKey", "sshPublicKey",
    "sshKey.publicKey", "keyFingerprint", "sshKey.keyFingerprint"].map String.toList

theorem DecryptedCipher.conventional_eq_none {cipher : DecryptedCipher} {property : Str}
    (h : property ∉ conventionalNames) : cipher.conventional property = none := by
  simp only [conventionalNames, List.map_cons, List.map_nil, List.mem_cons, List.not_mem_nil,
    or_false, not_or] at h
  simp only [conventional, h, or_false, if_false]

theorem DecryptedCipher.extractProperty_bare {cipher : DecryptedCipher} {name : Str}
    (hne : name ≠ []) (htrim : trim name = name) (hconventional : name ∉ conventionalNames)
    (hmark : ∀ mark ∈ ["attachment.", "attachments.", "field.", "custom."],
      ¬ mark.toList <+: name) :
    cipher.extractProperty name = existing name (cipher.firstCustom name) := by
  have hattachment : ¬ ("attachment.".toList.isPrefixOf name ||
      "attachments.".toList.isPrefixOf name) = true := by
    rw [Bool.or_eq_true, List.isPrefixOf_iff_prefix, List.isPrefixOf_iff_prefix, not_or]
    exact ⟨hmark _ (by decide), hmark _ (by decide)⟩
  have hfield : stripPrefix "field.".toList name = none :=
    stripPrefix_eq_none.mpr (hmark _ (by decide))
  have hcustom : stripPrefix "custom.".toList name = none :=
    stripPrefix_eq_none.mpr (hmark _ (by decide))
  unfold extractProperty
  dsimp only
  rw [htrim, if_neg hne, if_neg hattachment, conventional_eq_none hconventional, hfield, hcustom,
    firstCustom_eq_find]
  rfl

/-- Behind either prefix a name selects the first custom field that has it, and nothing else. -/
theorem custom_field_addressing (cipher : DecryptedCipher) (name : Str) (hne : name ≠ [])
    (htrim : trim name = name) :
    cipher.extractProperty ("field.".toList ++ name) =
      existing ("field.".toList ++ name) (cipher.firstCustom name) ∧
    cipher.extractProperty ("custom.".toList ++ name) =
      existing ("custom.".toList ++ name) (cipher.firstCustom name) ∧
    (∀ itemName notes login sshKey, ∀ mark ∈ ["field.", "custom."],
      { cipher with
          name := itemName, notes := notes, login := login,
          sshKey := sshKey }.extractProperty (mark.toList ++ name) =
        cipher.extractProperty (mark.toList ++ name)) ∧
    (name ∉ conventionalNames →
      (∀ mark ∈ ["attachment.", "attachments.", "field.", "custom."], ¬ mark.toList <+: name) →
      cipher.extractProperty name = existing name (cipher.firstCustom name)) := by
  have hlast : ∀ c ∈ name.getLast?, isWhitespace c = false := by
    have htrimmed := trim_getLast? name
    rwa [htrim] at htrimmed
  refine ⟨DecryptedCipher.extractProperty_marked (by decide) hne hlast,
    DecryptedCipher.extractProperty_marked (by decide) hne hlast, ?_,
    DecryptedCipher.extractProperty_bare hne htrim⟩
  intro itemName notes login sshKey mark hmark
  rw [DecryptedCipher.extractProperty_marked hmark hne hlast,
    DecryptedCipher.extractProperty_marked hmark hne hlast]
  rfl

theorem custom_password_is_addressed :
    (sampleItem [customField "password" "custom-secret"]).extractProperty
        "field.password".toList = .ok "custom-secret".toList ∧
      (sampleItem [customField "password" "custom-secret"]).extractProperty
        "password".toList = .ok "login-secret".toList := by
  have haddressed := custom_field_addressing
    (sampleItem [customField "password" "custom-secret"]) "password".toList (by decide) (by decide)
  exact ⟨haddressed.1, by decide⟩

end VaultwardenEso.Cipher
