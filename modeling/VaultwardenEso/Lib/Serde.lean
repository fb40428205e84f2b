import VaultwardenEso.Lib.Str

set_option autoImplicit false

/-!
# Derived `Deserialize` for JSON

A JSON text is given as its tree; members of an object keep their order and may
repeat. A derived struct reads an object by member name or an array by position,
refuses a member given twice (under any of its names) and ignores unknown ones.
-/
namespace Serde
open RustStr

inductive Json where
  | null
  | bool (b : Bool)
  | int (i : ℤ)
  | float (raw : Str)
  | str (s : Str)
  | arr (items : List Json)
  | obj (members : List (Str × Json))

/-- A struct field: its serialized name and its aliases. -/
structure Member where
  name : Str
  aliases : List Str
  deriving DecidableEq

def Member.names (m : Member) : List Str := m.name :: m.aliases

def Member.given (m : Member) (members : List (Str × Json)) : List Json :=
  members.filterMap (fun p => if p.1 ∈ m.names then some p.2 else none)

abbrev Slots := Member → Option Json

/-- The value found for each field of a struct with the fields `table`, if any. -/
def record (table : List Member) : Json → Option Slots
  | .obj members =>
    if ∀ m ∈ table, (m.given members).length ≤ 1 then some (fun m => (m.given members).head?) else none
  | .arr items =>
    if items.length ≤ table.length then some (fun m => items[table.idxOf m]?) else none
  | _ => none

section Fields
variable {α : Type}

def required (decode : Json → Option α) : Option Json → Option α
  | some j => decode j
  | none => none

/-- An `Option<T>` field with `#[serde(default)]`: null and absence are both `None`. -/
def optional (decode : Json → Option α) : Option Json → Option (Option α)
  | none | some .null => some none
  | some j => (decode j).map some

/-- A `Vec<T>` field with `#[serde(default)]`: the default is for absence only. -/
def defaulted (decode : Json → Option α) : Option Json → Option (List α)
  | none => some []
  | some (.arr items) => items.mapM decode
  | some _ => none

end Fields

def string : Json → Option Str
  | .str s => some s
  | _ => none

def u8 : Json → Option UInt8
  | .int i => if 0 ≤ i ∧ i ≤ 255 then some (UInt8.ofNat i.toNat) else none
  | _ => none

def u32 : Json → Option UInt32
  | .int i => if 0 ≤ i ∧ i < 2 ^ 32 then some (UInt32.ofNat i.toNat) else none
  | _ => none

def u64 : Json → Option UInt64
  | .int i => if 0 ≤ i ∧ i < 2 ^ 64 then some (UInt64.ofNat i.toNat) else none
  | _ => none

/-! ## Editing a document -/

def mapMember (table : List Member) (m : Member) (f : Json → Json) : Json → Json
  | .obj members => .obj (members.map (fun p => if p.1 ∈ m.names then (p.1, f p.2) else p))
  | .arr items => .arr (items.modify (table.idxOf m) f)
  | j => j

def mapItems (f : ℕ → Json → Json) : Json → Json
  | .arr items => .arr (items.mapIdx f)
  | j => j

def fillNulls (members : List Member) (chosen : Member → Bool) : Json → Json
  | .obj given => .obj (given ++
      (members.filter (fun m => chosen m && (m.given given).isEmpty)).map (fun m => (m.name, .null)))
  | j => j

def Lacks (m : Member) : Json → Prop
  | .obj members => m.given members = []
  | _ => False

def slotItems : Option Json → List Json
  | some (.arr items) => items
  | _ => []

/-- No name belongs to two members. -/
def Distinct (table : List Member) : Prop :=
  table.Nodup ∧ ∀ m ∈ table, ∀ m' ∈ table, ∀ name ∈ m.names, name ∈ m'.names → m = m'

instance (table : List Member) : Decidable (Distinct table) := inferInstanceAs (Decidable (_ ∧ _))

theorem given_map {table : List Member} (ht : Distinct table) {m m' : Member} (hm : m ∈ table)
    (hm' : m' ∈ table) (f : Json → Json) (members : List (Str × Json)) :
    m'.given (members.map (fun p => if p.1 ∈ m.names then (p.1, f p.2) else p)) =
      if m' = m then (m'.given members).map f else m'.given members := by
  induction members with
  | nil => simp [Member.given]
  | cons p members ih =>
    unfold Member.given at ih ⊢
    rw [List.map_cons, List.filterMap_cons, List.filterMap_cons, ih]
    by_cases hp : p.1 ∈ m.names
    · by_cases hp' : p.1 ∈ m'.names
      · have heq : m' = m := (ht.2 m hm m' hm' p.1 hp hp').symm
        subst heq
        simp [hp]
      · have hne : m' ≠ m := by
          intro h
          rw [h] at hp'
          exact hp' hp
        simp [hp, hp', hne]
    · by_cases hp' : p.1 ∈ m'.names
      · have hne : m' ≠ m := by
          intro h
          rw [h] at hp'
          exact hp hp'
        simp [hp, hp', hne]
      · simp [hp, hp']

theorem given_nulls {table : List Member} (ht : Distinct table) {m : Member} (hm : m ∈ table)
    {chosen : List Member} (hsub : chosen ⊆ table) (hnodup : chosen.Nodup) :
    m.given (chosen.map (fun m => (m.name, .null))) = if m ∈ chosen then [.null] else [] := by
  induction chosen with
  | nil => rfl
  | cons c chosen ih =>
    have hc : c ∈ table := hsub List.mem_cons_self
    have ih' := ih (fun x hx => hsub (List.mem_cons_of_mem _ hx)) (List.nodup_cons.mp hnodup).2
    unfold Member.given at ih' ⊢
    rw [List.map_cons, List.filterMap_cons, ih']
    by_cases hcm : c.name ∈ m.names
    · have heq : c = m := ht.2 c hc m hm c.name (by simp [Member.names]) hcm
      subst heq
      have hnot : c ∉ chosen := (List.nodup_cons.mp hnodup).1
      simp [hcm, hnot]
    · have hne : m ≠ c := by
        intro h
        rw [h] at hcm
        exact hcm (by simp [Member.names])
      simp [hcm, hne]

theorem given_append (m : Member) (xs ys : List (Str × Json)) :
    m.given (xs ++ ys) = m.given xs ++ m.given ys := by
  simp only [Member.given, List.filterMap_append]

instance (m : Member) (j : Json) : Decidable (Lacks m j) :=
  match j with
  | .obj members => decidable_of_iff ((m.given members).isEmpty = true) List.isEmpty_iff
  | .null | .bool _ | .int _ | .float _ | .str _ | .arr _ => .isFalse id

theorem slots_of_lacks {table : List Member} {m : Member} {j : Json} {slots : Slots}
    (h : record table j = some slots) (hl : Lacks m j) : slots m = none := by
  cases j with
  | obj members =>
    simp only [record, Option.ite_none_right_eq_some, Option.some.injEq] at h
    rw [← h.2]
    have hnone : m.given members = [] := hl
    simp [hnone]
  | _ => exact hl.elim

theorem record_mapMember {table : List Member} (ht : Distinct table) {m : Member} (hm : m ∈ table)
    (f : Json → Json) {j : Json} {slots : Slots} (h : record table j = some slots) :
    ∃ slots', record table (mapMember table m f j) = some slots' ∧
      ∀ m' ∈ table, slots' m' = if m' = m then (slots m').map f else slots m' := by
  cases j with
  | obj members =>
    simp only [record, Option.ite_none_right_eq_some, Option.some.injEq] at h
    obtain ⟨honce, rfl⟩ := h
    refine ⟨fun m' => (m'.given (members.map
      (fun p => if p.1 ∈ m.names then (p.1, f p.2) else p))).head?, ?_, ?_⟩
    · have honce' : ∀ m' ∈ table, (m'.given (members.map
          (fun p => if p.1 ∈ m.names then (p.1, f p.2) else p))).length ≤ 1 := by
        intro m' hm'
        rw [given_map ht hm hm']
        split
        · simpa using honce m' hm'
        · exact honce m' hm'
      simp only [mapMember, record, if_pos honce']
    · intro m' hm'
      beta_reduce
      rw [given_map ht hm hm']
      split <;> simp [List.head?_map]
  | arr items =>
    simp only [record, Option.ite_none_right_eq_some, Option.some.injEq] at h
    obtain ⟨hlen, rfl⟩ := h
    refine ⟨fun m' => (items.modify (table.idxOf m) f)[table.idxOf m']?, ?_, ?_⟩
    · simp only [mapMember, record, List.length_modify, if_pos hlen]
    · intro m' hm'
      have hsame : table.idxOf m = table.idxOf m' ↔ m' = m := by
        rw [List.idxOf_inj hm]
        exact eq_comm
      simp only [List.getElem?_modify, hsame]
      split <;> simp
  | _ => simp [record] at h

theorem lacks_mapMember {table : List Member} (ht : Distinct table) {m m' : Member} (hm : m ∈ table)
    (hm' : m' ∈ table) (f : Json → Json) (j : Json) :
    Lacks m' (mapMember table m f j) ↔ Lacks m' j := by
  cases j with
  | obj members =>
    change m'.given _ = [] ↔ m'.given members = []
    rw [given_map ht hm hm']
    split
    · exact List.map_eq_nil_iff
    · exact Iff.rfl
  | _ => exact Iff.rfl

theorem record_fillNulls {table members : List Member} (ht : Distinct table) (hsub : members ⊆ table)
    (hnodup : members.Nodup) (chosen : Member → Bool) {j : Json} {slots : Slots}
    (h : record table j = some slots) :
    ∃ slots', record table (fillNulls members chosen j) = some slots' ∧
      ∀ m ∈ table, slots' m =
        if m ∈ members ∧ chosen m = true ∧ Lacks m j then some .null else slots m := by
  cases j with
  | obj given =>
    simp only [record, Option.ite_none_right_eq_some, Option.some.injEq] at h
    obtain ⟨honce, rfl⟩ := h
    let picked := members.filter (fun m => chosen m && (m.given given).isEmpty)
    have hpicked : ∀ m ∈ table, m.given (given ++ picked.map (fun m => (m.name, Json.null))) =
        m.given given ++ if m ∈ picked then [.null] else [] := by
      intro m hm
      rw [given_append, given_nulls ht hm (fun x hx => hsub (List.mem_of_mem_filter hx))
        (hnodup.filter _)]
    have hmem : ∀ m, m ∈ picked ↔ m ∈ members ∧ chosen m = true ∧ m.given given = [] := by
      intro m
      simp [picked]
    refine ⟨fun m => (m.given (given ++ picked.map (fun m => (m.name, Json.null)))).head?, ?_, ?_⟩
    · have honce' : ∀ m ∈ table,
          (m.given (given ++ picked.map (fun m => (m.name, Json.null)))).length ≤ 1 := by
        intro m hm
        rw [hpicked m hm]
        split
        · rename_i hp
          rw [((hmem m).mp hp).2.2]
          simp
        · simpa using honce m hm
      exact if_pos honce'
    · intro m hm
      beta_reduce
      rw [hpicked m hm]
      by_cases hp : m ∈ members ∧ chosen m = true ∧ Lacks m (.obj given)
      · have hnone : m.given given = [] := hp.2.2
        rw [if_pos ((hmem m).mpr hp), if_pos hp, hnone]
        rfl
      · rw [if_neg (mt (hmem m).mp hp), if_neg hp, List.append_nil]
  | arr items =>
    refine ⟨slots, h, ?_⟩
    intro m _
    simp [Lacks]
  | _ => simp [record] at h

/-! ## What the edits leave alone -/

def SameUpToNull (slot slot' : Option Json) : Prop := slot' = slot ∨ slot = none ∧ slot' = some .null

theorem record_bind_fillNulls {α : Type} {table : List Member} (ht : Distinct table)
    {decode : Slots → Option α} (hdecode : ∀ slots slots' : Slots,
      (∀ m ∈ table, SameUpToNull (slots m) (slots' m)) → decode slots' = decode slots)
    (chosen : Member → Bool) {j : Json} {a : α} (h : (record table j).bind decode = some a) :
    (record table (fillNulls table chosen j)).bind decode = some a := by
  obtain ⟨slots, hrec, ha⟩ := Option.bind_eq_some_iff.mp h
  obtain ⟨slots', hrec', hslots⟩ := record_fillNulls ht (List.Subset.refl _) ht.1 chosen hrec
  have hsame : ∀ m ∈ table, SameUpToNull (slots m) (slots' m) := by
    intro m hm
    rw [hslots m hm]
    split
    · rename_i hp
      exact .inr ⟨slots_of_lacks hrec hp.2.2, rfl⟩
    · exact .inl rfl
  rw [hrec', Option.bind_some, hdecode slots slots' hsame, ha]

section Preserved
variable {α : Type} {decode : Json → Option α}

theorem optional_same {slot slot' : Option Json} (h : SameUpToNull slot slot') :
    optional decode slot' = optional decode slot := by
  rcases h with rfl | ⟨rfl, rfl⟩
  · rfl
  · rfl

theorem optional_map {f : Json → Json} (hnull : ∀ j, f j = .null ↔ j = .null)
    (hf : ∀ j a, decode j = some a → decode (f j) = some a) {slot : Option Json} {a : Option α}
    (h : optional decode slot = some a) : optional decode (slot.map f) = some a := by
  have hsome : ∀ j, j ≠ .null → optional decode (some j) = (decode j).map some := by
    intro j hj
    cases j with
    | null => exact absurd rfl hj
    | _ => rfl
  cases slot with
  | none => exact h
  | some j =>
    by_cases hj : j = .null
    · have hfj : f j = .null := (hnull j).mpr hj
      rw [Option.map_some, hfj]
      rw [hj] at h
      exact h
    · have hfj : f j ≠ .null := mt (hnull j).mp hj
      rw [hsome j hj, Option.map_eq_some_iff] at h
      obtain ⟨b, hb, rfl⟩ := h
      rw [Option.map_some, hsome _ hfj, hf j b hb]
      rfl

theorem mapM_mapIdx {f : ℕ → Json → Json} (bad : ℕ → Json → Prop) {items : List Json} {as : List α}
    (hgood : ∀ i j a, decode j = some a → ¬ bad i j → decode (f i j) = some a)
    (hbad : ∀ i j a, decode j = some a → bad i j → decode (f i j) = none)
    (h : items.mapM decode = some as) :
    (items.mapIdx f).mapM decode = some as ↔ ∀ i j, items[i]? = some j → ¬ bad i j := by
  induction items generalizing f bad as with
  | nil => simpa using h
  | cons j items ih =>
    rw [List.mapM_cons] at h
    obtain ⟨a, ha, h⟩ := Option.bind_eq_some_iff.mp h
    obtain ⟨bs, hbs, h⟩ := Option.bind_eq_some_iff.mp h
    cases h
    have ih' := ih (f := fun i => f (i + 1)) (fun i => bad (i + 1))
      (fun i => hgood (i + 1)) (fun i => hbad (i + 1)) hbs
    rw [List.mapIdx_cons, List.mapM_cons]
    constructor
    · intro hm i k hk
      obtain ⟨b, hb, hm⟩ := Option.bind_eq_some_iff.mp hm
      obtain ⟨cs, hcs, hm⟩ := Option.bind_eq_some_iff.mp hm
      cases hm
      cases i with
      | zero =>
        cases hk
        intro hb'
        rw [hbad 0 j a ha hb'] at hb
        cases hb
      | succ i => exact ih'.mp hcs i k (by simpa using hk)
    · intro hall
      rw [hgood 0 j a ha (hall 0 j rfl), ih'.mpr (fun i k hk => hall (i + 1) k (by simpa using hk))]
      rfl

theorem defaulted_mapItems {f : ℕ → Json → Json} (bad : ℕ → Json → Prop) {slot : Option Json}
    {as : List α} (hgood : ∀ i j a, decode j = some a → ¬ bad i j → decode (f i j) = some a)
    (hbad : ∀ i j a, decode j = some a → bad i j → decode (f i j) = none)
    (h : defaulted decode slot = some as) :
    defaulted decode (slot.map (mapItems f)) = some as ↔
      ∀ i j, (slotItems slot)[i]? = some j → ¬ bad i j := by
  cases slot with
  | none => simpa [slotItems] using h
  | some j =>
    cases j with
    | arr items => exact mapM_mapIdx bad hgood hbad h
    | _ => cases h

end Preserved

theorem fillNulls_eq_null {members : List Member} {chosen : Member → Bool} (j : Json) :
    fillNulls members chosen j = .null ↔ j = .null := by
  cases j <;> simp [fillNulls]

/-! ## Derived `Serialize` -/

/-- The object that a derived struct writes: its fields in order, under their names. -/
def written (fields : List (Member × Json)) : Json :=
  .obj (fields.map (fun field => (field.1.name, field.2)))

theorem given_of_absent {m : Member} {members : List (Str × Json)}
    (h : ∀ member ∈ members, member.1 ∉ m.names) : m.given members = [] := by
  apply List.filterMap_eq_nil_iff.mpr
  intro member hmember
  exact if_neg (h member hmember)

theorem given_written {fields : List (Member × Json)} (ht : Distinct (fields.map Prod.fst))
    {m : Member} {value : Json} (hm : (m, value) ∈ fields) :
    m.given (fields.map (fun field => (field.1.name, field.2))) = [value] := by
  obtain ⟨before, after, rfl⟩ := List.append_of_mem hm
  obtain ⟨hnodup, hnames⟩ := ht
  have hother : ∀ field ∈ before ++ after, field.1.name ∉ m.names := by
    intro field hfield hname
    have hin : field.1 ∈ (before ++ (m, value) :: after).map Prod.fst := by
      apply List.mem_map_of_mem
      rcases List.mem_append.mp hfield with h | h
      · exact List.mem_append_left _ h
      · exact List.mem_append_right _ (List.mem_cons_of_mem _ h)
    have hsame := hnames field.1 hin m (List.mem_map_of_mem hm) field.1.name (by simp [Member.names])
      hname
    rw [List.map_append, List.map_cons, List.nodup_middle, List.nodup_cons, ← List.map_append] at hnodup
    rw [← hsame] at hnodup
    exact hnodup.1 (List.mem_map.mpr ⟨field, hfield, rfl⟩)
  have hname : m.name ∈ m.names := by simp [Member.names]
  rw [List.map_append, given_append, List.map_cons, given_of_absent]
  · rw [Member.given, List.filterMap_cons, if_pos hname]
    refine congrArg (value :: ·) (given_of_absent ?_)
    intro member hmember
    obtain ⟨field, hfield, rfl⟩ := List.mem_map.mp hmember
    exact hother field (List.mem_append_right _ hfield)
  · intro member hmember
    obtain ⟨field, hfield, rfl⟩ := List.mem_map.mp hmember
    exact hother field (List.mem_append_left _ hfield)

theorem Distinct.names_nodup {fields : List (Member × Json)} (ht : Distinct (fields.map Prod.fst)) :
    ((fields.map (fun field => (field.1.name, field.2))).map Prod.fst).Nodup := by
  have hnames : (fields.map (fun field => (field.1.name, field.2))).map Prod.fst =
      (fields.map Prod.fst).map Member.name := by
    rw [List.map_map, List.map_map]
    rfl
  rw [hnames]
  refine ht.1.map_on ?_
  intro m hm m' hm' hname
  exact ht.2 m hm m' hm' m.name (by simp [Member.names]) (by simp [Member.names, hname])

theorem record_written {table : List Member} {fields : List (Member × Json)}
    (htable : fields.map Prod.fst = table) (ht : Distinct table) :
    ∃ slots, record table (written fields) = some slots ∧
      ∀ field ∈ fields, slots field.1 = some field.2 := by
  subst htable
  refine ⟨fun m => (m.given (fields.map (fun field => (field.1.name, field.2)))).head?, ?_, ?_⟩
  · rw [written, record, if_pos]
    intro m hm
    obtain ⟨⟨m', value⟩, hfield, rfl⟩ := List.mem_map.mp hm
    rw [given_written ht hfield]
    exact le_refl 1
  · intro field hfield
    obtain ⟨m, value⟩ := field
    dsimp only
    rw [given_written ht hfield]
    rfl

/-! ## Writers and readers -/

/-- Trees of texts and nulls whose objects give no name twice. -/
inductive Textual : Json → Prop
  | null : Textual .null
  | str (s : Str) : Textual (.str s)
  | obj (members : List (Str × Json)) (hnames : (members.map Prod.fst).Nodup)
      (h : ∀ member ∈ members, Textual member.2) : Textual (.obj members)

theorem textual_written {table : List Member} {fields : List (Member × Json)}
    (htable : fields.map Prod.fst = table) (ht : Distinct table)
    (h : ∀ field ∈ fields, Textual field.2) : Textual (written fields) := by
  subst htable
  refine .obj _ ht.names_nodup ?_
  intro member hmember
  obtain ⟨field, hfield, rfl⟩ := List.mem_map.mp hmember
  exact h field hfield

/-- The crate `serde_json`: the bytes of a tree, and the tree of bytes. -/
structure SerdeJson where
  toVec : Json → Bytes
  fromSlice : Bytes → Option Json

/-- What is written is read back. -/
def SerdeJson.RoundTrips (serde : SerdeJson) : Prop :=
  ∀ j, Textual j → serde.fromSlice (serde.toVec j) = some j

end Serde
