import Mathlib.Tactic

set_option autoImplicit false

/-!
# Ordered maps of the Rust standard library

`BTreeMap` is the tree map of `Std`, up to the shape of the tree. Only what the `entry`
interface adds to it is given here, reading by equality of keys, and orders of keys that are
compared through a label.
-/
namespace BTreeMap

section Entry
variable {κ ν : Type} [Ord κ] [Std.TransOrd κ]

/-- `map.entry(key).or_insert(default)`, and then an update of the value in place. -/
def upsert (map : Std.ExtTreeMap κ ν) (key : κ) (default : ν) (update : ν → ν) :
    Std.ExtTreeMap κ ν :=
  map.insert key (update (map.getD key default))

theorem getElem?_insert_eq [DecidableEq κ] [Std.LawfulEqOrd κ] (map : Std.ExtTreeMap κ ν)
    (key k : κ) (value : ν) :
    (map.insert key value)[k]? = if k = key then some value else map[k]? := by
  rw [Std.ExtTreeMap.getElem?_insert]
  by_cases hkey : k = key
  · rw [if_pos hkey, if_pos (Std.LawfulEqOrd.compare_eq_iff_eq.mpr hkey.symm)]
  · rw [if_neg hkey, if_neg]
    intro hcompare
    exact hkey (Std.LawfulEqOrd.compare_eq_iff_eq.mp hcompare).symm

variable {map : Std.ExtTreeMap κ ν} {key : κ} {default : ν} {update : ν → ν}

theorem mem_upsert [Std.LawfulEqOrd κ] {k : κ} :
    k ∈ upsert map key default update ↔ k = key ∨ k ∈ map := by
  rw [upsert, Std.ExtTreeMap.mem_insert, Std.LawfulEqOrd.compare_eq_iff_eq]
  exact or_congr_left eq_comm

theorem read_upsert [DecidableEq κ] [Std.LawfulEqOrd κ] {β : Type} (read : ν → β)
    (map : Std.ExtTreeMap κ ν) (key : κ) (default : ν) (update : ν → ν) :
    (fun k => read ((upsert map key default update).getD k default)) =
      Function.update (fun k => read (map.getD k default)) key
        (read (update (map.getD key default))) := by
  funext k
  by_cases hkey : k = key
  · subst hkey
    rw [Function.update_self, upsert, Std.ExtTreeMap.getD_insert_self]
  · rw [Function.update_of_ne hkey, upsert, Std.ExtTreeMap.getD_insert, if_neg]
    intro h
    exact hkey (Std.LawfulEqOrd.compare_eq_iff_eq.mp h).symm

theorem find?_toList [DecidableEq κ] [Std.LawfulEqOrd κ] (map : Std.ExtTreeMap κ ν) (key : κ) :
    (map.toList.find? (fun entry => entry.1 = key)).map Prod.snd = map[key]? := by
  cases hfound : map.toList.find? (fun entry => entry.1 = key) with
  | none =>
    have hnone := List.find?_eq_none.mp hfound
    cases hvalue : map[key]? with
    | none => rfl
    | some value =>
      have hmem := Std.ExtTreeMap.mem_toList_iff_getElem?_eq_some.mpr hvalue
      exact absurd (decide_eq_true rfl) (hnone (key, value) hmem)
  | some entry =>
    obtain ⟨key', value⟩ := entry
    have hkey := List.find?_some hfound
    rw [decide_eq_true_eq] at hkey
    dsimp only at hkey
    have hvalue := Std.ExtTreeMap.mem_toList_iff_getElem?_eq_some.mp (List.mem_of_find?_eq_some hfound)
    rw [hkey] at hvalue
    exact hvalue.symm

theorem ofList_toList [DecidableEq κ] [Std.LawfulEqOrd κ] (map : Std.ExtTreeMap κ ν) :
    Std.ExtTreeMap.ofList map.toList = map := by
  apply Std.ExtTreeMap.ext_getElem?
  intro key
  cases hvalue : map[key]? with
  | some value =>
    exact Std.ExtTreeMap.getElem?_ofList_of_mem Std.ReflCmp.compare_self
      Std.ExtTreeMap.distinct_keys_toList
      (Std.ExtTreeMap.mem_toList_iff_getElem?_eq_some.mpr hvalue)
  | none =>
    apply Std.ExtTreeMap.getElem?_ofList_of_contains_eq_false
    rw [Bool.eq_false_iff]
    intro hcontains
    obtain ⟨⟨key', value⟩, hmem, hkey⟩ := List.mem_map.mp (List.contains_iff_mem.mp hcontains)
    have hother := Std.ExtTreeMap.mem_toList_iff_getElem?_eq_some.mp hmem
    rw [show key' = key from hkey, hvalue] at hother
    cases hother

end Entry

section Entries
variable {κ ν α : Type} [DecidableEq κ]

def entered (key : κ) (entries : List (κ × α)) : List α :=
  entries.filterMap (fun entry => if entry.1 = key then some entry.2 else none)

theorem entered_concat (key : κ) (entries : List (κ × α)) (entry : κ × α) :
    entered key (entries ++ [entry]) =
      entered key entries ++ if entry.1 = key then [entry.2] else [] := by
  rw [entered, List.filterMap_append]
  congr 1
  split <;> simp_all

theorem length_entered {β : Type} (f : β → Option (κ × α)) (key : κ) (xs : List β) :
    (entered key (xs.filterMap f)).length = xs.countP (fun x => (f x).map Prod.fst = some key) := by
  induction xs with
  | nil => rfl
  | cons x xs ih =>
    rw [List.countP_cons, ← ih]
    cases hx : f x with
    | none => simp [hx]
    | some entry =>
      by_cases hkey : entry.1 = key
      · simp [hx, entered, hkey]
      · simp [hx, entered, hkey]

variable [Ord κ] [Std.TransOrd κ] [Std.LawfulEqOrd κ]

/-- A map that entries have updated one by one. -/
def upsertAll (default : ν) (update : ν → α → ν) (entries : List (κ × α)) : Std.ExtTreeMap κ ν :=
  entries.foldl (fun map entry => upsert map entry.1 default (update · entry.2)) ∅

omit [DecidableEq κ] [Std.LawfulEqOrd κ] in
theorem upsertAll_append (default : ν) (update : ν → α → ν) (entries entries' : List (κ × α)) :
    upsertAll default update (entries ++ entries') =
      entries'.foldl (fun map entry => upsert map entry.1 default (update · entry.2))
        (upsertAll default update entries) :=
  List.foldl_append

/-- Under each key stands what its own entries have made of the default. -/
theorem getElem?_upsertAll (default : ν) (update : ν → α → ν) (entries : List (κ × α)) (key : κ) :
    (upsertAll default update entries)[key]? =
      if entered key entries = [] then none
      else some ((entered key entries).foldl update default) := by
  induction entries using List.reverseRecOn with
  | nil => exact Std.ExtTreeMap.getElem?_empty
  | append_singleton entries entry ih =>
    rw [upsertAll_append, List.foldl_cons, List.foldl_nil, upsert, getElem?_insert_eq, entered_concat]
    by_cases hkey : key = entry.1
    · subst hkey
      rw [if_pos rfl, if_pos rfl, if_neg (by simp), List.foldl_append,
        Std.ExtTreeMap.getD_eq_getD_getElem?, ih]
      split
      · rename_i hnone
        rw [hnone]
        rfl
      · rfl
    · rw [if_neg hkey, if_neg (Ne.symm hkey), List.append_nil, ih]

theorem mem_toList_upsertAll {default : ν} {update : ν → α → ν} {entries : List (κ × α)} {key : κ}
    {value : ν} : (key, value) ∈ (upsertAll default update entries).toList ↔
      entered key entries ≠ [] ∧ value = (entered key entries).foldl update default := by
  rw [Std.ExtTreeMap.mem_toList_iff_getElem?_eq_some, getElem?_upsertAll]
  split
  · rename_i hnone
    simp [hnone]
  · rename_i hsome
    simp [hsome, eq_comm]

end Entries

theorem keys_toList {κ ν : Type} [Ord κ] [Std.TransOrd κ] [Std.LawfulEqOrd κ]
    (map : Std.ExtTreeMap κ ν) : map.toList.Pairwise (fun a b => a.1 ≠ b.1) := by
  refine List.Pairwise.imp ?_ Std.ExtTreeMap.distinct_keys_toList
  intro a b hdistinct heq
  exact hdistinct (Std.LawfulEqOrd.compare_eq_iff_eq.mpr heq)

section Labels
variable {α β : Type} [Ord β] {label : α → β}

theorem lawfulEqCmp_compareOn [Std.LawfulEqOrd β] (h : Function.Injective label) :
    Std.LawfulEqCmp (compareOn label) where
  compare_self := Std.ReflOrd.compare_self
  eq_of_compare := fun hcompare => h (Std.LawfulEqOrd.compare_eq_iff_eq.mp hcompare)

end Labels

end BTreeMap
