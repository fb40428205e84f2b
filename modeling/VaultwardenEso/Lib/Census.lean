import Mathlib.Data.Finset.Card
import Mathlib.Tactic

set_option autoImplicit false

/-!
# How many parties are in a section

`Counts holds n` says that exactly `n` of the parties, of which there may be infinitely
many, satisfy `holds`. A party that moves is one update of `holds`.
-/
namespace Census

variable {ι : Type}

def Counts (holds : ι → Bool) (n : ℕ) : Prop :=
  ∃ members : Finset ι, members.card = n ∧ ∀ r, r ∈ members ↔ holds r = true

theorem counts_none : Counts (fun _ : ι => false) 0 := by
  refine ⟨∅, rfl, ?_⟩
  intro r
  simp

variable {holds : ι → Bool} {n : ℕ} {r : ι}

theorem Counts.eq_zero (h : Counts holds n) (hnone : ∀ r, holds r = false) : n = 0 := by
  obtain ⟨members, rfl, hmembers⟩ := h
  rw [Finset.card_eq_zero, Finset.eq_empty_iff_forall_notMem]
  intro r hr
  rw [hmembers, hnone r] at hr
  cases hr

theorem Counts.unique {m : ℕ} (h : Counts holds n) (h' : Counts holds m) : n = m := by
  obtain ⟨members, rfl, hmembers⟩ := h
  obtain ⟨members', rfl, hmembers'⟩ := h'
  congr 1
  ext r
  rw [hmembers, hmembers']

variable [DecidableEq ι]

theorem Counts.enter (h : Counts holds n) (hr : holds r = false) :
    Counts (Function.update holds r true) (n + 1) := by
  obtain ⟨members, rfl, hmembers⟩ := h
  have hnot : r ∉ members := by simp [hmembers, hr]
  refine ⟨insert r members, Finset.card_insert_of_notMem hnot, ?_⟩
  intro r'
  by_cases heq : r' = r
  · subst heq
    simp
  · simp [heq, hmembers]

theorem Counts.leave (h : Counts holds n) (hr : holds r = true) :
    ∃ m, n = m + 1 ∧ Counts (Function.update holds r false) m := by
  obtain ⟨members, rfl, hmembers⟩ := h
  have hmem : r ∈ members := (hmembers r).mpr hr
  refine ⟨(members.erase r).card, (Finset.card_erase_add_one hmem).symm, members.erase r, rfl, ?_⟩
  intro r'
  by_cases heq : r' = r
  · subst heq
    simp
  · simp [heq, hmembers]

/-- Whatever a party does, the count changes by what it was and what it is. -/
theorem Counts.move (h : Counts holds n) (r : ι) (b : Bool) :
    ∃ m, Counts (Function.update holds r b) m ∧ m + (holds r).toNat = n + b.toNat := by
  cases hr : holds r <;> cases b
  · refine ⟨n, ?_, rfl⟩
    rw [← hr, Function.update_eq_self]
    exact h
  · exact ⟨n + 1, h.enter hr, rfl⟩
  · obtain ⟨m, rfl, hleft⟩ := h.leave hr
    exact ⟨m, hleft, rfl⟩
  · refine ⟨n, ?_, rfl⟩
    rw [← hr, Function.update_eq_self]
    exact h

end Census
