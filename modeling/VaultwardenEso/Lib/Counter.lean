import Mathlib.Algebra.BigOperators.Fin
import Mathlib.Data.UInt
import Mathlib.Tactic

set_option autoImplicit false

/-!
# Wrapping counters and what they count

A counter of 64 bits that is only ever incremented holds the number of increments modulo
`2 ^ 64`, so sums of such counters are read off sums of natural numbers.
-/
namespace Counter

theorem increment_apply {κ : Type} [DecidableEq κ] (counters : κ → UInt64) (key other : κ) :
    Function.update counters key (counters key + 1) other =
      counters other + UInt64.ofNat (if key = other then 1 else 0) := by
  by_cases hkey : key = other
  · subst hkey
    rw [Function.update_self, if_pos rfl]
    rfl
  · rw [Function.update_of_ne (Ne.symm hkey), if_neg hkey]
    exact (UInt64.add_zero _).symm

section Sums
variable {ι : Type}

theorem ofNat_sum (s : Finset ι) (f : ι → ℕ) :
    UInt64.ofNat (∑ i ∈ s, f i) = ∑ i ∈ s, UInt64.ofNat (f i) :=
  map_sum (⟨⟨UInt64.ofNat, rfl⟩, UInt64.ofNat_add⟩ : ℕ →+ UInt64) f s

/-- Below the modulus the counters are the numbers themselves. -/
theorem sum_toNat_ofNat {s : Finset ι} {f : ι → ℕ} (h : ∑ i ∈ s, f i < 2 ^ 64) :
    ∑ i ∈ s, (UInt64.ofNat (f i)).toNat = ∑ i ∈ s, f i := by
  refine Finset.sum_congr rfl ?_
  intro i hi
  exact UInt64.toNat_ofNat_of_lt' (Nat.lt_of_le_of_lt (Finset.single_le_sum_of_canonicallyOrdered hi) h)

end Sums

theorem sum_countP_class {α ι : Type} [Fintype ι] [DecidableEq ι] (l : List α) (p : α → Bool)
    (f : α → ι) : ∑ i, l.countP (fun a => p a && f a = i) = l.countP p := by
  induction l with
  | nil => simp
  | cons a l ih =>
    simp only [List.countP_cons, Finset.sum_add_distrib, ih]
    congr 1
    cases p a with
    | false => simp
    | true => simp

end Counter
