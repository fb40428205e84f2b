import Mathlib.Tactic

set_option autoImplicit false

/-!
# Mutual exclusion

A lock is its holder; `holds` says of every party whether it is in a section that
the lock guards.
-/
namespace Lock

variable {ι : Type}

def Owned (holder : Option ι) (holds : ι → Bool) : Prop := ∀ r, holder = some r ↔ holds r = true

theorem owned_none : Owned (none : Option ι) (fun _ => false) := by
  intro r
  simp

variable {holder : Option ι} {holds : ι → Bool} {r r' : ι}

theorem Owned.unique (h : Owned holder holds) (hr : holds r = true) (hr' : holds r' = true) :
    r = r' := by
  have hholder : holder = some r := (h r).mpr hr
  have hholder' : holder = some r' := (h r').mpr hr'
  exact Option.some.inj (hholder.symm.trans hholder')

theorem Owned.eq_some (h : Owned holder holds) (hr : holds r = true) : holder = some r := (h r).mpr hr

variable [DecidableEq ι]

theorem Owned.acquire (h : Owned none holds) : Owned (some r) (Function.update holds r true) := by
  intro r'
  by_cases hr : r' = r
  · subst hr
    simp
  · have hfree : holds r' = false := by simpa using (h r').not.mp (by simp)
    simp [hr, hfree, Ne.symm hr]

theorem Owned.release (h : Owned holder holds) (hr : holds r = true) :
    Owned none (Function.update holds r false) := by
  intro r'
  by_cases hr' : r' = r
  · subst hr'
    simp
  · have hfree : ¬ holds r' = true := by
      intro hheld
      exact hr' (h.unique hheld hr)
    simp [hr', hfree]

theorem Owned.keep (h : Owned holder holds) {b : Bool} (hb : holds r = b) :
    Owned holder (Function.update holds r b) := by
  rw [← hb, Function.update_eq_self]
  exact h

end Lock
