import Mathlib.Logic.Relation
import Mathlib.Order.Monotone.Defs
import Mathlib.Tactic

set_option autoImplicit false

/-!
# A slot with one refresher at a time

A value in the slot is fresh for a while and then stale for good. A party starts a
refresh only of a slot that is stale and that nobody refreshes; the refresh ends when
it stores a value or gives up.
-/
namespace OneSlot

variable {τ ν ι : Type}

@[ext] structure Slot (τ ν ι : Type) where
  now : τ
  value : Option ν
  refresher : Option ι

def Slot.Stale (fresh : τ → ν → Prop) (s : Slot τ ν ι) : Prop :=
  ∀ v, s.value = some v → ¬ fresh s.now v

/-- Whoever refreshes the slot does so because it is stale. -/
def Slot.Guarded (fresh : τ → ν → Prop) (s : Slot τ ν ι) : Prop :=
  ∀ r, s.refresher = some r → s.Stale fresh

variable {fresh : τ → ν → Prop} {s u : Slot τ ν ι} {v : ν}

theorem Slot.Guarded.quiet (hs : s.Guarded fresh) (hv : s.value = some v) (hnow : fresh s.now v) :
    s.refresher = none := by
  rw [Option.eq_none_iff_forall_not_mem]
  intro r hr
  exact hs r hr v hv hnow

variable [Preorder τ]

inductive Move (fresh : τ → ν → Prop) (s : Slot τ ν ι) : Slot τ ν ι → Prop
  | stay : Move fresh s s
  | pass (t : τ) (h : s.now ≤ t) : Move fresh s { s with now := t }
  | start (r : ι) (hfree : s.refresher = none) (hstale : s.Stale fresh) :
    Move fresh s { s with refresher := some r }
  | giveUp (r : ι) (hheld : s.refresher = some r) : Move fresh s { s with refresher := none }
  | store (r : ι) (v : ν) (hheld : s.refresher = some r) :
    Move fresh s { s with value := some v, refresher := none }

theorem Slot.Stale.later (hfresh : ∀ v, Antitone (fun t => fresh t v)) (h : s.Stale fresh) {t : τ}
    (ht : s.now ≤ t) : ({ s with now := t } : Slot τ ν ι).Stale fresh := by
  intro v hv hlater
  exact h v hv (hfresh v ht hlater)

theorem Move.guarded (hfresh : ∀ v, Antitone (fun t => fresh t v)) (h : Move fresh s u)
    (hs : s.Guarded fresh) : u.Guarded fresh := by
  cases h with
  | stay => exact hs
  | pass t ht =>
    intro r hr
    exact (hs r hr).later hfresh ht
  | start r hfree hstale =>
    intro r' _
    exact hstale
  | giveUp r hheld =>
    intro r' hr'
    cases hr'
  | store r v hheld =>
    intro r' hr'
    cases hr'

theorem guarded_of_moves (hfresh : ∀ v, Antitone (fun t => fresh t v))
    (h : Relation.ReflTransGen (Move fresh) s u) (hs : s.Guarded fresh) : u.Guarded fresh := by
  induction h with
  | refl => exact hs
  | tail _ hmove ih => exact hmove.guarded hfresh ih

theorem Move.kept (h : Move fresh s u) (hfree : s.refresher = none) (hv : s.value = some v)
    (hnow : fresh s.now v) : u.value = some v ∧ u.refresher = none := by
  cases h with
  | stay => exact ⟨hv, hfree⟩
  | pass t ht => exact ⟨hv, hfree⟩
  | start r _ hstale => exact absurd hnow (hstale v hv)
  | giveUp r hheld =>
    rw [hfree] at hheld
    cases hheld
  | store r v' hheld =>
    rw [hfree] at hheld
    cases hheld

end OneSlot
