import Mathlib.Tactic

set_option autoImplicit false

/-! Inversion of `?`, `collect` and `transpose` in the `Except` monad, and pointwise relations. -/
namespace RustResult

variable {ε δ α β : Type}

theorem bind_eq_ok {x : Except ε α} {f : α → Except ε β} {b : β} :
    x >>= f = .ok b ↔ ∃ a, x = .ok a ∧ f a = .ok b := by
  cases x with
  | error e => simp [bind, Except.bind]
  | ok a => simp [bind, Except.bind]

theorem pure_eq_ok {a b : α} : (pure a : Except ε α) = .ok b ↔ a = b := by
  simp [pure, Except.pure]

theorem mapError_eq_ok {x : Except ε α} {f : ε → δ} {a : α} :
    x.mapError f = .ok a ↔ x = .ok a := by
  cases x with
  | error e => simp [Except.mapError]
  | ok a => simp [Except.mapError]

theorem bind_eq_error {x : Except ε α} {f : α → Except ε β} {e : ε} :
    x >>= f = .error e ↔ x = .error e ∨ ∃ a, x = .ok a ∧ f a = .error e := by
  cases x with
  | error e => simp [bind, Except.bind]
  | ok a => simp [bind, Except.bind]

theorem mapError_eq_error {x : Except ε α} {f : ε → δ} {d : δ} :
    x.mapError f = .error d ↔ ∃ e, x = .error e ∧ f e = d := by
  cases x with
  | error e => simp [Except.mapError]
  | ok a => simp [Except.mapError]

theorem map_eq_ok {x : Except ε α} {f : α → β} {b : β} :
    x.map f = .ok b ↔ ∃ a, x = .ok a ∧ f a = b := by
  cases x with
  | error e => simp [Except.map]
  | ok a => simp [Except.map]

/-- Collecting into a `Result<Vec<_>, _>` succeeds when every element does, in order. -/
theorem mapM_eq_ok {f : α → Except ε β} {xs : List α} {ys : List β} :
    xs.mapM f = .ok ys ↔ List.Forall₂ (fun x y => f x = .ok y) xs ys := by
  induction xs generalizing ys with
  | nil => cases ys <;> simp [pure_eq_ok]
  | cons x xs ih =>
    rw [List.mapM_cons, bind_eq_ok, List.forall₂_cons_left_iff]
    constructor
    · rintro ⟨y, hy, h⟩
      obtain ⟨zs, hzs, h⟩ := bind_eq_ok.mp h
      exact ⟨y, zs, hy, ih.mp hzs, (pure_eq_ok.mp h).symm⟩
    · rintro ⟨y, zs, hy, hzs, rfl⟩
      exact ⟨y, hy, bind_eq_ok.mpr ⟨zs, ih.mpr hzs, rfl⟩⟩

/-- Both succeed, with related values, or both fail with the same error. -/
inductive Alike (R : α → β → Prop) : Except ε α → Except ε β → Prop
  | error (e : ε) : Alike R (.error e) (.error e)
  | ok {a : α} {b : β} (h : R a b) : Alike R (.ok a) (.ok b)

theorem Alike.bind {γ ζ : Type} {R : α → β → Prop} {S : γ → ζ → Prop} {x : Except ε α}
    {y : Except ε β} {f : α → Except ε γ} {g : β → Except ε ζ} (h : Alike R x y)
    (hrest : ∀ a b, R a b → Alike S (f a) (g b)) : Alike S (x >>= f) (y >>= g) := by
  cases h with
  | error e => exact .error e
  | ok hab => exact hrest _ _ hab

theorem Alike.mapError {R : α → β → Prop} {x : Except ε α} {y : Except ε β} (h : Alike R x y)
    (f : ε → δ) : Alike R (x.mapError f) (y.mapError f) := by
  cases h with
  | error e => exact .error (f e)
  | ok hab => exact .ok hab

theorem Alike.ite {R : α → β → Prop} {p q : Prop} [Decidable p] [Decidable q]
    {x x' : Except ε α} {y y' : Except ε β} (hpq : p ↔ q) (h : Alike R x y) (h' : Alike R x' y') :
    Alike R (if p then x else x') (if q then y else y') := by
  by_cases hq : q
  · rw [if_pos (hpq.mpr hq), if_pos hq]
    exact h
  · rw [if_neg (fun hp => hq (hpq.mp hp)), if_neg hq]
    exact h'

theorem Alike.mapM {γ ζ : Type} {R : γ → ζ → Prop} {f : α → Except ε γ} {g : β → Except ε ζ}
    {xs : List α} {ys : List β} (h : List.Forall₂ (fun x y => Alike R (f x) (g y)) xs ys) :
    Alike (List.Forall₂ R) (xs.mapM f) (ys.mapM g) := by
  induction h with
  | nil => exact .ok .nil
  | cons hxy _ ih =>
    rw [List.mapM_cons, List.mapM_cons]
    exact hxy.bind (fun _ _ hab => ih.bind (fun _ _ hrest => .ok (.cons hab hrest)))

theorem Alike.error_iff {R : α → β → Prop} {x : Except ε α} {y : Except ε β} (h : Alike R x y)
    (e : ε) : x = .error e ↔ y = .error e := by
  cases h with
  | error e' => simp
  | ok hab => simp

theorem Alike.mono {R S : α → β → Prop} {x : Except ε α} {y : Except ε β} (h : Alike R x y)
    (hRS : ∀ a b, R a b → S a b) : Alike S x y := by
  cases h with
  | error e => exact .error e
  | ok hab => exact .ok (hRS _ _ hab)

theorem Alike.refl {R : α → α → Prop} (hR : ∀ a, R a a) (x : Except ε α) : Alike R x x := by
  cases x with
  | error e => exact .error e
  | ok a => exact .ok (hR a)

theorem optionRel_mono {R S : α → β → Prop} (h : ∀ a b, R a b → S a b)
    {a : Option α} {b : Option β} (hab : Option.Rel R a b) : Option.Rel S a b := by
  cases hab with
  | some hr => exact .some (h _ _ hr)
  | none => exact .none

theorem optionRel_mem {R : α → β → Prop} {a : Option α} {b : Option β} {x : α}
    (hab : Option.Rel R a b) (hx : x ∈ a.toList) : ∃ y, R x y := by
  cases hab with
  | some hr =>
    simp only [Option.toList_some, List.mem_singleton] at hx
    subst hx
    exact ⟨_, hr⟩
  | none => simp at hx

theorem optionRel_mem_right {R : α → β → Prop} {a : Option α} {b : Option β} {y : β}
    (hab : Option.Rel R a b) (hy : y ∈ b.toList) : ∃ x ∈ a.toList, R x y := by
  cases hab with
  | some hr =>
    simp only [Option.toList_some, List.mem_singleton] at hy
    subst hy
    exact ⟨_, by simp, hr⟩
  | none => simp at hy

theorem forall₂_nil_iff {R : α → β → Prop} {xs : List α} {ys : List β}
    (h : List.Forall₂ R xs ys) : xs = [] ↔ ys = [] := by
  cases h with
  | nil => simp
  | cons => simp

theorem forall₂_mem {R : α → β → Prop} {xs : List α} {ys : List β} {x : α}
    (h : List.Forall₂ R xs ys) (hx : x ∈ xs) : ∃ y ∈ ys, R x y := by
  induction h with
  | nil => simp at hx
  | @cons a b xs ys hab _ ih =>
    rcases List.mem_cons.mp hx with rfl | hx
    · exact ⟨b, by simp, hab⟩
    · obtain ⟨y, hy, hr⟩ := ih hx
      exact ⟨y, by simp [hy], hr⟩

theorem forall₂_mem_right {R : α → β → Prop} {xs : List α} {ys : List β} {y : β}
    (h : List.Forall₂ R xs ys) (hy : y ∈ ys) : ∃ x ∈ xs, R x y :=
  forall₂_mem (R := flip R) h.flip hy

end RustResult
