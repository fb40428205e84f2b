import Mathlib.Tactic

set_option autoImplicit false

/-!
# Runs of a machine given by a partial step function

A label names everything a step leaves open (the acting party and whatever the
environment answers), so that a run is determined by its list of labels.
-/
namespace Machine

variable {σ ι : Type}

def run (step : σ → ι → Option σ) : σ → List ι → Option σ
  | s, [] => some s
  | s, l :: ls => (step s l).bind (fun u => run step u ls)

variable {step : σ → ι → Option σ} {s u v : σ} {l : ι} {ls ms : List ι}

@[simp] theorem run_nil : run step s [] = some s := rfl

theorem run_cons :
    run step s (l :: ls) = some v ↔ ∃ u, step s l = some u ∧ run step u ls = some v := by
  simp only [run, Option.bind_eq_some_iff]

theorem run_append :
    run step s (ls ++ ms) = some v ↔ ∃ u, run step s ls = some u ∧ run step u ms = some v := by
  induction ls generalizing s with
  | nil => simp
  | cons l ls ih =>
    simp only [List.cons_append, run_cons, ih]
    constructor
    · rintro ⟨w, hw, u, hu, hv⟩
      exact ⟨u, ⟨w, hw, hu⟩, hv⟩
    · rintro ⟨u, ⟨w, hw, hu⟩, hv⟩
      exact ⟨w, hw, u, hu, hv⟩

theorem run_snoc :
    run step s (ls ++ [l]) = some v ↔ ∃ u, run step s ls = some u ∧ step u l = some v := by
  simp [run_append, run_cons]

def Reachable (step : σ → ι → Option σ) (s v : σ) : Prop := ∃ ls, run step s ls = some v

theorem Reachable.refl (step : σ → ι → Option σ) (s : σ) : Reachable step s s := ⟨[], rfl⟩

theorem Reachable.next (h : Reachable step s u) (hstep : step u l = some v) : Reachable step s v := by
  obtain ⟨ls, hls⟩ := h
  exact ⟨ls ++ [l], run_snoc.mpr ⟨u, hls, hstep⟩⟩

theorem run_invariant {I : σ → Prop} (hstep : ∀ s l u, I s → step s l = some u → I u)
    (hs : I s) (hrun : run step s ls = some v) : I v := by
  induction ls generalizing s with
  | nil => cases hrun; exact hs
  | cons l ls ih =>
    obtain ⟨u, hu, hv⟩ := run_cons.mp hrun
    exact ih (hstep s l u hs hu) hv

theorem Reachable.invariant {I : σ → Prop} (hs : I s)
    (hstep : ∀ s l u, I s → step s l = some u → I u) (h : Reachable step s v) : I v := by
  obtain ⟨ls, hls⟩ := h
  exact run_invariant hstep hs hls

/-- A run over labels in `ok` pays for every label in `p` with a unit of the measure. -/
theorem run_countP_le {I : σ → Prop} {ok : ι → Prop} {p : ι → Bool} {μ : σ → ℕ}
    (hstep : ∀ s l u, I s → ok l → step s l = some u → I u ∧ μ u + (p l).toNat ≤ μ s)
    (hs : I s) (hok : ∀ l ∈ ls, ok l) (hrun : run step s ls = some v) :
    I v ∧ μ v + ls.countP p ≤ μ s := by
  induction ls generalizing s with
  | nil => cases hrun; exact ⟨hs, le_refl _⟩
  | cons l ls ih =>
    obtain ⟨u, hu, hv⟩ := run_cons.mp hrun
    obtain ⟨hI, hpaid⟩ := hstep s l u hs (hok l List.mem_cons_self) hu
    obtain ⟨hIv, hrest⟩ := ih hI (fun l' hl' => hok l' (List.mem_cons_of_mem _ hl')) hv
    refine ⟨hIv, ?_⟩
    have hcount : (l :: ls).countP p = ls.countP p + (p l).toNat := by
      rw [List.countP_cons]
      cases p l <;> rfl
    omega

theorem run_history {P : List ι → σ → Prop} (hs : P [] s)
    (hstep : ∀ ls u l v, run step s ls = some u → P ls u → step u l = some v → P (ls ++ [l]) v) :
    ∀ ls v, run step s ls = some v → P ls v := by
  intro ls
  induction ls using List.reverseRecOn with
  | nil => intro v h; cases h; exact hs
  | append_singleton ls l ih =>
    intro v h
    obtain ⟨u, hu, hv⟩ := run_snoc.mp h
    exact hstep ls u l v hu (ih u hu) hv

/-- The run over `ls` has been in a state where `Q` held. -/
def Passed (step : σ → ι → Option σ) (s : σ) (ls : List ι) (Q : σ → Prop) : Prop :=
  ∃ ms u, ms <+: ls ∧ run step s ms = some u ∧ Q u

theorem Passed.now {Q : σ → Prop} (hrun : run step s ls = some u) (hQ : Q u) : Passed step s ls Q :=
  ⟨ls, u, List.prefix_refl ls, hrun, hQ⟩

theorem Passed.snoc {Q : σ → Prop} (h : Passed step s ls Q) (l : ι) : Passed step s (ls ++ [l]) Q := by
  obtain ⟨ms, u, hms, hrun, hQ⟩ := h
  exact ⟨ms, u, hms.trans (List.prefix_append ls [l]), hrun, hQ⟩

/-- The run over `ls` has taken a step with `Q`. -/
def Stepped (step : σ → ι → Option σ) (s : σ) (ls : List ι) (Q : σ → ι → Prop) : Prop :=
  ∃ ms u l, ms ++ [l] <+: ls ∧ run step s ms = some u ∧ Q u l

theorem Stepped.now {Q : σ → ι → Prop} (hrun : run step s ls = some u) (hQ : Q u l) :
    Stepped step s (ls ++ [l]) Q :=
  ⟨ls, u, l, List.prefix_refl _, hrun, hQ⟩

theorem Stepped.snoc {Q : σ → ι → Prop} (h : Stepped step s ls Q) (l : ι) :
    Stepped step s (ls ++ [l]) Q := by
  obtain ⟨ms, u, l', hms, hrun, hQ⟩ := h
  exact ⟨ms, u, l', hms.trans (List.prefix_append ls [l]), hrun, hQ⟩

theorem next_of_run (hrun : run step s ls = some v) (hms : ms ++ [l] <+: ls)
    (hu : run step s ms = some u) : ∃ w, step u l = some w := by
  obtain ⟨rest, rfl⟩ := hms
  obtain ⟨w, hw, -⟩ := run_append.mp hrun
  obtain ⟨u', hu', hstep⟩ := run_snoc.mp hw
  obtain rfl : u = u' := Option.some.inj (hu.symm.trans hu')
  exact ⟨w, hstep⟩

/-- The machine that refuses the steps outside `ok`. -/
def guarded (ok : σ → ι → Bool) (step : σ → ι → Option σ) (s : σ) (l : ι) : Option σ :=
  if ok s l then step s l else none

theorem guarded_eq_some {ok : σ → ι → Bool} :
    guarded ok step s l = some u ↔ ok s l = true ∧ step s l = some u := by
  simp [guarded]

/-- Deleting the labels that leave `R` in place gives a run of the rest. -/
theorem run_filter {R : σ → σ → Prop} {keep : ι → Bool}
    (hkeep : ∀ s s' l u, R s s' → l ∈ ls → keep l = true → step s l = some u →
      ∃ u', step s' l = some u' ∧ R u u')
    (hdrop : ∀ s s' l u, R s s' → l ∈ ls → keep l = false → step s l = some u → R u s')
    {s' : σ} (hs : R s s') (hrun : run step s ls = some v) :
    ∃ v', run step s' (ls.filter keep) = some v' ∧ R v v' := by
  induction ls generalizing s s' with
  | nil => cases hrun; exact ⟨s', rfl, hs⟩
  | cons l ls ih =>
    obtain ⟨u, hu, hv⟩ := run_cons.mp hrun
    have hkeep' := fun s s' l u h hl => hkeep s s' l u h (List.mem_cons_of_mem _ hl)
    have hdrop' := fun s s' l u h hl => hdrop s s' l u h (List.mem_cons_of_mem _ hl)
    cases hl : keep l with
    | true =>
      obtain ⟨u', hu', hR⟩ := hkeep s s' l u hs List.mem_cons_self hl hu
      obtain ⟨v', hv', hRv⟩ := ih hkeep' hdrop' hR hv
      refine ⟨v', ?_, hRv⟩
      rw [List.filter_cons_of_pos hl, run_cons]
      exact ⟨u', hu', hv'⟩
    | false =>
      rw [List.filter_cons_of_neg (by simp [hl])]
      exact ih hkeep' hdrop' (hdrop s s' l u hs List.mem_cons_self hl hu) hv

end Machine
