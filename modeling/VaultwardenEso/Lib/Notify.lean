import Mathlib.Tactic

set_option autoImplicit false

/-!
# A notification with one stored permit

The operations are told by what they do to three observations: the stored permit, the
futures that wait, and the futures that were woken and have not been polled since. Which
waiter is woken is left open.
-/

structure Notify.View (ω : Type) where
  permit : Bool
  waiting : Set ω
  woken : Set ω

namespace Notify.View

variable {ω : Type}

def consume (v : View ω) (w : ω) : View ω := ⟨v.permit, v.waiting, v.woken \ {w}⟩

/-- One waiter is woken, or else a permit is stored. -/
inductive Notified (v : View ω) : View ω → Prop
  | wakes (w : ω) (h : w ∈ v.waiting) : Notified v ⟨v.permit, v.waiting \ {w}, insert w v.woken⟩
  | stores (h : v.waiting = ∅) : Notified v ⟨true, ∅, v.woken⟩

/-- A poll of the future `w`, and whether it is ready. -/
inductive Polled (v : View ω) (w : ω) : Bool → View ω → Prop
  | wakes (h : w ∈ v.woken) : Polled v w true (v.consume w)
  | waits (hnot : w ∉ v.woken) (h : w ∈ v.waiting) : Polled v w false v
  | takes (hnot : w ∉ v.woken) (hfresh : w ∉ v.waiting) (h : v.permit = true) :
    Polled v w true ⟨false, v.waiting, v.woken⟩
  | parks (hnot : w ∉ v.woken) (hfresh : w ∉ v.waiting) (h : v.permit = false) :
    Polled v w false ⟨false, insert w v.waiting, v.woken⟩

/-- A woken future that is dropped before its poll passes the permit on. -/
inductive Dropped (v : View ω) (w : ω) : View ω → Prop
  | passes (h : w ∈ v.woken) (u : View ω) (hnext : Notified (v.consume w) u) : Dropped v w u
  | leaves (h : w ∉ v.woken) : Dropped v w ⟨v.permit, v.waiting \ {w}, v.woken⟩

/-- The futures that were polled and are not done. -/
def registered (v : View ω) : Set ω := v.waiting ∪ v.woken

/-- A permit is stored only while nobody waits. -/
structure Lawful (v : View ω) : Prop where
  permit : v.permit = true → v.waiting = ∅
  asleep : ∀ w ∈ v.woken, w ∉ v.waiting

def Outstanding (v : View ω) : Prop := v.permit = true ∨ v.woken.Nonempty

variable {v u : View ω} {w : ω}

theorem Notified.outstanding (h : v.Notified u) : u.Outstanding := by
  cases h with
  | wakes w hw => exact .inr (Set.insert_nonempty w v.woken)
  | stores hnone => exact .inl rfl

theorem Notified.registered_eq (h : v.Notified u) : u.registered = v.registered := by
  cases h with
  | wakes w hw =>
    change v.waiting \ {w} ∪ insert w v.woken = v.waiting ∪ v.woken
    rw [Set.union_insert, ← Set.insert_union, Set.insert_sdiff_singleton, Set.insert_eq_of_mem hw]
  | stores hnone =>
    change ∅ ∪ v.woken = v.waiting ∪ v.woken
    rw [hnone]

theorem Notified.lawful (h : v.Notified u) (hv : v.Lawful) : u.Lawful := by
  cases h with
  | wakes w hw =>
    constructor
    · intro hpermit
      change v.waiting \ {w} = ∅
      rw [hv.permit hpermit, Set.empty_sdiff]
    · rintro x (rfl | hx)
      · exact fun h => h.2 rfl
      · exact fun h => hv.asleep x hx h.1
  | stores hnone => exact ⟨fun _ => rfl, fun _ _ => Set.notMem_empty _⟩

theorem Lawful.consume (hv : v.Lawful) (w : ω) : (v.consume w).Lawful :=
  ⟨hv.permit, fun x hx => hv.asleep x hx.1⟩

theorem Lawful.registered_consume (hv : v.Lawful) (hw : w ∈ v.woken) :
    (v.consume w).registered = v.registered \ {w} := by
  change v.waiting ∪ v.woken \ {w} = (v.waiting ∪ v.woken) \ {w}
  rw [Set.union_sdiff_distrib, Set.sdiff_singleton_eq_self (hv.asleep w hw)]

theorem Polled.registered_of_ready (h : v.Polled w true u) (hv : v.Lawful) :
    u.registered = v.registered \ {w} := by
  cases h with
  | wakes hw => exact hv.registered_consume hw
  | takes hnot hfresh hpermit =>
    refine (Set.sdiff_singleton_eq_self ?_).symm
    rintro (hw | hw)
    · exact hfresh hw
    · exact hnot hw

theorem Polled.registered_of_pending (h : v.Polled w false u) :
    u.registered = insert w v.registered := by
  cases h with
  | waits hnot hw => exact (Set.insert_eq_of_mem (Set.mem_union_left _ hw)).symm
  | parks hnot hfresh hpermit => exact Set.insert_union

theorem Polled.lawful {ready : Bool} (h : v.Polled w ready u) (hv : v.Lawful) : u.Lawful := by
  cases h with
  | wakes hw => exact hv.consume w
  | waits hnot hw => exact hv
  | takes hnot hfresh hpermit => exact ⟨nofun, hv.asleep⟩
  | parks hnot hfresh hpermit =>
    refine ⟨nofun, ?_⟩
    rintro x hx (rfl | hwait)
    · exact hnot hx
    · exact hv.asleep x hx hwait

theorem Polled.ready_of_outstanding {ready : Bool} (h : v.Polled w ready u) (hv : v.Lawful)
    (hout : v.Outstanding) (honly : v.registered ⊆ {w}) : ready = true := by
  have hwoken : v.waiting.Nonempty ∨ v.permit = false → w ∈ v.woken := by
    intro hnone
    rcases hout with hpermit | ⟨x, hx⟩
    · rcases hnone with hne | hfalse
      · exact absurd (hv.permit hpermit) hne.ne_empty
      · rw [hpermit] at hfalse
        cases hfalse
    · have hxw : x = w := honly (Set.mem_union_right _ hx)
      exact hxw ▸ hx
  cases h with
  | wakes hw => rfl
  | waits hnot hw => exact absurd (hwoken (.inl ⟨w, hw⟩)) hnot
  | takes hnot hfresh hpermit => rfl
  | parks hnot hfresh hpermit => exact absurd (hwoken (.inr hpermit)) hnot

theorem Dropped.outstanding (h : v.Dropped w u) (hout : v.Outstanding) : u.Outstanding := by
  cases h with
  | passes hw u hnext => exact hnext.outstanding
  | leaves hw => exact hout

theorem Dropped.registered_eq (h : v.Dropped w u) (hv : v.Lawful) :
    u.registered = v.registered \ {w} := by
  cases h with
  | passes hw u hnext => exact hnext.registered_eq.trans (hv.registered_consume hw)
  | leaves hw =>
    change v.waiting \ {w} ∪ v.woken = (v.waiting ∪ v.woken) \ {w}
    rw [Set.union_sdiff_distrib, Set.sdiff_singleton_eq_self hw]

theorem Dropped.lawful (h : v.Dropped w u) (hv : v.Lawful) : u.Lawful := by
  cases h with
  | passes hw u hnext => exact hnext.lawful (hv.consume w)
  | leaves hw =>
    refine ⟨?_, fun x hx h => hv.asleep x hx h.1⟩
    intro hpermit
    change v.waiting \ {w} = ∅
    rw [hv.permit hpermit, Set.empty_sdiff]

end Notify.View

/-- A notification object `ν` whose futures are named by `ω`. -/
class Notify (ω : outParam Type) (ν : Type) where
  new : ν
  notifyOne : ν → ν
  poll : ν → ω → Bool × ν
  drop : ν → ω → ν
  view : ν → Notify.View ω
  view_new : view new = ⟨false, ∅, ∅⟩
  notified : ∀ n, (view n).Notified (view (notifyOne n))
  polled : ∀ n w, (view n).Polled w (poll n w).1 (view (poll n w).2)
  dropped : ∀ n w, (view n).Dropped w (view (drop n w))

namespace Notify

variable {ω : Type}

structure Queue (ω : Type) where
  permit : Bool
  waiting : List ω
  woken : Finset ω
  nodup : waiting.Nodup

variable [DecidableEq ω]

namespace Queue

def new : Queue ω := ⟨false, [], ∅, List.nodup_nil⟩

def notifyOne : Queue ω → Queue ω
  | ⟨_, [], woken, h⟩ => ⟨true, [], woken, h⟩
  | ⟨permit, w :: waiting, woken, h⟩ => ⟨permit, waiting, insert w woken, h.of_cons⟩

def poll (q : Queue ω) (w : ω) : Bool × Queue ω :=
  if w ∈ q.woken then (true, { q with woken := q.woken.erase w })
  else if h : w ∈ q.waiting then (false, q)
  else if q.permit then (true, { q with permit := false })
  else (false, { q with waiting := q.waiting.concat w, nodup := q.nodup.concat h })

def drop (q : Queue ω) (w : ω) : Queue ω :=
  if w ∈ q.woken then notifyOne { q with woken := q.woken.erase w }
  else { q with waiting := q.waiting.erase w, nodup := q.nodup.erase w }

def view (q : Queue ω) : View ω := ⟨q.permit, {w | w ∈ q.waiting}, q.woken⟩

theorem notified (q : Queue ω) : q.view.Notified q.notifyOne.view := by
  obtain ⟨permit, waiting, woken, hnodup⟩ := q
  cases waiting with
  | nil =>
    have hnone : {w : ω | w ∈ ([] : List ω)} = ∅ := by simp
    simp only [view, notifyOne, hnone]
    exact .stores rfl
  | cons w waiting =>
    have hrest : {x | x ∈ waiting} = {x | x ∈ w :: waiting} \ {w} := by
      ext x
      have hhead : x ∈ waiting → x ≠ w := fun hx heq => (List.nodup_cons.mp hnodup).1 (heq ▸ hx)
      simp only [Set.mem_ofPred_eq, Set.mem_sdiff, List.mem_cons, Set.mem_singleton_iff]
      tauto
    simp only [view, notifyOne, hrest, Finset.coe_insert]
    exact .wakes w List.mem_cons_self

theorem polled (q : Queue ω) (w : ω) : q.view.Polled w (q.poll w).1 (q.poll w).2.view := by
  unfold poll
  split
  · rename_i hwoken
    simp only [view, Finset.coe_erase]
    exact .wakes hwoken
  · rename_i hnot
    split
    · rename_i hwait
      exact .waits hnot hwait
    · rename_i hfresh
      split
      · rename_i hpermit
        exact .takes hnot hfresh hpermit
      · rename_i hpermit
        have hinsert : {x | x ∈ q.waiting.concat w} = insert w {x | x ∈ q.waiting} := by
          ext x
          simp [or_comm]
        simp only [view, hinsert, Bool.eq_false_of_not_eq_true hpermit]
        exact .parks hnot hfresh rfl

theorem dropped (q : Queue ω) (w : ω) : q.view.Dropped w (q.drop w).view := by
  unfold drop
  split
  · rename_i hwoken
    refine .passes hwoken _ ?_
    have hnext := notified { q with woken := q.woken.erase w }
    simp only [view, Finset.coe_erase] at hnext
    exact hnext
  · rename_i hnot
    have herase : {x | x ∈ q.waiting.erase w} = {x | x ∈ q.waiting} \ {w} := by
      ext x
      simp [q.nodup.mem_erase_iff, and_comm]
    simp only [view, herase]
    exact .leaves hnot

end Queue

instance : Notify ω (Queue ω) where
  new := Queue.new
  notifyOne := Queue.notifyOne
  poll := Queue.poll
  drop := Queue.drop
  view := Queue.view
  view_new := by simp [Queue.view, Queue.new]
  notified := Queue.notified
  polled := Queue.polled
  dropped := Queue.dropped

end Notify
