import ZitiChannel.Lib.Transition
import Mathlib.Algebra.BigOperators.Group.Finset.Basic
import Mathlib.Algebra.Order.BigOperators.Group.Finset

/-!
# Measures

A system of many parts is measured by the sum of what its parts are worth.  When one part changes,
the total changes by as much, whatever the other parts are worth.  Where some of the events lower a
measure and none raises it, a run has no more of those events than the measure was worth at first.
What parts hold, if they hold anything, is kept track of in the same way.

## Main definitions

* `Family.total` — the sum of a family below a bound.
* `Family.values` — what the members of a family below a bound hold.

## Main results

* `Family.total_change`, `Family.values_take`, `Family.values_put` — what a change of one member
  does.
* `System.countP_le_of_measure` — how many of the events of a run can lower a measure.
-/

namespace Family

/-- The sum of a family of numbers below a bound. -/
def total (n : ℕ) (f : ℕ → ℕ) : ℕ := ∑ i ∈ Finset.range n, f i

variable {n i : ℕ} {f g : ℕ → ℕ}

/-- A member is worth at most the total. -/
theorem le_total (hi : i < n) (f : ℕ → ℕ) : f i ≤ total n f :=
  Finset.single_le_sum (fun _ _ => Nat.zero_le _) (Finset.mem_range.mpr hi)

/-- **One member changes, and the total changes by as much.** -/
theorem total_change (hi : i < n) (h : ∀ j, j ≠ i → g j = f j) :
    total n g + f i = total n f + g i := by
  have hmem := Finset.mem_range.mpr hi
  have hg := Finset.add_sum_erase (Finset.range n) g hmem
  have hf := Finset.add_sum_erase (Finset.range n) f hmem
  have hrest : ∑ j ∈ (Finset.range n).erase i, g j = ∑ j ∈ (Finset.range n).erase i, f j :=
    Finset.sum_congr rfl fun j hj => h j (Finset.ne_of_mem_erase hj)
  unfold total
  omega

/-- A member beyond the bound does not count. -/
theorem total_of_le (hi : n ≤ i) (h : ∀ j, j ≠ i → g j = f j) : total n g = total n f := by
  refine Finset.sum_congr rfl fun j hj => h j ?_
  have := Finset.mem_range.mp hj
  omega

/-- What the members of a family below a bound hold. -/
def values {α : Type*} (n : ℕ) (f : ℕ → Option α) : List α := (List.range n).filterMap f

/-- **What one member holds can be taken out.** -/
theorem values_take {α : Type*} {f : ℕ → Option α} {a : α} (hi : i < n) (hfi : f i = some a) :
    (values n f).Perm (a :: values n (Function.update f i none)) := by
  have hsplit := List.perm_cons_erase (List.mem_range.mpr hi)
  have hbefore := hsplit.filterMap f
  have hafter := hsplit.filterMap (Function.update f i none)
  -- The other members are the same in both families.
  have hrest : ((List.range n).erase i).filterMap (Function.update f i none) =
      ((List.range n).erase i).filterMap f :=
    List.filterMap_congr fun j hj =>
      Function.update_of_ne (List.nodup_range.mem_erase_iff.mp hj).1 _ _
  rw [List.filterMap_cons_some hfi] at hbefore
  rw [List.filterMap_cons_none (Function.update_self ..), hrest] at hafter
  exact hbefore.trans (hafter.symm.cons a)

/-- What is given to a member that holds nothing is added. -/
theorem values_put {α : Type*} {f : ℕ → Option α} (hi : i < n) (hfi : f i = none) (a : α) :
    (values n (Function.update f i (some a))).Perm (a :: values n f) := by
  have hback : Function.update f i none = f := Function.update_eq_self_iff.mpr hfi.symm
  have htake := values_take hi (Function.update_self i (some a) f)
  rwa [Function.update_idem, hback] at htake

end Family

namespace Transition.System

variable {S E : Type*} {sys : System S E}

/-- **A run has at most as many lowering events as the measure was worth.** -/
theorem countP_le_of_measure {ok : S → E → Prop} [∀ s e, Decidable (ok s e)] {P : S → Prop}
    {μ : S → ℕ} {lowers : E → Bool}
    (h : ∀ s e s', P s → ok s e → sys.step s e = some s' → P s' ∧ μ s' + (lowers e).toNat ≤ μ s)
    {s' : S} : ∀ (es : List E) (s : S), P s → sys.replay ok s es = some s' →
      es.countP lowers + μ s' ≤ μ s := by
  intro es
  induction es with
  | nil =>
    rintro s - ⟨⟩
    simp
  | cons e es ih =>
    intro s hs hrun
    rw [replay] at hrun
    split at hrun
    · next hok =>
      cases he : sys.step s e with
      | none => rw [he] at hrun; cases hrun
      | some s₁ =>
        rw [he] at hrun
        obtain ⟨hs₁, hμ⟩ := h s e s₁ hs hok he
        have hrest := ih s₁ hs₁ hrun
        have hcount : (e :: es).countP lowers = es.countP lowers + (lowers e).toNat := by
          cases hl : lowers e <;> simp [hl]
        omega
    · cases hrun

end Transition.System
