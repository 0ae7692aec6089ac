import Mathlib.Data.Nat.Notation
import Mathlib.Logic.Function.Basic
import Mathlib.Tactic.Common

/-!
# An action that is taken once

Any number of threads run `if flag.CompareAndSwap(false, true) { act }`.  The one whose swap
succeeds acts; the others pass.  Between the swap and the action the flag is set and nothing has
happened yet: whoever passes in this time must not rely on the action, but someone is about to take
it.

The invariant is part of the type, so a state that no run reaches cannot be built.

## Main definitions

* `Once`, `Once.step` — the flag, the action, and where the threads are.

## Main results

* `Once.runs_le_one` — the action is taken at most once.
* `Once.exists_acting` — while the flag is set and the action is not taken, someone takes it.
* `Once.rank_step` — every thread is through after two steps.
-/

/-- Where a thread stands. -/
inductive OncePc
  /-- Before the swap. -/
  | before
  /-- Its swap succeeded, and it has not acted. -/
  | acting
  | passed
  deriving DecidableEq

/-- How many steps a thread has at most before it. -/
def OncePc.rank : OncePc → ℕ
  | .before => 2
  | .acting => 1
  | .passed => 0

/-- A flag that is swapped once, and an action. -/
structure Once (ι : Type*) where
  pcs : ι → OncePc
  flag : Bool
  /-- How often the action was taken. -/
  runs : ℕ
  fresh : flag = false → runs = 0 ∧ ∀ i, pcs i = .before
  settled : flag = true →
    (runs = 1 ∧ ∀ i, pcs i ≠ .acting) ∨
      (runs = 0 ∧ ∃ i, pcs i = .acting ∧ ∀ j, pcs j = .acting → j = i)

namespace Once

variable {ι : Type*}

/-- Nobody has been here. -/
def init : Once ι := ⟨fun _ => .before, false, 0, fun _ => ⟨rfl, fun _ => rfl⟩, fun h => by cases h⟩

theorem runs_le_one (o : Once ι) : o.runs ≤ 1 := by
  cases hflag : o.flag with
  | false =>
    have hruns := (o.fresh hflag).1
    omega
  | true =>
    rcases o.settled hflag with ⟨hruns, -⟩ | ⟨hruns, -⟩ <;> omega

/-- **Someone takes the action.** -/
theorem exists_acting (o : Once ι) (hflag : o.flag = true) (hruns : o.runs ≠ 1) :
    ∃ i, o.pcs i = .acting := by
  rcases o.settled hflag with ⟨h, -⟩ | ⟨-, i, hi, -⟩
  · exact absurd h hruns
  · exact ⟨i, hi⟩

/-- Whoever is past the swap has seen the flag set. -/
theorem flag_of_ne_before (o : Once ι) {i : ι} (h : o.pcs i ≠ .before) : o.flag = true := by
  cases hflag : o.flag with
  | true => rfl
  | false => exact absurd ((o.fresh hflag).2 i) h

section

variable [DecidableEq ι]

/-- The swap succeeds. -/
def win (o : Once ι) (i : ι) (h : o.flag = false) : Once ι where
  pcs := Function.update o.pcs i .acting
  flag := true
  runs := 0
  fresh := fun h => by cases h
  settled := fun _ => by
    refine .inr ⟨rfl, i, Function.update_self .., fun j hj => ?_⟩
    by_contra hji
    rw [Function.update_of_ne hji, (o.fresh h).2 j] at hj
    cases hj

/-- The swap fails. -/
def lose (o : Once ι) (i : ι) (h : o.flag = true) (hi : o.pcs i = .before) : Once ι where
  pcs := Function.update o.pcs i .passed
  flag := true
  runs := o.runs
  fresh := fun h => by cases h
  settled := fun _ => by
    have hacting : ∀ j, Function.update o.pcs i .passed j = .acting ↔ o.pcs j = .acting := by
      intro j
      rcases eq_or_ne j i with rfl | hji
      · simp [hi]
      · simp [hji]
    rcases o.settled h with ⟨hruns, hnone⟩ | ⟨hruns, k, hk, honly⟩
    · exact .inl ⟨hruns, fun j hj => hnone j ((hacting j).mp hj)⟩
    · exact .inr ⟨hruns, k, (hacting k).mpr hk, fun j hj => honly j ((hacting j).mp hj)⟩

/-- The action is taken. -/
def act (o : Once ι) (i : ι) (hi : o.pcs i = .acting) : Once ι where
  pcs := Function.update o.pcs i .passed
  flag := true
  runs := 1
  fresh := fun h => by cases h
  settled := fun _ => by
    refine .inl ⟨rfl, fun j hj => ?_⟩
    have hflag : o.flag = true := o.flag_of_ne_before (i := i) (by rw [hi]; decide)
    rcases eq_or_ne j i with rfl | hji
    · rw [Function.update_self] at hj
      cases hj
    · rw [Function.update_of_ne hji] at hj
      rcases o.settled hflag with ⟨-, hnone⟩ | ⟨-, k, -, honly⟩
      · exact hnone j hj
      · exact hji ((honly j hj).trans (honly i hi).symm)

/-- The next step of a thread. -/
def step (o : Once ι) (i : ι) : Option (Once ι) :=
  match hi : o.pcs i with
  | .before =>
      match h : o.flag with
      | false => some (o.win i h)
      | true => some (o.lose i h hi)
  | .acting => some (o.act i hi)
  | .passed => none

/-- What a step of a thread can be. -/
theorem step_cases {o o' : Once ι} {i : ι} (h : o.step i = some o') :
    (o.pcs i = .before ∧ o.flag = false ∧ o'.flag = true ∧ o'.runs = 0 ∧
      o'.pcs = Function.update o.pcs i .acting) ∨
    (o.pcs i = .before ∧ o.flag = true ∧ o'.flag = true ∧ o'.runs = o.runs ∧
      o'.pcs = Function.update o.pcs i .passed) ∨
    (o.pcs i = .acting ∧ o'.flag = true ∧ o'.runs = 1 ∧
      o'.pcs = Function.update o.pcs i .passed) := by
  unfold step at h
  split at h
  · next hi =>
    split at h
    · next hf => cases h; exact .inl ⟨hi, hf, rfl, rfl, rfl⟩
    · next hf => cases h; exact .inr (.inl ⟨hi, hf, rfl, rfl, rfl⟩)
  · next hi => cases h; exact .inr (.inr ⟨hi, rfl, rfl, rfl⟩)
  · cases h

/-- A step moves one thread, and it has fewer steps before it. -/
theorem rank_step {o o' : Once ι} {i : ι} (h : o.step i = some o') :
    (o'.pcs i).rank < (o.pcs i).rank ∧ ∀ j, j ≠ i → o'.pcs j = o.pcs j := by
  rcases step_cases h with ⟨hi, -, -, -, hpcs⟩ | ⟨hi, -, -, -, hpcs⟩ | ⟨hi, -, -, hpcs⟩ <;>
    rw [hpcs, hi, Function.update_self] <;>
    exact ⟨by decide, fun j hj => Function.update_of_ne hj _ _⟩

/-- A thread that has not passed can go on. -/
theorem isSome_step {o : Once ι} {i : ι} (h : o.pcs i ≠ .passed) : (o.step i).isSome = true := by
  unfold step
  split
  · split <;> rfl
  · rfl
  · next hi => exact absurd hi h

end

end Once
