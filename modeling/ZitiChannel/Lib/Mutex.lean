import Mathlib.Data.Nat.Notation
import Mathlib.Logic.Function.Basic

/-!
# Who holds a mutex

A mutex is free or has an owner, and every agent is at some number of places between taking
it and giving it back.  In a correct system that number is one for the owner and zero for
everyone else.

## Main definitions

* `Mutex.Owned lock held` — `lock` is owned by the agent that `held` says.

## Main results

* `Mutex.Owned.acquire`, `Mutex.Owned.release`, `Mutex.Owned.keep` — what the steps of an
  agent do to it.
* `Mutex.Owned.unique` — mutual exclusion.
-/

namespace Mutex

variable {α : Type*} [DecidableEq α]

/-- The owner of the lock is at one place where the lock is held, and nobody else is at any. -/
def Owned (lock : Option α) (held : α → ℕ) : Prop := ∀ a, held a = if lock = some a then 1 else 0

namespace Owned

variable {lock : Option α} {held held' : α → ℕ} {a b : α}

theorem lock_eq (h : Owned lock held) (ha : 0 < held a) : lock = some a := by
  by_contra hne
  rw [h a, if_neg hne] at ha
  exact absurd ha (Nat.lt_irrefl 0)

theorem le_one (h : Owned lock held) (a : α) : held a ≤ 1 := by
  rw [h a]
  split <;> omega

/-- **Mutual exclusion.** -/
theorem unique (h : Owned lock held) (ha : 0 < held a) (hb : 0 < held b) : a = b :=
  Option.some.inj ((h.lock_eq ha).symm.trans (h.lock_eq hb))

/-- An agent that holds a free lock is a contradiction. -/
theorem eq_zero (h : Owned none held) (a : α) : held a = 0 := by
  rw [h a]
  exact if_neg (by simp)

theorem acquire (h : Owned none held) (hself : held' a = held a + 1)
    (hother : ∀ b, b ≠ a → held' b = held b) : Owned (some a) held' := by
  intro b
  by_cases hb : b = a
  · rw [hb, hself, h.eq_zero, if_pos rfl]
  · rw [hother b hb, h.eq_zero, if_neg (by simpa using Ne.symm hb)]

theorem release (h : Owned lock held) (hself : held' a + 1 = held a)
    (hother : ∀ b, b ≠ a → held' b = held b) : Owned none held' := by
  intro b
  rw [if_neg (by simp)]
  by_cases hb : b = a
  · have := h.le_one a
    rw [hb]
    omega
  · rw [hother b hb, h b, if_neg]
    intro hlock
    rw [h.lock_eq (a := a) (by omega)] at hlock
    exact hb (Option.some.inj hlock).symm

theorem keep (h : Owned lock held) (hsame : ∀ b, held' b = held b) : Owned lock held' := by
  intro b
  rw [hsame b, h b]

end Owned

end Mutex
