import Mathlib.Data.List.Nodup

/-!
# Bounded queues

A first-in first-out buffer of a fixed capacity.  The bound is part of the type:
a queue that holds more than its capacity cannot be built.

## Main definitions

* `Queue`, `Queue.push?`, `Queue.pop?` — the two operations, each failing when it
  would have to wait.
-/

/-- A bounded first-in first-out buffer. -/
structure Queue (α : Type*) where
  cap : ℕ
  /-- The elements, the oldest first. -/
  items : List α
  bounded : items.length ≤ cap

namespace Queue

variable {α : Type*}

def empty (cap : ℕ) : Queue α := ⟨cap, [], Nat.zero_le cap⟩

/-- Whether there is a free slot. -/
def HasRoom (q : Queue α) : Prop := q.items.length < q.cap

instance (q : Queue α) : Decidable q.HasRoom := inferInstanceAs (Decidable (_ < _))

/-- Put an element at the end, if there is a free slot. -/
def push? (q : Queue α) (x : α) : Option (Queue α) :=
  if h : q.items.length < q.cap then
    some ⟨q.cap, q.items ++ [x], by rw [List.length_append]; exact h⟩
  else none

/-- Take the oldest element, if there is one. -/
def pop? (q : Queue α) : Option (α × Queue α) :=
  match h : q.items with
  | [] => none
  | x :: rest =>
      some (x, ⟨q.cap, rest, by have hb := q.bounded; rw [h, List.length_cons] at hb; omega⟩)

@[simp] theorem empty_items (cap : ℕ) : (empty cap : Queue α).items = [] := rfl

theorem push?_eq_some {q q' : Queue α} {x : α} (h : q.push? x = some q') :
    q.HasRoom ∧ q'.cap = q.cap ∧ q'.items = q.items ++ [x] := by
  unfold push? at h
  split at h
  · next hlt =>
    rw [Option.some.injEq] at h
    subst h
    exact ⟨hlt, rfl, rfl⟩
  · simp at h

theorem pop?_eq_some {q q' : Queue α} {x : α} (h : q.pop? = some (x, q')) :
    q'.cap = q.cap ∧ q.items = x :: q'.items := by
  unfold pop? at h
  split at h
  · simp at h
  · next y rest hitems =>
    rw [Option.some.injEq, Prod.mk.injEq] at h
    obtain ⟨rfl, rfl⟩ := h
    exact ⟨rfl, hitems⟩

theorem not_hasRoom_of_push? {q : Queue α} {x : α} (h : q.push? x = none) : ¬ q.HasRoom := by
  intro hroom
  have hlt : q.items.length < q.cap := hroom
  rw [push?, dif_pos hlt] at h
  cases h

theorem items_of_pop? {q : Queue α} (h : q.pop? = none) : q.items = [] := by
  unfold pop? at h
  split at h
  · next hitems => exact hitems
  · cases h

end Queue
