import Mathlib.Data.List.Perm.Subperm

/-!
# Keyed logs

A log of events, each under a key: the entries of one key, in the order in which they were
recorded, and what can be said about the whole log key by key.

## Main definitions

* `List.keyed k l` — what is recorded under `k`.

## Main results

* `List.subperm_of_keyed` — a log that has at most as much under every key has at most as much.
-/

namespace List

variable {κ α β : Type*} [DecidableEq κ]

/-- What is recorded under a key, the oldest first. -/
def keyed (k : κ) (l : List (κ × α)) : List α :=
  l.filterMap fun p => if p.1 = k then some p.2 else none

@[simp] theorem keyed_nil (k : κ) : keyed k ([] : List (κ × α)) = [] := rfl

@[simp] theorem keyed_append (k : κ) (l l' : List (κ × α)) :
    keyed k (l ++ l') = keyed k l ++ keyed k l' :=
  filterMap_append

@[simp] theorem keyed_singleton (k : κ) (p : κ × α) :
    keyed k [p] = if p.1 = k then [p.2] else [] := by
  unfold keyed
  split <;> simp_all

/-- The entries of a key, when both come from one record. -/
theorem keyed_map (f : β → κ) (g : β → α) (k : κ) (l : List β) :
    keyed k (l.map fun b => (f b, g b)) = (l.filter fun b => decide (f b = k)).map g := by
  induction l with
  | nil => rfl
  | cons b l ih =>
    rw [map_cons, ← singleton_append, keyed_append, keyed_singleton, ih, filter_cons]
    by_cases hb : f b = k
    · simp [hb]
    · simp [hb]

theorem count_keyed [DecidableEq α] (k : κ) (a : α) (l : List (κ × α)) :
    (keyed k l).count a = l.count (k, a) := by
  induction l with
  | nil => rfl
  | cons p l ih =>
    obtain ⟨k', a'⟩ := p
    rw [← singleton_append, keyed_append, count_append, count_append, ih, keyed_singleton]
    congr 1
    by_cases hk : k' = k
    · subst hk
      simp [count_singleton]
    · simp [hk]

/-- **Key by key is enough.** -/
theorem subperm_of_keyed [DecidableEq α] {l l' : List (κ × α)}
    (h : ∀ k, (keyed k l).Subperm (keyed k l')) : (l.map Prod.snd).Subperm (l'.map Prod.snd) := by
  have hpairs : l.Subperm l' := by
    refine subperm_ext_iff.mpr fun p _ => ?_
    obtain ⟨k, a⟩ := p
    rw [← count_keyed, ← count_keyed]
    exact (h k).count_le a
  obtain ⟨l₀, hperm, hsub⟩ := hpairs
  exact ⟨l₀.map Prod.snd, hperm.map Prod.snd, hsub.map Prod.snd⟩

end List
