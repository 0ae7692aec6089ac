import Mathlib.Data.Finmap
import Mathlib.Algebra.BigOperators.Group.Multiset.Basic

/-!
# Tallies

A tally counts the elements of a list by a key: a finite map from keys to numbers, built
by incrementing the entry of each element's key, with absent keys standing for zero.

## Main definitions

* `Tally`, `Tally.count`, `Tally.total`, `Tally.increment` — the map and what is read off it.
* `Tally.ofList key l` — the tally of a list.

## Main results

* `Tally.count_ofList` — an entry is the number of elements with that key.
* `Tally.total_ofList` — the entries add up to the length of the list.
-/

/-- Numbers by key; an absent key counts as zero. -/
abbrev Tally (κ : Type*) := Finmap fun _ : κ => ℕ

namespace Tally

variable {κ : Type*} [DecidableEq κ]

/-- The number under a key. -/
def count (m : Tally κ) (k : κ) : ℕ := (m.lookup k).getD 0

omit [DecidableEq κ] in
/-- The sum of all numbers. -/
def total (m : Tally κ) : ℕ := (m.entries.map Sigma.snd).sum

/-- Count one more under a key. -/
def increment (m : Tally κ) (k : κ) : Tally κ := m.insert k (m.count k + 1)

@[simp] theorem count_empty (k : κ) : count (∅ : Tally κ) k = 0 := by simp [count]

theorem count_increment (m : Tally κ) (k k' : κ) :
    (m.increment k).count k' = m.count k' + if k = k' then 1 else 0 := by
  unfold increment count
  by_cases h : k = k'
  · subst h
    rw [Finmap.lookup_insert, if_pos rfl]
    rfl
  · rw [Finmap.lookup_insert_of_ne _ (Ne.symm h), if_neg h, Nat.add_zero]

/-- Setting an entry is setting it in the rest of the map. -/
theorem insert_eq_insert_erase (m : Tally κ) (k : κ) (n : ℕ) :
    m.insert k n = (m.erase k).insert k n := by
  refine Finmap.ext_lookup fun k' => ?_
  by_cases h : k' = k
  · subst h
    rw [Finmap.lookup_insert, Finmap.lookup_insert]
  · rw [Finmap.lookup_insert_of_ne _ h, Finmap.lookup_insert_of_ne _ h, Finmap.lookup_erase_ne h]

theorem total_insert (m : Tally κ) (k : κ) (n : ℕ) :
    total (m.insert k n) = n + total (m.erase k) := by
  rw [insert_eq_insert_erase, total,
    Finmap.entries_insert_of_notMem Finmap.notMem_erase_self, Multiset.map_cons, Multiset.sum_cons]
  rfl

/-- A total is one entry and the rest. -/
theorem total_eq_count_add (m : Tally κ) (k : κ) : m.total = m.count k + total (m.erase k) := by
  cases h : m.lookup k with
  | none =>
    have herase : m.erase k = m := by
      refine Finmap.ext_lookup fun k' => ?_
      by_cases hk : k' = k
      · subst hk
        rw [Finmap.lookup_erase, h]
      · rw [Finmap.lookup_erase_ne hk]
    rw [herase, count, h, Option.getD_none, Nat.zero_add]
  | some n =>
    have hinsert : m.insert k n = m := by
      refine Finmap.ext_lookup fun k' => ?_
      by_cases hk : k' = k
      · subst hk
        rw [Finmap.lookup_insert, h]
      · rw [Finmap.lookup_insert_of_ne _ hk]
    rw [count, h, Option.getD_some, ← total_insert, hinsert]

theorem total_increment (m : Tally κ) (k : κ) : (m.increment k).total = m.total + 1 := by
  rw [increment, total_insert, m.total_eq_count_add k]
  omega

/-! ### The tally of a list -/

variable {α : Type*} (key : α → κ)

/-- Count the elements of a list on top of a given tally. -/
def addList (m : Tally κ) (l : List α) : Tally κ := l.foldl (fun m a => m.increment (key a)) m

/-- The tally of a list. -/
def ofList (l : List α) : Tally κ := addList key ∅ l

theorem count_addList (k : κ) : ∀ (l : List α) (m : Tally κ),
    (addList key m l).count k = m.count k + l.countP fun a => decide (key a = k) := by
  intro l
  induction l with
  | nil => intro m; rfl
  | cons a l ih =>
    intro m
    rw [addList, List.foldl_cons, ← addList, ih, Tally.count_increment, List.countP_cons]
    simp only [decide_eq_true_eq]
    omega

theorem total_addList : ∀ (l : List α) (m : Tally κ),
    (addList key m l).total = m.total + l.length := by
  intro l
  induction l with
  | nil => intro m; rfl
  | cons a l ih =>
    intro m
    rw [addList, List.foldl_cons, ← addList, ih, Tally.total_increment, List.length_cons]
    omega

/-- An entry of a tally is the number of elements with that key. -/
theorem count_ofList (l : List α) (k : κ) :
    (ofList key l).count k = l.countP fun a => decide (key a = k) := by
  rw [ofList, count_addList, Tally.count_empty, Nat.zero_add]

/-- The entries of a tally add up to the length of the list. -/
theorem total_ofList (l : List α) : (ofList key l).total = l.length := by
  rw [ofList, total_addList]
  exact Nat.zero_add _

end Tally
