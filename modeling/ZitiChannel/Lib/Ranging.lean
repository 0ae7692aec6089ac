import Mathlib.Data.Finmap

/-!
# Ranging over a finite map, and building one

A program that ranges over a map visits each entry once, in an order that nothing determines.  A
program that stores entries one after the other ends with the last value of every key.

## Main definitions

* `Order` — an order in which ranging over a map may visit its entries.
* `storeAll` — the map after storing entries one after the other.

## Main results

* `lookup_storeAll` — the last entry of a key wins.
* `storeAll_entries` — storing the entries of a map, in whatever order, gives the map.
* `lookup_storeAll_map` — the same with changed values.
-/

namespace Ranging

universe u v

variable {α : Type u} {β : α → Type v}

/-- An order in which ranging over a map may visit its entries. -/
structure Order (m : Finmap β) where
  /-- The entries, in the order they are visited. -/
  entries : List (Sigma β)
  /-- Every entry is visited, and once. -/
  complete : (entries : Multiset (Sigma β)) = m.entries

/-- Ranging visits as many entries as there are. -/
theorem Order.length_entries {m : Finmap β} (order : Order m) :
    order.entries.length = m.entries.card := by
  rw [← order.complete, Multiset.coe_card]

/-- Two orders visit the same entries. -/
theorem Order.perm {m : Finmap β} (order order' : Order m) : order.entries.Perm order'.entries :=
  Multiset.coe_eq_coe.mp (order.complete.trans order'.complete.symm)

/-- No key is visited twice. -/
theorem Order.nodup_keys {m : Finmap β} (order : Order m) :
    (order.entries.map Sigma.fst).Nodup := by
  have hkeys := m.nodupKeys
  rw [← order.complete] at hkeys
  exact Multiset.coe_nodupKeys.mp hkeys

variable [DecidableEq α]

theorem Order.mem_entries {m : Finmap β} (order : Order m) {e : Sigma β} :
    e ∈ order.entries ↔ m.lookup e.1 = some e.2 := by
  rw [← Multiset.mem_coe, order.complete, ← Finmap.mem_lookup_iff, Option.mem_def]

/-- Store entries one after the other. -/
def storeAll (out : Finmap β) (entries : List (Sigma β)) : Finmap β :=
  entries.foldl (fun out e => Finmap.insert e.1 e.2 out) out

/-- **The last entry of a key wins.** -/
theorem lookup_storeAll (key : α) : ∀ (entries : List (Sigma β)) (out : Finmap β),
    (storeAll out entries).lookup key = (entries.reverse.dlookup key).or (out.lookup key) := by
  intro entries
  induction entries with
  | nil => intro out; rfl
  | cons e entries ih =>
    intro out
    have hinsert : (Finmap.insert e.1 e.2 out).lookup key =
        ([e].dlookup key).or (out.lookup key) := by
      rcases eq_or_ne e.1 key with rfl | hne
      · rw [Finmap.lookup_insert, List.dlookup_cons_eq, Option.some_or]
      · rw [Finmap.lookup_insert_of_ne _ hne.symm, List.dlookup_cons_ne _ _ hne.symm,
          List.dlookup_nil, Option.none_or]
    rw [storeAll, List.foldl_cons, ← storeAll, ih, hinsert, List.reverse_cons, List.dlookup_append,
      Option.or_assoc]

/-- **Storing the entries of a map gives the map.** -/
theorem storeAll_entries {m : Finmap β} {entries : List (Sigma β)}
    (h : (entries : Multiset (Sigma β)) = m.entries) : storeAll ∅ entries = m := by
  have hnodup : entries.reverse.NodupKeys := by
    have hkeys := m.nodupKeys
    rw [← h] at hkeys
    exact (List.perm_nodupKeys (List.reverse_perm entries)).mpr (Multiset.coe_nodupKeys.mp hkeys)
  refine Finmap.ext_lookup fun key => ?_
  rw [lookup_storeAll, Finmap.lookup_empty, Option.or_none]
  refine Option.ext fun value => ?_
  rw [← Option.mem_def, ← Option.mem_def, List.mem_dlookup_iff hnodup, List.mem_reverse,
    Finmap.mem_lookup_iff, ← h, Multiset.mem_coe]

/-- Storing the entries of a map, each with its value changed, changes the values of the map. -/
theorem lookup_storeAll_map {γ : α → Type v} {m : Finmap β} {entries : List (Sigma β)}
    (h : (entries : Multiset (Sigma β)) = m.entries) (f : ∀ a, β a → γ a) (key : α) :
    (storeAll ∅ (entries.map (Sigma.map id f))).lookup key = (m.lookup key).map (f key) := by
  rw [← storeAll_entries h, lookup_storeAll, lookup_storeAll, Finmap.lookup_empty,
    Finmap.lookup_empty, Option.or_none, Option.or_none, ← List.map_reverse]
  exact List.dlookup_map₂ key

end Ranging
