import Mathlib.Data.Finmap
import ZitiChannel.Lib.Ranging
import ZitiChannel.Receive

/-!
# The waiters, one step at a time

The waiters of a channel are kept in a map that is made for many goroutines, and their number in a
word beside it.  An operation changes the map in one step and the word in another, and `reapExpired`
ranges over a map that others change meanwhile.

Here the four operations are taken apart.  An operation that nobody interrupts does what the
operation of `WaiterMap` does, which is one step.

## Main definitions

* `SharedWaiters` — the map, the word and, for those who range over the map, what the map has been.
* `Pc`, `SharedWaiters.next` — the four operations.
* `SharedWaiters.run` — the steps of a goroutine that nobody interrupts.

## Main results

* `SharedWaiters.run_addWaiter`, `SharedWaiters.run_removeWaiter`, `SharedWaiters.run_reapExpired`,
  `SharedWaiters.run_clear` — what nobody interrupts does what the operations of `WaiterMap` do.

The source is `impl.go`.
-/

namespace ZitiChannel.WaiterCount

/-! ### The operations -/

abbrev Table (ρ : Type) := Finmap fun _ : Int32 => Waiter ρ

structure SharedWaiters (ρ : Type) where
  m : Table ρ
  size : Int32
  /-- What the map has been, the present one last. -/
  history : List (Table ρ)

/-- A goroutine that uses the waiters. -/
inductive Pc (ρ : Type)
  /-- No operation is in progress; the last one returned this. -/
  | idle (result : Option ρ)
  /-- Before `Store`. -/
  | addStore (sequence : Int32) (w : Waiter ρ)
  | addCount
  /-- Before `LoadAndDelete`. -/
  | removeTake (seq : Int32)
  | removeCount (replyReceiver : ρ)
  /-- In `Range`, which began when the map had changed `start` times. -/
  | reapRange (now : Int) (start : ℕ) (visited : List Int32) (deleteCount : Int32)
  /-- Before `Delete`. -/
  | reapDelete (key : Int32) (now : Int) (start : ℕ) (visited : List Int32) (deleteCount : Int32)
  | reapCount (deleteCount : Int32)
  | clearCount
  | clearMap

inductive Action (ρ : Type)
  | addWaiter (sequence : Int32) (replyReceiver : Option ρ) (deadline : Option Int) (now : Int)
  | removeWaiter (seq : Int32)
  | reapExpired (now : Int)
  | clear
  /-- The next step of the operation. -/
  | go
  /-- `Range` goes to an entry. -/
  | visit (key : Int32) (w : Waiter ρ)
  /-- `Range` ends. -/
  | rangeEnd

namespace SharedWaiters

variable {ρ : Type}

/-- The map changes. -/
def setMap (self : SharedWaiters ρ) (m : Table ρ) : SharedWaiters ρ :=
  { self with m := m, history := self.history ++ [m] }

/-- What the map has been since a `Range` began. -/
def since (self : SharedWaiters ρ) (start : ℕ) : List (Table ρ) := self.history.drop start

/-- `Range` has been to all keys that were there all the time. -/
def RangeDone (self : SharedWaiters ρ) (start : ℕ) (visited : List Int32) : Prop :=
  ∀ key ∈ self.m.keys, (∀ m ∈ self.since start, key ∈ m) → key ∈ visited

instance (self : SharedWaiters ρ) (start : ℕ) (visited : List Int32) :
    Decidable (self.RangeDone start visited) :=
  Finset.decidableDforallFinset

variable [DecidableEq ρ]

/-- The next step of a goroutine.  `Range` goes to no key twice, and shows any value that the key
has had since it began; it ends when it has been to all keys that were there all the time. -/
def next (self : SharedWaiters ρ) : Pc ρ → Action ρ → Option (SharedWaiters ρ × Pc ρ)
  | .idle _, .addWaiter sequence replyReceiver deadline now =>
      match replyReceiver with
      | none => some (self, .idle none)
      | some receiver => some (self, .addStore sequence ⟨receiver, deadline.getD (now + 30000)⟩)
  | .addStore sequence w, .go => some (self.setMap (self.m.insert sequence w), .addCount)
  | .addCount, .go => some ({ self with size := self.size + 1 }, .idle none)
  | .idle _, .removeWaiter seq => some (self, .removeTake seq)
  | .removeTake seq, .go =>
      match self.m.lookup seq with
      | some w => some (self.setMap (self.m.erase seq), .removeCount w.replyReceiver)
      | none => some (self, .idle none)
  | .removeCount replyReceiver, .go =>
      some ({ self with size := self.size - 1 }, .idle (some replyReceiver))
  | .idle _, .reapExpired now => some (self, .reapRange now (self.history.length - 1) [] 0)
  | .reapRange now start visited deleteCount, .visit key w =>
      if key ∉ visited ∧ ∃ m ∈ self.since start, m.lookup key = some w then
        if w.ttlMs < now then some (self, .reapDelete key now start (key :: visited) deleteCount)
        else some (self, .reapRange now start (key :: visited) deleteCount)
      else none
  | .reapDelete key now start visited deleteCount, .go =>
      -- it is counted whether or not it is still there
      some (self.setMap (self.m.erase key), .reapRange now start visited (deleteCount + 1))
  | .reapRange _ start visited deleteCount, .rangeEnd =>
      if self.RangeDone start visited then some (self, .reapCount deleteCount) else none
  | .reapCount deleteCount, .go => some ({ self with size := self.size - deleteCount }, .idle none)
  | .idle _, .clear => some (self, .clearCount)
  | .clearCount, .go => some ({ self with size := 0 }, .clearMap)
  | .clearMap, .go => some (self.setMap ∅, .idle none)
  | _, _ => none

end SharedWaiters

/-! ### One goroutine alone -/

namespace SharedWaiters

variable {ρ : Type}

/-- The waiters without what the map has been. -/
def toWaiterMap (self : SharedWaiters ρ) : WaiterMap ρ := ⟨fun key => self.m.lookup key, self.size⟩

variable [DecidableEq ρ]

/-- The steps of a goroutine that nobody interrupts. -/
def run (self : SharedWaiters ρ) (pc : Pc ρ) : List (Action ρ) → Option (SharedWaiters ρ × Pc ρ)
  | [] => some (self, pc)
  | a :: as =>
      match self.next pc a with
      | some (self', pc') => self'.run pc' as
      | none => none

/-- The steps of `reapExpired` for one entry. -/
def visits (now : Int) (e : Sigma fun _ : Int32 => Waiter ρ) : List (Action ρ) :=
  .visit e.1 e.2 :: if e.2.ttlMs < now then [.go] else []

omit [DecidableEq ρ] in
theorem toWaiterMap_insert (self : SharedWaiters ρ) (seq : Int32) (w : Waiter ρ) :
    (self.setMap (self.m.insert seq w)).toWaiterMap =
      { self.toWaiterMap with m := Function.update self.toWaiterMap.m seq (some w) } := by
  have hm : (fun key => (self.m.insert seq w).lookup key) =
      Function.update (fun key => self.m.lookup key) seq (some w) := by
    funext key
    by_cases hkey : key = seq
    · subst hkey
      rw [Finmap.lookup_insert, Function.update_self]
    · rw [Finmap.lookup_insert_of_ne _ hkey, Function.update_of_ne hkey]
  exact congrArg (WaiterMap.mk · self.size) hm

omit [DecidableEq ρ] in
theorem toWaiterMap_erase (self : SharedWaiters ρ) (seq : Int32) :
    (self.setMap (self.m.erase seq)).toWaiterMap =
      { self.toWaiterMap with m := Function.update self.toWaiterMap.m seq none } := by
  have hm : (fun key => (self.m.erase seq).lookup key) =
      Function.update (fun key => self.m.lookup key) seq none := by
    funext key
    by_cases hkey : key = seq
    · subst hkey
      rw [Finmap.lookup_erase, Function.update_self]
    · rw [Finmap.lookup_erase_ne hkey, Function.update_of_ne hkey]
  exact congrArg (WaiterMap.mk · self.size) hm

theorem run_addWaiter (self : SharedWaiters ρ) (result : Option ρ) (seq : Int32)
    (replyReceiver : Option ρ) (deadline : Option Int) (now : Int) :
    ∃ as w, self.run (.idle result) (.addWaiter seq replyReceiver deadline now :: as) =
        some (w, .idle none) ∧
      w.toWaiterMap = self.toWaiterMap.addWaiter seq replyReceiver deadline now := by
  cases replyReceiver with
  | none => exact ⟨[], self, rfl, rfl⟩
  | some receiver =>
    refine ⟨[.go, .go], _, rfl, ?_⟩
    have hinsert := self.toWaiterMap_insert seq ⟨receiver, deadline.getD (now + 30000)⟩
    exact congrArg (fun w : WaiterMap ρ => { w with size := w.size + 1 }) hinsert

theorem run_removeWaiter (self : SharedWaiters ρ) (result : Option ρ) (seq : Int32) :
    ∃ as w, self.run (.idle result) (.removeWaiter seq :: .go :: as) =
        some (w, .idle (self.toWaiterMap.removeWaiter seq).2) ∧
      w.toWaiterMap = (self.toWaiterMap.removeWaiter seq).1 := by
  have hlookup : self.toWaiterMap.m seq = self.m.lookup seq := rfl
  cases hw : self.m.lookup seq with
  | none =>
    refine ⟨[], self, ?_, ?_⟩
    · simp [run, next, WaiterMap.removeWaiter, hlookup, hw]
    · simp [WaiterMap.removeWaiter, hlookup, hw]
  | some w =>
    refine ⟨[.go], { self.setMap (self.m.erase seq) with size := self.size - 1 }, ?_, ?_⟩
    · simp [run, next, WaiterMap.removeWaiter, hlookup, hw, setMap]
    · have herase := self.toWaiterMap_erase seq
      simp only [WaiterMap.removeWaiter, hlookup, hw]
      exact congrArg (fun w : WaiterMap ρ => { w with size := w.size - 1 }) herase

theorem run_append {self w : SharedWaiters ρ} {pc pc' : Pc ρ} {as : List (Action ρ)}
    (h : self.run pc as = some (w, pc')) (more : List (Action ρ)) :
    self.run pc (as ++ more) = w.run pc' more := by
  induction as generalizing self pc with
  | nil =>
    cases h
    rfl
  | cons a as ih =>
    rw [List.cons_append, run]
    rw [run] at h
    split at h
    · exact ih h
    · cases h

section

variable {self : SharedWaiters ρ} {start : ℕ} {visited : List Int32} (now : Int) (n : Int32)

omit [DecidableEq ρ] in
/-- Those who began to range see what the map is now. -/
theorem mem_since_setMap (h : self.m ∈ self.since start) (m : Table ρ) :
    m ∈ (self.setMap m).since start := by
  have hle : start ≤ self.history.length := by
    by_contra hlt
    rw [since, List.drop_eq_nil_of_le (by omega)] at h
    cases h
  rw [since, setMap, List.drop_append_of_le_length hle]
  exact List.mem_append_right _ List.mem_cons_self

/-- `Range` goes to an entry that is there. -/
theorem run_visit {e : Sigma fun _ : Int32 => Waiter ρ} (hmem : self.m ∈ self.since start)
    (hlookup : self.m.lookup e.1 = some e.2) (hnew : e.1 ∉ visited) :
    ∃ w, self.run (.reapRange now start visited n) (visits now e) =
        some (w, .reapRange now start (e.1 :: visited)
          (if self.toWaiterMap.expired now e.1 then n + 1 else n)) ∧
      w.toWaiterMap = self.toWaiterMap.reapEntry now e.1 ∧ w.m ∈ w.since start := by
  have hvisit : e.1 ∉ visited ∧ ∃ m ∈ self.since start, m.lookup e.1 = some e.2 :=
    ⟨hnew, self.m, hmem, hlookup⟩
  have hm : self.toWaiterMap.m e.1 = some e.2 := hlookup
  by_cases hexpired : e.2.ttlMs < now
  · refine ⟨self.setMap (self.m.erase e.1), ?_, ?_, mem_since_setMap hmem _⟩
    · simp [run, next, visits, hvisit, hexpired, WaiterMap.expired, hm]
    · rw [toWaiterMap_erase]
      simp [WaiterMap.reapEntry, WaiterMap.expired, hm, hexpired]
  · refine ⟨self, ?_, ?_, hmem⟩
    · simp [run, next, visits, hvisit, hexpired, WaiterMap.expired, hm]
    · simp [WaiterMap.reapEntry, WaiterMap.expired, hm, hexpired]

/-- `Range` goes to one entry after the other. -/
theorem run_visits (es : List (Sigma fun _ : Int32 => Waiter ρ)) (hmem : self.m ∈ self.since start)
    (hes : ∀ e ∈ es, self.m.lookup e.1 = some e.2 ∧ e.1 ∉ visited)
    (hnodup : (es.map Sigma.fst).Nodup) :
    ∃ w, self.run (.reapRange now start visited n) (es.flatMap (visits now)) =
        some (w, .reapRange now start ((es.map Sigma.fst).reverse ++ visited)
          (n + (self.toWaiterMap.reapKeys now (es.map Sigma.fst)).2)) ∧
      w.toWaiterMap = (self.toWaiterMap.reapKeys now (es.map Sigma.fst)).1 := by
  induction es generalizing self visited n with
  | nil => exact ⟨self, by simp [run, WaiterMap.reapKeys], rfl⟩
  | cons e es ih =>
    -- the entries behind it are not touched by what is done to this one
    obtain ⟨hhead, hnew⟩ := hes e List.mem_cons_self
    obtain ⟨hnotMem, hnodup⟩ := List.nodup_cons.mp hnodup
    obtain ⟨w, hrun, hw, hmem'⟩ := run_visit now n hmem hhead hnew
    have hrest : ∀ e' ∈ es, w.m.lookup e'.1 = some e'.2 ∧ e'.1 ∉ e.1 :: visited := by
      intro e' he'
      obtain ⟨hlookup, hnew'⟩ := hes e' (List.mem_cons_of_mem _ he')
      have hne : e'.1 ≠ e.1 := fun heq => hnotMem (heq ▸ List.mem_map_of_mem he')
      refine ⟨?_, by simp [hne, hnew']⟩
      have hkeep : w.m.lookup e'.1 = (self.toWaiterMap.reapEntry now e.1).m e'.1 :=
        congrArg (fun w : WaiterMap ρ => w.m e'.1) hw
      exact (hkeep.trans (WaiterMap.reapEntry_of_ne hne)).trans hlookup
    obtain ⟨w', hrun', hw'⟩ := ih _ hmem' hrest hnodup
    rw [hw] at hrun' hw'
    refine ⟨w', ?_, ?_⟩
    · rw [List.flatMap_cons, run_append hrun, hrun', List.map_cons, List.reverse_cons,
        List.append_assoc, WaiterMap.reapKeys]
      by_cases hexpired : self.toWaiterMap.expired now e.1
      · simp [hexpired, Int32.add_assoc, Int32.add_comm]
      · simp [hexpired]
    · rw [hw', List.map_cons, WaiterMap.reapKeys]
      split <;> rfl

/-- `reapExpired`, with the order in which `Range` goes through the map. -/
theorem run_reapExpired (result : Option ρ) (hlast : self.history.getLast? = some self.m)
    (order : Ranging.Order self.m) :
    ∃ w, self.run (.idle result)
        (.reapExpired now :: (order.entries.flatMap (visits now) ++ [.rangeEnd, .go])) =
          some (w, .idle none) ∧
      w.toWaiterMap = self.toWaiterMap.reapExpired now (order.entries.map Sigma.fst) := by
  have hmem : self.m ∈ self.since (self.history.length - 1) := by
    obtain ⟨before, hbefore⟩ := List.getLast?_eq_some_iff.mp hlast
    rw [since, hbefore]
    simp
  obtain ⟨w, hrun, hw⟩ := run_visits now 0 order.entries hmem
    (fun e he => ⟨order.mem_entries.mp he, List.not_mem_nil⟩) order.nodup_keys
  have hend : w.RangeDone (self.history.length - 1)
      ((order.entries.map Sigma.fst).reverse ++ []) := by
    intro key hkey _
    obtain ⟨v, hv⟩ := Finmap.mem_iff.mp (Finmap.mem_keys.mp hkey)
    have hafter : (self.toWaiterMap.reapKeys now (order.entries.map Sigma.fst)).1.m key = some v := by
      rw [← hw]
      exact hv
    -- nothing is there that was not there before
    have hbefore : self.m.lookup key = some v := WaiterMap.mem_of_reapKeys hafter
    have hentry : (⟨key, v⟩ : Sigma fun _ : Int32 => Waiter ρ) ∈ order.entries :=
      order.mem_entries.mpr hbefore
    rw [List.append_nil, List.mem_reverse]
    exact List.mem_map_of_mem hentry
  refine ⟨{ w with size := w.size - (self.toWaiterMap.reapKeys now (order.entries.map Sigma.fst)).2 },
    ?_, ?_⟩
  · rw [run, next]
    dsimp only
    rw [run_append hrun]
    simp only [run, next, if_pos hend, Int32.zero_add]
  · exact congrArg (fun m : WaiterMap ρ => { m with size := m.size -
      (self.toWaiterMap.reapKeys now (order.entries.map Sigma.fst)).2 }) hw

end

theorem run_clear (self : SharedWaiters ρ) (result : Option ρ) :
    ∃ w, self.run (.idle result) [.clear, .go, .go] = some (w, .idle none) ∧
      w.toWaiterMap = self.toWaiterMap.clear :=
  ⟨_, rfl, rfl⟩

end SharedWaiters

end ZitiChannel.WaiterCount
