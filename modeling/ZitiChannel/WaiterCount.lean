import Mathlib.Algebra.BigOperators.Group.Finset.Piecewise
import Mathlib.Data.BitVec
import Mathlib.Tactic.LinearCombination
import ZitiChannel.Lib.Transition
import ZitiChannel.SharedWaiters

/-!
# The count of the waiters

Any number of goroutines use the waiters of a channel.  Between the step that changes the map and
the step that changes the word the two differ, and what a goroutine still owes to the word tells by
how much.  `reapExpired` counts what it meant to delete: an entry that another goroutine has taken
meanwhile is counted twice.  `clear` stores zero and then empties the map, and what is counted in
between stays.

## Main definitions

* `waiting` — the system, over the names of the goroutines.
* `Pc.debt` — what a goroutine is about to add to the word for what it has done to the map.
* `Exclusive` — the runs in which nobody gets in the way of `reapExpired` and `clear`.
* `Moves` — what a step does to the map and the word.

## Main results

* `moves_of_next` — case analysis on a step.
* `Fresh.step`, `Counted.step` — every step keeps the invariants.
* `size_eq_card` — **between operations, the word is the number of waiters in the map, if nobody
  gets in the way.**

The source is `impl.go`.
-/

namespace ZitiChannel.WaiterCount

open Transition

/-! ### The system -/

/-- The sequence that an `AddWaiter` is called with. -/
def Action.sequences {ρ : Type} : Action ρ → List Int32
  | .addWaiter sequence _ _ _ => [sequence]
  | _ => []

structure State (ι ρ : Type) where
  waiters : SharedWaiters ρ
  procs : ι → Pc ρ
  /-- The sequences that `AddWaiter` was called with. -/
  added : List Int32

variable {ι ρ : Type} [DecidableEq ι] [DecidableEq ρ]

def step (s : State ι ρ) (e : ι × Action ρ) : Option (State ι ρ) :=
  match s.waiters.next (s.procs e.1) e.2 with
  | some (waiters, pc) =>
      some ⟨waiters, Function.update s.procs e.1 pc, e.2.sequences ++ s.added⟩
  | none => none

/-- Any number of goroutines, and no waiters. -/
def waiting (ι ρ : Type) [DecidableEq ι] [DecidableEq ρ] : System (State ι ρ) (ι × Action ρ) where
  init := ⟨⟨∅, 0, [∅]⟩, fun _ => .idle none, []⟩
  step := step

/-- `AddWaiter` is called with sequences that are all different. -/
def Distinct (s : State ι ρ) (e : ι × Action ρ) : Prop := ∀ seq ∈ e.2.sequences, seq ∉ s.added

/-! ### What a goroutine owes -/

/-- What a goroutine is about to add to the word for what it has done to the map. -/
def Pc.debt : Pc ρ → BitVec 32
  | .addCount => 1
  | .removeCount _ => -1
  | .reapRange _ _ _ deleteCount | .reapDelete _ _ _ _ deleteCount | .reapCount deleteCount =>
      -deleteCount.toBitVec
  | _ => 0

/-- The sequence that a goroutine is about to store. -/
def Pc.adding : Pc ρ → Option Int32
  | .addStore sequence _ => some sequence
  | _ => none

/-- Whether no operation is in progress. -/
def Pc.Idle : Pc ρ → Prop
  | .idle _ => True
  | _ => False

/-- Whether a goroutine has stored zero and not emptied the map. -/
def Pc.Clearing : Pc ρ → Prop
  | .clearMap => True
  | _ => False

/-- Nobody gets in the way: what `reapExpired` deletes is still there, `clear` begins when nobody
owes anything, and the map does not change until it is empty.  The number of waiters fits into the
word. -/
def Exclusive (s : State ι ρ) (e : ι × Action ρ) : Prop :=
  Distinct s e ∧
    match s.procs e.1, e.2 with
    | .addStore _ _, .go => s.waiters.m.keys.card + 1 < 2 ^ 31 ∧ ∀ j, ¬ (s.procs j).Clearing
    | .removeTake seq, .go => seq ∈ s.waiters.m → ∀ j, ¬ (s.procs j).Clearing
    | .reapDelete key _ _ _ _, .go => key ∈ s.waiters.m ∧ ∀ j, ¬ (s.procs j).Clearing
    | .clearCount, .go => ∀ j, (s.procs j).debt = 0
    | _, _ => True

/-- What a step of a goroutine does to the map and the word. -/
inductive Moves (w : SharedWaiters ρ) : Pc ρ → Action ρ → SharedWaiters ρ → Pc ρ → Prop
  | silent (pc pc' : Pc ρ) (a : Action ρ) (hdebt : pc'.debt = pc.debt) (hadding : pc'.adding = none)
      (hpc : ¬ pc.Clearing) (hpc' : ¬ pc'.Clearing) : Moves w pc a w pc'
  | start (result : Option ρ) (sequence : Int32) (receiver : ρ) (deadline : Option Int) (now : Int) :
      Moves w (.idle result) (.addWaiter sequence (some receiver) deadline now) w
        (.addStore sequence ⟨receiver, deadline.getD (now + 30000)⟩)
  | store (sequence : Int32) (v : Waiter ρ) :
      Moves w (.addStore sequence v) .go (w.setMap (w.m.insert sequence v)) .addCount
  | take (seq : Int32) (v : Waiter ρ) (h : w.m.lookup seq = some v) :
      Moves w (.removeTake seq) .go (w.setMap (w.m.erase seq)) (.removeCount v.replyReceiver)
  | delete (key : Int32) (now : Int) (begun : ℕ) (visited : List Int32) (deleteCount : Int32) :
      Moves w (.reapDelete key now begun visited deleteCount) .go (w.setMap (w.m.erase key))
        (.reapRange now begun visited (deleteCount + 1))
  | count (pc : Pc ρ) (size : Int32) (result : Option ρ)
      (hsize : size.toBitVec = w.size.toBitVec + pc.debt) (hpc : ¬ pc.Clearing) :
      Moves w pc .go { w with size := size } (.idle result)
  | zero : Moves w .clearCount .go { w with size := 0 } .clearMap
  | empty : Moves w .clearMap .go (w.setMap ∅) (.idle none)

theorem moves_of_next {w w' : SharedWaiters ρ} {pc pc' : Pc ρ} {a : Action ρ}
    (h : w.next pc a = some (w', pc')) : Moves w pc a w' pc' := by
  revert h
  fun_cases SharedWaiters.next w pc a
  all_goals intro h; cases h
  case case2 => exact .start ..
  case case3 => exact .store ..
  case case4 => exact .count _ _ _ rfl id
  case case6 v h => exact .take _ v h
  case case8 => exact .count _ _ _ (by simp [Pc.debt, sub_eq_add_neg]) id
  case case9 => exact .silent _ _ _ (by simp [Pc.debt]) rfl id id
  case case13 => exact .delete ..
  case case16 => exact .count _ _ _ (by simp [Pc.debt, sub_eq_add_neg]) id
  case case18 => exact .zero
  case case19 => exact .empty
  all_goals exact .silent _ _ _ rfl rfl id id

section

variable {s s' : State ι ρ} {e : ι × Action ρ}

theorem moves_of_step (h : step s e = some s') :
    ∃ w pc, Moves s.waiters (s.procs e.1) e.2 w pc ∧
      s' = ⟨w, Function.update s.procs e.1 pc, e.2.sequences ++ s.added⟩ := by
  unfold step at h
  split at h
  · next w pc hnext =>
    cases h
    exact ⟨w, pc, moves_of_next hnext, rfl⟩
  · cases h

/-- What the map has been ends with what it is. -/
theorem history_of_reachable {ok : State ι ρ → ι × Action ρ → Prop}
    (hs : (waiting ι ρ).Reachable ok s) : s.waiters.history.getLast? = some s.waiters.m := by
  refine hs.invariant (P := fun s => s.waiters.history.getLast? = some s.waiters.m) rfl ?_
  intro s e s' h _ hstep
  obtain ⟨w, pc, hmoves, rfl⟩ := moves_of_step hstep
  dsimp only
  generalize s.procs e.1 = before, e.2 = a at hmoves
  cases hmoves with
  | store seq v => exact List.getLast?_concat
  | take seq v hlookup => exact List.getLast?_concat
  | delete key now begun visited deleteCount => exact List.getLast?_concat
  | empty => exact List.getLast?_concat
  | _ => exact h

/-! ### Sequences are stored once -/

/-- What is stored or about to be was asked for once. -/
structure Fresh (s : State ι ρ) : Prop where
  stored : ∀ key ∈ s.waiters.m, key ∈ s.added
  pending : ∀ i, ∀ seq ∈ (s.procs i).adding, seq ∈ s.added ∧ seq ∉ s.waiters.m
  distinct : ∀ i j, ∀ seq ∈ (s.procs i).adding, seq ∈ (s.procs j).adding → i = j

section

omit [DecidableEq ρ]

variable {i j : ι} {pc : Pc ρ} {seq : Int32}

theorem update_cases {P : Pc ρ → Prop} {procs : ι → Pc ρ} (h : P (Function.update procs i pc j)) :
    j = i ∧ P pc ∨ j ≠ i ∧ P (procs j) := by
  by_cases hj : j = i
  · subst hj
    rw [Function.update_self] at h
    exact .inl ⟨rfl, h⟩
  · rw [Function.update_of_ne hj] at h
    exact .inr ⟨hj, h⟩

theorem adding_update_cases {procs : ι → Pc ρ}
    (hseq : seq ∈ (Function.update procs i pc j).adding) :
    j = i ∧ seq ∈ pc.adding ∨ j ≠ i ∧ seq ∈ (procs j).adding :=
  update_cases (P := fun pc => seq ∈ pc.adding) hseq

theorem adding_update {procs : ι → Pc ρ} (h : pc.adding = none)
    (hseq : seq ∈ (Function.update procs i pc j).adding) : j ≠ i ∧ seq ∈ (procs j).adding := by
  obtain ⟨-, hpc⟩ | hother := adding_update_cases hseq
  · rw [h] at hpc
    cases hpc
  · exact hother

/-- A step that stores nothing. -/
theorem Fresh.shrink (h : Fresh s) {w : SharedWaiters ρ} {more : List Int32}
    (hadding : pc.adding = none) (hm : ∀ key ∈ w.m, key ∈ s.waiters.m) :
    Fresh ⟨w, Function.update s.procs i pc, more ++ s.added⟩ where
  stored key hkey := List.mem_append_right more (h.stored key (hm key hkey))
  pending j seq hseq := by
    obtain ⟨-, hseq⟩ := adding_update hadding hseq
    obtain ⟨hadded, hnot⟩ := h.pending j seq hseq
    exact ⟨List.mem_append_right more hadded, fun hmem => hnot (hm seq hmem)⟩
  distinct j k seq hj hk := by
    obtain ⟨-, hj⟩ := adding_update hadding hj
    obtain ⟨-, hk⟩ := adding_update hadding hk
    exact h.distinct j k seq hj hk

/-- `AddWaiter` is called with a sequence that nobody else has. -/
theorem Fresh.start (h : Fresh s) {v : Waiter ρ} (hnew : seq ∉ s.added) :
    Fresh ⟨s.waiters, Function.update s.procs i (.addStore seq v), [seq] ++ s.added⟩ := by
  have hother : ∀ j, seq ∉ (s.procs j).adding := fun j hj => hnew (h.pending j seq hj).1
  refine ⟨fun key hkey => List.mem_append_right _ (h.stored key hkey), ?_, ?_⟩
  · intro j seq' hseq'
    obtain ⟨-, hself⟩ | ⟨-, hold⟩ := adding_update_cases hseq'
    · cases hself
      exact ⟨List.mem_cons_self, fun hmem => hnew (h.stored seq hmem)⟩
    · obtain ⟨hadded, hnot⟩ := h.pending j seq' hold
      exact ⟨List.mem_cons_of_mem _ hadded, hnot⟩
  · intro j k seq' hj hk
    obtain ⟨hji, hself⟩ | ⟨-, hold⟩ := adding_update_cases hj
    · obtain ⟨hki, -⟩ | ⟨-, hk⟩ := adding_update_cases hk
      · exact hji.trans hki.symm
      · cases hself
        exact absurd hk (hother k)
    · obtain ⟨-, hk⟩ | ⟨-, hk⟩ := adding_update_cases hk
      · cases hk
        exact absurd hold (hother j)
      · exact h.distinct j k seq' hold hk

theorem Fresh.store (h : Fresh s) {v : Waiter ρ}
    (hpc : s.procs i = .addStore seq v) {w : SharedWaiters ρ}
    (hm : w.m = s.waiters.m.insert seq v) {more : List Int32} :
    Fresh ⟨w, Function.update s.procs i .addCount, more ++ s.added⟩ := by
  have hi : seq ∈ (s.procs i).adding := by
    rw [hpc]
    rfl
  refine ⟨?_, ?_, ?_⟩
  · intro key hkey
    rw [hm, Finmap.mem_insert] at hkey
    refine List.mem_append_right more ?_
    obtain rfl | hkey := hkey
    · exact (h.pending i key hi).1
    · exact h.stored key hkey
  · intro j seq' hseq'
    obtain ⟨hne, hseq'⟩ := adding_update rfl hseq'
    obtain ⟨hadded, hnot⟩ := h.pending j seq' hseq'
    refine ⟨List.mem_append_right more hadded, ?_⟩
    rw [hm, Finmap.mem_insert]
    rintro (rfl | hmem)
    · exact hne (h.distinct j i seq' hseq' hi)
    · exact hnot hmem
  · intro j k seq' hj hk
    obtain ⟨-, hj⟩ := adding_update rfl hj
    obtain ⟨-, hk⟩ := adding_update rfl hk
    exact h.distinct j k seq' hj hk

end

theorem Fresh.init : Fresh (waiting ι ρ).init where
  stored key hkey := absurd hkey Finmap.notMem_empty
  pending i seq hseq := by cases hseq
  distinct i j seq hi := by cases hi

theorem Fresh.step (h : Fresh s) (hdistinct : Distinct s e) (hstep : step s e = some s') : Fresh s' := by
  obtain ⟨i, a⟩ := e
  obtain ⟨w, pc, hmoves, rfl⟩ := moves_of_step hstep
  dsimp only at hmoves ⊢
  generalize hpc : s.procs i = before at hmoves
  cases hmoves with
  | start result seq receiver deadline now =>
    exact h.start (hdistinct seq List.mem_cons_self)
  | store seq v => exact h.store hpc rfl
  | silent _ _ a hdebt hadding hclearing hclearing' => exact h.shrink hadding fun _ hkey => hkey
  | take seq v hlookup => exact h.shrink rfl fun _ hkey => (Finmap.mem_erase.mp hkey).2
  | delete key now begun visited deleteCount =>
    exact h.shrink rfl fun _ hkey => (Finmap.mem_erase.mp hkey).2
  | count _ size result hsize hclearing => exact h.shrink rfl fun _ hkey => hkey
  | zero => exact h.shrink rfl fun _ hkey => hkey
  | empty => exact h.shrink rfl fun _ hkey => absurd hkey Finmap.notMem_empty

/-! ### The word and the map -/

variable [Fintype ι]

/-- What all goroutines owe to the word. -/
def State.debts (s : State ι ρ) : BitVec 32 := ∑ i, (s.procs i).debt

/-- The number of waiters, as the word holds it. -/
def SharedWaiters.entries (w : SharedWaiters ρ) : BitVec 32 := (w.m.keys.card : BitVec 32)

structure Counted (s : State ι ρ) : Prop where
  balanced : (∀ i, ¬ (s.procs i).Clearing) →
    s.waiters.size.toBitVec + s.debts = s.waiters.entries
  /-- While the map is being emptied, nobody owes anything. -/
  cleared : ∀ i, (s.procs i).Clearing → s.waiters.size = 0 ∧ ∀ j, (s.procs j).debt = 0
  fits : s.waiters.m.keys.card < 2 ^ 31

section

omit [DecidableEq ρ]

variable {i : ι} {pc : Pc ρ} {w : SharedWaiters ρ} {added : List Int32}

theorem debts_update :
    (⟨w, Function.update s.procs i pc, added⟩ : State ι ρ).debts =
      s.debts - (s.procs i).debt + pc.debt := by
  have hupdate : ∀ j, (Function.update s.procs i pc j).debt =
      Function.update (fun j => (s.procs j).debt) i pc.debt j :=
    fun j => Function.apply_update (fun _ => Pc.debt) s.procs i pc j
  rw [State.debts, Finset.sum_congr rfl fun j _ => hupdate j,
    Finset.sum_update_of_mem (Finset.mem_univ i), State.debts,
    ← Finset.add_sum_erase _ _ (Finset.mem_univ i), Finset.sdiff_singleton_eq_erase]
  ring

omit [DecidableEq ι] [Fintype ι] in
theorem card_insert {seq : Int32} {v : Waiter ρ} (h : seq ∉ w.m) :
    (w.m.insert seq v).keys.card = w.m.keys.card + 1 := by
  have hkeys : (w.m.insert seq v).keys = Insert.insert seq w.m.keys := by
    ext key
    simp [Finmap.mem_keys]
  rw [hkeys, Finset.card_insert_of_notMem (by rwa [Finmap.mem_keys])]

omit [DecidableEq ι] [Fintype ι] in
theorem card_erase {seq : Int32} (h : seq ∈ w.m) :
    (w.m.erase seq).keys.card + 1 = w.m.keys.card := by
  rw [Finmap.keys_erase]
  exact Finset.card_erase_add_one (Finmap.mem_keys.mpr h)

/-- A goroutine moves that is not emptying the map, and what it does to the word and to the map is
what it did owe, or owes now. -/
theorem Counted.move (h : Counted s) (hpc : ¬ (s.procs i).Clearing) (hpc' : ¬ pc.Clearing)
    (hbalance : w.size.toBitVec + pc.debt - w.entries =
      s.waiters.size.toBitVec + (s.procs i).debt - s.waiters.entries)
    (hcleared : ∀ j, (s.procs j).Clearing → s.waiters.size = 0 → (s.procs i).debt = 0 →
      w.size = 0 ∧ pc.debt = 0)
    (hfits : w.m.keys.card < 2 ^ 31) : Counted ⟨w, Function.update s.procs i pc, added⟩ where
  balanced hnone := by
    obtain ⟨-, hothers⟩ := (Function.forall_update_iff s.procs fun _ pc => ¬ pc.Clearing).mp hnone
    have hnone' : ∀ j, ¬ (s.procs j).Clearing := by
      intro j hj
      by_cases hji : j = i
      · exact hpc (hji ▸ hj)
      · exact hothers j hji hj
    have hbalanced := h.balanced hnone'
    rw [debts_update]
    linear_combination hbalanced + hbalance
  cleared j hj := by
    obtain ⟨-, hself⟩ | ⟨-, hj⟩ := update_cases (P := Pc.Clearing) hj
    · exact absurd hself hpc'
    · obtain ⟨hsize, hdebts⟩ := h.cleared j hj
      obtain ⟨hsize', hdebt⟩ := hcleared j hj hsize (hdebts i)
      exact ⟨hsize', (Function.forall_update_iff s.procs fun _ pc => pc.debt = 0).mpr
        ⟨hdebt, fun k _ => hdebts k⟩⟩
  fits := hfits

/-- An entry is deleted, and the goroutine owes one less for it. -/
theorem Counted.erase (h : Counted s) {key : Int32}
    (hmem : key ∈ s.waiters.m) (hnone : ∀ j, ¬ (s.procs j).Clearing) (hpc' : ¬ pc.Clearing)
    (hdebt : pc.debt = (s.procs i).debt - 1) :
    Counted ⟨s.waiters.setMap (s.waiters.m.erase key), Function.update s.procs i pc, added⟩ := by
  have hcard := card_erase hmem
  have hentries : s.waiters.entries = (s.waiters.setMap (s.waiters.m.erase key)).entries + 1 := by
    rw [SharedWaiters.entries, ← hcard, Nat.cast_succ]
    rfl
  have hfits := h.fits
  refine h.move (hnone i) hpc' ?_ (fun j hj => absurd hj (hnone j)) ?_
  · rw [hdebt, hentries]
    change s.waiters.size.toBitVec + _ - _ = _
    grind
  · change (s.waiters.m.erase key).keys.card < 2 ^ 31
    omega

end

theorem Counted.init : Counted (waiting ι ρ).init where
  balanced _ := by
    have hdebts : (waiting ι ρ).init.debts = 0 := Finset.sum_eq_zero fun i _ => rfl
    rw [hdebts]
    rfl
  cleared i hi := hi.elim
  fits := by simp [waiting]

theorem Counted.step (h : Counted s) (hfresh : Fresh s) (hok : Exclusive s e)
    (hstep : step s e = some s') : Counted s' := by
  obtain ⟨i, a⟩ := e
  obtain ⟨w, pc, hmoves, rfl⟩ := moves_of_step hstep
  obtain ⟨-, hok⟩ := hok
  dsimp only at hmoves hok ⊢
  generalize hpc : s.procs i = before at hmoves
  cases hmoves with
  | silent _ _ a hdebt hadding hclearing hclearing' =>
    refine h.move (hpc ▸ hclearing) hclearing' (by rw [hdebt, hpc]) (fun j hj hsize hi => ?_) h.fits
    rw [hpc] at hi
    exact ⟨hsize, hdebt.trans hi⟩
  | start result seq receiver deadline now =>
    exact h.move (by rw [hpc]; exact id) id (by rw [hpc]; rfl) (fun j hj hsize hi => ⟨hsize, rfl⟩) h.fits
  | store seq v =>
    -- a new entry, since the sequences are different
    rw [hpc] at hok
    obtain ⟨hroom, hnone⟩ := hok
    have hnew : seq ∉ s.waiters.m := (hfresh.pending i seq (by rw [hpc]; rfl)).2
    have hcard := card_insert (v := v) hnew
    have hentries : (s.waiters.setMap (s.waiters.m.insert seq v)).entries = s.waiters.entries + 1 := by
      change ((s.waiters.m.insert seq v).keys.card : BitVec 32) = _
      rw [hcard, Nat.cast_succ]
      rfl
    refine h.move (hnone i) id ?_ (fun j hj => absurd hj (hnone j)) (lt_of_eq_of_lt hcard hroom)
    rw [hpc, hentries]
    change s.waiters.size.toBitVec + 1 - _ = s.waiters.size.toBitVec + 0 - _
    grind
  | take seq v hlookup =>
    rw [hpc] at hok
    have hmem : seq ∈ s.waiters.m := Finmap.mem_of_lookup_eq_some hlookup
    exact h.erase hmem (hok hmem) id (by rw [hpc]; rfl)
  | delete key now begun visited deleteCount =>
    rw [hpc] at hok
    obtain ⟨hmem, hnone⟩ := hok
    refine h.erase hmem hnone id ?_
    rw [hpc]
    change -(deleteCount + 1).toBitVec = -deleteCount.toBitVec - 1
    rw [Int32.toBitVec_add]
    change -(deleteCount.toBitVec + 1) = _
    grind
  | count _ size result hsize hclearing =>
    refine h.move (hpc ▸ hclearing) id ?_ (fun j hj hzero hi => ⟨?_, rfl⟩) h.fits
    · rw [hpc, hsize]
      simp only [Pc.debt, SharedWaiters.entries, add_zero]
    · rw [hpc] at hi
      rw [hzero, hi, add_zero] at hsize
      exact Int32.toBitVec_inj.mp hsize
  | zero =>
    -- nobody owes anything, so zero is as good as any number until the map is empty
    rw [hpc] at hok
    refine ⟨fun hnone => ?_, fun j _ => ⟨rfl, ?_⟩, h.fits⟩
    · have hi := (Function.forall_update_iff s.procs fun _ pc => ¬ pc.Clearing).mp hnone
      exact absurd trivial hi.1
    · exact (Function.forall_update_iff s.procs fun _ pc => pc.debt = 0).mpr ⟨rfl, fun k _ => hok k⟩
  | empty =>
    -- the word has been zero since
    obtain ⟨hsize, hdebts⟩ := h.cleared i (by rw [hpc]; exact trivial)
    have hdebts' : ∀ j, (Function.update s.procs i (.idle none) j).debt = 0 :=
      (Function.forall_update_iff s.procs fun _ pc => pc.debt = 0).mpr ⟨rfl, fun k _ => hdebts k⟩
    refine ⟨fun _ => ?_, fun j _ => ⟨hsize, hdebts'⟩, ?_⟩
    · rw [State.debts, Finset.sum_eq_zero fun j _ => hdebts' j]
      simp [SharedWaiters.entries, SharedWaiters.setMap, hsize]
    · simp [SharedWaiters.setMap]

omit [DecidableEq ι] [DecidableEq ρ] in
/-- Between operations the word is the number of waiters. -/
theorem Counted.size_of_idle (h : Counted s) (hidle : ∀ i, (s.procs i).Idle) :
    s.waiters.size.toInt = s.waiters.m.keys.card := by
  have hpc : ∀ i, (s.procs i).debt = 0 ∧ ¬ (s.procs i).Clearing := by
    intro i
    have hi := hidle i
    cases hproc : s.procs i with
    | idle result => exact ⟨rfl, id⟩
    | _ =>
      rw [hproc] at hi
      exact hi.elim
  have hbalanced := h.balanced fun i => (hpc i).2
  rw [State.debts, Finset.sum_eq_zero fun i _ => (hpc i).1, add_zero, SharedWaiters.entries] at hbalanced
  have hfits := h.fits
  rw [← Int32.toInt_toBitVec, hbalanced, BitVec.natCast_eq_ofNat, BitVec.toInt_ofNat']
  exact Int.bmod_eq_of_le (by omega) (by omega)

/-- **The count is right.**  In every run in which the sequences are different, the waiters that
`reapExpired` deletes are still there, and nobody adds or takes a waiter or is about to count one
while `clear` is at work: in every state in which no operation is in progress, the word is the
number of waiters in the map, and in particular is not negative. -/
theorem size_eq_card (hs : (waiting ι ρ).Reachable Exclusive s) (hidle : ∀ i, (s.procs i).Idle) :
    s.waiters.size.toInt = s.waiters.m.keys.card ∧ 0 ≤ s.waiters.size.toInt := by
  have hinv : Fresh s ∧ Counted s :=
    hs.invariant (P := fun s => Fresh s ∧ Counted s) ⟨.init, .init⟩ fun _ _ _ h hok hstep =>
      ⟨h.1.step hok.1 hstep, h.2.step h.1 hok hstep⟩
  have hsize := hinv.2.size_of_idle hidle
  exact ⟨hsize, hsize ▸ Int.natCast_nonneg _⟩

end

instance : DecidablePred (Pc.Idle (ρ := ρ)) := fun pc => by
  unfold Pc.Idle
  split <;> infer_instance

instance : DecidablePred (Pc.Clearing (ρ := ρ)) := fun pc => by
  unfold Pc.Clearing
  split <;> infer_instance

instance (s : State ι ρ) : DecidablePred (Distinct s) := fun e =>
  List.decidableBAll (fun seq => seq ∉ s.added) e.2.sequences

instance [Fintype ι] (s : State ι ρ) : DecidablePred (Exclusive s) := fun e => by
  unfold Exclusive
  refine @instDecidableAnd _ _ _ ?_
  split <;> infer_instance

/-- The waiter of the first request is taken before it is counted, and that of the second stays. -/
theorem size_eq_card_taken :
    ∃ s, (waiting Bool Unit).Reachable Exclusive s ∧ s.waiters.m.keys = {2} ∧ s.waiters.size = 1 ∧
      s.waiters.size.toInt = s.waiters.m.keys.card ∧ 0 ≤ s.waiters.size.toInt := by
  obtain ⟨s, hs, h⟩ := System.reachable_of_replay (waiting Bool Unit) Exclusive
    [(false, .addWaiter 1 (some ()) none 0), (false, .go), (true, .removeWaiter 1), (true, .go),
      (true, .go), (false, .go), (false, .addWaiter 2 (some ()) none 0), (false, .go), (false, .go)]
    (fun s => decide (s.waiters.m.keys = {2} ∧ s.waiters.size = 1 ∧ ∀ i, (s.procs i).Idle))
    (by decide +kernel)
  obtain ⟨hkeys, hsize, hidle⟩ := of_decide_eq_true h
  exact ⟨s, hs, hkeys, hsize, size_eq_card hs hidle⟩

/-- A waiter has expired.  `reapExpired` finds it, and before it deletes it, the reply takes it: it
is counted twice. -/
theorem reaped_twice :
    ∃ s, (waiting Bool Unit).Reachable Distinct s ∧ (∀ i, (s.procs i).Idle) ∧
      s.waiters.m.keys.card = 0 ∧ s.waiters.size.toInt = -1 := by
  obtain ⟨s, hs, h⟩ := System.reachable_of_replay (waiting Bool Unit) Distinct
    [(false, .addWaiter 1 (some ()) (some 0) 0), (false, .go), (false, .go),
      (false, .reapExpired 1), (false, .visit 1 ⟨(), 0⟩), (true, .removeWaiter 1), (true, .go),
      (true, .go), (false, .go), (false, .rangeEnd), (false, .go)]
    (fun s => decide ((∀ i, (s.procs i).Idle) ∧ s.waiters.m.keys.card = 0 ∧
      s.waiters.size.toInt = -1)) (by decide +kernel)
  exact ⟨s, hs, of_decide_eq_true h⟩

/-- A waiter is added while `clear` is at work: it is counted, and it is gone. -/
theorem added_while_clearing :
    ∃ s, (waiting Bool Unit).Reachable Distinct s ∧ (∀ i, (s.procs i).Idle) ∧
      s.waiters.m.keys.card = 0 ∧ s.waiters.size.toInt = 1 := by
  obtain ⟨s, hs, h⟩ := System.reachable_of_replay (waiting Bool Unit) Distinct
    [(false, .clear), (false, .go), (true, .addWaiter 1 (some ()) none 0), (true, .go), (true, .go),
      (false, .go)]
    (fun s => decide ((∀ i, (s.procs i).Idle) ∧ s.waiters.m.keys.card = 0 ∧
      s.waiters.size.toInt = 1)) (by decide +kernel)
  exact ⟨s, hs, of_decide_eq_true h⟩

end ZitiChannel.WaiterCount
