import ZitiChannel.Closing

/-!
# Hooks that use the channel

`Close` calls the hooks with the channel's lock held, and the lock is not reentrant.  Of the
operations that a hook may use, `Close` is the only one that takes this lock: asking whether the
channel is closed, for its label or its underlays, or sending a message is fine, and calling `Close` is a
deadlock.  The goroutine waits for itself, the hooks that follow are never called, and the lock is
never free again.

## Main definitions

* `Hook.mayClose` — whether a hook can come to call `Close`.
* `State.waits`, `State.SelfWait` — a goroutine that waits for the lock, and holds it.

## Main results

* `selfWait_forever` — such a goroutine waits forever, and no more hooks are called.
* `close_reenters_iff` — **no goroutine comes to wait for itself if and only if no hook can call
  `Close`.**
-/

namespace ZitiChannel.Concurrent

open Transition

/-- Whether a hook can come to call `Close`.  When it asks, the channel is closed. -/
def Hook.mayClose : Hook → Prop
  | .ret => False
  | .close _ => True
  | .isClosed next => (next true).mayClose
  | .call _ next => ∃ n, (next n).mayClose

/-- Whether the next step of a routine takes the lock. -/
def Routine.waits : Routine → Bool
  | .acceptUnderlay _ .lock | .applyConstraints (.accept _ .lock _ _) | .closeUnderlay _ .lock => true
  | _ => false

namespace State

/-- Whether the next step of goroutine `g` takes the lock. -/
def waits (s : State) (g : ℕ) : Bool :=
  match s.closes g with
  | .lock :: _ => true
  | _ :: _ => false
  | [] => (s.routines g).waits

/-- Goroutine `g` waits for a lock that it holds. -/
def SelfWait (s : State) (g : ℕ) : Prop := s.waits g = true ∧ s.lock = some g

end State

section

variable {setup : Setup} {s s' : State} {g b : ℕ} {eff : Effect} {r : Routine}
  {ok : State → Event → Prop}

theorem Routine.locked_of_waits (h : r.waits = true) : r.locked = false := by
  unfold waits at h
  split at h <;> first | rfl | cases h

/-- A goroutine that waits for itself does so in a `Close` that a hook has called. -/
theorem State.SelfWait.closes (hs : (channel setup).Reachable ok s) (h : s.SelfWait g) :
    ∃ pc rest, s.closes g = .lock :: pc :: rest := by
  have hheld : (s.routines g).locked.toNat + (s.closes g).countP (·.locked) = 1 := by
    have howned := lock_owned hs g
    rwa [h.2, if_pos rfl] at howned
  have hwaits := h.1
  unfold waits at hwaits
  split at hwaits
  · next rest hcloses =>
    have hr := Routine.locked_of_closing ((close_stacks hs).closing g (by rw [hcloses]; simp))
    cases rest with
    | nil =>
      rw [hr, hcloses] at hheld
      cases hheld
    | cons pc rest => exact ⟨pc, rest, hcloses⟩
  · cases hwaits
  · next hcloses =>
    rw [Routine.locked_of_waits hwaits, hcloses] at hheld
    cases hheld

/-! ### Waiting forever -/

/-- Nothing that happens moves a goroutine that waits for itself. -/
theorem State.SelfWait.stays {e : Event} (hs : (channel setup).Reachable ok s)
    (hstep : (channel setup).step s e = some s') (h : s.SelfWait g) :
    s'.closes g = s.closes g ∧ s'.routines g = s.routines g := by
  obtain ⟨pc, rest, hcloses⟩ := h.closes hs
  have hbusy : s.idle g ≠ true := fun hidle => by
    rw [(idle_iff.mp hidle).2] at hcloses
    cases hcloses
  refine step_cases (P := fun s' => s'.closes g = s.closes g ∧ s'.routines g = s.routines g) hstep
    ?_ ?_ ?_ ?_
  · intro b a r eff _ hb hmoves hen
    have hne : g ≠ b := by
      rintro rfl
      rw [hcloses] at hb
      cases hb
    constructor
    · rw [apply_closes, if_neg hne]
      rfl
    · rw [apply_routines]
      cases hspawned : eff.spawned g with
      | some r' => exact absurd (Effect.idle_of_spawned hen hspawned).2 hbusy
      | none => exact Function.update_of_ne hne ..
  · intro b a pc' rest' pcs eff _ hb hmoves hen
    have hne : g ≠ b := by
      rintro rfl
      rw [hcloses] at hb
      cases hb
      -- its own next step would take the lock, which is not free
      cases hmoves
      rw [Effect.enabled, h.2] at hen
      cases hen
    constructor
    · rw [closes_setCloses_apply hmoves.pushed, if_neg hne]
    · rw [hmoves.frame.routines]
  · intro b u _ hidle
    have hne : g ≠ b := by rintro rfl; exact hbusy hidle
    exact ⟨rfl, Function.update_of_ne hne ..⟩
  · intro b _ hidle
    have hne : g ≠ b := by rintro rfl; exact hbusy hidle
    exact ⟨Function.update_of_ne hne .., rfl⟩

theorem State.SelfWait.step {e : Event} (hs : (channel setup).Reachable ok s) (hok : ok s e)
    (hstep : (channel setup).step s e = some s') (h : s.SelfWait g) :
    s'.SelfWait g ∧ s'.hookCalls = s.hookCalls := by
  obtain ⟨hcloses', hroutines'⟩ := h.stays hs hstep
  have hheld : s.held g = 1 := by
    rw [lock_owned hs g, h.2, if_pos rfl]
  have hheld' : s'.held g = 1 := by
    rw [held, hcloses', hroutines']
    exact hheld
  refine ⟨⟨?_, ?_⟩, ?_⟩
  · rw [waits, hcloses', hroutines']
    exact h.1
  · exact (lock_owned (hs.step hok hstep)).lock_eq (by rw [hheld']; exact Nat.one_pos)
  · rcases aside_cases hstep with haside | ⟨b, rest, -, -, rfl⟩ |
      ⟨b, pc, rest, pcs, eff, hb, hpc, -, -⟩
    · exact haside.hookCalls
    · rfl
    · -- the first call has the lock, so it is the goroutine that waits, which is not at such a point
      have hpos : 0 < s.held b := by
        rw [held, hb, List.countP_cons_of_pos (ClosePc.locked_of_isFirst hpc)]
        omega
      obtain rfl := (lock_owned hs).unique hpos (by rw [hheld]; exact Nat.one_pos)
      obtain ⟨pc', rest', hcloses⟩ := h.closes hs
      rw [hcloses] at hb
      cases hb
      cases hpc

/-- **A goroutine that waits for itself waits forever**, and no more hooks are called. -/
theorem selfWait_forever (hs : (channel setup).Reachable ok s) (h : s.SelfWait g)
    (hsteps : (channel setup).Steps ok s s') : s'.SelfWait g ∧ s'.hookCalls = s.hookCalls := by
  have hall := System.Steps.invariant (P := fun s' => (channel setup).Reachable ok s' ∧
    s'.SelfWait g ∧ s'.hookCalls = s.hookCalls) ?_ ⟨hs, h, rfl⟩ hsteps
  · exact hall.2
  · rintro t e t' ⟨hreach, hwait, hcalls⟩ hok hstep
    obtain ⟨hwait', hcalls'⟩ := hwait.step hreach hok hstep
    exact ⟨hreach.step hok hstep, hwait', hcalls'.trans hcalls⟩

/-! ### Hooks that do not call `Close` -/

/-- A point of `Close` from which no hook calls `Close`. -/
def ClosePc.Tame : ClosePc → Prop
  | .hook _ h => ¬ h.mayClose
  | _ => True

theorem ClosePc.Moves.tame {pc : ClosePc} {pcs : List ClosePc} (h : pc.Moves setup s pcs eff)
    (hhooks : ∀ h ∈ setup.hooks, ¬ h.mayClose) (hclosed : pc.past = true → s.ch.closed = true)
    (hpc : pc.Tame) : pcs = [] ∨ ∃ p, pcs = [p] ∧ p.Tame := by
  cases h with
  | hook i h hi => exact Or.inr ⟨_, rfl, hhooks h (List.mem_of_getElem? hi)⟩
  | reenter i h => exact absurd trivial hpc
  | isClosed i h =>
    refine Or.inr ⟨_, rfl, ?_⟩
    rw [hclosed rfl]
    exact hpc
  | call i op h n => exact Or.inr ⟨_, rfl, fun hn => hpc ⟨n, hn⟩⟩
  | unlock first => exact Or.inl rfl
  | _ => exact Or.inr ⟨_, rfl, trivial⟩

/-- Without such hooks a goroutine is in one call of `Close` at most. -/
theorem closes_tame (hs : (channel setup).Reachable ok s)
    (hhooks : ∀ h ∈ setup.hooks, ¬ h.mayClose) :
    ∀ g, s.closes g = [] ∨ ∃ pc, s.closes g = [pc] ∧ pc.Tame := by
  refine hs.invariant_of_reachable (P := fun s => ∀ g, s.closes g = [] ∨
    ∃ pc, s.closes g = [pc] ∧ pc.Tame) (fun g => Or.inl rfl) ?_
  intro s e s' hreach h _ hstep
  refine step_cases (P := fun s' => ∀ g, s'.closes g = [] ∨ ∃ pc, s'.closes g = [pc] ∧ pc.Tame)
    hstep ?_ ?_ ?_ ?_
  · intro g a r eff _ hcloses hmoves _ b
    rw [State.apply_closes]
    split
    · next hb =>
      have hnil : (s.setRoutine g r).closes b = [] := hb ▸ hcloses
      rw [hnil, List.append_nil]
      by_cases hp : eff.pushed = []
      · exact Or.inl hp
      · exact Or.inr ⟨.lock, (hmoves.closing_of_pushed hp).2, trivial⟩
    · exact h b
  · intro g a pc rest pcs eff _ hcloses hmoves _ b
    rw [State.closes_setCloses_apply hmoves.pushed]
    split
    · obtain ⟨pc', hpc', htame⟩ := (h g).resolve_left (by rw [hcloses]; simp)
      rw [hcloses] at hpc'
      cases hpc'
      rw [List.append_nil]
      exact hmoves.tame hhooks ((close_stacks hreach).closed g pc (by rw [hcloses]; simp)) htame
    · exact h b
  · intro g u _ _ b
    exact h b
  · intro g _ _ b
    rcases eq_or_ne b g with rfl | hne
    · exact Or.inr ⟨.lock, Function.update_self .., trivial⟩
    · simpa [State.setCloses, hne] using h b

/-! ### Hooks that call `Close` -/

/-- Goroutine 1 is in the first `Close` of a closed channel, with these points on its stack. -/
structure InClose (setup : Setup) (s : State) (pcs : List ClosePc) : Prop where
  reachable : (channel setup).Reachable System.anyEvent s
  closed : s.ch.closed = true
  lock : s.lock = some 1
  closes : s.closes 1 = pcs

theorem InClose.step {a : Action} {pc : ClosePc} {pcs : List ClosePc} (h : InClose setup s [pc])
    (hnext : pc.next setup s a = some (pcs, eff)) (hen : eff.enabled s 1 = true)
    (hlock : eff.lockAfter 1 (some 1) = some 1) :
    ∃ s', InClose setup s' pcs := by
  refine ⟨_, h.reachable.step (e := .close 1 a) trivial (step_close h.closes hnext hen),
    State.closed_apply h.closed, ?_, ?_⟩
  · rw [State.apply_lock]
    change eff.lockAfter 1 s.lock = some 1
    rw [h.lock, hlock]
  · rw [State.closes_setCloses_apply (ClosePc.moves_of_next hnext).pushed, if_pos rfl,
      List.append_nil]

/-- A hook either comes to call `Close`, which it does if it can, or returns. -/
theorem InClose.hook (h : Hook) : ∀ {s : State} {i : ℕ}, InClose setup s [.hook i h] →
    (∃ s', (channel setup).Reachable System.anyEvent s' ∧ s'.SelfWait 1) ∨
      ¬ h.mayClose ∧ ∃ s', InClose setup s' [.nextHook (i + 1)] := by
  induction h with
  | ret =>
    intro s i hin
    exact Or.inr ⟨fun h => h, hin.step (a := .go) rfl rfl rfl⟩
  | close h _ =>
    intro s i hin
    obtain ⟨s', hin'⟩ := hin.step (a := .go) rfl rfl rfl
    refine Or.inl ⟨s', hin'.reachable, ?_, hin'.lock⟩
    rw [State.waits, hin'.closes]
  | isClosed next ih =>
    intro s i hin
    obtain ⟨s', hin'⟩ := hin.step (a := .go) rfl rfl rfl
    rw [hin.closed] at hin'
    exact ih true hin'
  | call op next ih =>
    intro s i hin
    by_cases hclose : ∃ n, (next n).mayClose
    · obtain ⟨n, hn⟩ := hclose
      obtain ⟨s', hin'⟩ := hin.step (a := .answer n) rfl rfl rfl
      exact (ih n hin').imp id fun h => absurd hn h.1
    · obtain ⟨s', hin'⟩ := hin.step (a := .answer 0) rfl rfl rfl
      exact (ih 0 hin').imp id fun h => ⟨hclose, h.2⟩

/-- The hooks are called one after the other, until one calls `Close`. -/
theorem InClose.hooks {k : ℕ} {h : Hook} (hk : setup.hooks[k]? = some h) (hclose : h.mayClose) :
    ∀ (n : ℕ) {s : State} {i : ℕ}, i + n = k → InClose setup s [.nextHook i] →
      ∃ s', (channel setup).Reachable System.anyEvent s' ∧ s'.SelfWait 1 := by
  intro n
  induction n with
  | zero =>
    rintro s i rfl hin
    have hi : setup.hooks[i]? = some h := hk
    have hnext : ClosePc.next setup s (.nextHook i) .go = some ([.hook i h], .hook i) := by
      simp [ClosePc.next, hi]
    obtain ⟨s', hin'⟩ := hin.step hnext rfl rfl
    exact (InClose.hook h hin').resolve_right fun hnot => hnot.1 hclose
  | succ n ih =>
    rintro s i hi hin
    have hlt : i < setup.hooks.length := by
      have := (List.getElem?_eq_some_iff.mp hk).1
      omega
    have hnext : ClosePc.next setup s (.nextHook i) .go =
        some ([.hook i setup.hooks[i]], .hook i) := by
      simp [ClosePc.next, hlt]
    obtain ⟨s', hin'⟩ := hin.step hnext rfl rfl
    rcases InClose.hook _ hin' with hwait | ⟨-, s'', hin''⟩
    · exact hwait
    · exact ih (by omega) hin''

/-- A channel can be closed after its binder has run. -/
theorem inClose_start (setup : Setup) : ∃ s, InClose setup s [.nextHook 0] := by
  have hinit : (channel setup).Reachable System.anyEvent (channel setup).init := .init
  have hbound := hinit.step (e := .run 0 .go) trivial rfl
  have hadded := hbound.step (e := .run 0 .go) trivial rfl
  have hcalled := hadded.step (e := .callClose 1) trivial rfl
  have hlocked := hcalled.step (e := .close 1 .go) trivial rfl
  have hclosed := hlocked.step (e := .close 1 .go) trivial rfl
  exact ⟨_, hclosed.step (e := .close 1 .go) trivial rfl, rfl, rfl, rfl⟩

end

/-- **Close and its hooks.**  For every setup of hooks, each of which may ask whether the channel is
closed, for its label or underlays, send messages and call `Close`: no goroutine comes to wait for
a lock it holds and every hook has been called exactly once when a `Close` has returned, if and only
if no hook can come to call `Close`. -/
theorem close_reenters_iff (setup : Setup) :
    ((∀ s, (channel setup).Reachable System.anyEvent s → ∀ g, ¬ s.SelfWait g) ∧
      ∀ s, (channel setup).Reachable System.anyEvent s → 0 < s.closeReturns →
        s.hookCalls = List.range setup.hooks.length) ↔
      ∀ h ∈ setup.hooks, ¬ h.mayClose := by
  constructor
  · rintro ⟨hwait, -⟩ h hmem hclose
    obtain ⟨k, hk⟩ := List.mem_iff_getElem?.mp hmem
    obtain ⟨s, hin⟩ := inClose_start setup
    obtain ⟨s', hreach, hself⟩ := hin.hooks hk hclose k (Nat.zero_add k)
    exact hwait s' hreach 1 hself
  · intro hhooks
    refine ⟨fun s hs g hself => ?_, fun s hs hret => ?_⟩
    · obtain ⟨pc, rest, hcloses⟩ := hself.closes hs
      rcases closes_tame hs hhooks g with hnil | ⟨pc', hone, -⟩
      · rw [hcloses] at hnil; cases hnil
      · rw [hcloses] at hone; cases hone
    · exact ((hooks_once hs).after (done_of_closeReturns hs hret)).2

/-- A channel with two close handlers, of which the first calls `Close`. -/
def reentrantSetup : Setup where
  config :=
    { logicalName := [], senders := true, messageSourceProvider := true, underlay := none
      binder := ⟨[], none⟩, dialPolicy := false, constraints := ∅, minTotalUnderlays := 0 }
  first := ⟨0, [], [], ∅⟩
  validUnderlayTypes := []
  listeners := 0
  peekHandlers := []
  closeHandlers := [.close .ret, .ret]

/-- After `NewChannel` has returned somebody calls `Close`.  The first close handler calls `Close`
again: the goroutine waits for the lock it holds, now and forever, and the second close
handler is never called. -/
theorem close_reenters_deadlock :
    ∃ s, (channel reentrantSetup).Reachable System.anyEvent s ∧ s.returned = true ∧ s.SelfWait 4 ∧
      ∀ s', (channel reentrantSetup).Steps System.anyEvent s s' →
        s'.SelfWait 4 ∧ s'.hookCalls = [0] := by
  obtain ⟨s, hs, h⟩ := System.reachable_of_replay (channel reentrantSetup) System.anyEvent
    [.run 0 .go, .run 0 .go, .run 0 .go, .run 0 .go, .run 0 (.start 1 2), .run 0 (.spawn 3),
      .callClose 4, .close 4 .go, .close 4 .go, .close 4 .go, .close 4 .go, .close 4 .go]
    (fun s => decide (s.returned = true ∧ (s.waits 4 = true ∧ s.lock = some 4) ∧
      s.hookCalls = [0])) (by decide)
  obtain ⟨hret, hwait, hcalls⟩ := of_decide_eq_true h
  refine ⟨s, hs, hret, hwait, fun s' hsteps => ?_⟩
  obtain ⟨hwait', hcalls'⟩ := selfWait_forever hs hwait hsteps
  exact ⟨hwait', hcalls'.trans hcalls⟩

end ZitiChannel.Concurrent
