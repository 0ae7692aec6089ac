import ZitiChannel.ChannelSteps

/-!
# Closing a channel

Any number of goroutines may call `Close`, from outside, from a hook, or because a constraint is
violated or the last underlay of a simple channel is gone.  One of them is the first: it sets the
flag, and holds the lock from before that until it has run the hooks and closed the underlays.
All others find the flag set.

The first call is followed from point to point (`first_rule`).  What it has done by then is said
once for the hooks and once for the underlays.

## Main definitions

* `Stacks` — what the calls of `Close` on the stack of a goroutine can be.
* `ClosePc.isFirst`, `State.Done` — the call that closes the channel, and when it is over.

## Main results

* `first_rule` — how to prove something about what the first `Close` has done.
* `hooks_once` — hooks run once, in order.
-/

namespace ZitiChannel.Concurrent

open Transition

section

variable {setup : Setup} {s s' t : State} {g b : ℕ} {eff : Effect} {u : Underlay} {r r' : Routine}
  {ok : State → Event → Prop}

/-! ### The stacks of `Close` calls -/

/-- Whether a routine is where `Close` is called, or does nothing. -/
def Routine.closing : Routine → Bool
  | .idle | .closeUnderlay _ .closing | .applyConstraints .closing | .applyConstraints .release => true
  | _ => false

theorem Routine.locked_of_closing (h : r.closing = true) : r.locked = false := by
  unfold closing at h
  split at h <;> first | rfl | cases h

def ClosePc.isHook : ClosePc → Bool
  | .hook _ _ => true
  | _ => false

/-- Whether the flag has been looked at. -/
def ClosePc.past : ClosePc → Bool
  | .lock | .compareAndSet => false
  | _ => true

structure Stacks (s : State) : Prop where
  closing : ∀ g, s.closes g ≠ [] → (s.routines g).closing = true
  hooks : ∀ g, ∀ pc ∈ (s.closes g).tail, pc.isHook = true
  closed : ∀ g, ∀ pc ∈ s.closes g, pc.past = true → s.ch.closed = true

theorem Stacks.closed_head {pc : ClosePc} {rest : List ClosePc} (h : Stacks s)
    (hcloses : s.closes g = pc :: rest) (hpast : pc.past = true) : s.ch.closed = true :=
  h.closed g pc (hcloses ▸ List.mem_cons_self) hpast

theorem Routine.Moves.closing_of_pushed (h : r.Moves setup s r' eff) (hp : eff.pushed ≠ []) :
    r'.closing = true ∧ eff.pushed = [.lock] := by
  cases h with
  | lastRemoved | invalid | loopInvalid => exact ⟨rfl, rfl⟩
  | accept _ _ _ _ h | dialAccept _ _ _ _ _ _ h => cases h <;> exact absurd rfl hp
  | _ => exact absurd rfl hp

theorem State.closes_setCloses_apply {ps : List ClosePc} (h : eff.pushed = []) :
    ((s.setCloses g ps).apply g eff).closes b = if b = g then ps else s.closes b := by
  rw [apply_closes, h]
  split
  · next hb => rw [hb]; exact Function.update_self ..
  · next hb => exact Function.update_of_ne hb ..

theorem Stacks.run (h : Stacks s) (hcloses : s.closes g = [])
    (hmoves : (s.routines g).Moves setup s r eff) (hen : eff.enabled s g = true) :
    Stacks ((s.setRoutine g r).apply g eff) := by
  have hframe := hmoves.frame (t := s.setRoutine g r) (g := g)
  have hself : ((s.setRoutine g r).apply g eff).closes g = eff.pushed := by
    rw [State.apply_closes, if_pos rfl]
    exact (congrArg _ hcloses).trans (List.append_nil _)
  have hother : ∀ b, b ≠ g → ((s.setRoutine g r).apply g eff).closes b = s.closes b := fun b hb => by
    rw [State.apply_closes, if_neg hb]
    rfl
  have hpushed : eff.pushed = [] ∨ r.closing = true ∧ eff.pushed = [.lock] := by
    by_cases hp : eff.pushed = []
    · exact Or.inl hp
    · exact Or.inr (hmoves.closing_of_pushed hp)
  refine ⟨fun b hb => ?_, fun b pc hpc => ?_, fun b pc hpc hpast => ?_⟩
  · rcases eq_or_ne b g with rfl | hne
    · rw [hself] at hb
      rw [State.apply_routines, Effect.spawned_self hen, Option.getD_none]
      rcases hpushed with hp | ⟨hr, -⟩
      · exact absurd hp hb
      · simpa [State.setRoutine] using hr
    · rw [hother b hne] at hb
      rw [State.apply_routines]
      cases hspawned : eff.spawned b with
      | some r' =>
        exact absurd (State.idle_iff.mp (Effect.idle_of_spawned hen hspawned).2).2 hb
      | none => simpa [State.setRoutine, hne] using h.closing b hb
  · rcases eq_or_ne b g with rfl | hne
    · rw [hself] at hpc
      rcases hpushed with hp | ⟨-, hp⟩
      · rw [hp] at hpc; cases hpc
      · rw [hp] at hpc; cases hpc
    · rw [hother b hne] at hpc
      exact h.hooks b pc hpc
  · rw [hframe.closed]
    rcases eq_or_ne b g with rfl | hne
    · rw [hself] at hpc
      rcases hpushed with hp | ⟨-, hp⟩
      · rw [hp] at hpc; cases hpc
      · rw [hp, List.mem_singleton] at hpc
        rw [hpc] at hpast
        cases hpast
    · rw [hother b hne] at hpc
      exact h.closed b pc hpc hpast

/-- What a step of `Close` puts on the stack: at most one point, below which there is a hook. -/
theorem ClosePc.Moves.tail_isHook {pc : ClosePc} {pcs : List ClosePc}
    (h : pc.Moves setup s pcs eff) : ∀ p ∈ pcs.tail, p.isHook = true := by
  cases h <;> simp [ClosePc.isHook]

/-- Nothing opens a closed channel. -/
theorem State.closed_apply (h : t.ch.closed = true) : (t.apply g eff).ch.closed = true := by
  cases eff with
  | setClosed => rfl
  | _ => exact h

theorem ClosePc.Moves.closed_of_past {pc : ClosePc} {pcs ps : List ClosePc}
    (h : pc.Moves setup s pcs eff) (hpc : pc.past = true → s.ch.closed = true) :
    ∀ p ∈ pcs, p.past = true → ((s.setCloses g ps).apply g eff).ch.closed = true := by
  intro p hp hpast
  cases h with
  | lock =>
    rw [List.mem_singleton.mp hp] at hpast
    cases hpast
  | late hclosed => exact hclosed
  | first => rfl
  | _ => exact State.closed_apply (hpc rfl)

theorem Stacks.close {pc : ClosePc} {rest pcs : List ClosePc} (h : Stacks s)
    (hcloses : s.closes g = pc :: rest) (hmoves : pc.Moves setup s pcs eff) :
    Stacks ((s.setCloses g (pcs ++ rest)).apply g eff) := by
  have hstack : ∀ b, ((s.setCloses g (pcs ++ rest)).apply g eff).closes b =
      if b = g then pcs ++ rest else s.closes b := fun b =>
    State.closes_setCloses_apply hmoves.pushed
  have hrest : ∀ p ∈ rest, p.isHook = true := fun p hp => h.hooks g p (by rwa [hcloses])
  refine ⟨fun b hb => ?_, fun b p hp => ?_, fun b p hp hpast => ?_⟩
  · rw [hmoves.frame.routines]
    refine h.closing b fun hnil => ?_
    rcases eq_or_ne b g with rfl | hne
    · rw [hcloses] at hnil; cases hnil
    · rw [hstack, if_neg hne] at hb
      exact hb hnil
  · rw [hstack] at hp
    split at hp
    · cases pcs with
      | nil => exact hrest p (List.mem_of_mem_tail hp)
      | cons q qs =>
        rcases List.mem_append.mp hp with hp | hp
        · exact hmoves.tail_isHook p hp
        · exact hrest p hp
    · exact h.hooks b p hp
  · rw [hstack] at hp
    split at hp
    · rcases List.mem_append.mp hp with hp | hp
      · exact hmoves.closed_of_past (h.closed_head hcloses) p hp hpast
      · exact State.closed_apply (h.closed g p (by rw [hcloses]; exact List.mem_cons_of_mem _ hp)
          hpast)
    · exact State.closed_apply (h.closed b p hp hpast)

theorem close_stacks (hs : (channel setup).Reachable ok s) : Stacks s := by
  have hinit : Stacks (channel setup).init :=
    ⟨fun g hg => absurd rfl hg, fun g pc hpc => (by cases hpc), fun g pc hpc => (by cases hpc)⟩
  refine hs.invariant hinit fun s e s' h _ hstep => ?_
  refine step_cases hstep ?_ ?_ ?_ ?_
  · intro g a r eff _ hcloses hmoves hen
    exact h.run hcloses hmoves hen
  · intro g a pc rest pcs eff _ hcloses hmoves _
    exact h.close hcloses hmoves
  · intro g u _ hidle
    refine ⟨fun b hb => ?_, h.hooks, h.closed⟩
    rcases eq_or_ne b g with rfl | hne
    · exact absurd (State.idle_iff.mp hidle).2 hb
    · simpa [State.setRoutine, hne] using h.closing b hb
  · intro g _ hidle
    refine ⟨fun b hb => ?_, fun b pc hpc => ?_, fun b pc hpc hpast => ?_⟩
    · rcases eq_or_ne b g with rfl | hne
      · change (s.routines b).closing = true
        rw [(State.idle_iff.mp hidle).1]
        rfl
      · exact h.closing b (by simpa [State.setCloses, hne] using hb)
    · rcases eq_or_ne b g with rfl | hne
      · simp [State.setCloses] at hpc
      · exact h.hooks b pc (by simpa [State.setCloses, hne] using hpc)
    · rcases eq_or_ne b g with rfl | hne
      · simp only [State.setCloses, Function.update_self, List.mem_singleton] at hpc
        rw [hpc] at hpast
        cases hpast
      · exact h.closed b pc (by simpa [State.setCloses, hne] using hpc) hpast

/-! ### The first call -/

/-- Whether this is the call that closes the channel. -/
def ClosePc.isFirst : ClosePc → Bool
  | .lock | .compareAndSet | .unlock false => false
  | _ => true

/-- The channel is closed, and the call that closed it has returned. -/
def State.Done (s : State) : Prop :=
  s.ch.closed = true ∧ ∀ g, ∀ pc ∈ s.closes g, pc.isFirst = false

theorem ClosePc.locked_of_isFirst {pc : ClosePc} (h : pc.isFirst = true) : pc.locked = true := by
  cases pc <;> first | rfl | cases h

theorem State.held_eq_zero : s.held b = 0 ↔
    (s.routines b).locked = false ∧ ∀ p ∈ s.closes b, p.locked = false := by
  rw [held, Nat.add_eq_zero_iff, Bool.toNat_eq_zero, List.countP_eq_zero]
  simp

/-- Who is in `Close` with the lock is alone. -/
theorem alone (hs : (channel setup).Reachable ok s) {pc : ClosePc} {rest : List ClosePc}
    (hcloses : s.closes g = pc :: rest) (hpc : pc.locked = true) :
    (∀ p ∈ rest, p.locked = false) ∧ (∀ b, b ≠ g → ∀ p ∈ s.closes b, p.locked = false) ∧
      ∀ b, (s.routines b).locked = false := by
  have howned := lock_owned hs
  have hheld : s.held g = (s.routines g).locked.toNat + (rest.countP (·.locked) + 1) := by
    rw [State.held, hcloses, List.countP_cons_of_pos hpc]
  have hone := howned.le_one g
  have hother : ∀ b, b ≠ g → s.held b = 0 := fun b hb => by
    by_contra hne
    exact hb (howned.unique (Nat.pos_of_ne_zero hne) (by omega))
  refine ⟨?_, fun b hb => (State.held_eq_zero.mp (hother b hb)).2, fun b => ?_⟩
  · have hrest : rest.countP (·.locked) = 0 := by omega
    simpa using List.countP_eq_zero.mp hrest
  · rcases eq_or_ne b g with rfl | hb
    · exact Bool.toNat_eq_zero.mp (by omega)
    · exact (State.held_eq_zero.mp (hother b hb)).1

theorem State.mem_closes {p : ClosePc} {pcs rest : List ClosePc} (h : eff.pushed = [])
    (hp : p ∈ ((s.setCloses g (pcs ++ rest)).apply g eff).closes b) :
    p ∈ pcs ∨ p ∈ rest ∨ b ≠ g ∧ p ∈ s.closes b := by
  rw [State.closes_setCloses_apply h] at hp
  split at hp
  · rcases List.mem_append.mp hp with hp | hp
    · exact Or.inl hp
    · exact Or.inr (Or.inl hp)
  · next hb => exact Or.inr (Or.inr ⟨hb, hp⟩)

theorem ClosePc.past_of_isFirst {pc : ClosePc} (h : pc.isFirst = true) : pc.past = true := by
  cases pc <;> first | rfl | cases h

/-- The first call stays on the stack until it returns. -/
theorem ClosePc.Moves.isFirst_stays {pc : ClosePc} {pcs : List ClosePc}
    (h : pc.Moves setup s pcs eff) (hpc : pc.isFirst = true) :
    pcs = [] ∨ ∃ p ∈ pcs, p.isFirst = true := by
  cases h <;> simp_all [isFirst]

/-- A step that is not one of the first call: the flag and the counts stay, and the first call
stays where it is. -/
structure Aside (s s' : State) : Prop where
  closed : s'.ch.closed = s.ch.closed
  closeNotifies : s'.closeNotifies = s.closeNotifies
  hookCalls : s'.hookCalls = s.hookCalls
  firsts : ∀ b pc, pc.isFirst = true → (pc ∈ s'.closes b ↔ pc ∈ s.closes b)

theorem Routine.Moves.aside (hcloses : s.closes g = [])
    (hmoves : (s.routines g).Moves setup s r eff) : Aside s ((s.setRoutine g r).apply g eff) := by
  have hframe := hmoves.frame (t := s.setRoutine g r) (g := g)
  refine ⟨hframe.closed, hframe.closeNotifies, hframe.hookCalls, fun b pc hpc => ?_⟩
  rw [State.apply_closes]
  split
  · next hb =>
    subst hb
    have hnil : (s.setRoutine b r).closes b = [] := hcloses
    rw [hnil, hcloses, List.append_nil]
    refine iff_of_false (fun hmem => ?_) List.not_mem_nil
    obtain ⟨-, hlock⟩ := hmoves.closing_of_pushed (List.ne_nil_of_mem hmem)
    rw [hlock, List.mem_singleton] at hmem
    rw [hmem] at hpc
    cases hpc
  · rfl

/-- A step of another call is aside, or it is the one that makes that call the first. -/
theorem ClosePc.Moves.aside {pc : ClosePc} {pcs rest : List ClosePc}
    (hcloses : s.closes g = pc :: rest) (h : pc.Moves setup s pcs eff) (hpc : pc.isFirst = false) :
    Aside s ((s.setCloses g (pcs ++ rest)).apply g eff) ∨
      s.ch.closed = false ∧ pc = .compareAndSet ∧ pcs = [.closeNotify] ∧ eff = .setClosed := by
  have hfirsts : (∀ p ∈ pcs, p.isFirst = false) → ∀ b p, p.isFirst = true →
      (p ∈ ((s.setCloses g (pcs ++ rest)).apply g eff).closes b ↔ p ∈ s.closes b) := by
    intro hpcs b p hp
    have hne : p ≠ pc := fun heq => by rw [heq, hpc] at hp; cases hp
    have hnot : p ∉ pcs := fun hmem => by rw [hpcs p hmem] at hp; cases hp
    rw [State.closes_setCloses_apply h.pushed]
    split
    · next hb => rw [hb, hcloses]; simp [hne, hnot]
    · rfl
  cases h with
  | lock => exact Or.inl ⟨rfl, rfl, rfl, hfirsts (by simp [isFirst])⟩
  | late => exact Or.inl ⟨rfl, rfl, rfl, hfirsts (by simp [isFirst])⟩
  | first hopen => exact Or.inr ⟨hopen, rfl, rfl, rfl⟩
  | unlock first => exact Or.inl ⟨rfl, rfl, rfl, hfirsts (by simp)⟩
  | _ => cases hpc

/-- A step is aside, it sets the flag, or it is one of the first call. -/
theorem aside_cases {e : Event} (hstep : (channel setup).step s e = some s') :
    Aside s s' ∨
    (∃ g rest, s.ch.closed = false ∧ s.closes g = .compareAndSet :: rest ∧
      s' = (s.setCloses g ([.closeNotify] ++ rest)).apply g .setClosed) ∨
    ∃ g pc rest pcs eff, s.closes g = pc :: rest ∧ pc.isFirst = true ∧ pc.Moves setup s pcs eff ∧
      s' = (s.setCloses g (pcs ++ rest)).apply g eff := by
  refine step_cases (P := fun s' => Aside s s' ∨ (∃ g rest, s.ch.closed = false ∧
    s.closes g = .compareAndSet :: rest ∧
      s' = (s.setCloses g ([.closeNotify] ++ rest)).apply g .setClosed) ∨
    ∃ g pc rest pcs eff, s.closes g = pc :: rest ∧ pc.isFirst = true ∧ pc.Moves setup s pcs eff ∧
      s' = (s.setCloses g (pcs ++ rest)).apply g eff) hstep ?_ ?_ ?_ ?_
  · intro g a r eff _ hcloses hmoves _
    exact Or.inl (hmoves.aside hcloses)
  · intro g a pc rest pcs eff _ hcloses hmoves _
    by_cases hpc : pc.isFirst = true
    · exact Or.inr (Or.inr ⟨g, pc, rest, pcs, eff, hcloses, hpc, hmoves, rfl⟩)
    · rcases hmoves.aside hcloses (Bool.eq_false_iff.mpr hpc) with haside | ⟨hopen, rfl, rfl, rfl⟩
      · exact Or.inl haside
      · exact Or.inr (Or.inl ⟨g, rest, hopen, hcloses, rfl⟩)
  · intro g u _ _
    exact Or.inl ⟨rfl, rfl, rfl, fun _ _ _ => Iff.rfl⟩
  · intro g _ hidle
    refine Or.inl ⟨rfl, rfl, rfl, fun b pc hpc => ?_⟩
    rcases eq_or_ne b g with rfl | hb
    · have hne : pc ≠ .lock := by rintro rfl; cases hpc
      simp [State.setCloses, (State.idle_iff.mp hidle).2, hne]
    · simp [State.setCloses, hb]

/-- What holds of the first call at each of its points, and after it. -/
structure Following (Q : State → ClosePc → Prop) (F : State → Prop) (s : State) : Prop where
  during : ∀ g, ∀ pc ∈ s.closes g, pc.isFirst = true → Q s pc
  after : s.Done → F s

theorem Following.aside {Q : State → ClosePc → Prop} {F : State → Prop} (h : Following Q F s)
    (hstacks : Stacks s) (haside : Aside s s')
    (hkeep : s.ch.closed = true → (∀ pc, Q s pc → Q s' pc) ∧ (F s → F s')) : Following Q F s' where
  during b pc hpc hfirst := by
    rw [haside.firsts b pc hfirst] at hpc
    have hclosed := hstacks.closed b pc hpc (ClosePc.past_of_isFirst hfirst)
    exact (hkeep hclosed).1 pc (h.during b pc hpc hfirst)
  after hdone := by
    have hclosed : s.ch.closed = true := haside.closed ▸ hdone.1
    refine (hkeep hclosed).2 (h.after ⟨hclosed, fun b pc hpc => ?_⟩)
    by_contra hne
    have hfirst := Bool.eq_true_of_not_eq_false hne
    have hnot := hdone.2 b pc ((haside.firsts b pc hfirst).mpr hpc)
    rw [hfirst] at hnot
    cases hnot

/-- **Following the first call.**  To show that something holds at each of its points, and something
else once it has returned, it is enough that it holds when the flag was just set, that each step of
the call leads on, and that other steps do no harm while the channel is closed. -/
theorem first_rule {Q : State → ClosePc → Prop} {F : State → Prop}
    (start : ∀ s g ps, (channel setup).Reachable ok s → s.ch.closed = false →
      Q ((s.setCloses g ps).apply g .setClosed) .closeNotify)
    (advance : ∀ s g pc rest pcs eff, (channel setup).Reachable ok s → s.closes g = pc :: rest →
      pc.isFirst = true → pc.Moves setup s pcs eff → Q s pc →
      (∀ p ∈ pcs, p.isFirst = true → Q ((s.setCloses g (pcs ++ rest)).apply g eff) p) ∧
        (pcs = [] → F ((s.setCloses g (pcs ++ rest)).apply g eff)))
    (keep : ∀ s e s', (channel setup).Reachable ok s → ok s e → (channel setup).step s e = some s' →
      s.ch.closed = true → Aside s s' → (∀ pc, Q s pc → Q s' pc) ∧ (F s → F s'))
    (hs : (channel setup).Reachable ok s) : Following Q F s := by
  have hinit : Following Q F (channel setup).init :=
    ⟨fun g pc hpc => (by cases hpc), fun hdone => (by cases hdone.1)⟩
  refine hs.invariant_of_reachable hinit fun s e s' hreach h hok hstep => ?_
  have hstacks := close_stacks hreach
  rcases aside_cases hstep with haside | ⟨g, rest, hopen, hcloses, rfl⟩ |
    ⟨g, pc, rest, pcs, eff, hcloses, hpc, hmoves, rfl⟩
  · exact h.aside hstacks haside fun hclosed => keep s e s' hreach hok hstep hclosed haside
  · have hnone : ∀ b, ∀ p ∈ s.closes b, p.isFirst ≠ true := fun b p hp hfirst => by
      rw [hstacks.closed b p hp (ClosePc.past_of_isFirst hfirst)] at hopen
      cases hopen
    refine ⟨fun b p hp hfirst => ?_, fun hdone => ?_⟩
    · rcases State.mem_closes rfl hp with hp | hp | ⟨-, hp⟩
      · rw [List.mem_singleton.mp hp]
        exact start s g _ hreach hopen
      · exact absurd hfirst (hnone g p (by rw [hcloses]; exact List.mem_cons_of_mem _ hp))
      · exact absurd hfirst (hnone b p hp)
    · have hmem : .closeNotify ∈ ((s.setCloses g ([.closeNotify] ++ rest)).apply g
          .setClosed).closes g := by
        rw [State.closes_setCloses_apply rfl, if_pos rfl]
        exact List.mem_cons_self
      cases hdone.2 g _ hmem
  · -- the first call is alone, so its new points are all that matters
    obtain ⟨hrest, hothers, -⟩ := alone hreach hcloses (ClosePc.locked_of_isFirst hpc)
    obtain ⟨hnew, hlast⟩ := advance s g pc rest pcs eff hreach hcloses hpc hmoves
      (h.during g pc (by rw [hcloses]; exact List.mem_cons_self) hpc)
    have hfree : ∀ {p : ClosePc}, p.locked = false → p.isFirst ≠ true := fun hp hfirst => by
      rw [ClosePc.locked_of_isFirst hfirst] at hp
      cases hp
    refine ⟨fun b p hp hfirst => ?_, fun hdone => ?_⟩
    · rcases State.mem_closes hmoves.pushed hp with hp | hp | ⟨hb, hp⟩
      · exact hnew p hp hfirst
      · exact absurd hfirst (hfree (hrest p hp))
      · exact absurd hfirst (hfree (hothers b hb p hp))
    · rcases hmoves.isFirst_stays hpc with hnil | ⟨p, hp, hfirst⟩
      · exact hlast hnil
      · have hmem : p ∈ ((s.setCloses g (pcs ++ rest)).apply g eff).closes g := by
          rw [State.closes_setCloses_apply hmoves.pushed, if_pos rfl]
          exact List.mem_append_left _ hp
        rw [hdone.2 g p hmem] at hfirst
        cases hfirst

/-! ### The hooks -/

/-- Which hooks the first call has run, by where it is. -/
def ClosePc.Ran (setup : Setup) (s : State) : ClosePc → Prop
  | .closeNotify => s.closeNotifies = 0 ∧ s.hookCalls = []
  | .nextHook i =>
      s.closeNotifies = 1 ∧ s.hookCalls = List.range i ∧ i ≤ setup.hooks.length
  | .hook i _ => s.closeNotifies = 1 ∧ s.hookCalls = List.range (i + 1) ∧ i < setup.hooks.length
  | .getAll | .closeAll _ | .unlock true =>
      s.closeNotifies = 1 ∧ s.hookCalls = List.range setup.hooks.length
  | _ => True

theorem ClosePc.Ran.congr {pc : ClosePc} (h : pc.Ran setup s)
    (hnotifies : s'.closeNotifies = s.closeNotifies) (hcalls : s'.hookCalls = s.hookCalls) :
    pc.Ran setup s' := by
  unfold Ran at h ⊢
  rwa [hnotifies, hcalls]

theorem ClosePc.Moves.ran {pc : ClosePc} {pcs ps : List ClosePc} (h : pc.Moves setup s pcs eff)
    (hpc : pc.isFirst = true) (hran : pc.Ran setup s) :
    (∀ p ∈ pcs, p.isFirst = true → p.Ran setup ((s.setCloses g ps).apply g eff)) ∧
      (pcs = [] → ((s.setCloses g ps).apply g eff).closeNotifies = 1 ∧
        ((s.setCloses g ps).apply g eff).hookCalls = List.range setup.hooks.length) := by
  have hone : ∀ {q : ClosePc}, q.Ran setup ((s.setCloses g ps).apply g eff) →
      ∀ p ∈ [q], p.isFirst = true → p.Ran setup ((s.setCloses g ps).apply g eff) := by
    intro q hq p hp _
    rwa [List.mem_singleton.mp hp]
  cases h with
  | lock | late | first => cases hpc
  | notify =>
    obtain ⟨hnotifies, hcalls⟩ := hran
    exact ⟨hone ⟨congrArg (· + 1) hnotifies, hcalls, Nat.zero_le _⟩, fun h => by cases h⟩
  | hook i h hi =>
    obtain ⟨hnotifies, hcalls, -⟩ := hran
    refine ⟨hone ⟨hnotifies, ?_, (List.getElem?_eq_some_iff.mp hi).1⟩, fun h => by cases h⟩
    rw [List.range_succ, ← hcalls]
    rfl
  | noHook i hi =>
    obtain ⟨hnotifies, hcalls, hle⟩ := hran
    have hlen : i = setup.hooks.length := le_antisymm hle (List.getElem?_eq_none_iff.mp hi)
    exact ⟨hone ⟨hnotifies, hlen ▸ hcalls⟩, fun h => by cases h⟩
  | reenter i h =>
    refine ⟨fun p hp hfirst => ?_, fun h => by cases h⟩
    rcases List.mem_cons.mp hp with rfl | hp
    · cases hfirst
    · exact hone (q := .hook i h) hran p hp hfirst
  | unlock first =>
    cases first with
    | false => cases hpc
    | true => exact ⟨fun p hp => (by cases hp), fun _ => hran⟩
  | _ => exact ⟨hone hran, fun h => by cases h⟩

/-- Before the channel is closed nothing of this has happened. -/
theorem no_hooks_of_open (hs : (channel setup).Reachable ok s) (hopen : s.ch.closed = false) :
    s.closeNotifies = 0 ∧ s.hookCalls = [] := by
  revert hopen
  refine hs.invariant_of_reachable
    (P := fun s => s.ch.closed = false → s.closeNotifies = 0 ∧ s.hookCalls = [])
    (fun _ => ⟨rfl, rfl⟩) fun s e s' hreach h _ hstep hopen => ?_
  rcases aside_cases hstep with haside | ⟨g, rest, -, -, rfl⟩ |
    ⟨g, pc, rest, pcs, eff, hcloses, hpc, hmoves, rfl⟩
  · rw [haside.closeNotifies, haside.hookCalls]
    exact h (haside.closed ▸ hopen)
  · cases hopen
  · have hclosed := (close_stacks hreach).closed_head hcloses (ClosePc.past_of_isFirst hpc)
    rw [State.closed_apply (t := s.setCloses g (pcs ++ rest)) hclosed] at hopen
    cases hopen

/-- Who finds `closeNotify` closed finds the channel closed. -/
theorem closed_of_closeNotify (hs : (channel setup).Reachable ok s) (h : s.ch.closeNotify = true) :
    s.ch.closed = true := by
  have hgiven : s.ch.closeNotify = true → s.closeNotifies ≠ 0 := by
    refine hs.invariant (P := fun s => s.ch.closeNotify = true → s.closeNotifies ≠ 0) ?_ ?_
    · rintro ⟨⟩
    · intro s e s' hkept _ hstep
      have happly : ∀ (t : State) g eff, (t.ch.closeNotify = true → t.closeNotifies ≠ 0) →
          (t.apply g eff).ch.closeNotify = true → (t.apply g eff).closeNotifies ≠ 0 := by
        intro t g eff ht
        cases eff with
        | closeNotify => exact fun _ => Nat.succ_ne_zero _
        | _ => exact ht
      exact step_cases (P := fun s' => s'.ch.closeNotify = true → s'.closeNotifies ≠ 0) hstep
        (fun g _ _ eff _ _ _ _ => happly _ g eff hkept)
        (fun g _ _ _ _ eff _ _ _ _ => happly _ g eff hkept) (fun _ _ _ _ => hkept)
        fun _ _ _ => hkept
  rw [← Bool.not_eq_false]
  intro hopen
  exact hgiven h (no_hooks_of_open hs hopen).1

/-- **Hooks run once**, in order, and the close notification is given once. -/
theorem hooks_once (hs : (channel setup).Reachable ok s) :
    Following (fun s pc => pc.Ran setup s)
      (fun s => s.closeNotifies = 1 ∧ s.hookCalls = List.range setup.hooks.length) s := by
  refine first_rule ?_ ?_ ?_ hs
  · intro s g ps hreach hopen
    have hnone : s.closeNotifies = 0 ∧ s.hookCalls = [] := no_hooks_of_open hreach hopen
    exact hnone
  · intro s g pc rest pcs eff _ _ hpc hmoves hran
    exact hmoves.ran hpc hran
  · intro s e s' _ _ _ _ haside
    refine ⟨fun pc hran => ?_, fun h => ?_⟩
    · exact hran.congr haside.closeNotifies haside.hookCalls
    · rw [haside.closeNotifies, haside.hookCalls]
      exact h

/-! ### When a call has returned -/

theorem Aside.done (h : Aside s s') (hdone : s.Done) : s'.Done := by
  refine ⟨h.closed.trans hdone.1, fun b pc hpc => ?_⟩
  by_contra hne
  have hfirst := Bool.eq_true_of_not_eq_false hne
  rw [hdone.2 b pc ((h.firsts b pc hfirst).mp hpc)] at hfirst
  cases hfirst

/-- Once the first call has returned, all steps are aside. -/
theorem State.Done.aside {e : Event} (h : s.Done) (hstep : (channel setup).step s e = some s') :
    Aside s s' := by
  rcases aside_cases hstep with haside | ⟨g, rest, hopen, -, -⟩ |
    ⟨g, pc, rest, pcs, eff, hcloses, hpc, -, -⟩
  · exact haside
  · rw [h.1] at hopen
    cases hopen
  · rw [h.2 g pc (by rw [hcloses]; exact List.mem_cons_self)] at hpc
    cases hpc

/-- **No call returns before the first one**: when one has returned, the first one has. -/
theorem done_of_closeReturns (hs : (channel setup).Reachable ok s) (hret : 0 < s.closeReturns) :
    s.Done := by
  revert hret
  refine hs.invariant_of_reachable (P := fun s => 0 < s.closeReturns → s.Done)
    (fun hret => absurd hret (lt_irrefl 0)) fun s e s' hreach h _ hstep hret => ?_
  have hdone : 0 < s.closeReturns → s'.Done := fun hpos =>
    (State.Done.aside (h hpos) hstep).done (h hpos)
  revert hdone hret
  refine step_cases (P := fun s' => 0 < s'.closeReturns → (0 < s.closeReturns → s'.Done) → s'.Done)
    hstep ?_ ?_ ?_ ?_
  · intro g a r eff _ _ hmoves _ hret hdone
    rw [hmoves.frame.closeReturns] at hret
    exact hdone hret
  · intro g a pc rest pcs eff _ hcloses hmoves _ hret hdone
    cases hmoves with
    | unlock first =>
      -- it had the lock, so the first call is not on a stack
      obtain ⟨hrest, hothers, -⟩ := alone hreach hcloses rfl
      refine ⟨(close_stacks hreach).closed_head hcloses rfl, fun b p hp => ?_⟩
      have hp' : p.locked = false := by
        rcases State.mem_closes rfl hp with hp | hp | ⟨hb, hp⟩
        · cases hp
        · exact hrest p hp
        · exact hothers b hb p hp
      by_contra hne
      rw [ClosePc.locked_of_isFirst (Bool.eq_true_of_not_eq_false hne)] at hp'
      cases hp'
    | _ => exact hdone hret
  · intro g u _ _ hret hdone
    exact hdone hret
  · intro g _ _ hret hdone
    exact hdone hret

end

end ZitiChannel.Concurrent
