import ZitiChannel.Closing

/-!
# Close is final

Once a call of `Close` has returned, no underlay of the channel is left open and none comes
in.  An underlay that a goroutine is about to add is no exception: `AcceptUnderlay` looks at the flag
with the lock held, and `Close` holds the lock from before it sets the flag until it has
closed what is in the collection.  The underlay that `NewChannel` adds is one: it is added without a
look at the flag, so the result is about channels that are not closed before that.

## Main definitions

* `NotClosedEarly` — the promise that the channel is not closed before `NewChannel` has added the
  first underlay.
* `Shut` — which underlays have been closed.

## Main results

* `closed_of_added` — what the first `Close` has closed, by where it is.
* `close_is_final` — **after `Close`, underlays are closed, and nothing is added.**
-/

namespace ZitiChannel.Concurrent

open Transition

section

variable {setup : Setup} {s s' t : State} {g b : ℕ} {eff : Effect} {u : Underlay} {r r' : Routine}
  {ok : State → Event → Prop}

/-! ### Closed underlays -/

/-- The underlay that a routine has closed. -/
def Routine.shut? : Routine → Option Underlay
  | .acceptUnderlay u (.unlock false) | .applyConstraints (.accept u (.unlock false) _ _) => some u
  | .closeUnderlay _ .close => none
  | .closeUnderlay u _ => some u
  | _ => none

/-- What was refused and what was removed has been closed. -/
structure Shut (s : State) : Prop where
  refused : ∀ u, (u, false) ∈ s.results → u ∈ s.ch.closeCalls
  added : ∀ u ∈ s.added, u ∈ s.ch.underlays ∨ u ∈ s.ch.closeCalls

theorem Routine.Moves.shut? (h : r.Moves setup s r' eff) (hr : r'.shut? = some u) :
    r.shut? = some u ∨ eff = .closeConn u := by
  cases h with
  | accept v pc pc' _ h | dialAccept v pc pc' _ _ _ h =>
    cases h with
    | refuse => cases hr; exact Or.inr rfl
    | _ => cases hr
  | closeConn v => cases hr; exact Or.inr rfl
  | rxer | txer => cases hr
  | _ => first | exact Or.inl hr | cases hr

/-- What is refused or removed was closed before. -/
theorem Routine.Moves.shut_before (h : r.Moves setup s r' eff)
    (heff : eff = .acceptReturned u false ∨ eff = .remove u) : r.shut? = some u := by
  rcases heff with rfl | rfl
  · cases h with
    | acceptReturn | dialReturn => rfl
    | accept _ _ _ _ h | dialAccept _ _ _ _ _ _ h => cases h
  · cases h with
    | remove => rfl
    | accept _ _ _ _ h | dialAccept _ _ _ _ _ _ h => cases h

theorem State.mem_closeCalls_apply (h : u ∈ t.ch.closeCalls) : u ∈ (t.apply g eff).ch.closeCalls := by
  cases eff with
  | closeConn v => exact List.mem_append_left _ h
  | _ => exact h

theorem mem_closeCalls_step {e : Event} (hstep : (channel setup).step s e = some s')
    (h : u ∈ s.ch.closeCalls) : u ∈ s'.ch.closeCalls :=
  step_keeps (P := fun s => u ∈ s.ch.closeCalls) (fun _ _ _ h => State.mem_closeCalls_apply h)
    (fun _ _ hch _ h => hch ▸ h) hstep h

theorem closed_of_shut? (hs : (channel setup).Reachable ok s) (g : ℕ)
    (hg : (s.routines g).shut? = some u) : u ∈ s.ch.closeCalls := by
  refine past_rule (W := fun r => r.shut? = some u) (P := fun s _ => u ∈ s.ch.closeCalls)
    ?_ ?_ ?_ hs g hg
  · intro r hr
    unfold Routine.shut? at hr
    split at hr <;> first | rfl | cases hr
  · intro s g r eff _ _ hmoves hr h
    rcases hmoves.shut? hr with hbefore | rfl
    · exact State.mem_closeCalls_apply (h hbefore)
    · exact List.mem_append_right _ (List.mem_singleton_self u)
  · intro s e s' b _ hstep _ h
    exact mem_closeCalls_step hstep h

theorem State.mem_results_apply {accepted : Bool} (h : (u, accepted) ∈ (t.apply g eff).results) :
    (u, accepted) ∈ t.results ∨ eff = .acceptReturned u accepted := by
  cases eff with
  | acceptReturned v b =>
    rcases List.mem_append.mp h with h | h
    · exact Or.inl h
    · cases List.mem_singleton.mp h
      exact Or.inr rfl
  | _ => exact Or.inl h

/-- What was added is in the collection, unless it is removed in this step. -/
theorem State.mem_added_apply (h : u ∈ (t.apply g eff).added)
    (hbefore : u ∈ t.added → u ∈ t.ch.underlays ∨ u ∈ t.ch.closeCalls) :
    u ∈ (t.apply g eff).ch.underlays ∨ u ∈ (t.apply g eff).ch.closeCalls ∨ eff = .remove u := by
  cases eff with
  | append v =>
    rcases List.mem_append.mp h with h | h
    · exact (hbefore h).imp (List.mem_append_left _) Or.inl
    · exact Or.inl (List.mem_append_right _ h)
  | remove v =>
    rcases hbefore h with hu | hu
    · rcases eq_or_ne u v with rfl | hne
      · exact Or.inr (Or.inr rfl)
      · exact Or.inl ((List.mem_erase_of_ne hne).mpr hu)
    · exact Or.inr (Or.inl hu)
  | closeConn v => exact (hbefore h).imp id fun hu => Or.inl (List.mem_append_left _ hu)
  | _ => exact (hbefore h).imp id Or.inl

theorem shut (hs : (channel setup).Reachable ok s) : Shut s := by
  have hinit : Shut (channel setup).init := ⟨fun u hu => (by cases hu), fun u hu => (by cases hu)⟩
  refine hs.invariant_of_reachable hinit fun s e s' hreach h _ hstep => ?_
  refine step_cases hstep ?_ ?_ ?_ ?_
  · intro g a r eff _ _ hmoves hen
    have hshut : ∀ u, eff = .acceptReturned u false ∨ eff = .remove u → u ∈ s.ch.closeCalls :=
      fun u heff => closed_of_shut? hreach g (hmoves.shut_before heff)
    refine ⟨fun u hu => State.mem_closeCalls_apply (t := s.setRoutine g r) ?_, fun u hu => ?_⟩
    · rcases State.mem_results_apply hu with hu | heff
      · exact h.refused u hu
      · exact hshut u (Or.inl heff)
    · rcases State.mem_added_apply hu (h.added u) with hu | hu | heff
      · exact Or.inl hu
      · exact Or.inr hu
      · exact Or.inr (State.mem_closeCalls_apply (t := s.setRoutine g r) (hshut u (Or.inr heff)))
  · intro g a pc rest pcs eff _ _ hmoves _
    have hframe : CloseFrame s ((s.setCloses g (pcs ++ rest)).apply g eff) := hmoves.frame
    refine ⟨fun u hu => ?_, fun u hu => ?_⟩
    · rw [hframe.results] at hu
      exact State.mem_closeCalls_apply (h.refused u hu)
    · rw [hframe.added] at hu
      rw [hframe.underlays]
      exact (h.added u hu).imp id State.mem_closeCalls_apply
  · intro g u _ _
    exact ⟨h.refused, h.added⟩
  · intro g _ _
    exact ⟨h.refused, h.added⟩

/-! ### What is added to an open channel only -/

/-- Whether the underlay passed the checks. -/
def AcceptPc.admitted : AcceptPc → Bool
  | .store | .add _ | .startMultiplex | .unlock true => true
  | _ => false

def Routine.admitted : Routine → Bool
  | .acceptUnderlay _ pc | .applyConstraints (.accept _ pc _ _) => pc.admitted
  | _ => false

theorem Routine.locked_of_admitted (h : r.admitted = true) : r.locked = true := by
  have hpc : ∀ {pc : AcceptPc}, pc.admitted = true → pc.locked = true := fun {pc} hpc => by
    cases pc <;> first | rfl | cases hpc
  unfold admitted at h
  split at h
  · exact hpc h
  · exact hpc h
  · cases h

theorem Routine.Moves.admitted (h : r.Moves setup s r' eff) (hr : r'.admitted = true) :
    r.admitted = true ∨ s.ch.closed = false := by
  cases h with
  | accept _ _ _ _ h | dialAccept _ _ _ _ _ _ h =>
    cases h with
    | passes hadm => exact Or.inr hadm.2.2
    | lock | reject | refuse => cases hr
    | _ => exact Or.inl rfl
  | _ => cases hr

/-- **The flag is not set while an underlay is being admitted.** -/
theorem open_of_admitted (hs : (channel setup).Reachable ok s) (g : ℕ)
    (hg : (s.routines g).admitted = true) : s.ch.closed = false := by
  refine past_rule (W := fun r => r.admitted = true) (P := fun s _ => s.ch.closed = false)
    ?_ ?_ ?_ hs g hg
  · intro r hr
    cases r with
    | acceptUnderlay u pc => cases pc <;> first | rfl | cases hr
    | applyConstraints pc => cases pc <;> first | rfl | cases hr
    | _ => cases hr
  · intro s g r eff _ _ hmoves hr h
    rw [hmoves.frame.closed]
    exact (hmoves.admitted hr).elim h id
  · intro s e s' b hreach hstep hr hopen
    rcases aside_cases hstep with haside | ⟨g, rest, -, hcloses, -⟩ |
      ⟨g, pc, rest, pcs, eff, hcloses, hpc, -, -⟩
    · exact haside.closed.trans hopen
    · -- the call that sets the flag has the lock, and so has the goroutine that admits
      have hunlocked := (alone hreach hcloses rfl).2.2 b
      rw [Routine.locked_of_admitted hr] at hunlocked
      cases hunlocked
    · rw [(close_stacks hreach).closed_head hcloses (ClosePc.past_of_isFirst hpc)] at hopen
      cases hopen

/-- Whether `NewChannel` has not yet added the first underlay. -/
def Routine.starting : Routine → Bool
  | .newChannel .bind | .newChannel (.add .append) => true
  | _ => false

/-- The channel is not closed before `NewChannel` has added the first underlay. -/
def NotClosedEarly (s : State) : Prop := (s.routines 0).starting = true → s.ch.closed = false

instance : DecidablePred NotClosedEarly := fun s =>
  inferInstanceAs (Decidable ((s.routines 0).starting = true → s.ch.closed = false))

theorem Routine.Moves.starting (h : r.Moves setup s r' eff) (hr : r'.starting = true) :
    r.starting = true := by
  cases h <;> first | rfl | cases hr

theorem newChannel_zero (hs : (channel setup).Reachable ok s) (g : ℕ) :
    (s.routines g).starting = true → g = 0 := by
  refine routine_rule (P := fun _ g r => r.starting = true → g = 0) ?_ ?_ ?_ ?_ ?_ hs g
  · intro g hg
    by_contra hne
    simp [channel, hne, Routine.starting] at hg
  · intro s g r eff _ _ hmoves _ h hr
    exact h (hmoves.starting hr)
  · intro s b r eff hb hr
    rcases Effect.spawned_cases hb with rfl | ⟨v, rx, tx, -, rfl | rfl⟩ <;> cases hr
  · intro s g v hr
    cases hr
  · intro s e s' b _ _ h
    exact h

/-- `NewChannel` does not go back. -/
theorem starting_of_step {e : Event} (hstep : (channel setup).step s e = some s')
    (h : (s'.routines b).starting = true) : (s.routines b).starting = true := by
  revert h
  refine step_cases (P := fun s' => (s'.routines b).starting = true →
    (s.routines b).starting = true) hstep ?_ ?_ ?_ ?_
  · intro g a r eff _ _ hmoves hen
    refine forall_routines (P := fun b r' => r'.starting = true → (s.routines b).starting = true)
      hen hmoves.starting ?_ (fun b _ h => h) b
    intro b r' hb hr
    rcases Effect.spawned_cases hb with rfl | ⟨v, rx, tx, -, rfl | rfl⟩ <;> cases hr
  · intro g a pc rest pcs eff _ _ hmoves _ h
    rwa [hmoves.frame.routines] at h
  · intro g u _ hidle h
    rcases eq_or_ne b g with rfl | hne
    · simp [State.setRoutine, Routine.starting] at h
    · simpa [State.setRoutine, hne] using h
  · intro g _ _ h
    exact h

/-- A run in which the channel is not closed early. -/
abbrev Timely (setup : Setup) : State → Event → Prop := (channel setup).throughout NotClosedEarly

theorem notClosedEarly (hs : (channel setup).Reachable (Timely setup) s) : NotClosedEarly s :=
  hs.throughout fun _ => rfl

/-- Once the channel is closed, no event is early. -/
theorem timely_of_closed (hs : (channel setup).Reachable (Timely setup) s)
    (hclosed : s.ch.closed = true) (e : Event) : Timely setup s e := by
  intro s' hstep hstarting
  have hopen := notClosedEarly hs (starting_of_step hstep hstarting)
  rw [hclosed] at hopen
  cases hopen

/-- **Underlays are added to open channels only.** -/
theorem open_of_append (hs : (channel setup).Reachable (Timely setup) s)
    (hmoves : (s.routines g).Moves setup s r (.append u)) : s.ch.closed = false := by
  have hcases : (s.routines g).starting = true ∨ (s.routines g).admitted = true := by
    generalize s.routines g = r₀ at hmoves
    cases hmoves with
    | newAppend => exact Or.inl rfl
    | accept _ _ _ _ h | dialAccept _ _ _ _ _ _ h => cases h; exact Or.inr rfl
  rcases hcases with hstarting | hadmitted
  · obtain rfl := newChannel_zero hs g hstarting
    exact notClosedEarly hs hstarting
  · exact open_of_admitted hs g hadmitted

theorem added_of_closed {e : Event} (hs : (channel setup).Reachable (Timely setup) s)
    (hclosed : s.ch.closed = true) (hstep : (channel setup).step s e = some s') :
    s'.added = s.added := by
  refine step_cases (P := fun s' => s'.added = s.added) hstep ?_ ?_ ?_ ?_
  · intro g a r eff _ _ hmoves _
    refine State.added_apply (s := s.setRoutine g r) ?_
    rintro u rfl
    have hopen := open_of_append hs hmoves
    rw [hclosed] at hopen
    cases hopen
  · intro g a pc rest pcs eff _ _ hmoves _
    exact hmoves.frame.added
  · intro g u _ _
    rfl
  · intro g _ _
    rfl

/-! ### What the first call closes -/

/-- What the first call has left open, by where it is. -/
def ClosePc.Left (s : State) : ClosePc → Prop
  | .closeAll us => ∀ u ∈ s.added, u ∈ us ∨ u ∈ s.ch.closeCalls
  | .unlock true => ∀ u ∈ s.added, u ∈ s.ch.closeCalls
  | _ => True

theorem ClosePc.Left.mono {pc : ClosePc} (h : pc.Left s) (hadded : s'.added = s.added)
    (hcalls : ∀ u, u ∈ s.ch.closeCalls → u ∈ s'.ch.closeCalls) : pc.Left s' := by
  unfold Left at h ⊢
  split
  · rw [hadded]
    exact fun u hu => (h u hu).imp id (hcalls u)
  · rw [hadded]
    exact fun u hu => hcalls u (h u hu)
  · trivial

theorem ClosePc.Moves.left {pc : ClosePc} {pcs ps : List ClosePc} (h : pc.Moves setup s pcs eff)
    (hpc : pc.isFirst = true) (hshut : Shut s) (hleft : pc.Left s) :
    (∀ p ∈ pcs, p.isFirst = true → p.Left ((s.setCloses g ps).apply g eff)) ∧
      (pcs = [] → ∀ u ∈ ((s.setCloses g ps).apply g eff).added,
        u ∈ ((s.setCloses g ps).apply g eff).ch.closeCalls) := by
  have hone : ∀ {q : ClosePc}, q.Left ((s.setCloses g ps).apply g eff) →
      ∀ p ∈ [q], p.isFirst = true → p.Left ((s.setCloses g ps).apply g eff) := by
    intro q hq p hp _
    rwa [List.mem_singleton.mp hp]
  cases h with
  | lock | late | first => cases hpc
  | reenter i h =>
    refine ⟨fun p hp _ => ?_, fun h => by cases h⟩
    rcases List.mem_cons.mp hp with rfl | hp
    · trivial
    · rw [List.mem_singleton.mp hp]
      trivial
  | getAll => exact ⟨hone hshut.added, fun h => by cases h⟩
  | closeConn v us =>
    refine ⟨hone fun u hu => ?_, fun h => by cases h⟩
    rcases hleft u hu with hmem | hcalled
    · rcases List.mem_cons.mp hmem with rfl | hmem
      · exact Or.inr (List.mem_append_right _ (List.mem_singleton_self u))
      · exact Or.inl hmem
    · exact Or.inr (List.mem_append_left _ hcalled)
  | closedAll =>
    refine ⟨hone fun u hu => ?_, fun h => by cases h⟩
    rcases hleft u hu with hmem | hcalled
    · cases hmem
    · exact hcalled
  | unlock first =>
    cases first with
    | false => cases hpc
    | true => exact ⟨fun p hp => (by cases hp), fun _ => hleft⟩
  | _ => exact ⟨hone trivial, fun h => by cases h⟩

/-- **The first call closes what was added.** -/
theorem closed_of_added (hs : (channel setup).Reachable (Timely setup) s) :
    Following (fun s pc => pc.Left s) (fun s => ∀ u ∈ s.added, u ∈ s.ch.closeCalls) s := by
  refine first_rule ?_ ?_ ?_ hs
  · intro s g ps _ _
    trivial
  · intro s g pc rest pcs eff hreach _ hpc hmoves hleft
    exact hmoves.left hpc (shut hreach) hleft
  · intro s e s' hreach _ hstep hclosed _
    have hadded := added_of_closed hreach hclosed hstep
    refine ⟨fun pc hleft => hleft.mono hadded fun u => mem_closeCalls_step hstep, fun h u hu => ?_⟩
    rw [hadded] at hu
    exact mem_closeCalls_step hstep (h u hu)

/-! ### After the first call -/

theorem Routine.Moves.admitted_of_accepted (h : r.Moves setup s r' (.acceptReturned u true)) :
    r.admitted = true := by
  cases h with
  | acceptReturn | dialReturn => rfl
  | accept _ _ _ _ h | dialAccept _ _ _ _ _ _ h => cases h

theorem results_of_closed {e : Event} (hs : (channel setup).Reachable ok s)
    (hclosed : s.ch.closed = true) (hstep : (channel setup).step s e = some s') :
    ∃ news, s'.results = s.results ++ news ∧ ∀ result ∈ news, result.2 = false := by
  refine step_cases (P := fun s' => ∃ news, s'.results = s.results ++ news ∧
    ∀ result ∈ news, result.2 = false) hstep ?_ ?_ ?_ ?_
  · intro g a r eff _ _ hmoves _
    cases eff with
    | acceptReturned u accepted =>
      cases accepted with
      | true =>
        have hopen := open_of_admitted hs g hmoves.admitted_of_accepted
        rw [hclosed] at hopen
        cases hopen
      | false => exact ⟨[(u, false)], rfl, by simp⟩
    | _ => exact ⟨[], (List.append_nil _).symm, by simp⟩
  · intro g a pc rest pcs eff _ _ hmoves _
    exact ⟨[], by rw [hmoves.frame.results, List.append_nil], by simp⟩
  · intro g u _ _
    exact ⟨[], (List.append_nil _).symm, by simp⟩
  · intro g _ _
    exact ⟨[], (List.append_nil _).symm, by simp⟩

/-- Whatever happens after the first call, nothing is added and nothing is accepted. -/
theorem after_close (hs : (channel setup).Reachable (Timely setup) s) (hdone : s.Done)
    (hsteps : (channel setup).Steps (Timely setup) s s') :
    (channel setup).Reachable (Timely setup) s' ∧ s'.Done ∧ s'.added = s.added ∧
      ∃ news, s'.results = s.results ++ news ∧ ∀ result ∈ news, result.2 = false := by
  refine System.Steps.invariant (P := fun s' => (channel setup).Reachable (Timely setup) s' ∧
    s'.Done ∧ s'.added = s.added ∧
      ∃ news, s'.results = s.results ++ news ∧ ∀ result ∈ news, result.2 = false)
    ?_ ⟨hs, hdone, rfl, [], (List.append_nil _).symm, by simp⟩ hsteps
  rintro t e t' ⟨hreach, hd, hadded, news, hnews, hfalse⟩ hok hstep
  obtain ⟨more, hmore, hfalse'⟩ := results_of_closed hreach hd.1 hstep
  refine ⟨hreach.step hok hstep, (hd.aside hstep).done hd, ?_, news ++ more, ?_, ?_⟩
  · rw [added_of_closed hreach hd.1 hstep, hadded]
  · rw [hmore, hnews, List.append_assoc]
  · intro result hresult
    exact (List.mem_append.mp hresult).elim (hfalse result) (hfalse' result)

/-! ### An offered underlay is refused -/

/-- A run in which only goroutine `g` takes steps, and starts no others. -/
structure Alone (setup : Setup) (g : ℕ) (s s' : State) : Prop where
  steps : (channel setup).Steps (Timely setup) s s'
  routines : ∀ b, b ≠ g → s'.routines b = s.routines b
  closes : ∀ b, b ≠ g → s'.closes b = s.closes b

theorem Alone.trans {s'' : State} (h : Alone setup g s s') (h' : Alone setup g s' s'') :
    Alone setup g s s'' where
  steps := Relation.ReflTransGen.trans h.steps h'.steps
  routines b hb := (h'.routines b hb).trans (h.routines b hb)
  closes b hb := (h'.closes b hb).trans (h.closes b hb)

theorem Alone.run {a : Action} (hs : (channel setup).Reachable (Timely setup) s)
    (hclosed : s.ch.closed = true) (hcloses : s.closes g = [])
    (hnext : (s.routines g).next setup s a = some (r, eff)) (hen : eff.enabled s g = true)
    (hspawned : ∀ b, eff.spawned b = none) :
    Alone setup g s ((s.setRoutine g r).apply g eff) where
  steps := Relation.ReflTransGen.single
    ⟨.run g a, timely_of_closed hs hclosed _, step_run hcloses hnext hen⟩
  routines b hb := by
    rw [State.apply_routines, hspawned]
    exact Function.update_of_ne hb ..
  closes b hb := by
    rw [State.apply_closes, if_neg hb]
    rfl

theorem Alone.close {a : Action} {pc : ClosePc} {pcs : List ClosePc}
    (hs : (channel setup).Reachable (Timely setup) s)
    (hclosed : s.ch.closed = true) (hcloses : s.closes g = [pc])
    (hnext : pc.next setup s a = some (pcs, eff)) (hen : eff.enabled s g = true) :
    Alone setup g s ((s.setCloses g (pcs ++ [])).apply g eff) where
  steps := Relation.ReflTransGen.single
    ⟨.close g a, timely_of_closed hs hclosed _, step_close hcloses hnext hen⟩
  routines b hb := congrFun (ClosePc.moves_of_next hnext).frame.routines b
  closes b hb := by
    rw [State.closes_setCloses_apply (ClosePc.moves_of_next hnext).pushed, if_neg hb]

/-- A step of `AcceptUnderlay` in which only the point changes that the routine is at. -/
theorem Alone.accept {pc pc' : AcceptPc} (hs : (channel setup).Reachable (Timely setup) s)
    (hclosed : s.ch.closed = true) (hcloses : s.closes g = [])
    (hacc : (s.routines g).accepting = some (u, pc))
    (hnext : pc.next setup s u .go = some (some pc', eff)) (hen : eff.enabled s g = true)
    (hspawned : ∀ b, eff.spawned b = none) (hpushed : eff.pushed = []) :
    ∃ s', Alone setup g s s' ∧ s'.ch.closed = true ∧ s'.closes g = [] ∧
      (s'.routines g).accepting = some (u, pc') := by
  obtain ⟨r, hr, hpc'⟩ := Routine.next_of_accepting hacc hnext
  refine ⟨_, Alone.run hs hclosed hcloses hr hen hspawned, State.closed_apply hclosed, ?_, ?_⟩
  · rw [State.apply_closes, if_pos rfl, hpushed]
    exact hcloses
  · rw [State.apply_routines, hspawned, Option.getD_none]
    simpa [State.setRoutine] using hpc' pc' rfl

theorem Routine.admitted_of_accepting {pc : AcceptPc} (h : r.accepting = some (u, pc)) :
    r.admitted = pc.admitted := by
  unfold accepting at h
  split at h <;> cases h <;> rfl

/-- `AcceptUnderlay` refuses and returns, when it has the lock and the channel is closed. -/
theorem refused_of_locked {pc : AcceptPc} (hs : (channel setup).Reachable (Timely setup) s)
    (hclosed : s.ch.closed = true) (hcloses : s.closes g = [])
    (hacc : (s.routines g).accepting = some (u, pc)) (hlocked : pc.locked = true) :
    ∃ s', Alone setup g s s' ∧ s'.lock = none ∧ (u, false) ∈ s'.results := by
  have hadmitted : pc.admitted = false := by
    by_contra hne
    have hopen := open_of_admitted hs g ((Routine.admitted_of_accepting hacc).trans
      (Bool.eq_true_of_not_eq_false hne))
    rw [hclosed] at hopen
    cases hopen
  have hunlock : ∀ {s : State}, (channel setup).Reachable (Timely setup) s → s.ch.closed = true →
      s.closes g = [] → (s.routines g).accepting = some (u, .unlock false) →
      ∃ s', Alone setup g s s' ∧ s'.lock = none ∧ (u, false) ∈ s'.results := by
    intro s hs hclosed hcloses hacc
    obtain ⟨r, hr, -⟩ := Routine.next_of_accepting (a := .go) hacc rfl
    exact ⟨_, Alone.run hs hclosed hcloses hr rfl fun _ => rfl, rfl,
      List.mem_append_right _ (List.mem_singleton_self _)⟩
  have hrefuse : ∀ {s : State}, (channel setup).Reachable (Timely setup) s → s.ch.closed = true →
      s.closes g = [] → (s.routines g).accepting = some (u, .refuse) →
      ∃ s', Alone setup g s s' ∧ s'.lock = none ∧ (u, false) ∈ s'.results := by
    intro s hs hclosed hcloses hacc
    obtain ⟨s₁, hone, hclosed₁, hcloses₁, hacc₁⟩ :=
      Alone.accept hs hclosed hcloses hacc rfl rfl (fun _ => rfl) rfl
    obtain ⟨s₂, htwo, hlock, hresult⟩ := hunlock (hs.steps hone.steps) hclosed₁ hcloses₁ hacc₁
    exact ⟨s₂, hone.trans htwo, hlock, hresult⟩
  cases pc with
  | check =>
    have hnot : ¬ s.ch.Admits u := fun h => by
      rw [h.2.2] at hclosed
      cases hclosed
    obtain ⟨s₁, hone, hclosed₁, hcloses₁, hacc₁⟩ :=
      Alone.accept hs hclosed hcloses hacc (if_neg hnot) rfl (fun _ => rfl) rfl
    obtain ⟨s₂, htwo, hlock, hresult⟩ := hrefuse (hs.steps hone.steps) hclosed₁ hcloses₁ hacc₁
    exact ⟨s₂, hone.trans htwo, hlock, hresult⟩
  | refuse => exact hrefuse hs hclosed hcloses hacc
  | unlock accepted =>
    cases accepted with
    | true => cases hadmitted
    | false => exact hunlock hs hclosed hcloses hacc
  | lock => cases hlocked
  | _ => cases hadmitted

theorem Routine.closing_of_accepting {pc : AcceptPc} (h : r.accepting = some (u, pc)) :
    r.closing = false := by
  unfold accepting at h
  split at h <;> cases h <;> rfl

theorem Routine.locked_cases (h : r.locked = true) :
    (∃ u pc, r.accepting = some (u, pc) ∧ pc.locked = true) ∨
      ∃ u pc, r = .closeUnderlay u pc ∧ pc.locked = true := by
  unfold locked at h
  split at h
  · exact Or.inl ⟨_, _, rfl, h⟩
  · exact Or.inl ⟨_, _, rfl, h⟩
  · exact Or.inr ⟨_, _, rfl, h⟩
  · cases h

theorem ClosePc.isFirst_of_isHook {pc : ClosePc} (h : pc.isHook = true) : pc.isFirst = true := by
  cases pc <;> first | rfl | cases h

/-- How many steps at most `closeUnderlay` takes before it unlocks. -/
def CloseUnderlayPc.left : CloseUnderlayPc → ℕ
  | .loadFallback => 3
  | .getAll => 2
  | .store _ => 1
  | _ => 0

/-- With the lock, `closeUnderlay` goes on without waiting. -/
theorem CloseUnderlayPc.next_locked {pc : CloseUnderlayPc} (hpc : pc.locked = true) :
    pc = .unlock ∨ ∃ pc' eff, pc.next setup s u .go = some (.closeUnderlay u pc', eff) ∧
      pc'.locked = true ∧ pc'.left < pc.left ∧ (eff = .quiet ∨ ∃ v, eff = .store v) := by
  cases pc with
  | unlock => exact Or.inl rfl
  | loadFallback =>
    right
    simp only [next]
    split <;> exact ⟨_, _, rfl, rfl, by simp [left], Or.inl rfl⟩
  | getAll =>
    right
    simp only [next]
    split <;> exact ⟨_, _, rfl, rfl, by simp [left], Or.inl rfl⟩
  | store v => exact Or.inr ⟨_, _, rfl, rfl, Nat.zero_lt_one, Or.inr ⟨v, rfl⟩⟩
  | _ => cases hpc

/-- After the first call, a routine that has the lock can give it back. -/
theorem released_by_routine (hs : (channel setup).Reachable (Timely setup) s)
    (hclosed : s.ch.closed = true) (hcloses : s.closes b = [])
    (hlocked : (s.routines b).locked = true) : ∃ s', Alone setup b s s' ∧ s'.lock = none := by
  rcases Routine.locked_cases hlocked with ⟨u, pc, hacc, hpc⟩ | ⟨u, pc, hr, hpc⟩
  · obtain ⟨s', halone, hlock, -⟩ := refused_of_locked hs hclosed hcloses hacc hpc
    exact ⟨s', halone, hlock⟩
  · -- by induction on the steps that `closeUnderlay` has left under the lock
    induction hn : pc.left using Nat.strong_induction_on generalizing s pc with
    | _ n ih =>
      rcases CloseUnderlayPc.next_locked hpc with rfl | ⟨pc', eff, hnext, hpc', hless, heff⟩
      · exact ⟨_, Alone.run (a := .go) hs hclosed hcloses (by rw [hr]; rfl) rfl fun _ => rfl, rfl⟩
      · have hrun : (s.routines b).next setup s .go = some (.closeUnderlay u pc', eff) := by
          rw [hr]
          exact hnext
        have hone : Alone setup b s ((s.setRoutine b (.closeUnderlay u pc')).apply b eff) := by
          rcases heff with rfl | ⟨v, rfl⟩ <;>
            exact Alone.run hs hclosed hcloses hrun rfl fun _ => rfl
        have hr' : ((s.setRoutine b (.closeUnderlay u pc')).apply b eff).routines b =
            .closeUnderlay u pc' := by
          rcases heff with rfl | ⟨v, rfl⟩ <;> exact Function.update_self ..
        have hcloses' : ((s.setRoutine b (.closeUnderlay u pc')).apply b eff).closes b = [] := by
          rcases heff with rfl | ⟨v, rfl⟩ <;> exact hcloses
        obtain ⟨s', htwo, hlock⟩ := ih pc'.left (hn ▸ hless) (hs.steps hone.steps)
          (State.closed_apply hclosed) hcloses' (by rw [hr']; exact hpc') pc' hr' hpc' rfl
        exact ⟨s', hone.trans htwo, hlock⟩

/-- After the first call, whoever has the lock can give it back. -/
theorem released (hs : (channel setup).Reachable (Timely setup) s) (hdone : s.Done)
    (hlock : s.lock = some b) : ∃ s', Alone setup b s s' ∧ s'.lock = none := by
  have hheld : (s.routines b).locked.toNat + (s.closes b).countP (·.locked) = 1 := by
    have h := lock_owned hs b
    rwa [hlock, if_pos rfl] at h
  cases hcloses : s.closes b with
  | nil =>
    rw [hcloses] at hheld
    exact released_by_routine hs hdone.1 hcloses (Bool.toNat_eq_one.mp hheld)
  | cons pc rest =>
    have hstacks := close_stacks hs
    have hrest : rest = [] := by
      refine List.eq_nil_iff_forall_not_mem.mpr fun p hp => ?_
      have hfirst := ClosePc.isFirst_of_isHook (hstacks.hooks b p (by rwa [hcloses]))
      rw [hdone.2 b p (by rw [hcloses]; exact List.mem_cons_of_mem _ hp)] at hfirst
      cases hfirst
    subst hrest
    have hfirst : pc.isFirst = false := hdone.2 b pc (by rw [hcloses]; exact List.mem_cons_self)
    have hpc : pc.locked = true := by
      have hr := Routine.locked_of_closing (hstacks.closing b (by rw [hcloses]; simp))
      rw [hr, hcloses] at hheld
      by_contra hne
      simp [hne] at hheld
    have hunlock : ∀ {s : State}, (channel setup).Reachable (Timely setup) s → s.ch.closed = true →
        s.closes b = [.unlock false] → ∃ s', Alone setup b s s' ∧ s'.lock = none := by
      intro s hs hclosed hcloses
      exact ⟨_, Alone.close (a := .go) hs hclosed hcloses rfl rfl, rfl⟩
    cases pc with
    | compareAndSet =>
      have hone := Alone.close (a := .go) hs hdone.1 hcloses (if_pos hdone.1) rfl
      obtain ⟨s', htwo, hlock⟩ := hunlock (hs.steps hone.steps) hdone.1 (Function.update_self ..)
      exact ⟨s', hone.trans htwo, hlock⟩
    | unlock first =>
      cases first with
      | true => cases hfirst
      | false => exact hunlock hs hdone.1 hcloses
    | lock => cases hpc
    | _ => cases hfirst

/-- **An underlay that is offered after the first call is refused**, whatever other goroutines are
doing: the lock can be had, and then the flag is found set. -/
theorem refused_after_close {pc : AcceptPc} (hs : (channel setup).Reachable (Timely setup) s)
    (hdone : s.Done) (hacc : (s.routines g).accepting = some (u, pc)) :
    ∃ s', (channel setup).Steps (Timely setup) s s' ∧ (u, false) ∈ s'.results := by
  have hcloses : s.closes g = [] := by
    by_contra hne
    have hclosing := (close_stacks hs).closing g hne
    rw [Routine.closing_of_accepting hacc] at hclosing
    cases hclosing
  by_cases hlocked : pc.locked = true
  · obtain ⟨s', halone, -, hresult⟩ := refused_of_locked hs hdone.1 hcloses hacc hlocked
    exact ⟨s', halone.steps, hresult⟩
  · obtain rfl : pc = .lock := by cases pc <;> first | rfl | exact absurd rfl hlocked
    -- first the lock is given back, if somebody has it
    obtain ⟨s₁, hsteps, hlock₁, hr₁, hcloses₁⟩ : ∃ s₁, (channel setup).Steps (Timely setup) s s₁ ∧
        s₁.lock = none ∧ s₁.routines g = s.routines g ∧ s₁.closes g = s.closes g := by
      cases hlock : s.lock with
      | none => exact ⟨s, Relation.ReflTransGen.refl, hlock, rfl, rfl⟩
      | some b =>
        obtain ⟨s₁, halone, hlock₁⟩ := released hs hdone hlock
        have hne : g ≠ b := by
          rintro rfl
          have hheld := lock_owned hs g
          rw [State.held, hcloses, Routine.locked_of_accepting hacc, hlock, if_pos rfl] at hheld
          cases hheld
        exact ⟨s₁, halone.steps, hlock₁, halone.routines g hne, halone.closes g hne⟩
    obtain ⟨hs₁, hdone₁, -⟩ := after_close hs hdone hsteps
    obtain ⟨s₂, halone, hclosed₂, hcloses₂, hacc₂⟩ := Alone.accept hs₁ hdone₁.1
      (hcloses₁.trans hcloses) (hr₁ ▸ hacc) rfl (by simp [Effect.enabled, hlock₁]) (fun _ => rfl) rfl
    obtain ⟨s', halone', -, hresult⟩ := refused_of_locked (hs₁.steps halone.steps) hclosed₂ hcloses₂
      hacc₂ rfl
    exact ⟨s', (hsteps.trans halone.steps).trans halone'.steps, hresult⟩

theorem ClosePc.Ran.at_most_once {pc : ClosePc} (h : pc.Ran setup s) (hpc : pc.isFirst = true) :
    s.closeNotifies ≤ 1 ∧ s.hookCalls.Nodup := by
  have hran : s.closeNotifies ≤ 1 ∧ ∃ n, s.hookCalls = List.range n := by
    unfold Ran at h
    split at h
    · exact ⟨h.1.le.trans (Nat.zero_le 1), 0, h.2⟩
    · exact ⟨h.1.le, _, h.2.1⟩
    · exact ⟨h.1.le, _, h.2.1⟩
    · exact ⟨h.1.le, _, h.2⟩
    · exact ⟨h.1.le, _, h.2⟩
    · exact ⟨h.1.le, _, h.2⟩
    · cases pc with
      | unlock first => cases first <;> simp_all [isFirst]
      | _ => simp_all [isFirst]
  obtain ⟨hnotifies, n, hcalls⟩ := hran
  exact ⟨hnotifies, hcalls ▸ List.nodup_range⟩

end

/-- **Close is final.**  In every state of a channel that was not closed before `NewChannel` had
added the first underlay, `closeNotify` was closed at most once and no hook was called twice.  Once a
call of `Close` has returned, every underlay that was ever added has had `Close` called on it, and
`closeNotify` was closed and every hook called exactly once.  From then on no underlay is added, every
call of `AcceptUnderlay` that returns has closed and refused its underlay, and every call can
return. -/
theorem close_is_final {setup : Setup} {s : State}
    (hs : (channel setup).Reachable (Timely setup) s) :
    (s.closeNotifies ≤ 1 ∧ s.hookCalls.Nodup) ∧
    (0 < s.closeReturns →
      (∀ u ∈ s.added, u ∈ s.ch.closeCalls) ∧
      (s.closeNotifies = 1 ∧ s.hookCalls = List.range setup.hooks.length) ∧
      ∀ s', (channel setup).Steps (Timely setup) s s' →
        s'.added = s.added ∧
        (∃ news, s'.results = s.results ++ news ∧
          ∀ result ∈ news, result.2 = false ∧ result.1 ∈ s'.ch.closeCalls) ∧
        ∀ g u pc, (s'.routines g).accepting = some (u, pc) →
          ∃ s'', (channel setup).Steps (Timely setup) s' s'' ∧ (u, false) ∈ s''.results ∧
            u ∈ s''.ch.closeCalls) := by
  refine ⟨?_, fun hret => ?_⟩
  · by_cases hclosed : s.ch.closed = true
    · by_cases hfirst : ∃ g, ∃ pc ∈ s.closes g, pc.isFirst = true
      · obtain ⟨g, pc, hpc, hpcfirst⟩ := hfirst
        exact ((hooks_once hs).during g pc hpc hpcfirst).at_most_once hpcfirst
      · push Not at hfirst
        obtain ⟨hnotifies, hcalls⟩ := (hooks_once hs).after
          ⟨hclosed, fun g pc hpc => Bool.eq_false_iff.mpr (hfirst g pc hpc)⟩
        exact ⟨hnotifies.le, hcalls ▸ List.nodup_range⟩
    · obtain ⟨hnotifies, hcalls⟩ := no_hooks_of_open hs (Bool.eq_false_iff.mpr hclosed)
      rw [hnotifies, hcalls]
      exact ⟨Nat.zero_le 1, List.nodup_nil⟩
  · have hdone := done_of_closeReturns hs hret
    refine ⟨(closed_of_added hs).after hdone, (hooks_once hs).after hdone, fun s' hsteps => ?_⟩
    obtain ⟨hs', hdone', hadded, news, hnews, hfalse⟩ := after_close hs hdone hsteps
    refine ⟨hadded, ⟨news, hnews, fun result hresult => ⟨hfalse result hresult, ?_⟩⟩,
      fun g u pc hacc => ?_⟩
    · have hmem : (result.1, false) ∈ s'.results := by
        rw [hnews, ← hfalse result hresult]
        exact List.mem_append_right _ hresult
      exact (shut hs').refused result.1 hmem
    · obtain ⟨s'', hsteps', hresult⟩ := refused_after_close hs' hdone' hacc
      exact ⟨s'', hsteps', hresult, (shut (hs'.steps hsteps')).refused u hresult⟩

/-- A channel that takes more underlays, with a peek handler that does nothing when the channel
is closed and a close handler that asks whether it is closed and sends a message. -/
def hookedSetup : Setup where
  config :=
    { logicalName := [], senders := true, messageSourceProvider := true, underlay := none
      binder := ⟨[], none⟩, dialPolicy := false, constraints := ∅, minTotalUnderlays := 1 }
  first := ⟨0, [], [], Finmap.singleton groupSecretHeader [7]⟩
  validUnderlayTypes := []
  listeners := 0
  peekHandlers := [.ret]
  closeHandlers := [.isClosed fun _ => .call .send fun _ => .ret]

/-- `Close` is called while another goroutine waits for the lock with a second underlay: the first
underlay is closed, the hooks are called, and the second underlay is refused. -/
theorem close_is_final_waiting :
    let u : Underlay := ⟨1, [], [], Finmap.singleton groupSecretHeader [7]⟩
    ∃ s s', (channel hookedSetup).Reachable (Timely hookedSetup) s ∧ 0 < s.closeReturns ∧
      hookedSetup.first ∈ s.ch.closeCalls ∧ s.hookCalls = [0, 1] ∧
      (channel hookedSetup).Steps (Timely hookedSetup) s s' ∧ (u, false) ∈ s'.results ∧
      u ∈ s'.ch.closeCalls := by
  intro u
  obtain ⟨s, hs, h⟩ := System.reachable_of_replay (channel hookedSetup) (Timely hookedSetup)
    [.run 0 .go, .run 0 .go, .run 0 .go, .run 0 .go, .run 0 (.start 1 2), .run 0 (.spawn 3),
      .callAccept 4 u, .callClose 5, .close 5 .go, .close 5 .go, .close 5 .go, .close 5 .go,
      .close 5 .go, .close 5 .go, .close 5 .go, .close 5 (.answer 0), .close 5 .go, .close 5 .go,
      .close 5 .go, .close 5 .go, .close 5 .go, .close 5 .go]
    (fun s => decide (0 < s.closeReturns ∧ hookedSetup.first ∈ s.added ∧
      (s.routines 4).accepting = some (u, .lock))) (by decide)
  obtain ⟨hret, hadded, hacc⟩ := of_decide_eq_true h
  obtain ⟨hclosed, ⟨-, hhooks⟩, hafter⟩ := (close_is_final hs).2 hret
  obtain ⟨s', hsteps, hresult, hu⟩ :=
    (hafter s Relation.ReflTransGen.refl).2.2 4 u .lock hacc
  exact ⟨s, s', hs, hret, hclosed _ hadded, hhooks, hsteps, hresult, hu⟩

end ZitiChannel.Concurrent
