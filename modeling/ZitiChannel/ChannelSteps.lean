import ZitiChannel.ConcurrentChannel
import ZitiChannel.Lib.Mutex

/-!
# The steps of a channel's goroutines

What a step of the system can be, said once: a list of the moves of a routine with their
conditions and effects, and what each effect changes.  The results about channels that follow
are case analyses on these lists.

## Main definitions

* `AcceptPc.Moves`, `Routine.Moves`, `ClosePc.Moves` — the moves of `AcceptUnderlay`, of a routine and
  of `Close`.
* `RunFrame`, `CloseFrame` — what a step of a routine, or of `Close`, leaves as it is.
* `Effect.spawned`, `Effect.pushed`, `Effect.lockAfter` — what an effect does to goroutines and to
  the lock.
* `State.held` — at how many points between taking and releasing the lock a goroutine is.

## Main results

* `step_cases` — case analysis on a step.
* `step_keeps` — what no effect undoes, no step undoes.
* `routine_rule`, `past_rule` — invariants of routines.
* `lock_owned` — the lock is held by the goroutine that is between taking and releasing it.
-/

namespace ZitiChannel.Concurrent

open Transition

/-! ### What a step does -/

section

variable {setup : Setup} {s s' : State} {g b : ℕ} {eff : Effect}

/-- What can happen in `AcceptUnderlay` before it returns. -/
inductive AcceptPc.Moves (setup : Setup) (s : State) (u : Underlay) :
    AcceptPc → AcceptPc → Effect → Prop
  | lock : Moves setup s u .lock .check .lock
  | passes (h : s.ch.Admits u) : Moves setup s u .check .store .quiet
  | reject (h : ¬ s.ch.Admits u) : Moves setup s u .check .refuse .quiet
  | refuse : Moves setup s u .refuse (.unlock false) (.closeConn u)
  | store : Moves setup s u .store (.add .append) (.store u)
  | append : Moves setup s u (.add .append) (.add (.notify 0)) (.append u)
  | notify (l : ℕ) (h : l ≤ setup.listeners) :
      Moves setup s u (.add (.notify l)) (.add (.notify (l + 1))) (.notice (.added l u))
  | notified (l : ℕ) (h : setup.listeners < l) :
      Moves setup s u (.add (.notify l)) .startMultiplex .quiet
  | start (rx tx : ℕ) : Moves setup s u .startMultiplex (.unlock true) (.startMultiplex u rx tx)

/-- What can happen in a routine. -/
inductive Routine.Moves (setup : Setup) (s : State) : Routine → Routine → Effect → Prop
  | bound : Moves setup s (.newChannel .bind) (.newChannel (.add .append)) .quiet
  | newAppend : Moves setup s (.newChannel (.add .append)) (.newChannel (.add (.notify 0)))
      (.append setup.first)
  | newNotify (l : ℕ) (h : l ≤ setup.listeners) :
      Moves setup s (.newChannel (.add (.notify l))) (.newChannel (.add (.notify (l + 1))))
        (.notice (.added l setup.first))
  | newNotified (l : ℕ) (h : setup.listeners < l) :
      Moves setup s (.newChannel (.add (.notify l))) (.newChannel .startMultiplex) .quiet
  | newStart (rx tx : ℕ) : Moves setup s (.newChannel .startMultiplex)
      (.newChannel .applyConstraints) (.startMultiplex setup.first rx tx)
  | newReturn (g : ℕ) : Moves setup s (.newChannel .applyConstraints) .idle (.newReturned g)
  | accept (u : Underlay) (pc pc' : AcceptPc) (e : Effect) (h : pc.Moves setup s u pc' e) :
      Moves setup s (.acceptUnderlay u pc) (.acceptUnderlay u pc') e
  | acceptReturn (u : Underlay) (accepted : Bool) :
      Moves setup s (.acceptUnderlay u (.unlock accepted)) .idle (.acceptReturned u accepted)
  | rxer (u : Underlay) : Moves setup s (.rxer u) (.closeUnderlay u .close) .quiet
  | txer (u : Underlay) : Moves setup s (.txer u) (.closeUnderlay u .close) .quiet
  | closeConn (u : Underlay) :
      Moves setup s (.closeUnderlay u .close) (.closeUnderlay u .remove) (.closeConn u)
  | remove (u : Underlay) (h : u ∈ s.ch.underlays) :
      Moves setup s (.closeUnderlay u .remove) (.closeUnderlay u (.notify 0)) (.remove u)
  | notFound (u : Underlay) (h : u ∉ s.ch.underlays) :
      Moves setup s (.closeUnderlay u .remove) (.closeUnderlay u .lock) .quiet
  | notifySelf (u : Underlay) :
      Moves setup s (.closeUnderlay u (.notify 0)) (.closeUnderlay u .dialPolicy)
        (.notice (.removed 0 u))
  | notify (u : Underlay) (l : ℕ) (h : l + 1 ≤ setup.listeners) :
      Moves setup s (.closeUnderlay u (.notify (l + 1))) (.closeUnderlay u (.notify (l + 2)))
        (.notice (.removed (l + 1) u))
  | notified (u : Underlay) (l : ℕ) (h : setup.listeners < l + 1) :
      Moves setup s (.closeUnderlay u (.notify (l + 1))) (.closeUnderlay u .lock) .quiet
  | policyClosed (u : Underlay) (h : s.ch.dialPolicy = true) :
      Moves setup s (.closeUnderlay u .dialPolicy) (.closeUnderlay u .respond)
        (.notice (.underlayClosed (getValidatedUnderlayType setup.validUnderlayTypes u) u))
  | noPolicy (u : Underlay) (h : s.ch.dialPolicy = false) :
      Moves setup s (.closeUnderlay u .dialPolicy) (.closeUnderlay u .respond) .quiet
  | lastRemoved (u : Underlay) (hc : s.ch.isMultiUnderlayCapable = false)
      (h : s.ch.underlays = []) :
      Moves setup s (.closeUnderlay u .respond) (.closeUnderlay u .closing) .callClose
  | notLast (u : Underlay) (hc : s.ch.isMultiUnderlayCapable = false) (h : s.ch.underlays ≠ []) :
      Moves setup s (.closeUnderlay u .respond) (.closeUnderlay u (.notify 1)) .quiet
  | respond (u : Underlay) (g : ℕ) (hc : s.ch.isMultiUnderlayCapable = true) :
      Moves setup s (.closeUnderlay u .respond) (.closeUnderlay u (.notify 1)) (.spawn g)
  | closed (u : Underlay) :
      Moves setup s (.closeUnderlay u .closing) (.closeUnderlay u (.notify 1)) .quiet
  | lock (u : Underlay) :
      Moves setup s (.closeUnderlay u .lock) (.closeUnderlay u .loadFallback) .lock
  | isFallback (u : Underlay) (h : s.ch.fallbackUnderlay = u) :
      Moves setup s (.closeUnderlay u .loadFallback) (.closeUnderlay u .getAll) .quiet
  | notFallback (u : Underlay) (h : s.ch.fallbackUnderlay ≠ u) :
      Moves setup s (.closeUnderlay u .loadFallback) (.closeUnderlay u .unlock) .quiet
  | another (u lastUnderlay : Underlay) (h : s.ch.underlays.getLast? = some lastUnderlay) :
      Moves setup s (.closeUnderlay u .getAll) (.closeUnderlay u (.store lastUnderlay)) .quiet
  | noOther (u : Underlay) (h : s.ch.underlays = []) :
      Moves setup s (.closeUnderlay u .getAll) (.closeUnderlay u .unlock) .quiet
  | store (u lastUnderlay : Underlay) :
      Moves setup s (.closeUnderlay u (.store lastUnderlay)) (.closeUnderlay u .unlock)
        (.store lastUnderlay)
  | unlock (u : Underlay) : Moves setup s (.closeUnderlay u .unlock) .idle .unlock
  | nothingToApply (hc : s.ch.constraints.entries.card = 0) (hm : s.ch.minTotalUnderlays = 0) :
      Moves setup s (.applyConstraints .guard) .idle .quiet
  | guard : Moves setup s (.applyConstraints .guard) (.applyConstraints .isClosed) .quiet
  | applyClosed (h : s.ch.closed = true) : Moves setup s (.applyConstraints .isClosed) .idle .quiet
  | applyOpen (h : s.ch.closed = false) :
      Moves setup s (.applyConstraints .isClosed) (.applyConstraints .checkValid) .quiet
  | valid (h : countsShowValidState s.ch.constraints s.ch.minTotalUnderlays
        (countsByType s.ch.underlays) = true) :
      Moves setup s (.applyConstraints .checkValid) (.applyConstraints .compareAndSwap) .quiet
  | invalid (h : countsShowValidState s.ch.constraints s.ch.minTotalUnderlays
        (countsByType s.ch.underlays) = false) :
      Moves setup s (.applyConstraints .checkValid) (.applyConstraints .closing) .callClose
  | applyReturn : Moves setup s (.applyConstraints .closing) .idle .quiet
  | inProgress (h : s.applyInProgress = true) :
      Moves setup s (.applyConstraints .compareAndSwap) .idle .quiet
  | swap (h : s.applyInProgress = false) :
      Moves setup s (.applyConstraints .compareAndSwap) (.applyConstraints .dialPolicy)
        (.setApplyInProgress true)
  | dials (h : s.ch.dialPolicy = true) :
      Moves setup s (.applyConstraints .dialPolicy) (.applyConstraints .loop) .quiet
  | neverDials (h : s.ch.dialPolicy = false) :
      Moves setup s (.applyConstraints .dialPolicy) (.applyConstraints .release) .quiet
  | loopClosed (h : s.ch.closed = true) :
      Moves setup s (.applyConstraints .loop) (.applyConstraints .release) .quiet
  | loopOpen (h : s.ch.closed = false) :
      Moves setup s (.applyConstraints .loop) (.applyConstraints .getCounts) .quiet
  | loopValid (entries : List Entry) (h : countsShowValidState s.ch.constraints
        s.ch.minTotalUnderlays (countsByType s.ch.underlays) = true)
      (hentries : (entries : Multiset Entry) = s.ch.constraints.entries) :
      Moves setup s (.applyConstraints .getCounts)
        (.applyConstraints (.range (countsByType s.ch.underlays) entries true)) .quiet
  | loopInvalid (h : countsShowValidState s.ch.constraints s.ch.minTotalUnderlays
        (countsByType s.ch.underlays) = false) :
      Moves setup s (.applyConstraints .getCounts) (.applyConstraints .release) .callClose
  | desired (counts : Tally GoString) (entry : Entry) (todo : List Entry) (allSatisfied : Bool)
      (h : entry.2.desired > counts.count entry.1) :
      Moves setup s (.applyConstraints (.range counts (entry :: todo) allSatisfied))
        (.applyConstraints (.isFirst entry.1 counts todo)) .quiet
  | satisfied (counts : Tally GoString) (entry : Entry) (todo : List Entry) (allSatisfied : Bool)
      (h : ¬ entry.2.desired > counts.count entry.1) :
      Moves setup s (.applyConstraints (.range counts (entry :: todo) allSatisfied))
        (.applyConstraints (.range counts todo allSatisfied)) .quiet
  | allSatisfied (counts : Tally GoString) :
      Moves setup s (.applyConstraints (.range counts [] true)) (.applyConstraints .release) .quiet
  | again (counts : Tally GoString) :
      Moves setup s (.applyConstraints (.range counts [] false)) (.applyConstraints .loop) .quiet
  | isFirst (underlayType : GoString) (counts : Tally GoString) (todo : List Entry) :
      Moves setup s (.applyConstraints (.isFirst underlayType counts todo))
        (.applyConstraints (.dial underlayType (decide (s.ch.underlays.length = 0)) counts todo))
        .quiet
  | dialFailed (underlayType : GoString) (isFirst : Bool) (counts : Tally GoString)
      (todo : List Entry) :
      Moves setup s (.applyConstraints (.dial underlayType isFirst counts todo))
        (.applyConstraints (.range counts todo false)) .quiet
  | dialed (underlayType : GoString) (isFirst : Bool) (u : Underlay) (counts : Tally GoString)
      (todo : List Entry) :
      Moves setup s (.applyConstraints (.dial underlayType isFirst counts todo))
        (.applyConstraints (.accept u .lock counts todo)) (.offer u)
  | dialAccept (u : Underlay) (pc pc' : AcceptPc) (counts : Tally GoString) (todo : List Entry)
      (e : Effect) (h : pc.Moves setup s u pc' e) :
      Moves setup s (.applyConstraints (.accept u pc counts todo))
        (.applyConstraints (.accept u pc' counts todo)) e
  | dialReturn (u : Underlay) (accepted : Bool) (counts : Tally GoString) (todo : List Entry) :
      Moves setup s (.applyConstraints (.accept u (.unlock accepted) counts todo))
        (.applyConstraints (.range counts todo false)) (.acceptReturned u accepted)
  | release : Moves setup s (.applyConstraints .release) (.applyConstraints .recheck)
      (.setApplyInProgress false)
  | recheck (hp : s.ch.dialPolicy = true) (hc : s.ch.closed = false) :
      Moves setup s (.applyConstraints .recheck) (.applyConstraints .desires) .quiet
  | noRecheck (h : s.ch.dialPolicy = false ∨ s.ch.closed = true) :
      Moves setup s (.applyConstraints .recheck) .idle .quiet
  | desiresSatisfied (h : areConstraintDesiresSatisfied s.ch.constraints
        (countsByType s.ch.underlays) = true) :
      Moves setup s (.applyConstraints .desires) .idle .quiet
  | respawn (g : ℕ) (h : areConstraintDesiresSatisfied s.ch.constraints
        (countsByType s.ch.underlays) = false) :
      Moves setup s (.applyConstraints .desires) .idle (.spawn g)

/-- What can happen in `Close`, with the points that take the place of the innermost one. -/
inductive ClosePc.Moves (setup : Setup) (s : State) : ClosePc → List ClosePc → Effect → Prop
  | lock : Moves setup s .lock [.compareAndSet] .lock
  | late (h : s.ch.closed = true) : Moves setup s .compareAndSet [.unlock false] .quiet
  | first (h : s.ch.closed = false) : Moves setup s .compareAndSet [.closeNotify] .setClosed
  | notify : Moves setup s .closeNotify [.nextHook 0] .closeNotify
  | hook (i : ℕ) (h : Hook) (hi : setup.hooks[i]? = some h) :
      Moves setup s (.nextHook i) [.hook i h] (.hook i)
  | noHook (i : ℕ) (hi : setup.hooks[i]? = none) : Moves setup s (.nextHook i) [.getAll] .quiet
  | ret (i : ℕ) : Moves setup s (.hook i .ret) [.nextHook (i + 1)] .quiet
  | reenter (i : ℕ) (h : Hook) : Moves setup s (.hook i (.close h)) [.lock, .hook i h] .quiet
  | isClosed (i : ℕ) (h : Bool → Hook) :
      Moves setup s (.hook i (.isClosed h)) [.hook i (h s.ch.closed)] .quiet
  | call (i : ℕ) (op : Operation) (h : ℕ → Hook) (n : ℕ) :
      Moves setup s (.hook i (.call op h)) [.hook i (h n)] .quiet
  | getAll : Moves setup s .getAll [.closeAll s.ch.underlays] .quiet
  | closeConn (u : Underlay) (us : List Underlay) :
      Moves setup s (.closeAll (u :: us)) [.closeAll us] (.closeConn u)
  | closedAll : Moves setup s (.closeAll []) [.unlock true] .quiet
  | unlock (first : Bool) : Moves setup s (.unlock first) [] .closeReturned

/-- What can happen in `Underlays.Add`. -/
theorem AddPc.next_cases {u : Underlay} {pc : AddPc} {pc' : Option AddPc}
    (h : pc.next setup u = (pc', eff)) :
    (pc = .append ∧ pc' = some (.notify 0) ∧ eff = .append u) ∨
    (∃ l ≤ setup.listeners, pc = .notify l ∧ pc' = some (.notify (l + 1)) ∧
      eff = .notice (.added l u)) ∨
    (∃ l, setup.listeners < l ∧ pc = .notify l ∧ pc' = none ∧ eff = .quiet) := by
  revert h
  fun_cases AddPc.next setup u pc
  all_goals intro h
  all_goals cases h
  · exact Or.inl ⟨rfl, rfl, rfl⟩
  · next l hl => exact Or.inr (Or.inl ⟨l, hl, rfl, rfl, rfl⟩)
  · next l hl => exact Or.inr (Or.inr ⟨l, by omega, rfl, rfl, rfl⟩)

theorem AcceptPc.moves_of_next {u : Underlay} {pc : AcceptPc} {pc' : Option AcceptPc} {a : Action}
    (h : pc.next setup s u a = some (pc', eff)) :
    (∃ p, pc' = some p ∧ pc.Moves setup s u p eff) ∨
      ∃ accepted, pc = .unlock accepted ∧ pc' = none ∧ eff = .acceptReturned u accepted := by
  revert h
  fun_cases AcceptPc.next setup s u pc a
  all_goals intro h
  all_goals cases h
  · exact Or.inl ⟨_, rfl, .lock⟩
  · next hadm => exact Or.inl ⟨_, rfl, .passes hadm⟩
  · next hadm => exact Or.inl ⟨_, rfl, .reject hadm⟩
  · exact Or.inl ⟨_, rfl, .refuse⟩
  · exact Or.inl ⟨_, rfl, .store⟩
  · next hadd =>
    rcases AddPc.next_cases hadd with ⟨rfl, hp, rfl⟩ | ⟨l, hl, rfl, hp, rfl⟩ | ⟨l, hl, rfl, hp, rfl⟩
    · cases hp; exact Or.inl ⟨_, rfl, .append⟩
    · cases hp; exact Or.inl ⟨_, rfl, .notify l hl⟩
    · cases hp
  · next hadd =>
    rcases AddPc.next_cases hadd with ⟨rfl, hp, rfl⟩ | ⟨l, hl, rfl, hp, rfl⟩ | ⟨l, hl, rfl, hp, rfl⟩
    · cases hp
    · cases hp
    · exact Or.inl ⟨_, rfl, .notified l hl⟩
  · exact Or.inl ⟨_, rfl, .start _ _⟩
  · exact Or.inr ⟨_, rfl, rfl, rfl⟩

theorem NewPc.moves_of_next {pc : NewPc} {r : Routine} {a : Action}
    (h : pc.next setup a = some (r, eff)) : Routine.Moves setup s (.newChannel pc) r eff := by
  revert h
  fun_cases NewPc.next setup pc a
  all_goals intro h
  all_goals cases h
  · exact .bound
  · next hadd =>
    rcases AddPc.next_cases hadd with ⟨rfl, hp, rfl⟩ | ⟨l, hl, rfl, hp, rfl⟩ | ⟨l, hl, rfl, hp, rfl⟩
    · cases hp; exact .newAppend
    · cases hp; exact .newNotify l hl
    · cases hp
  · next hadd =>
    rcases AddPc.next_cases hadd with ⟨rfl, hp, rfl⟩ | ⟨l, hl, rfl, hp, rfl⟩ | ⟨l, hl, rfl, hp, rfl⟩
    · cases hp
    · cases hp
    · exact .newNotified l hl
  · exact .newStart _ _
  · exact .newReturn _

theorem CloseUnderlayPc.moves_of_next {u : Underlay} {pc : CloseUnderlayPc} {r : Routine}
    {a : Action} (h : pc.next setup s u a = some (r, eff)) :
    Routine.Moves setup s (.closeUnderlay u pc) r eff := by
  revert h
  fun_cases CloseUnderlayPc.next setup s u pc a
  all_goals intro h
  all_goals cases h
  · exact .closeConn u
  · next h => exact .remove u h
  · next h => exact .notFound u h
  · exact .notifySelf u
  · next l h => exact .notify u l h
  · next l h => exact .notified u l (by omega)
  · next h => exact .policyClosed u h
  · next h => exact .noPolicy u (by simpa using h)
  · next hc h => exact .lastRemoved u (by simpa using hc) (List.length_eq_zero_iff.mp h)
  · next hc h => exact .notLast u (by simpa using hc) (mt List.length_eq_zero_iff.mpr h)
  · next hc => exact .respond u _ hc
  · exact .closed u
  · exact .lock u
  · next h => exact .isFallback u h
  · next h => exact .notFallback u h
  · next h => exact .another u _ h
  · next h => exact .noOther u (List.getLast?_eq_none_iff.mp h)
  · exact .store u _
  · exact .unlock u

theorem ApplyPc.moves_of_next {pc : ApplyPc} {r : Routine} {a : Action}
    (h : pc.next setup s a = some (r, eff)) :
    Routine.Moves setup s (.applyConstraints pc) r eff := by
  revert h
  fun_cases ApplyPc.next setup s pc a
  all_goals intro h
  all_goals cases h
  · next h => exact .nothingToApply h.1 h.2
  · exact .guard
  · next h => exact .applyClosed h
  · next h => exact .applyOpen (by simpa using h)
  · next h => exact .valid h
  · next h => exact .invalid (by simpa using h)
  · exact .applyReturn
  · next h => exact .inProgress h
  · next h => exact .swap (by simpa using h)
  · next h => exact .dials h
  · next h => exact .neverDials (by simpa using h)
  · next h => exact .loopClosed h
  · next h => exact .loopOpen (by simpa using h)
  · next entries counts h hentries => exact .loopValid entries h hentries
  · next counts h => exact .loopInvalid (by simpa [counts] using h)
  · next h => exact .desired _ _ _ _ h
  · next h => exact .satisfied _ _ _ _ h
  · exact .allSatisfied _
  · exact .again _
  · exact .isFirst _ _ _
  · exact .dialFailed _ _ _ _
  · exact .dialed _ _ _ _ _
  · next hacc =>
    rcases AcceptPc.moves_of_next hacc with ⟨p, hp, hmoves⟩ | ⟨accepted, rfl, hp, rfl⟩
    · cases hp; exact .dialAccept _ _ _ _ _ _ hmoves
    · cases hp
  · next hacc =>
    rcases AcceptPc.moves_of_next hacc with ⟨p, hp, hmoves⟩ | ⟨accepted, rfl, hp, rfl⟩
    · cases hp
    · exact .dialReturn _ _ _ _
  · exact .release
  · next h => exact .recheck h.1 h.2
  · next h =>
    refine .noRecheck ?_
    by_cases hp : s.ch.dialPolicy = true
    · exact Or.inr (by simpa [hp] using h)
    · exact Or.inl (by simpa using hp)
  · next h => exact .desiresSatisfied h
  · next h => exact .respawn _ (by simpa using h)

/-- A step of a routine is one of those listed. -/
theorem Routine.moves_of_next {r r' : Routine} {a : Action}
    (h : r.next setup s a = some (r', eff)) : r.Moves setup s r' eff := by
  revert h
  fun_cases Routine.next setup s r a
  all_goals intro h
  · cases h
  · exact NewPc.moves_of_next h
  · next hacc =>
    cases h
    rcases AcceptPc.moves_of_next hacc with ⟨p, hp, hmoves⟩ | ⟨accepted, rfl, hp, rfl⟩
    · cases hp; exact .accept _ _ _ _ hmoves
    · cases hp
  · next hacc =>
    cases h
    rcases AcceptPc.moves_of_next hacc with ⟨p, hp, hmoves⟩ | ⟨accepted, rfl, hp, rfl⟩
    · cases hp
    · exact .acceptReturn _ _
  · cases h
  · cases h; exact .rxer _
  · cases h; exact .txer _
  · cases h
  · cases h
  · exact CloseUnderlayPc.moves_of_next h
  · exact ApplyPc.moves_of_next h

/-- A step of `Close` is one of those listed. -/
theorem ClosePc.moves_of_next {pc : ClosePc} {pcs : List ClosePc} {a : Action}
    (h : pc.next setup s a = some (pcs, eff)) : pc.Moves setup s pcs eff := by
  revert h
  fun_cases ClosePc.next setup s pc a
  all_goals intro h
  all_goals cases h
  · exact .lock
  · next h => exact .late h
  · next h => exact .first (by simpa using h)
  · exact .notify
  · next hi => exact .hook _ _ hi
  · next hi => exact .noHook _ hi
  · exact .ret _
  · exact .reenter _ _
  · exact .isClosed _ _
  · exact .call _ _ _ _
  · exact .getAll
  · exact .closeConn _ _
  · exact .closedAll
  · exact .unlock _

/-- **Case analysis on a step**: of a routine, of a `Close`, or a call from outside. -/
theorem step_cases {e : Event} {P : State → Prop} (h : (channel setup).step s e = some s')
    (run : ∀ g a r eff, e = .run g a → s.closes g = [] → (s.routines g).Moves setup s r eff →
      eff.enabled s g = true → P ((s.setRoutine g r).apply g eff))
    (close : ∀ g a pc rest pcs eff, e = .close g a → s.closes g = pc :: rest →
      pc.Moves setup s pcs eff → eff.enabled s g = true →
      P ((s.setCloses g (pcs ++ rest)).apply g eff))
    (callAccept : ∀ g u, e = .callAccept g u → s.idle g = true →
      P { s.setRoutine g (.acceptUnderlay u .lock) with offered := s.offered ++ [u] })
    (callClose : ∀ g, e = .callClose g → s.idle g = true → P (s.setCloses g [.lock])) : P s' := by
  simp only [channel, step] at h
  split at h
  · next g a =>
    split at h
    · cases h
    · next hcloses =>
      split at h
      · cases h
      · next r eff hnext =>
        split at h
        · next hen => cases h; exact run g a r eff rfl hcloses (Routine.moves_of_next hnext) hen
        · cases h
  · next g a =>
    split at h
    · cases h
    · next pc rest hcloses =>
      split at h
      · cases h
      · next pcs eff hnext =>
        split at h
        · next hen =>
          cases h
          exact close g a pc rest pcs eff rfl hcloses (ClosePc.moves_of_next hnext) hen
        · cases h
  · next g u =>
    split at h
    · next hidle => cases h; exact callAccept g u rfl hidle
    · cases h
  · next g =>
    split at h
    · next hidle => cases h; exact callClose g rfl hidle
    · cases h

/-- What no effect undoes, no step undoes, if it is about the channel and what was added to it. -/
theorem step_keeps {e : Event} {P : State → Prop} (happly : ∀ t g eff, P t → P (State.apply t g eff))
    (hframe : ∀ s s' : State, s'.ch = s.ch → s'.added = s.added → P s → P s')
    (hstep : (channel setup).step s e = some s') (h : P s) : P s' := by
  refine step_cases hstep ?_ ?_ ?_ ?_
  · intro g a r eff _ _ _ _
    exact happly _ g eff (hframe s _ rfl rfl h)
  · intro g a pc rest pcs eff _ _ _ _
    exact happly _ g eff (hframe s _ rfl rfl h)
  · intro g u _ _
    exact hframe s _ rfl rfl h
  · intro g _ _
    exact hframe s _ rfl rfl h

/-- A goroutine that is not in `Close` can make the next step of its routine. -/
theorem step_run {a : Action} {r : Routine} (hcloses : s.closes g = [])
    (hnext : (s.routines g).next setup s a = some (r, eff)) (hen : eff.enabled s g = true) :
    (channel setup).step s (.run g a) = some ((s.setRoutine g r).apply g eff) := by
  simp only [channel, step, hcloses, hnext, hen, if_true]

theorem step_close {a : Action} {pc : ClosePc} {rest pcs : List ClosePc}
    (hcloses : s.closes g = pc :: rest) (hnext : pc.next setup s a = some (pcs, eff))
    (hen : eff.enabled s g = true) : (channel setup).step s (.close g a) =
      some ((s.setCloses g (pcs ++ rest)).apply g eff) := by
  simp only [channel, step, hcloses, hnext, hen, if_true]

/-! ### The effects, field by field -/

/-- The routine that an effect starts in goroutine `b`. -/
def Effect.spawned (b : ℕ) : Effect → Option Routine
  | .startMultiplex u rx tx =>
      if b = tx then some (.txer u) else if b = rx then some (.rxer u) else none
  | .spawn g | .newReturned g => if b = g then some (.applyConstraints .guard) else none
  | _ => none

/-- The call of `Close` that an effect begins. -/
def Effect.pushed : Effect → List ClosePc
  | .callClose => [.lock]
  | _ => []

/-- The owner of the lock after an effect of goroutine `g`. -/
def Effect.lockAfter (g : ℕ) (lock : Option ℕ) : Effect → Option ℕ
  | .lock => some g
  | .unlock | .acceptReturned _ _ | .closeReturned => none
  | _ => lock

namespace State

@[simp] theorem apply_routines : (s.apply g eff).routines b =
    (eff.spawned b).getD (s.routines b) := by
  cases eff with
  | startMultiplex u rx tx =>
    simp only [apply, Effect.spawned, Function.update_apply]
    split
    · rfl
    · split <;> rfl
  | spawn g' | newReturned g' =>
    simp only [apply, Effect.spawned, Function.update_apply]
    split <;> rfl
  | _ => rfl

@[simp] theorem apply_closes : (s.apply g eff).closes b =
    if b = g then eff.pushed ++ s.closes b else s.closes b := by
  cases eff with
  | callClose =>
    simp only [apply, Effect.pushed, Function.update_apply]
    split
    · next h => rw [h]; rfl
    · rfl
  | _ => simp [apply, Effect.pushed]

@[simp] theorem apply_lock : (s.apply g eff).lock = eff.lockAfter g s.lock := by
  cases eff <;> rfl

theorem added_apply (h : ∀ u, eff ≠ .append u) : (s.apply g eff).added = s.added := by
  cases eff with
  | append u => exact absurd rfl (h u)
  | _ => rfl

theorem returned_apply (h : ∀ b, eff ≠ .newReturned b) : (s.apply g eff).returned = s.returned := by
  cases eff with
  | newReturned b => exact absurd rfl (h b)
  | _ => rfl

theorem applyInProgress_apply (h : ∀ b, eff ≠ .setApplyInProgress b) :
    (s.apply g eff).applyInProgress = s.applyInProgress := by
  cases eff with
  | setApplyInProgress b => exact absurd rfl (h b)
  | _ => rfl

/-- Without a removal the collection can only grow. -/
theorem underlays_apply (h : ∀ u, eff ≠ .remove u) :
    ∃ us, (s.apply g eff).ch.underlays = s.ch.underlays ++ us := by
  cases eff with
  | remove u => exact absurd rfl (h u)
  | append u => exact ⟨[u], rfl⟩
  | _ => exact ⟨[], (List.append_nil _).symm⟩

end State

theorem Effect.spawned_cases {r : Routine} (h : eff.spawned b = some r) :
    r = .applyConstraints .guard ∨
      ∃ u rx tx, eff = .startMultiplex u rx tx ∧ (r = .rxer u ∨ r = .txer u) := by
  cases eff with
  | startMultiplex u rx tx =>
    right
    simp only [spawned] at h
    split at h
    · cases h; exact ⟨u, rx, tx, rfl, Or.inr rfl⟩
    · split at h
      · cases h; exact ⟨u, rx, tx, rfl, Or.inl rfl⟩
      · cases h
  | spawn g' | newReturned g' =>
    left
    simp only [spawned] at h
    split at h
    · cases h; rfl
    · cases h
  | _ => cases h

/-- What is started is started in an idle goroutine, and not in the one that starts it. -/
theorem Effect.idle_of_spawned {r : Routine} (hen : eff.enabled s g = true)
    (h : eff.spawned b = some r) : b ≠ g ∧ s.idle b = true := by
  cases eff with
  | startMultiplex u rx tx =>
    simp only [enabled, Bool.and_eq_true, decide_eq_true_eq] at hen
    simp only [spawned] at h
    split at h
    · next hb => rw [hb]; exact ⟨hen.1.1.1.2, hen.2⟩
    · split at h
      · next hb => rw [hb]; exact ⟨hen.1.1.1.1, hen.1.2⟩
      · cases h
  | spawn g' | newReturned g' =>
    simp only [enabled, Bool.and_eq_true, decide_eq_true_eq] at hen
    simp only [spawned] at h
    split at h
    · next hb => rw [hb]; exact hen
    · cases h
  | _ => cases h

theorem Effect.spawned_self (hen : eff.enabled s g = true) : eff.spawned g = none := by
  cases h : eff.spawned g with
  | none => rfl
  | some r => exact absurd rfl (idle_of_spawned hen h).1

theorem State.idle_iff : s.idle b = true ↔ s.routines b = .idle ∧ s.closes b = [] := by
  simp only [idle, Bool.and_eq_true, List.isEmpty_iff]
  cases s.routines b <;> simp [Routine.isIdle]

/-- A property of routines that holds of the one that moved, of those that it started and of all
others holds of all. -/
theorem forall_routines {P : ℕ → Routine → Prop} {r : Routine} (hen : eff.enabled s g = true)
    (self : P g r) (spawned : ∀ b r', eff.spawned b = some r' → P b r')
    (other : ∀ b, b ≠ g → P b (s.routines b)) :
    ∀ b, P b (((s.setRoutine g r).apply g eff).routines b) := by
  intro b
  rw [State.apply_routines]
  cases h : eff.spawned b with
  | some r' => exact spawned b r' h
  | none =>
    rcases eq_or_ne b g with rfl | hne
    · simpa [State.setRoutine] using self
    · simpa [State.setRoutine, hne] using other b hne

/-- What is read off routines, and is the same of an idle one and of those that are started, changes
for the goroutine that moves and for no other. -/
theorem map_routines {α : Type*} {f : Routine → α} {r : Routine} (hen : eff.enabled s g = true)
    (hguard : f (.applyConstraints .guard) = f .idle) (hrxer : ∀ u, f (.rxer u) = f .idle)
    (htxer : ∀ u, f (.txer u) = f .idle) :
    (fun b => f (((s.setRoutine g r).apply g eff).routines b)) =
      Function.update (fun b => f (s.routines b)) g (f r) := by
  funext b
  refine forall_routines
    (P := fun b r' => f r' = Function.update (fun b => f (s.routines b)) g (f r) b) hen ?_ ?_ ?_ b
  · rw [Function.update_self]
  · intro b r' hb
    obtain ⟨hne, hidle⟩ := Effect.idle_of_spawned hen hb
    rw [Function.update_of_ne hne, (State.idle_iff.mp hidle).1]
    rcases Effect.spawned_cases hb with rfl | ⟨v, rx, tx, -, rfl | rfl⟩
    · exact hguard
    · exact hrxer v
    · exact htxer v
  · intro b hne
    rw [Function.update_of_ne hne]

theorem map_routines_callAccept {α : Type*} {f : Routine → α} {u : Underlay}
    (hidle : s.idle g = true) (hlock : f (.acceptUnderlay u .lock) = f .idle) :
    (fun b => f ((s.setRoutine g (.acceptUnderlay u .lock)).routines b)) =
      fun b => f (s.routines b) := by
  funext b
  rcases eq_or_ne b g with rfl | hne
  · rw [(State.idle_iff.mp hidle).1]
    simpa [State.setRoutine] using hlock
  · simp [State.setRoutine, hne]

/-- What a step of `Close` leaves as it is. -/
structure CloseFrame (s s' : State) : Prop where
  routines : s'.routines = s.routines
  underlays : s'.ch.underlays = s.ch.underlays
  multiplexed : s'.ch.multiplexed = s.ch.multiplexed
  applyInProgress : s'.applyInProgress = s.applyInProgress
  returned : s'.returned = s.returned
  offered : s'.offered = s.offered
  added : s'.added = s.added
  removed : s'.removed = s.removed
  notices : s'.notices = s.notices
  results : s'.results = s.results

theorem ClosePc.Moves.frame {pc : ClosePc} {pcs ps : List ClosePc}
    (h : pc.Moves setup s pcs eff) : CloseFrame s ((s.setCloses g ps).apply g eff) := by
  cases h <;> exact ⟨rfl, rfl, rfl, rfl, rfl, rfl, rfl, rfl, rfl, rfl⟩

theorem ClosePc.Moves.pushed {pc : ClosePc} {pcs : List ClosePc} (h : pc.Moves setup s pcs eff) :
    eff.pushed = [] := by
  cases h <;> rfl

/-- What a step of a routine leaves as it is. -/
structure RunFrame (s s' : State) : Prop where
  closed : s'.ch.closed = s.ch.closed
  closeNotifies : s'.closeNotifies = s.closeNotifies
  hookCalls : s'.hookCalls = s.hookCalls
  closeReturns : s'.closeReturns = s.closeReturns

theorem AcceptPc.Moves.frame {t : State} {u : Underlay} {pc pc' : AcceptPc}
    (h : pc.Moves setup s u pc' eff) : RunFrame t (t.apply g eff) := by
  cases h <;> exact ⟨rfl, rfl, rfl, rfl⟩

theorem Routine.Moves.frame {t : State} {r r' : Routine} (h : r.Moves setup s r' eff) :
    RunFrame t (t.apply g eff) := by
  cases h with
  | accept _ _ _ _ h | dialAccept _ _ _ _ _ _ h => exact h.frame
  | _ => exact ⟨rfl, rfl, rfl, rfl⟩

/-- **Invariants of routines.**  A property of the routine of every goroutine holds if moves of
the routine keep it, if it holds of routines when they are started, and if it is kept as long as the
routine stays where it is. -/
theorem routine_rule {ok : State → Event → Prop} {P : State → ℕ → Routine → Prop}
    (init : ∀ g, P (channel setup).init g ((channel setup).init.routines g))
    (run : ∀ s g r eff, (channel setup).Reachable ok s → s.closes g = [] →
      (s.routines g).Moves setup s r eff → eff.enabled s g = true → P s g (s.routines g) →
      P ((s.setRoutine g r).apply g eff) g r)
    (spawned : ∀ s b r eff, Effect.spawned b eff = some r → P s b r)
    (accept : ∀ s g u, P s g (.acceptUnderlay u .lock))
    (keep : ∀ s e s' b, (channel setup).Reachable ok s → (channel setup).step s e = some s' →
      P s b (s.routines b) → P s' b (s.routines b))
    (hs : (channel setup).Reachable ok s) (g : ℕ) : P s g (s.routines g) := by
  refine hs.invariant_of_reachable (P := fun s => ∀ g, P s g (s.routines g)) init ?_ g
  intro s e s' hreach h _ hstep
  have hkeep : ∀ b, P s' b (s.routines b) := fun b => keep s e s' b hreach hstep (h b)
  revert hkeep
  refine step_cases (P := fun s' => (∀ b, P s' b (s.routines b)) → ∀ b, P s' b (s'.routines b)) hstep
    ?_ ?_ ?_ ?_
  · intro g a r eff _ hcloses hmoves hen hkeep
    exact forall_routines (P := P ((s.setRoutine g r).apply g eff)) hen
      (run s g r eff hreach hcloses hmoves hen (h g)) (fun b r' => spawned _ b r' eff)
      fun b _ => hkeep b
  · intro g a pc rest pcs eff _ _ hmoves _ hkeep b
    rw [hmoves.frame.routines]
    exact hkeep b
  · intro g u _ _ hkeep b
    rcases eq_or_ne b g with rfl | hb
    · simpa [State.setRoutine] using accept _ b u
    · simpa [State.setRoutine, hb] using hkeep b
  · intro g _ _ hkeep b
    exact hkeep b

/-- Whether a goroutine starts here. -/
def Routine.isFresh : Routine → Bool
  | .idle | .newChannel .bind | .acceptUnderlay _ .lock | .rxer _ | .txer _
  | .applyConstraints .guard => true
  | _ => false

/-- **What holds past a point.**  Let `W` be true at points only where no goroutine starts.  Then `P`
holds of a goroutine that is where `W` says, if it holds when the goroutine comes there and is kept
while it stays. -/
theorem past_rule {ok : State → Event → Prop} {W : Routine → Prop} {P : State → ℕ → Prop}
    (hfresh : ∀ r, W r → r.isFresh = false)
    (comes : ∀ s g r eff, (channel setup).Reachable ok s → s.closes g = [] →
      (s.routines g).Moves setup s r eff → W r → (W (s.routines g) → P s g) →
      P ((s.setRoutine g r).apply g eff) g)
    (stays : ∀ s e s' b, (channel setup).Reachable ok s → (channel setup).step s e = some s' →
      W (s.routines b) → P s b → P s' b)
    (hs : (channel setup).Reachable ok s) (g : ℕ) (hg : W (s.routines g)) : P s g := by
  have hnew : ∀ {r : Routine}, r.isFresh = true → ¬ W r := fun hr hW => by
    rw [hfresh _ hW] at hr
    cases hr
  refine routine_rule (P := fun s g r => W r → P s g) ?_ ?_ ?_ ?_ ?_ hs g hg
  · intro g
    refine fun hW => absurd hW (hnew ?_)
    rcases eq_or_ne g 0 with rfl | hne
    · rfl
    · simp [channel, hne, Routine.isFresh]
  · intro s g r eff hreach hcloses hmoves _ h hW
    exact comes s g r eff hreach hcloses hmoves hW h
  · intro s b r eff hb hW
    rcases Effect.spawned_cases hb with rfl | ⟨v, rx, tx, -, rfl | rfl⟩ <;> exact absurd hW (hnew rfl)
  · intro s g u hW
    exact absurd hW (hnew rfl)
  · intro s e s' b hreach hstep h hW
    exact stays s e s' b hreach hstep hW (h hW)

/-! ### The configuration -/

theorem State.sameSetup_apply (s : State) (g : ℕ) (eff : Effect) :
    s.ch.SameSetup (s.apply g eff).ch := by
  cases eff <;> exact ⟨rfl, rfl, rfl, rfl⟩

/-- The configuration stays what it was. -/
theorem sameSetup {ok : State → Event → Prop} (hs : (channel setup).Reachable ok s) :
    (setup.config.impl setup.first).SameSetup s.ch := by
  refine hs.invariant (P := fun s => (setup.config.impl setup.first).SameSetup s.ch)
    ⟨rfl, rfl, rfl, rfl⟩ ?_
  intro s e s' hsame _ hstep
  exact step_keeps (P := fun s => (setup.config.impl setup.first).SameSetup s.ch)
    (fun t g eff h => h.trans (t.sameSetup_apply g eff)) (fun _ _ hch _ h => hch ▸ h) hstep hsame

/-! ### The lock -/

def AcceptPc.locked : AcceptPc → Bool
  | .lock => false
  | _ => true

/-- The call of `AcceptUnderlay` that a routine is in. -/
def Routine.accepting : Routine → Option (Underlay × AcceptPc)
  | .acceptUnderlay u pc | .applyConstraints (.accept u pc _ _) => some (u, pc)
  | _ => none

/-- The next step of `AcceptUnderlay` is one of the routine that is in it. -/
theorem Routine.next_of_accepting {u : Underlay} {pc : AcceptPc} {pc' : Option AcceptPc} {r : Routine}
    {a : Action} (h : r.accepting = some (u, pc)) (hnext : pc.next setup s u a = some (pc', eff)) :
    ∃ r', r.next setup s a = some (r', eff) ∧ ∀ p, pc' = some p → r'.accepting = some (u, p) := by
  unfold accepting at h
  split at h
  · cases h
    cases pc' with
    | none => exact ⟨.idle, by simp [Routine.next, hnext], by simp⟩
    | some p => exact ⟨.acceptUnderlay u p, by simp [Routine.next, hnext], by simp [accepting]⟩
  · next counts todo =>
    cases h
    cases pc' with
    | none =>
      exact ⟨.applyConstraints (.range counts todo false),
        by simp [Routine.next, ApplyPc.next, hnext], by simp⟩
    | some p =>
      exact ⟨.applyConstraints (.accept u p counts todo),
        by simp [Routine.next, ApplyPc.next, hnext], by simp [accepting]⟩
  · cases h

def CloseUnderlayPc.locked : CloseUnderlayPc → Bool
  | .loadFallback | .getAll | .store _ | .unlock => true
  | _ => false

def Routine.locked : Routine → Bool
  | .acceptUnderlay _ pc | .applyConstraints (.accept _ pc _ _) => pc.locked
  | .closeUnderlay _ pc => pc.locked
  | _ => false

theorem Routine.locked_of_accepting {r : Routine} {u : Underlay} {pc : AcceptPc}
    (h : r.accepting = some (u, pc)) : r.locked = pc.locked := by
  unfold accepting at h
  split at h <;> cases h <;> rfl

def ClosePc.locked : ClosePc → Bool
  | .lock => false
  | _ => true

/-- At how many points between taking and releasing the lock a goroutine is. -/
def State.held (s : State) (g : ℕ) : ℕ :=
  (s.routines g).locked.toNat + (s.closes g).countP (·.locked)

/-- How a step with this effect changes that number. -/
def Effect.Holds (before after : ℕ) : Effect → Prop
  | .lock => after = before + 1
  | .unlock | .acceptReturned _ _ | .closeReturned => after + 1 = before
  | _ => after = before

theorem AcceptPc.Moves.holds {u : Underlay} {pc pc' : AcceptPc} (h : pc.Moves setup s u pc' eff) :
    eff.Holds pc.locked.toNat pc'.locked.toNat := by
  cases h <;> rfl

theorem Routine.Moves.holds {r r' : Routine} (h : r.Moves setup s r' eff) :
    eff.Holds r.locked.toNat r'.locked.toNat := by
  cases h with
  | accept _ _ _ _ h | dialAccept _ _ _ _ _ _ h => exact h.holds
  | _ => rfl

theorem ClosePc.Moves.holds {pc : ClosePc} {pcs : List ClosePc} (h : pc.Moves setup s pcs eff) :
    eff.Holds pc.locked.toNat (pcs.countP (·.locked)) := by
  cases h <;> rfl

theorem Effect.Holds.owned {lock : Option ℕ} {held held' : ℕ → ℕ} (h : Mutex.Owned lock held)
    (hself : eff.Holds (held g) (held' g)) (hother : ∀ b, b ≠ g → held' b = held b)
    (hfree : eff = .lock → lock = none) : Mutex.Owned (eff.lockAfter g lock) held' := by
  have hkeep : held' g = held g → Mutex.Owned lock held' := fun hg =>
    h.keep fun b => (eq_or_ne b g).elim (fun hb => hb ▸ hg) (hother b)
  cases eff with
  | lock => exact Mutex.Owned.acquire (hfree rfl ▸ h) hself hother
  | unlock | acceptReturned | closeReturned => exact h.release hself hother
  | _ => exact hkeep hself

theorem Effect.Holds.add {m n : ℕ} (h : eff.Holds m n) (k : ℕ) : eff.Holds (m + k) (n + k) := by
  cases eff <;> simp only [Holds] at h ⊢ <;> omega

theorem Effect.spawned_unlocked {r : Routine} (h : eff.spawned b = some r) : r.locked = false := by
  rcases spawned_cases h with rfl | ⟨u, rx, tx, -, rfl | rfl⟩ <;> rfl

/-- Besides the routine and the `Close` calls of the goroutine itself, an effect does not change what
goroutines hold: what it starts holds nothing. -/
theorem State.held_apply {t : State} (hen : eff.enabled s g = true)
    (hidle : ∀ b, b ≠ g → s.idle b = true → t.idle b = true) (b : ℕ) :
    (t.apply g eff).held b = t.held b := by
  have hpushed : ∀ ps : List ClosePc, (eff.pushed ++ ps).countP (·.locked) =
      ps.countP (·.locked) := fun ps => by cases eff <;> rfl
  have hcloses : ((t.apply g eff).closes b).countP (·.locked) =
      (t.closes b).countP (·.locked) := by
    rw [apply_closes]
    split
    · exact hpushed _
    · rfl
  rw [held, held, hcloses, apply_routines]
  cases h : eff.spawned b with
  | none => rfl
  | some r =>
    obtain ⟨hne, hb⟩ := Effect.idle_of_spawned hen h
    rw [Option.getD_some, Effect.spawned_unlocked h, (idle_iff.mp (hidle b hne hb)).1]
    rfl

/-- The lock is held by the goroutine that is between taking and releasing it, which it is
once. -/
theorem lock_owned {ok : State → Event → Prop} (hs : (channel setup).Reachable ok s) :
    Mutex.Owned s.lock s.held := by
  refine hs.invariant (P := fun s => Mutex.Owned s.lock s.held) ?_ ?_
  · intro b
    rcases eq_or_ne b 0 with rfl | hb
    · rfl
    · simp [channel, State.held, hb, Routine.locked]
  · intro s e s' howned _ hstep
    have hfree : ∀ {g eff}, Effect.enabled s g eff = true → eff = .lock → s.lock = none := by
      rintro g eff hen rfl
      simpa [Effect.enabled] using hen
    refine step_cases (P := fun s => Mutex.Owned s.lock s.held) hstep ?_ ?_ ?_ ?_
    · intro g a r eff _ hcloses hmoves hen
      have hheld := State.held_apply (t := s.setRoutine g r) hen fun b hb h => by
        simpa [State.idle, State.setRoutine, hb] using h
      rw [State.apply_lock]
      refine Effect.Holds.owned howned ?_ (fun b hb => ?_) (hfree hen)
      · rw [hheld]
        simpa [State.held, State.setRoutine] using hmoves.holds.add _
      · rw [hheld]
        simp [State.held, State.setRoutine, hb]
    · intro g a pc rest pcs eff _ hcloses hmoves hen
      have hheld := State.held_apply (t := s.setCloses g (pcs ++ rest)) hen fun b hb h => by
        simpa [State.idle, State.setCloses, hb] using h
      rw [State.apply_lock]
      refine Effect.Holds.owned howned ?_ (fun b hb => ?_) (hfree hen)
      · have h := hmoves.holds.add
          ((s.routines g).locked.toNat + rest.countP (·.locked))
        rw [hheld]
        convert h using 1
        · rw [State.held, hcloses, List.countP_cons]
          cases pc.locked
          · simp
          · simp; omega
        · simp [State.held, State.setCloses]
          omega
      · rw [hheld]
        simp [State.held, State.setCloses, hb]
    · intro g u _ hidle
      obtain ⟨hr, hc⟩ := State.idle_iff.mp hidle
      refine howned.keep fun b => ?_
      rcases eq_or_ne b g with rfl | hb
      · simp [State.held, State.setRoutine, hr, hc, Routine.locked, AcceptPc.locked]
      · simp [State.held, State.setRoutine, hb]
    · intro g _ hidle
      obtain ⟨hr, hc⟩ := State.idle_iff.mp hidle
      refine howned.keep fun b => ?_
      rcases eq_or_ne b g with rfl | hb
      · simp [State.held, State.setCloses, hc, ClosePc.locked]
      · simp [State.held, State.setCloses, hb]

end

end ZitiChannel.Concurrent
