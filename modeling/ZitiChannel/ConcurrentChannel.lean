import ZitiChannel.Lib.Transition
import ZitiChannel.Underlays

/-!
# A channel and its goroutines

Everything that happens to the underlays of one channel, interleaved at the grain of the
source's own steps: `NewChannel` with a binder that may hand the channel out, calls of
`AcceptUnderlay` and `Close` from anywhere, the two goroutines of every underlay with the
`closeUnderlay` that ends them, and the goroutines that enforce constraints and dial.

A goroutine is at some point of a routine, and may be inside calls of `Close` on top of it: the
routine called `Close`, or a hook of one `Close` called another.  The channel's lock is held
over many steps.  The locks of `Underlays` are not: an access to the collection is one step.

Part of the state is history: what was offered, added and removed, who was notified of what,
how often hooks ran, and how calls returned.

## Main definitions

* `Hook`, `Setup` — what a channel is set up with.
* `AddPc`, `AcceptPc`, `CloseUnderlayPc`, `ApplyPc`, `ClosePc` — the functions of the source, by
  their points, with `next` for each.
* `State`, `Effect`, `step`, `channel` — the system.

The sources are `impl.go` and `underlays.go`.
-/

namespace ZitiChannel.Concurrent

open Transition

/-! ### The setup -/

/-- The operations on a channel, other than `Close` and `IsClosed`, that a hook may use.  None takes
the channel's lock. -/
inductive Operation
  | label
  | getUnderlays
  | send
  deriving DecidableEq

/-- The `Close` hook of a peek handler, or a close handler: what it calls on the channel that is
being closed.  How it goes on after an operation may depend on anything, and so is left open. -/
inductive Hook
  | ret
  | close (next : Hook)
  | isClosed (next : Bool → Hook)
  | call (op : Operation) (next : ℕ → Hook)

structure Setup where
  config : Config
  /-- The underlay that `NewChannel` is given. -/
  first : Underlay
  validUnderlayTypes : List GoString
  /-- The number of listeners for underlay events, besides the channel itself. -/
  listeners : ℕ
  peekHandlers : List Hook
  closeHandlers : List Hook

/-- What `Close` runs, in order. -/
def Setup.hooks (setup : Setup) : List Hook := setup.peekHandlers ++ setup.closeHandlers

/-- What a listener, or the dial policy, is told.  Listener zero is the channel. -/
inductive Notice
  | added (listener : ℕ) (u : Underlay)
  | removed (listener : ℕ) (u : Underlay)
  /-- `UnderlayClosed` of the dial policy. -/
  | underlayClosed (underlayType : GoString) (u : Underlay)
  deriving DecidableEq

/-! ### Routines -/

/-- `Underlays.Add`. -/
inductive AddPc
  | append
  /-- Before telling the listener with this number. -/
  | notify (listener : ℕ)
  deriving DecidableEq

/-- `NewChannel`, from the call of the binder on. -/
inductive NewPc
  | bind
  | add (pc : AddPc)
  | startMultiplex
  /-- Before starting the first `applyConstraints`. -/
  | applyConstraints
  deriving DecidableEq

/-- `AcceptUnderlay`. -/
inductive AcceptPc
  | lock
  | check
  /-- Before closing the underlay. -/
  | refuse
  /-- Before storing the underlay as fallback. -/
  | store
  | add (pc : AddPc)
  | startMultiplex
  | unlock (accepted : Bool)
  deriving DecidableEq

/-- `closeUnderlay`, with `Underlays.Remove` and the channel's own `UnderlayRemoved` in it. -/
inductive CloseUnderlayPc
  | close
  | remove
  /-- Before telling the listener with this number. -/
  | notify (listener : ℕ)
  /-- In `UnderlayRemoved`: before telling the dial policy. -/
  | dialPolicy
  /-- In `UnderlayRemoved`: before closing a simple channel or starting `applyConstraints`. -/
  | respond
  /-- In `UnderlayRemoved`: in `Close`, or just after it. -/
  | closing
  | lock
  /-- Before loading the fallback. -/
  | loadFallback
  /-- The fallback is the closed underlay: before looking for another. -/
  | getAll
  /-- Before storing another one as fallback. -/
  | store (lastUnderlay : Underlay)
  | unlock
  deriving DecidableEq

/-- A constraint with its type. -/
abbrev Entry := Sigma fun _ : GoString => UnderlayConstraint

/-- `applyConstraints`, with `dialUnderlay` in it. -/
inductive ApplyPc
  | guard
  | isClosed
  /-- Before `checkConstraintsValid`. -/
  | checkValid
  /-- The check failed: in `Close`, or just after it. -/
  | closing
  | compareAndSwap
  | dialPolicy
  /-- At the head of the loop. -/
  | loop
  | getCounts
  /-- In the range over the constraints, with those that are left. -/
  | range (counts : Tally GoString) (todo : List Entry) (allSatisfied : Bool)
  /-- In `dialUnderlay`: before looking whether there are underlays. -/
  | isFirst (underlayType : GoString) (counts : Tally GoString) (todo : List Entry)
  /-- In the dial policy. -/
  | dial (underlayType : GoString) (isFirst : Bool) (counts : Tally GoString) (todo : List Entry)
  /-- In `AcceptUnderlay`, with the dialed underlay. -/
  | accept (u : Underlay) (pc : AcceptPc) (counts : Tally GoString) (todo : List Entry)
  /-- In the deferred function: before resetting the flag. -/
  | release
  /-- In the deferred function: before looking whether the channel is closed. -/
  | recheck
  /-- In the deferred function: before `areConstraintDesiresSatisfied`. -/
  | desires

/-- Where a goroutine is, apart from calls of `Close`. -/
inductive Routine
  | idle
  | newChannel (pc : NewPc)
  | acceptUnderlay (u : Underlay) (pc : AcceptPc)
  | rxer (u : Underlay)
  | txer (u : Underlay)
  | closeUnderlay (u : Underlay) (pc : CloseUnderlayPc)
  | applyConstraints (pc : ApplyPc)

def Routine.isIdle : Routine → Bool
  | .idle => true
  | _ => false

/-- `Close`. -/
inductive ClosePc
  | lock
  | compareAndSet
  /-- Before closing `closeNotify`. -/
  | closeNotify
  /-- Before the hook with this number. -/
  | nextHook (i : ℕ)
  /-- In the hook with this number. -/
  | hook (i : ℕ) (h : Hook)
  | getAll
  /-- The underlays that are left to close. -/
  | closeAll (us : List Underlay)
  /-- `first` tells whether this call has closed the channel. -/
  | unlock (first : Bool)

/-! ### The state -/

structure State where
  ch : ChannelImpl
  /-- The goroutine that holds the channel's lock. -/
  lock : Option ℕ
  applyInProgress : Bool
  routines : ℕ → Routine
  /-- The calls of `Close` that a goroutine is in, the innermost first. -/
  closes : ℕ → List ClosePc
  /-- Whether `NewChannel` has returned. -/
  returned : Bool
  /-- The underlays with which the channel was made or `AcceptUnderlay` was called. -/
  offered : List Underlay
  added : List Underlay
  removed : List Underlay
  notices : List Notice
  /-- How often `closeNotify` was closed. -/
  closeNotifies : ℕ
  /-- The hooks that were called. -/
  hookCalls : List ℕ
  /-- The results of `AcceptUnderlay`: whether the underlay was accepted. -/
  results : List (Underlay × Bool)
  /-- How many calls of `Close` have returned. -/
  closeReturns : ℕ

/-- Whether a goroutine is free to be started. -/
def State.idle (s : State) (g : ℕ) : Bool := (s.routines g).isIdle && (s.closes g).isEmpty

/-- What a step of a goroutine does, besides moving it. -/
inductive Effect
  | quiet
  | lock
  | unlock
  /-- `AcceptUnderlay` unlocks and returns. -/
  | acceptReturned (u : Underlay) (accepted : Bool)
  | store (u : Underlay)
  | append (u : Underlay)
  | remove (u : Underlay)
  | notice (n : Notice)
  /-- Two goroutines are started for an underlay. -/
  | startMultiplex (u : Underlay) (rx tx : ℕ)
  /-- `applyConstraints` is started. -/
  | spawn (g : ℕ)
  /-- It is started by `NewChannel`, which returns. -/
  | newReturned (g : ℕ)
  | closeConn (u : Underlay)
  | callClose
  | setClosed
  | closeNotify
  | hook (i : ℕ)
  /-- `Close` unlocks and returns. -/
  | closeReturned
  | setApplyInProgress (b : Bool)
  | offer (u : Underlay)

/-- What decides how a goroutine goes on. -/
inductive Action
  | go
  /-- The goroutines to be started for an underlay. -/
  | start (rx tx : ℕ)
  /-- The goroutine to be started. -/
  | spawn (g : ℕ)
  /-- The order in which the constraints are visited. -/
  | order (entries : List Entry)
  /-- The dial policy returns an underlay, or an error. -/
  | dialed (result : Option Underlay)
  /-- What an operation means to the hook that called it. -/
  | answer (n : ℕ)

/-- Whether a step with this effect can happen: the lock is free, if it is to be taken, and
goroutines that are to be started are idle. -/
def Effect.enabled (s : State) (g : ℕ) : Effect → Bool
  | .lock => s.lock.isNone
  | .spawn g' | .newReturned g' => decide (g' ≠ g) && s.idle g'
  | .startMultiplex _ rx tx =>
      decide (rx ≠ g) && decide (tx ≠ g) && decide (rx ≠ tx) && s.idle rx && s.idle tx
  | _ => true

namespace State

/-- What an effect of goroutine `g` does. -/
def apply (s : State) (g : ℕ) : Effect → State
  | .quiet => s
  | .lock => { s with lock := some g }
  | .unlock => { s with lock := none }
  | .acceptReturned u accepted =>
      { s with
        lock := none
        results := s.results ++ [(u, accepted)] }
  | .store u => { s with ch := { s.ch with fallbackUnderlay := u } }
  | .append u =>
      { s with
        ch := s.ch.addUnderlay u
        added := s.added ++ [u] }
  | .remove u =>
      { s with
        ch := s.ch.removeUnderlay u
        removed := s.removed ++ [u] }
  | .notice n => { s with notices := s.notices ++ [n] }
  | .startMultiplex u rx tx =>
      { s with
        ch := s.ch.startMultiplex u
        routines := Function.update (Function.update s.routines rx (.rxer u)) tx (.txer u) }
  | .spawn g' =>
      { s with routines := Function.update s.routines g' (.applyConstraints .guard) }
  | .newReturned g' =>
      { s with
        routines := Function.update s.routines g' (.applyConstraints .guard)
        returned := true }
  | .closeConn u => { s with ch := s.ch.closeConn u }
  | .callClose => { s with closes := Function.update s.closes g (.lock :: s.closes g) }
  | .setClosed => { s with ch := { s.ch with closed := true } }
  | .closeNotify =>
      { s with
        ch := { s.ch with closeNotify := true }
        closeNotifies := s.closeNotifies + 1 }
  | .hook i => { s with hookCalls := s.hookCalls ++ [i] }
  | .closeReturned =>
      { s with
        lock := none
        closeReturns := s.closeReturns + 1 }
  | .setApplyInProgress b => { s with applyInProgress := b }
  | .offer u => { s with offered := s.offered ++ [u] }

def setRoutine (s : State) (g : ℕ) (r : Routine) : State :=
  { s with routines := Function.update s.routines g r }

def setCloses (s : State) (g : ℕ) (ps : List ClosePc) : State :=
  { s with closes := Function.update s.closes g ps }

end State

/-! ### The functions of the source -/

instance (ch : ChannelImpl) (u : Underlay) : Decidable (ch.Admits u) :=
  inferInstanceAs (Decidable (_ ∧ _ ∧ _))

section

variable (setup : Setup)

/-- The next step of `Underlays.Add`; without a point it returns. -/
def AddPc.next (u : Underlay) : AddPc → Option AddPc × Effect
  | .append => (some (.notify 0), .append u)
  | .notify l =>
      if l ≤ setup.listeners then (some (.notify (l + 1)), .notice (.added l u)) else (none, .quiet)

def NewPc.next : NewPc → Action → Option (Routine × Effect)
  | .bind, .go => some (.newChannel (.add .append), .quiet)
  | .add pc, .go =>
      match pc.next setup setup.first with
      | (some pc, e) => some (.newChannel (.add pc), e)
      | (none, e) => some (.newChannel .startMultiplex, e)
  | .startMultiplex, .start rx tx =>
      some (.newChannel .applyConstraints, .startMultiplex setup.first rx tx)
  | .applyConstraints, .spawn g => some (.idle, .newReturned g)
  | _, _ => none

/-- The next step of `AcceptUnderlay`; without a point it returns. -/
def AcceptPc.next (s : State) (u : Underlay) : AcceptPc → Action → Option (Option AcceptPc × Effect)
  | .lock, .go => some (some .check, .lock)
  | .check, .go => if s.ch.Admits u then some (some .store, .quiet) else some (some .refuse, .quiet)
  | .refuse, .go => some (some (.unlock false), .closeConn u)
  | .store, .go => some (some (.add .append), .store u)
  | .add pc, .go =>
      match pc.next setup u with
      | (some pc, e) => some (some (.add pc), e)
      | (none, e) => some (some .startMultiplex, e)
  | .startMultiplex, .start rx tx => some (some (.unlock true), .startMultiplex u rx tx)
  | .unlock accepted, .go => some (none, .acceptReturned u accepted)
  | _, _ => none

def CloseUnderlayPc.next (s : State) (u : Underlay) :
    CloseUnderlayPc → Action → Option (Routine × Effect)
  | .close, .go => some (.closeUnderlay u .remove, .closeConn u)
  | .remove, .go =>
      if u ∈ s.ch.underlays then some (.closeUnderlay u (.notify 0), .remove u)
      else some (.closeUnderlay u .lock, .quiet)
  -- the channel itself is the first listener
  | .notify 0, .go => some (.closeUnderlay u .dialPolicy, .notice (.removed 0 u))
  | .notify (l + 1), .go =>
      if l + 1 ≤ setup.listeners then
        some (.closeUnderlay u (.notify (l + 2)), .notice (.removed (l + 1) u))
      else some (.closeUnderlay u .lock, .quiet)
  | .dialPolicy, .go =>
      if s.ch.dialPolicy then
        some (.closeUnderlay u .respond,
          .notice (.underlayClosed (getValidatedUnderlayType setup.validUnderlayTypes u) u))
      else some (.closeUnderlay u .respond, .quiet)
  | .respond, .go =>
      if s.ch.isMultiUnderlayCapable then none
      else if s.ch.underlays.length = 0 then some (.closeUnderlay u .closing, .callClose)
      else some (.closeUnderlay u (.notify 1), .quiet)
  | .respond, .spawn g =>
      if s.ch.isMultiUnderlayCapable then some (.closeUnderlay u (.notify 1), .spawn g) else none
  | .closing, .go => some (.closeUnderlay u (.notify 1), .quiet)
  | .lock, .go => some (.closeUnderlay u .loadFallback, .lock)
  | .loadFallback, .go =>
      if s.ch.fallbackUnderlay = u then some (.closeUnderlay u .getAll, .quiet)
      else some (.closeUnderlay u .unlock, .quiet)
  | .getAll, .go =>
      match s.ch.underlays.getLast? with
      | some lastUnderlay => some (.closeUnderlay u (.store lastUnderlay), .quiet)
      | none => some (.closeUnderlay u .unlock, .quiet)
  | .store lastUnderlay, .go => some (.closeUnderlay u .unlock, .store lastUnderlay)
  | .unlock, .go => some (.idle, .unlock)
  | _, _ => none

def ApplyPc.next (s : State) : ApplyPc → Action → Option (Routine × Effect)
  | .guard, .go =>
      if s.ch.constraints.entries.card = 0 ∧ s.ch.minTotalUnderlays = 0 then some (.idle, .quiet)
      else some (.applyConstraints .isClosed, .quiet)
  | .isClosed, .go =>
      if s.ch.closed then some (.idle, .quiet) else some (.applyConstraints .checkValid, .quiet)
  | .checkValid, .go =>
      if countsShowValidState s.ch.constraints s.ch.minTotalUnderlays
          (countsByType s.ch.underlays) then
        some (.applyConstraints .compareAndSwap, .quiet)
      else some (.applyConstraints .closing, .callClose)
  | .closing, .go => some (.idle, .quiet)
  | .compareAndSwap, .go =>
      if s.applyInProgress then some (.idle, .quiet)
      else some (.applyConstraints .dialPolicy, .setApplyInProgress true)
  | .dialPolicy, .go =>
      if s.ch.dialPolicy then some (.applyConstraints .loop, .quiet)
      else some (.applyConstraints .release, .quiet)
  | .loop, .go =>
      if s.ch.closed then some (.applyConstraints .release, .quiet)
      else some (.applyConstraints .getCounts, .quiet)
  | .getCounts, .order entries =>
      let counts := countsByType s.ch.underlays
      if countsShowValidState s.ch.constraints s.ch.minTotalUnderlays counts then
        if (entries : Multiset Entry) = s.ch.constraints.entries then
          some (.applyConstraints (.range counts entries true), .quiet)
        else none
      -- `Close` is called, and the loop left
      else some (.applyConstraints .release, .callClose)
  | .range counts (entry :: todo) allSatisfied, .go =>
      if entry.2.desired > counts.count entry.1 then
        some (.applyConstraints (.isFirst entry.1 counts todo), .quiet)
      else some (.applyConstraints (.range counts todo allSatisfied), .quiet)
  | .range _ [] true, .go => some (.applyConstraints .release, .quiet)
  | .range _ [] false, .go => some (.applyConstraints .loop, .quiet)
  | .isFirst underlayType counts todo, .go =>
      let isFirst := decide (s.ch.underlays.length = 0)
      some (.applyConstraints (.dial underlayType isFirst counts todo), .quiet)
  | .dial _ _ counts todo, .dialed none =>
      some (.applyConstraints (.range counts todo false), .quiet)
  | .dial _ _ counts todo, .dialed (some u) =>
      some (.applyConstraints (.accept u .lock counts todo), .offer u)
  | .accept u pc counts todo, a =>
      match pc.next setup s u a with
      | some (some pc, e) => some (.applyConstraints (.accept u pc counts todo), e)
      | some (none, e) => some (.applyConstraints (.range counts todo false), e)
      | none => none
  | .release, .go => some (.applyConstraints .recheck, .setApplyInProgress false)
  | .recheck, .go =>
      if s.ch.dialPolicy ∧ s.ch.closed = false then some (.applyConstraints .desires, .quiet)
      else some (.idle, .quiet)
  | .desires, .go =>
      if areConstraintDesiresSatisfied s.ch.constraints (countsByType s.ch.underlays) then
        some (.idle, .quiet)
      else none
  | .desires, .spawn g =>
      if areConstraintDesiresSatisfied s.ch.constraints (countsByType s.ch.underlays) then none
      else some (.idle, .spawn g)
  | _, _ => none

def Routine.next (s : State) : Routine → Action → Option (Routine × Effect)
  | .idle, _ => none
  | .newChannel pc, a => pc.next setup a
  | .acceptUnderlay u pc, a =>
      match pc.next setup s u a with
      | some (some pc, e) => some (.acceptUnderlay u pc, e)
      | some (none, e) => some (.idle, e)
      | none => none
  -- the loops end with an error, and `closeUnderlay` is deferred
  | .rxer u, .go => some (.closeUnderlay u .close, .quiet)
  | .txer u, .go => some (.closeUnderlay u .close, .quiet)
  | .rxer _, _ => none
  | .txer _, _ => none
  | .closeUnderlay u pc, a => pc.next setup s u a
  | .applyConstraints pc, a => pc.next setup s a

/-- The next step of `Close`: the points that take the place of this one. -/
def ClosePc.next (s : State) : ClosePc → Action → Option (List ClosePc × Effect)
  | .lock, .go => some ([.compareAndSet], .lock)
  | .compareAndSet, .go =>
      if s.ch.closed then some ([.unlock false], .quiet) else some ([.closeNotify], .setClosed)
  | .closeNotify, .go => some ([.nextHook 0], .closeNotify)
  | .nextHook i, .go =>
      match setup.hooks[i]? with
      | some h => some ([.hook i h], .hook i)
      | none => some ([.getAll], .quiet)
  | .hook i .ret, .go => some ([.nextHook (i + 1)], .quiet)
  | .hook i (.close h), .go => some ([.lock, .hook i h], .quiet)
  | .hook i (.isClosed h), .go => some ([.hook i (h s.ch.closed)], .quiet)
  | .hook i (.call _ h), .answer n => some ([.hook i (h n)], .quiet)
  | .getAll, .go => some ([.closeAll s.ch.underlays], .quiet)
  | .closeAll (u :: us), .go => some ([.closeAll us], .closeConn u)
  | .closeAll [], .go => some ([.unlock true], .quiet)
  | .unlock _, .go => some ([], .closeReturned)
  | _, _ => none

/-! ### The system -/

inductive Event
  /-- A step of a goroutine in its routine. -/
  | run (g : ℕ) (a : Action)
  /-- A step of a goroutine in the innermost `Close`. -/
  | close (g : ℕ) (a : Action)
  /-- Somebody calls `AcceptUnderlay`. -/
  | callAccept (g : ℕ) (u : Underlay)
  /-- Somebody calls `Close`. -/
  | callClose (g : ℕ)

def step (s : State) : Event → Option State
  | .run g a =>
      match s.closes g with
      | _ :: _ => none
      | [] =>
          match (s.routines g).next setup s a with
          | none => none
          | some (r, e) => if e.enabled s g then some ((s.setRoutine g r).apply g e) else none
  | .close g a =>
      match s.closes g with
      | [] => none
      | pc :: rest =>
          match pc.next setup s a with
          | none => none
          | some (pcs, e) =>
              if e.enabled s g then some ((s.setCloses g (pcs ++ rest)).apply g e) else none
  | .callAccept g u =>
      if s.idle g then
        some { s.setRoutine g (.acceptUnderlay u .lock) with offered := s.offered ++ [u] }
      else none
  | .callClose g => if s.idle g then some (s.setCloses g [.lock]) else none

/-- A channel that `NewChannel` has begun to make: its binder is about to be called. -/
def channel : System State Event where
  init :=
    { ch := setup.config.impl setup.first
      lock := none
      applyInProgress := false
      routines := Function.update (fun _ => .idle) 0 (.newChannel .bind)
      closes := fun _ => []
      returned := false
      offered := [setup.first]
      added := []
      removed := []
      notices := []
      closeNotifies := 0
      hookCalls := []
      results := []
      closeReturns := 0 }
  step := step setup

end

end ZitiChannel.Concurrent
