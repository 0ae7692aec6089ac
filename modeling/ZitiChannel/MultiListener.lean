import ZitiChannel.ChannelImpl
import ZitiChannel.Lib.Transition

/-!
# The multi-underlay listener

Every incoming underlay is one call of `AcceptUnderlay`.  A call looks its group id
up, attaches to the registered channel, waits for the call that is creating it, or
creates the channel itself, under a reservation that the other calls see.  The calls
run concurrently and share two maps, a lock, and the closed flags of registrations,
which the close callbacks of channels set without the lock.

The model interleaves all of these at the grain of the source's own steps.  A
critical section that reads a closed flag or asks a channel whether it is closed is
several steps with the lock held in between; one that touches only what the lock
protects is a single step, taken when the lock is free.

A call makes at most one notifier and at most one registration, and its `Factory`
at most one channel, so all three go by the number of the call.

## Main definitions

* `Pc`, `Call` — where a call stands, and what belongs to it.
* `callStep` — the next step of a call, with its effect on the shared state.
* `Listener`, `Listener.step` — the whole system, with channels that live their own
  lives and close callbacks that run whenever they like.
* `multiListener`, `Promise` — the transition system, and what the interfaces
  promise of channels and callbacks.

## Main results

* `next_moves` — what a call holds before and after each effect.
* `Listener.step_cases`, `multiListener_invariant` — case analysis on a step, and the
  induction rule over reachable states.

The source is `multi_listener.go`.
-/

namespace ZitiChannel

open ByteStream

/-! ### What belongs to a call -/

/-- What happens to an underlay during a call. -/
inductive UnderlayEvent
  | ackHello
  | acked
  | negativeResult
  | toFallback
  | toFactory
  | toChannel
  /-- The party it was handed to returned without an error. -/
  | accepted
  | close
  deriving DecidableEq

/-- What a call does once its reservation is released. -/
inductive Exit
  | ret
  | close
  | reject (reason : GoString)
  deriving DecidableEq

/-- Where a call stands. -/
inductive Pc
  | idle
  /-- Ungrouped: in `ackHello`. -/
  | ungroupedAck
  /-- Ungrouped: in the fallback. -/
  | fallback
  /-- Before taking the lock at the head of the loop. -/
  | lookup
  /-- Locked, with a registration found: before loading its closed flag. -/
  | loadFlag (reg : ℕ)
  /-- Locked, the flag was not set: before asking the channel. -/
  | askClosed (reg : ℕ)
  /-- Locked, and the id is unregistered. -/
  | unregistered
  /-- Waiting for another call's notifier. -/
  | waiting (notifier : ℕ)
  | admitting
  /-- In `ackHello`, for a registered channel or, with `none`, for one to be created. -/
  | acking (reg : Option ℕ)
  /-- Before offering the underlay to a channel. -/
  | attaching (reg : ℕ)
  | creating
  /-- The `Factory` failed: before closing the underlay. -/
  | factoryFailed
  /-- Before taking the lock to register the new channel. -/
  | publish
  /-- Locked: before loading the new registration's flag. -/
  | publishLoad
  /-- Locked, the flag was not set: before asking the new channel. -/
  | publishAsk
  /-- Before releasing the reservation. -/
  | releasing (exit : Exit)
  | closing
  | rejecting (reason : GoString)
  | returned
  deriving DecidableEq

/-- Whether the call is inside a critical section of several steps. -/
def Pc.locked : Pc → Bool
  | .loadFlag _ | .askClosed _ | .unregistered | .publishLoad | .publishAsk => true
  | _ => false

/-- Whether the call holds the reservation of its id: it made its notifier and has
not released it. -/
def Pc.holds : Pc → Bool
  | .admitting | .acking none | .creating | .factoryFailed | .publish | .publishLoad
  | .publishAsk | .releasing _ => true
  | _ => false

/-- How far the `Factory` of a call has come. -/
inductive FactoryState
  | notCalled
  | running
  | ok
  /-- Returned an error, or neither a channel nor an error. -/
  | failed
  deriving DecidableEq

/-- A call of `AcceptUnderlay`, with its notifier. -/
structure Call where
  pc : Pc
  log : List UnderlayEvent
  reserved : Bool
  /-- How often its notifier was closed. -/
  notifierCloses : ℕ
  factory : FactoryState
  deriving DecidableEq

namespace Call

def fresh : Call := ⟨.idle, [], false, 0, .notCalled⟩

@[simp] def goto (c : Call) (pc : Pc) : Call := { c with pc := pc }

/-- Record what happened to the underlay. -/
@[simp] def note (c : Call) (es : List UnderlayEvent) : Call := { c with log := c.log ++ es }

@[simp] def reserve (c : Call) : Call := { c with reserved := true }

@[simp] def closeNotifier (c : Call) : Call := { c with notifierCloses := c.notifierCloses + 1 }

@[simp] def ack (c : Call) (reg : Option ℕ) : Call := (c.note [.ackHello]).goto (.acking reg)

end Call

/-! ### The shared state -/

/-- The listener's record of a channel: the channel that the call's `Factory` built,
from the moment there is one, and the flag that the close callback sets. -/
structure Registration where
  ch : Option ChannelImpl
  /-- Whether the close callback ran. -/
  closed : Bool

/-- Whether the channel says it is closed. -/
def Registration.isClosed (reg : Registration) : Bool := reg.ch.any (·.closed)

/-- A run of `closeRegistration` for one registration. -/
inductive Callback
  /-- The flag is set; it waits for the lock. -/
  | marked (reg : ℕ)
  | returned (reg : ℕ)
  deriving DecidableEq

/-- The listener and all calls. -/
structure Listener where
  /-- Which call is inside a critical section. -/
  lock : Option ℕ
  channels : GoString → Option ℕ
  createNotifiers : GoString → Option ℕ
  calls : ℕ → Call
  registrations : ℕ → Registration
  callbacks : ℕ → Option Callback

/-- What does not change while the listener runs. -/
structure ListenerSetup where
  underlay : ℕ → Underlay
  admitter : Bool

namespace ListenerSetup

variable (setup : ListenerSetup)

/-- The group id of a call's underlay. -/
def chId (t : ℕ) : GoString := (setup.underlay t).connectionId

/-- Whether its hello says it is grouped. -/
def isGrouped (t : ℕ) : Bool := ((setup.underlay t).headers.getBoolHeader isGroupedHeader).1

/-- Whether its hello says it is the first of its group. -/
def isFirst (t : ℕ) : Bool := ((setup.underlay t).headers.getBoolHeader isFirstGroupConnection).1

end ListenerSetup

/-- What a step of a call does to the shared state. -/
inductive Effect
  | quiet
  | lock
  | unlock
  /-- Delete the registration of the call's id, with the lock held. -/
  | evict
  /-- Enter the call's notifier and drop the lock. -/
  | reserve
  /-- Enter the call's registration and drop the lock. -/
  | publish
  /-- Take the lock, delete the notifier of the call's id, and drop the lock. -/
  | release
  /-- The channel of a registration is built, or was offered an underlay. -/
  | channel (reg : ℕ) (ch : ChannelImpl)

/-- Whether a step with this effect has to wait for the lock. -/
def Effect.takesLock : Effect → Bool
  | .lock | .release => true
  | _ => false

/-- What decides how a call goes on. -/
inductive CallAction
  | go
  /-- The function it is in returns. -/
  | ret (err : Option GoString)
  /-- The `Factory` returns neither a channel nor an error. -/
  | retNil
  /-- The `Factory` has a channel, which it may go on using. -/
  | build (ch : ChannelImpl)
  /-- A second has passed. -/
  | timeout

section

variable (setup : ListenerSetup)

/-- What a channel did with an underlay offered to it: returned without error, or
called `Close` on it. -/
def offerEvents (u : Underlay) (before after : ChannelImpl) (err : Option GoString) :
    List UnderlayEvent :=
  (if err.isNone then [.accepted] else []) ++
    ((after.closeCalls.drop before.closeCalls.length).filter (· = u)).map fun _ => .close

/-- The next step of call `t`, which is in state `c` at a given point. -/
def next (s : Listener) (t : ℕ) (c : Call) : Pc → CallAction → Option (Call × Effect)
  | .idle, .go =>
      if setup.isGrouped t then some (c.goto .lookup, .quiet)
      else some ((c.note [.ackHello]).goto .ungroupedAck, .quiet)
  | .ungroupedAck, .ret none => some ((c.note [.acked, .toFallback]).goto .fallback, .quiet)
  | .ungroupedAck, .ret (some _) => some (c.goto .closing, .quiet)
  | .fallback, .ret none => some ((c.note [.accepted]).goto .returned, .quiet)
  | .fallback, .ret (some _) => some (c.goto .closing, .quiet)
  | .lookup, .go =>
      match s.channels (setup.chId t) with
      | some reg => some (c.goto (.loadFlag reg), .lock)
      | none => some (c.goto .unregistered, .lock)
  | .loadFlag reg, .go =>
      if (s.registrations reg).closed then some (c.goto .unregistered, .evict)
      else some (c.goto (.askClosed reg), .quiet)
  | .askClosed reg, .go =>
      if (s.registrations reg).isClosed then some (c.goto .unregistered, .evict)
      -- no notifier was made, so the admitter is not asked
      else some (c.ack (some reg), .unlock)
  | .unregistered, .go =>
      match s.createNotifiers (setup.chId t) with
      | some n => some (c.goto (.waiting n), .unlock)
      | none =>
          if setup.isFirst t then
            if setup.admitter then some (c.reserve.goto .admitting, .reserve)
            else some (c.reserve.ack none, .reserve)
          else some (c.goto .closing, .unlock)
  | .waiting n, .go =>
      if 0 < (s.calls n).notifierCloses then some (c.goto .lookup, .quiet) else none
  | .waiting _, .timeout => some (c.goto .closing, .quiet)
  | .admitting, .ret none => some (c.ack none, .quiet)
  | .admitting, .ret (some reason) => some (c.goto (.releasing (.reject reason)), .quiet)
  | .acking (some reg), .ret none =>
      some ((c.note [.acked, .toChannel]).goto (.attaching reg), .quiet)
  | .acking none, .ret none =>
      some ({ (c.note [.acked, .toFactory]).goto .creating with factory := .running }, .quiet)
  | .acking (some _), .ret (some _) => some (c.goto .closing, .quiet)
  | .acking none, .ret (some _) => some (c.goto (.releasing .close), .quiet)
  | .attaching reg, .go =>
      match (s.registrations reg).ch with
      | none => none
      | some ch =>
          let u := setup.underlay t
          let (ch', err) := ch.acceptUnderlay u
          some ((c.note (offerEvents u ch ch' err)).goto .returned, .channel reg ch')
  | .creating, .build ch =>
      if (s.registrations t).ch.isNone then some (c, .channel t ch) else none
  | .creating, .ret none =>
      if (s.registrations t).ch.isSome then
        some ({ (c.note [.accepted]).goto .publish with factory := .ok }, .quiet)
      else none
  | .creating, .ret (some _) => some ({ c.goto .factoryFailed with factory := .failed }, .quiet)
  | .creating, .retNil => some ({ c.goto .factoryFailed with factory := .failed }, .quiet)
  | .factoryFailed, .go => some ((c.note [.close]).goto (.releasing .ret), .quiet)
  | .publish, .go => some (c.goto .publishLoad, .lock)
  | .publishLoad, .go =>
      if (s.registrations t).closed then some (c.goto (.releasing .ret), .unlock)
      else some (c.goto .publishAsk, .quiet)
  | .publishAsk, .go =>
      if (s.registrations t).isClosed then some (c.goto (.releasing .ret), .unlock)
      else some (c.goto (.releasing .ret), .publish)
  | .releasing .ret, .go => some (c.closeNotifier.goto .returned, .release)
  | .releasing .close, .go => some (c.closeNotifier.goto .closing, .release)
  | .releasing (.reject reason), .go => some (c.closeNotifier.goto (.rejecting reason), .release)
  | .closing, .go => some ((c.note [.close]).goto .returned, .quiet)
  -- the result is sent or not, and the underlay is closed in either case
  | .rejecting _, .go => some ((c.note [.negativeResult, .close]).goto .returned, .quiet)
  | _, _ => none

def callStep (s : Listener) (t : ℕ) (a : CallAction) : Option (Call × Effect) :=
  next setup s t (s.calls t) (s.calls t).pc a

/-! ### The whole system -/

namespace Listener

def setCall (s : Listener) (t : ℕ) (c : Call) : Listener :=
  { s with calls := Function.update s.calls t c }

def setChannel (s : Listener) (reg : ℕ) (ch : ChannelImpl) : Listener :=
  { s with
    registrations := Function.update s.registrations reg
      { s.registrations reg with ch := some ch } }

/-- What an effect of call `t` does. -/
def apply (s : Listener) (t : ℕ) : Effect → Listener
  | .quiet => s
  | .lock => { s with lock := some t }
  | .unlock => { s with lock := none }
  | .evict => { s with channels := Function.update s.channels (setup.chId t) none }
  | .reserve =>
      { s with
        createNotifiers := Function.update s.createNotifiers (setup.chId t) (some t)
        lock := none }
  | .publish =>
      { s with
        channels := Function.update s.channels (setup.chId t) (some t)
        lock := none }
  | .release =>
      { s with createNotifiers := Function.update s.createNotifiers (setup.chId t) none }
  | .channel reg ch => s.setChannel reg ch

/-- The start of `closeRegistration`, as run `k`: it sets the flag of registration `t`. -/
def mark (s : Listener) (k t : ℕ) : Listener :=
  { s with
    registrations := Function.update s.registrations t { s.registrations t with closed := true }
    callbacks := Function.update s.callbacks k (some (.marked t)) }

/-- The rest of `closeRegistration`, under the lock: it deletes the registration, if
that is the registered one. -/
def closeRegistration (s : Listener) (k t : ℕ) : Listener :=
  { s with
    channels := if s.channels (setup.chId t) = some t then
        Function.update s.channels (setup.chId t) none
      else s.channels
    callbacks := Function.update s.callbacks k (some (.returned t)) }

/-- What can happen. -/
inductive Action
  | call (t : ℕ) (a : CallAction)
  /-- Something happens to the channel that call `t` built. -/
  | channel (t : ℕ) (st : LifeStep)
  /-- The close callback of call `t`'s registration runs, as run `k`: it sets the flag. -/
  | callback (k t : ℕ)
  /-- Run `k` of a close callback takes the lock, deletes its registration if that is
  the registered one, and returns. -/
  | unregister (k : ℕ)

def step (s : Listener) : Action → Option Listener
  | .call t a =>
      match callStep setup s t a with
      | some (c, e) =>
          if e.takesLock ∧ s.lock.isSome then none else some ((s.setCall t c).apply setup t e)
      | none => none
  | .channel t st =>
      match (s.registrations t).ch with
      | some ch => some (s.setChannel t (ch.live st))
      | none => none
  | .callback k t =>
      -- only the `Factory` ever gets hold of the callback
      if (s.callbacks k).isNone ∧ (s.calls t).factory ≠ .notCalled then
        some (s.mark k t)
      else none
  | .unregister k =>
      match s.callbacks k with
      | some (.marked t) =>
          if s.lock.isNone then some (s.closeRegistration setup k t) else none
      | _ => none

end Listener

/-- The listener as a transition system: no channels, no reservations, no calls. -/
def multiListener : Transition.System Listener Listener.Action where
  init := ⟨none, fun _ => none, fun _ => none, fun _ => .fresh, fun _ => ⟨none, false⟩, fun _ => none⟩
  step := Listener.step setup

end

/-- What the interfaces promise: a close callback runs only for a closed channel. -/
def Promise (s : Listener) : Listener.Action → Prop
  | .callback _ t => (s.registrations t).isClosed = true
  | _ => True

instance (s : Listener) : DecidablePred (Promise s) := fun a =>
  match a with
  | .callback _ t => inferInstanceAs (Decidable ((s.registrations t).isClosed = true))
  | .call _ _ | .channel _ _ | .unregister _ => inferInstanceAs (Decidable True)

/-! ### What a step does -/

/-- What a call holds, the lock and its reservation, before and after a step with a
given effect. -/
def Effect.Moves (before after : Pc) : Effect → Prop
  | .quiet | .channel _ _ => after.locked = before.locked ∧ after.holds = before.holds
  | .lock => after.locked = true ∧ after.holds = before.holds
  | .unlock => before.locked = true ∧ after.locked = false ∧ after.holds = before.holds
  | .evict =>
      before.locked = true ∧ after.locked = true ∧ after.holds = before.holds
  | .reserve =>
      before.locked = true ∧ after.locked = false ∧ before.holds = false ∧ after.holds = true
  | .publish =>
      before.locked = true ∧ after.locked = false ∧ before.holds = true ∧ after.holds = true
  | .release => after.locked = before.locked ∧ before.holds = true ∧ after.holds = false

section

variable {setup : ListenerSetup} {s s' : Listener} {t : ℕ} {a : CallAction} {e : Effect}

theorem next_moves {c c' : Call} {pc : Pc} (hpc : c.pc = pc)
    (h : next setup s t c pc a = some (c', e)) : e.Moves pc c'.pc := by
  revert h
  fun_cases next setup s t c pc a
  all_goals intro h; cases h
  all_goals simp [Effect.Moves, Pc.locked, Pc.holds, hpc]

/-- What becomes of the registration of the call's own id. -/
def Effect.entry (t : ℕ) (old : Option ℕ) : Effect → Option ℕ
  | .evict => none
  | .publish => some t
  | _ => old

/-- A reservation is entered only where there is none. -/
theorem next_reserve {c c' : Call} {pc : Pc} (h : next setup s t c pc a = some (c', .reserve)) :
    s.createNotifiers (setup.chId t) = none := by
  revert h
  fun_cases next setup s t c pc a
  all_goals intro h; cases h
  all_goals assumption

/-- A call touches a channel when its own `Factory` builds it, or by offering it an
underlay. -/
theorem next_channel {c c' : Call} {pc : Pc} {reg : ℕ} {ch' : ChannelImpl}
    (h : next setup s t c pc a = some (c', .channel reg ch')) :
    (pc = .creating ∧ a = .build ch' ∧ reg = t ∧ (s.registrations t).ch = none ∧ c' = c) ∨
      (pc = .attaching reg ∧ ∃ ch, (s.registrations reg).ch = some ch ∧
        ch' = (ch.acceptUnderlay (setup.underlay t)).1) := by
  revert h
  fun_cases next setup s t c pc a
  all_goals intro h; cases h
  · next ch _ u _ hoffer => exact Or.inr ⟨rfl, ch, by assumption, by rw [hoffer]⟩
  · exact Or.inl ⟨rfl, rfl, rfl, by simp_all, rfl⟩

namespace Listener

variable {c : Call} {u : ℕ}

@[simp] theorem setCall_calls_self : (s.setCall t c).calls t = c := by simp [setCall]

theorem setCall_calls_of_ne (h : u ≠ t) : (s.setCall t c).calls u = s.calls u := by
  simp [setCall, h]

@[simp] theorem setCall_lock : (s.setCall t c).lock = s.lock := rfl

@[simp] theorem setCall_channels : (s.setCall t c).channels = s.channels := rfl

@[simp] theorem setCall_createNotifiers : (s.setCall t c).createNotifiers = s.createNotifiers := rfl

@[simp] theorem setCall_registrations : (s.setCall t c).registrations = s.registrations := rfl

@[simp] theorem apply_calls : (s.apply setup t e).calls = s.calls := by
  cases e <;> rfl

theorem apply_channels (id : GoString) : (s.apply setup t e).channels id =
    if id = setup.chId t then e.entry t (s.channels id) else s.channels id := by
  cases e <;> simp [apply, setChannel, Effect.entry, Function.update_apply]

@[simp] theorem apply_callbacks : (s.apply setup t e).callbacks = s.callbacks := by
  cases e <;> rfl

/-- A close callback deletes its own registration and nothing else. -/
theorem closeRegistration_channels (setup : ListenerSetup) (s : Listener) (k t : ℕ)
    (id : GoString) :
    (s.closeRegistration setup k t).channels id = s.channels id ∨
      (s.channels id = some t ∧ (s.closeRegistration setup k t).channels id = none) := by
  simp only [closeRegistration]
  split
  · next ht =>
    rcases eq_or_ne id (setup.chId t) with rfl | hid
    · exact Or.inr ⟨ht, Function.update_self ..⟩
    · exact Or.inl (Function.update_of_ne hid ..)
  · exact Or.inl rfl

end Listener

/-- What a step can be: a step of a call, a step in the life of a channel, or one of the
two steps of a close callback. -/
theorem Listener.step_cases {act : Listener.Action} {P : Listener → Prop}
    (h : (multiListener setup).step s act = some s')
    (call : ∀ t a c e, act = .call t a → callStep setup s t a = some (c, e) →
      (e.takesLock = true → s.lock = none) → P ((s.setCall t c).apply setup t e))
    (channel : ∀ t ch st, act = .channel t st → (s.registrations t).ch = some ch →
      P (s.setChannel t (ch.live st)))
    (mark : ∀ k t, act = .callback k t → s.callbacks k = none →
      (s.calls t).factory ≠ .notCalled → P (s.mark k t))
    (unregister : ∀ k t, act = .unregister k → s.callbacks k = some (.marked t) →
      s.lock = none → P (s.closeRegistration setup k t)) : P s' := by
  simp only [multiListener, Listener.step] at h
  split at h
  · split at h
    · next t a _ c e hc =>
      split at h
      · cases h
      · next hlock =>
        cases h
        exact call t a c e rfl hc fun he => by simpa [he] using hlock
    · cases h
  · split at h
    · next t st _ ch hch =>
      cases h
      exact channel t ch st rfl hch
    · cases h
  · next k t =>
    split at h
    · next hk =>
      cases h
      exact mark k t rfl (by simpa using hk.1) hk.2
    · cases h
  · split at h
    · next k _ t hk =>
      split at h
      · next hl =>
        cases h
        exact unregister k t rfl hk (by simpa using hl)
      · cases h
    · cases h

/-- **The induction rule of the listener.**  A property of the initial state that every
kind of step keeps holds in every reachable state. -/
theorem multiListener_invariant {ok : Listener → Listener.Action → Prop} {P : Listener → Prop}
    (init : P (multiListener setup).init)
    (call : ∀ s t a c e, (multiListener setup).Reachable ok s → P s →
      callStep setup s t a = some (c, e) → (e.takesLock = true → s.lock = none) →
      P ((s.setCall t c).apply setup t e))
    (channel : ∀ s t ch st, P s → (s.registrations t).ch = some ch →
      P (s.setChannel t (ch.live st)))
    (mark : ∀ s k t, P s → ok s (.callback k t) → s.callbacks k = none →
      (s.calls t).factory ≠ .notCalled → P (s.mark k t))
    (unregister : ∀ s k t, (multiListener setup).Reachable ok s → P s →
      s.callbacks k = some (.marked t) → s.lock = none → P (s.closeRegistration setup k t))
    (hs : (multiListener setup).Reachable ok s) : P s := by
  refine Transition.System.Reachable.invariant_of_reachable init ?_ hs
  intro s act s' hr hP hok h
  refine Listener.step_cases h ?_ ?_ ?_ ?_
  · rintro t a c e - hc hl; exact call s t a c e hr hP hc hl
  · rintro t ch st - hch; exact channel s t ch st hP hch
  · rintro k t rfl hk hf; exact mark s k t hP hok hk hf
  · rintro k t - hk hl; exact unregister s k t hr hP hk hl

end

end ZitiChannel
