import Mathlib.Data.Set.Insert
import ZitiChannel.Lib.Locking

/-!
# The order of the locks

Three kinds of mutex: the listener's, one for each channel, and one for the collection of
underlays of each channel.  `Close` holds the channel's lock while its close handler takes the
listener's, and while it copies the collection; the listener asks a channel whether it is closed
while it holds its own lock.  Here every function that takes one of them is written down as what
it does with them, for any number of channels and goroutines, and no goroutines are ever stuck on
each other.

What the functions decide, and how often they go round a loop, is left open.

## Main definitions

* `Lock`, `Lock.Before` — the mutexes, and the order in which they are taken.
* `close`, `acceptUnderlay`, `closeUnderlay`, `applyConstraints`, `newChannel`, `listenerAccept`, … —
  the functions of the source.
* `Operation`, `locks` — what a goroutine may run, and the system of all goroutines.

## Main results

* `Operation.follows` — every function takes the locks in order.
* `no_lock_order_deadlock` — **no goroutines wait for each other.**

The sources are `impl.go`, `underlays.go` and `multi_listener.go`.
-/

namespace ZitiChannel.LockOrder

open Transition Locking

/-- The mutexes.  Channels are numbered. -/
inductive Lock
  | listener
  | channel (i : ℕ)
  | underlays (i : ℕ)
  deriving DecidableEq

/-- A channel's lock comes before the listener's, and before that of its own collection. -/
def Lock.Before : Lock → Lock → Prop
  | .channel _, .listener => True
  | .channel i, .underlays j => i = j
  | _, _ => False

theorem Lock.wellFounded_before : WellFounded (flip Lock.Before) := by
  -- nothing comes after what comes after something
  have hlast : ∀ l m n : Lock, l.Before m → ¬ m.Before n := by
    intro l m n hlm hmn
    cases l <;> cases m <;> cases n <;> simp_all [Lock.Before]
  exact ⟨fun l => ⟨l, fun m hm => ⟨m, fun n hn => absurd hn (hlast l m n hm)⟩⟩⟩

abbrev Code := Prog Lock

/-! ### The functions of the source -/

/-- `closeRegistration`, which is all that a close handler does. -/
def closeRegistration : Code := .critical .listener .skip

def releaseReservation : Code := .critical .listener .skip

/-- `IsClosed` loads a flag. -/
def isClosed : Code := .skip

/-- The lookup at the head of the loop in the listener's `AcceptUnderlay`.  A registered channel
is asked whether it is closed. -/
def lookup : Code := .critical .listener (.maybe isClosed)

/-- Registering a new channel, unless it is closed. -/
def publish : Code := .critical .listener (.maybe isClosed)

section

variable (i : ℕ)

/-- One access to the collection of underlays of a channel. -/
def access : Code := .critical (.underlays i) .skip

def getAll : Code := access i

def countsByType : Code := access i

def addListener : Code := access i

/-- What a listener for underlay events does that is not the channel: it may look at the channel's
underlays. -/
def otherListener : Code := .loop (getAll i)

def underlayAdded : Code := countsByType i

/-- `Underlays.Add`.  The channel is the first listener. -/
def add : Code := .seq (access i) (.seq (underlayAdded i) (.loop (otherListener i)))

/-- What `Close` runs: close handlers with the listener's callback, and the hooks of peek handlers,
which may look at the channel's underlays. -/
def hooks : Code := .loop (.choice closeRegistration (getAll i))

/-- `Close`.  Only the first call runs the hooks and closes the underlays. -/
def close : Code := .critical (.channel i) (.maybe (.seq (hooks i) (getAll i)))

/-- `channelImpl.AcceptUnderlay`.  All refusals come first. -/
def acceptUnderlay : Code := .critical (.channel i) (.maybe (add i))

/-- The end of `UnderlayRemoved`: a simple channel that has lost its last underlay is closed. -/
def respond : Code := .maybe (.seq (getAll i) (.maybe (close i)))

def underlayRemoved : Code := .seq (countsByType i) (respond i)

/-- `Underlays.Remove`.  The listeners hear of it only if there was something to remove. -/
def remove : Code :=
  .seq (access i) (.maybe (.seq (underlayRemoved i) (.loop (otherListener i))))

/-- The end of `closeUnderlay`: a closed underlay that is the fallback is replaced. -/
def repair : Code := .critical (.channel i) (.maybe (getAll i))

def closeUnderlay : Code := .seq (remove i) (repair i)

def dialUnderlay : Code := .seq (getAll i) (.maybe (acceptUnderlay i))

/-- One round of the loop in `applyConstraints`, with its range over the constraints. -/
def round : Code := .seq (countsByType i) (.loop (dialUnderlay i))

/-- A last round, in which the channel is found invalid. -/
def invalidRound : Code := .seq (countsByType i) (close i)

/-- The deferred function of `applyConstraints`, with `areConstraintDesiresSatisfied`. -/
def deferred : Code := .maybe (countsByType i)

/-- `applyConstraints` once it has set the flag. -/
def inProgress : Code := .seq (.seq (.loop (round i)) (.maybe (invalidRound i))) (deferred i)

/-- `applyConstraints` may return at once, may find the channel invalid and close it, and may
find the flag set. -/
def applyConstraints : Code :=
  .maybe (.seq (countsByType i) (.choice (close i) (.maybe (inProgress i))))

/-- What a bind handler may call on the channel that it is given. -/
def bind : Code := .loop (.choice (acceptUnderlay i) (.choice (close i) (getAll i)))

/-- `NewChannel` from the call of the binder on: if that fails, the channel is closed. -/
def bound : Code := .seq (bind i) (.choice (close i) (add i))

/-- `NewChannel`, which registers listeners unless it rejects its configuration. -/
def newChannel : Code := .maybe (.seq (.again (addListener i)) (bound i))

end

section

variable (i j : ℕ)

/-- With the reservation: the underlay may be refused, or its hello not acknowledged.  Otherwise
the `Factory` makes channel `j`, which is registered if there was no error. -/
def create : Code :=
  .choice releaseReservation (.seq (newChannel j) (.seq (.maybe publish) releaseReservation))

/-- After the last lookup: the underlay is closed, or it is offered to channel `i` once its hello is
acknowledged, or a channel is made for it. -/
def resolve : Code := .choice .skip (.choice (.maybe (acceptUnderlay i)) (create j))

/-- `MultiListener.AcceptUnderlay`, where an ungrouped underlay goes to the fallback. -/
def listenerAccept : Code :=
  .choice (.maybe (newChannel j)) (.seq (.again lookup) (resolve i j))

end

/-- What a goroutine may run.  The listener finds channel `existing`, if any, and makes channel
`new`. -/
inductive Operation
  | listenerAccept (existing new : ℕ)
  | newChannel (i : ℕ)
  | acceptUnderlay (i : ℕ)
  | close (i : ℕ)
  | closeUnderlay (i : ℕ)
  | underlayRemoved (i : ℕ)
  | applyConstraints (i : ℕ)

def Operation.code : Operation → Code
  | .listenerAccept i j => LockOrder.listenerAccept i j
  | .newChannel i => LockOrder.newChannel i
  | .acceptUnderlay i => LockOrder.acceptUnderlay i
  | .close i => LockOrder.close i
  | .closeUnderlay i => LockOrder.closeUnderlay i
  | .underlayRemoved i => LockOrder.underlayRemoved i
  | .applyConstraints i => LockOrder.applyConstraints i

/-- Any number of goroutines. -/
def locks : System (State ℕ Lock) (Event ℕ Operation) := system Operation.code

section

variable {s : State ℕ Lock} {t : ℕ}

theorem steps_start (op : Operation) (ht : s.ahead t = []) :
    locks.Steps System.anyEvent s { s with ahead := Function.update s.ahead t [op.code] } :=
  Locking.steps_start op ht

theorem steps_reaches {l : Lock} {before after : Option ℕ} {k k' : List Code}
    (h : Reaches l t before after k k') (howner : s.owner = only l before)
    (hahead : s.ahead t = k) :
    locks.Steps System.anyEvent s ⟨only l after, Function.update s.ahead t k'⟩ :=
  h.steps howner hahead

end

/-! ### The order is followed

The locks of the listener and of a collection are taken with at most a channel's lock held, which
is that of the collection's channel; a channel's lock with none. -/

section

variable {i : ℕ} {held : List Lock}

theorem closeRegistration_follows (h : ∀ m ∈ held, m = .channel i) :
    closeRegistration.Follows Lock.Before held held :=
  .critical (fun m hm => by rw [h m hm]; trivial) .skip

theorem access_follows (h : ∀ m ∈ held, m = .channel i) :
    (access i).Follows Lock.Before held held :=
  .critical (fun m hm => by rw [h m hm]; rfl) .skip

theorem otherListeners_follow (h : ∀ m ∈ held, m = .channel i) :
    (Prog.loop (otherListener i)).Follows Lock.Before held held :=
  .loop (.loop (access_follows h))

theorem add_follows (h : ∀ m ∈ held, m = .channel i) : (add i).Follows Lock.Before held held :=
  .seq (access_follows h) (.seq (access_follows h) (otherListeners_follow h))

theorem hooks_follow (h : ∀ m ∈ held, m = .channel i) : (hooks i).Follows Lock.Before held held :=
  .loop (.choice (closeRegistration_follows h) (access_follows h))

/-- A critical section of a channel. -/
theorem channel_follows {p : Code} (hp : p.Follows Lock.Before [.channel i] [.channel i]) :
    (Prog.critical (.channel i) p).Follows Lock.Before [] [] :=
  .critical (by simp) hp

theorem close_follows (i : ℕ) : (close i).Follows Lock.Before [] [] :=
  channel_follows (.maybe (.seq (hooks_follow (by simp)) (access_follows (by simp))))

theorem acceptUnderlay_follows (i : ℕ) : (acceptUnderlay i).Follows Lock.Before [] [] :=
  channel_follows (.maybe (add_follows (by simp)))

theorem underlayRemoved_follows (i : ℕ) : (underlayRemoved i).Follows Lock.Before [] [] :=
  .seq (access_follows (by simp))
    (.maybe (.seq (access_follows (by simp)) (.maybe (close_follows i))))

theorem closeUnderlay_follows (i : ℕ) : (closeUnderlay i).Follows Lock.Before [] [] := by
  have hremove : (remove i).Follows Lock.Before [] [] :=
    .seq (access_follows (by simp))
      (.maybe (.seq (underlayRemoved_follows i) (otherListeners_follow (i := i) (by simp))))
  exact .seq hremove (channel_follows (.maybe (access_follows (by simp))))

theorem applyConstraints_follows (i : ℕ) : (applyConstraints i).Follows Lock.Before [] [] := by
  have hcounts : (countsByType i).Follows Lock.Before [] [] := access_follows (by simp)
  have hdial : (dialUnderlay i).Follows Lock.Before [] [] :=
    .seq (access_follows (by simp)) (.maybe (acceptUnderlay_follows i))
  have hloop : (Prog.loop (round i)).Follows Lock.Before [] [] := .loop (.seq hcounts (.loop hdial))
  have hinvalid : (invalidRound i).Follows Lock.Before [] [] := .seq hcounts (close_follows i)
  have hprogress : (inProgress i).Follows Lock.Before [] [] :=
    .seq (.seq hloop (.maybe hinvalid)) (.maybe hcounts)
  exact .maybe (.seq hcounts (.choice (close_follows i) (.maybe hprogress)))

theorem newChannel_follows (i : ℕ) : (newChannel i).Follows Lock.Before [] [] := by
  have hbind : (bind i).Follows Lock.Before [] [] :=
    .loop (.choice (acceptUnderlay_follows i)
      (.choice (close_follows i) (access_follows (by simp))))
  have hbound : (bound i).Follows Lock.Before [] [] :=
    .seq hbind (.choice (close_follows i) (add_follows (by simp)))
  exact .maybe (.seq (.again (access_follows (by simp))) hbound)

theorem listenerAccept_follows (i j : ℕ) : (listenerAccept i j).Follows Lock.Before [] [] := by
  have hlookup : lookup.Follows Lock.Before [] [] := .critical (by simp) (.maybe .skip)
  have hpublish : publish.Follows Lock.Before [] [] := .critical (by simp) (.maybe .skip)
  have hrelease : releaseReservation.Follows Lock.Before [] [] := .critical (by simp) .skip
  have hcreate : (create j).Follows Lock.Before [] [] :=
    .choice hrelease (.seq (newChannel_follows j) (.seq (.maybe hpublish) hrelease))
  have hresolve : (resolve i j).Follows Lock.Before [] [] :=
    .choice .skip (.choice (.maybe (acceptUnderlay_follows i)) hcreate)
  exact .choice (.maybe (newChannel_follows j)) (.seq (.again hlookup) hresolve)

theorem Operation.follows (op : Operation) : op.code.Follows Lock.Before [] [] := by
  cases op with
  | listenerAccept i j => exact listenerAccept_follows i j
  | newChannel i => exact newChannel_follows i
  | acceptUnderlay i => exact acceptUnderlay_follows i
  | close i => exact close_follows i
  | closeUnderlay i => exact closeUnderlay_follows i
  | underlayRemoved i => exact underlayRemoved_follows i
  | applyConstraints i => exact applyConstraints_follows i

end

/-- **No lock-order deadlock.**  However many goroutines run the functions of the listener and of
its channels, in no reachable state is there a non-empty set of goroutines each of which waits for
a mutex that a goroutine of the set holds. -/
theorem no_lock_order_deadlock {s : State ℕ Lock} (hs : locks.Reachable System.anyEvent s)
    (T : Set ℕ) : ¬ s.Deadlocked T :=
  not_deadlocked Operation.follows Lock.wellFounded_before hs T

/-- Goroutine 1 looks up an underlay and holds the listener's lock.  Goroutine 0 closes a channel,
and waits for it in the close handler; goroutine 2 offers the channel an underlay, and waits for
goroutine 0. -/
theorem no_lock_order_deadlock_closing :
    ∃ s, locks.Reachable System.anyEvent s ∧
      (s.Waits 2 (.channel 0) ∧ s.owner (.channel 0) = some 0) ∧
      (s.Waits 0 .listener ∧ s.owner .listener = some 1) ∧ ¬ s.Deadlocked {0, 1, 2} := by
  obtain ⟨s, hs, hp⟩ := System.reachable_of_replay locks System.anyEvent
    (.start 0 (.close 0) :: List.replicate 9 (.step 0 true) ++
      .start 1 (.listenerAccept 0 1) :: .step 1 false :: List.replicate 4 (.step 1 true) ++
      [.start 2 (.acceptUnderlay 0), .step 2 true])
    (fun s => decide (((s.ahead 2).head? = some (.lock (.channel 0)) ∧
        s.owner (.channel 0) = some 0) ∧
      (s.ahead 0).head? = some (.lock .listener) ∧ s.owner .listener = some 1)) (by decide)
  obtain ⟨⟨hwait₂, howner₂⟩, hwait₀, howner₀⟩ := of_decide_eq_true hp
  exact ⟨s, hs, ⟨List.head?_eq_some_iff.mp hwait₂, howner₂⟩,
    ⟨List.head?_eq_some_iff.mp hwait₀, howner₀⟩, no_lock_order_deadlock hs _⟩

/-- It matters that the listener drops its lock before it offers an underlay to a channel. -/
example : ∃ s, (system (fun op : Bool =>
      bif op then .critical .listener (acceptUnderlay 0) else close 0)).Reachable
        System.anyEvent s ∧ s.Deadlocked {0, 1} := by
  obtain ⟨s, hs, hp⟩ := System.reachable_of_replay (system (fun op : Bool =>
      bif op then .critical .listener (acceptUnderlay 0) else close 0)) System.anyEvent
    (.start 0 false :: List.replicate 9 (.step 0 true) ++
      .start 1 true :: List.replicate 4 (.step 1 true))
    (fun s => decide (((s.ahead 0).head? = some (.lock .listener) ∧ s.owner .listener = some 1) ∧
      (s.ahead 1).head? = some (.lock (.channel 0)) ∧ s.owner (.channel 0) = some 0)) (by decide)
  obtain ⟨⟨hwait₀, howner₀⟩, hwait₁, howner₁⟩ := of_decide_eq_true hp
  refine ⟨s, hs, ⟨0, by simp⟩, ?_⟩
  rintro t (rfl | rfl)
  · exact ⟨_, List.head?_eq_some_iff.mp hwait₀, 1, by simp, howner₀⟩
  · exact ⟨_, List.head?_eq_some_iff.mp hwait₁, 0, by simp, howner₁⟩

end ZitiChannel.LockOrder
