import Mathlib.Data.Nat.Notation
import Mathlib.Logic.Function.Basic
import ZitiChannel.Lib.Transition

/-!
# Who closes an accepted connection

A classic listener is given transport connections by its socket.  It queues a function on a
pool for each; the function receives the hello, asks the connection handlers, and leaves the
underlay to an acceptor.  On the way there are many exits, each of which has to close the
connection.  Two do not: when the pool refuses the function, and when a listener that produces
underlays through `Create` is closed before anyone took the underlay.

## Main definitions

* `Exit`, `Pc`, `next` — `acceptConnection` for one connection, with every exit.
* `accepting` — any number of connections, calls of `Create`, and `Close`.

## Main results

* `accepting_inv` — what has become of a connection at each point.
* `connection_settled_iff` — **a connection whose processing has ended was delivered or closed
  unless it took one of the two exits.**

The sources are `classic_listener.go` and `hello_acceptor.go`.
-/

namespace ZitiChannel.AcceptConnection

open Transition

/-! ### One connection -/

/-- What the listener does with an underlay. -/
inductive Acceptor
  /-- `NewClassicListenerWithAcceptor`: the acceptor owns it. -/
  | acceptor
  /-- `NewClassicListenerF`: the hello is acknowledged, and `f` called. -/
  | f
  /-- `NewClassicListener`: the hello is acknowledged, and the underlay offered to `Create`. -/
  | created
  deriving DecidableEq

structure Setup where
  /-- The number of connection handlers. -/
  handlers : ℕ
  acceptor : Acceptor

/-- How the processing of a connection ends. -/
inductive Exit
  /-- `Queue` returned an error. -/
  | queue
  | setDeadline
  | receiveHello
  | handler (i : ℕ)
  | ackHello
  /-- The underlay was delivered to a consumer. -/
  | delivered
  /-- The select in the function of `NewClassicListener` took its close case. -/
  | listenerClosed
  deriving DecidableEq

/-- Where the processing of a connection is. -/
inductive Pc
  /-- Not given to the listener yet. -/
  | idle
  | queue
  | setDeadline
  | receiveHello
  /-- `receiveHello` has closed the underlay and returned an error. -/
  | helloError
  /-- Before the handler with this number. -/
  | handler (i : ℕ)
  | ackHello
  | f
  | select
  /-- Returning, with the deferred function to run. -/
  | clearDeadline (exit : Exit)
  /-- `clearErr` says whether the deferred function could not clear the deadline. -/
  | ended (exit : Exit) (clearErr : Bool)
  deriving DecidableEq

/-- What happens next to a connection. -/
inductive Action
  /-- The operation at which it is succeeds. -/
  | ok
  | err
  /-- A waiting `Create` takes the underlay. -/
  | rendezvous
  /-- The select takes its close case. -/
  | closeCase
  deriving DecidableEq

/-- What this does outside of the goroutine. -/
inductive Effect
  | none
  | closePeer
  | deliver
  | deliverToCreate
  deriving DecidableEq

/-- `acceptConnection`, one operation at a time: `close` says whether the listener is closed,
`creates` how many calls of `Create` are waiting. -/
def next (setup : Setup) (close : Bool) (creates : ℕ) : Pc → Action → Option (Pc × Effect)
  | .idle, .ok => some (.queue, .none)
  | .queue, .ok => some (.setDeadline, .none)
  -- the error of `Queue` is logged
  | .queue, .err => some (.ended .queue false, .none)
  | .setDeadline, .ok => some (.receiveHello, .none)
  | .setDeadline, .err => some (.ended .setDeadline false, .closePeer)
  | .receiveHello, .ok => some (.handler 0, .none)
  | .receiveHello, .err => some (.helloError, .closePeer)
  | .helloError, .ok => some (.clearDeadline .receiveHello, .closePeer)
  | .handler i, .ok =>
      if i < setup.handlers then some (.handler (i + 1), .none)
      else
        match setup.acceptor with
        | .acceptor => some (.clearDeadline .delivered, .deliver)
        | _ => some (.ackHello, .none)
  | .handler i, .err =>
      if i < setup.handlers then some (.clearDeadline (.handler i), .closePeer) else none
  | .ackHello, .ok =>
      match setup.acceptor with
      | .created => some (.select, .none)
      | _ => some (.f, .none)
  | .ackHello, .err => some (.clearDeadline .ackHello, .closePeer)
  | .f, .ok => some (.clearDeadline .delivered, .deliver)
  | .select, .rendezvous =>
      if 0 < creates then some (.clearDeadline .delivered, .deliverToCreate) else none
  | .select, .closeCase => if close then some (.clearDeadline .listenerClosed, .none) else none
  | .clearDeadline exit, .ok => some (.ended exit false, .none)
  | .clearDeadline exit, .err => some (.ended exit true, .closePeer)
  | _, _ => none

/-! ### The listener -/

structure State where
  /-- Whether `Close` has closed the channel `close`. -/
  close : Bool
  /-- The number of calls of `Create` that wait. -/
  creates : ℕ
  conns : ℕ → Pc
  /-- The connections on which `Close` was called. -/
  peerCloses : List ℕ
  delivered : List ℕ

inductive Event
  /-- `Close` on the listener. -/
  | close
  /-- A call of `Create`. -/
  | create
  /-- A waiting `Create` returns that the listener is closed. -/
  | createClosed
  | conn (c : ℕ) (a : Action)

def State.apply (s : State) (c : ℕ) (pc : Pc) : Effect → State
  | .none => { s with conns := Function.update s.conns c pc }
  | .closePeer =>
      { s with conns := Function.update s.conns c pc, peerCloses := s.peerCloses ++ [c] }
  | .deliver => { s with conns := Function.update s.conns c pc, delivered := s.delivered ++ [c] }
  | .deliverToCreate =>
      { s with
        conns := Function.update s.conns c pc
        delivered := s.delivered ++ [c]
        creates := s.creates - 1 }

def step (setup : Setup) (s : State) : Event → Option State
  | .close => some { s with close := true }
  | .create => some { s with creates := s.creates + 1 }
  | .createClosed =>
      if s.close ∧ 0 < s.creates then some { s with creates := s.creates - 1 } else none
  | .conn c a =>
      match next setup s.close s.creates (s.conns c) a with
      | some (pc, effect) => some (s.apply c pc effect)
      | none => none

/-- A listener with any number of connections. -/
def accepting (setup : Setup) : System State Event where
  init := ⟨false, 0, fun _ => .idle, [], []⟩
  step := step setup

/-! ### What has become of a connection -/

/-- Whether a connection was delivered or closed. -/
def State.Settled (s : State) (c : ℕ) : Prop := c ∈ s.delivered ∨ c ∈ s.peerCloses

/-- Whether a connection at this point has been delivered or closed. -/
def Pc.settles : Pc → Bool
  | .helloError => true
  | .clearDeadline exit => decide (exit ≠ .queue ∧ exit ≠ .listenerClosed)
  | .ended exit clearErr => clearErr || decide (exit ≠ .queue ∧ exit ≠ .listenerClosed)
  | _ => false

def Effect.settles : Effect → Bool
  | .none => false
  | _ => true

/-- Which exits a connection can be taking. -/
def Pc.Possible (setup : Setup) (close : Bool) : Pc → Prop
  | .select => setup.acceptor = .created
  | .clearDeadline exit =>
      exit ≠ .queue ∧ (exit = .listenerClosed → setup.acceptor = .created ∧ close = true)
  | .ended exit clearErr =>
      (exit = .queue → clearErr = false) ∧
        (exit = .listenerClosed → setup.acceptor = .created ∧ close = true)
  | _ => True

section

variable {setup : Setup} {close : Bool} {creates : ℕ} {pc pc' : Pc} {a : Action} {effect : Effect}

/-- A connection becomes settled by being closed or delivered, and in no other way. -/
theorem next_settles (h : next setup close creates pc a = some (pc', effect)) :
    pc'.settles = (pc.settles || effect.settles) := by
  revert h
  fun_cases next setup close creates pc a
  all_goals intro h
  all_goals cases h
  all_goals simp [Pc.settles, Effect.settles]

theorem next_possible (h : next setup close creates pc a = some (pc', effect))
    (hpc : pc.Possible setup close) : pc'.Possible setup close := by
  revert h hpc
  fun_cases next setup close creates pc a
  all_goals intro h hpc
  all_goals cases h
  all_goals simp_all [Pc.Possible]

theorem Pc.Possible.closed (h : pc.Possible setup close) : pc.Possible setup true := by
  cases pc with
  | select => exact h
  | clearDeadline exit => exact ⟨h.1, fun he => ⟨(h.2 he).1, rfl⟩⟩
  | ended exit clearErr => exact ⟨h.1, fun he => ⟨(h.2 he).1, rfl⟩⟩
  | _ => trivial

end

theorem settled_apply_self (s : State) (c : ℕ) (pc : Pc) (effect : Effect) :
    (s.apply c pc effect).Settled c ↔ s.Settled c ∨ effect.settles = true := by
  cases effect <;> simp [State.apply, State.Settled, Effect.settles]

theorem settled_apply_of_ne {c c' : ℕ} (hne : c' ≠ c) (s : State) (pc : Pc) (effect : Effect) :
    (s.apply c pc effect).Settled c' ↔ s.Settled c' := by
  cases effect <;> simp [State.apply, State.Settled, hne]

@[simp] theorem apply_conns (s : State) (c : ℕ) (pc : Pc) (effect : Effect) :
    (s.apply c pc effect).conns = Function.update s.conns c pc := by
  cases effect <;> rfl

@[simp] theorem apply_close (s : State) (c : ℕ) (pc : Pc) (effect : Effect) :
    (s.apply c pc effect).close = s.close := by
  cases effect <;> rfl

/-- What the listener knows of each connection. -/
def Inv (setup : Setup) (s : State) : Prop :=
  ∀ c, (s.Settled c ↔ (s.conns c).settles = true) ∧ (s.conns c).Possible setup s.close

theorem inv_step {setup : Setup} {s s' : State} {e : Event} (hinv : Inv setup s)
    (h : step setup s e = some s') : Inv setup s' := by
  cases e with
  | close =>
    cases h
    exact fun c => ⟨(hinv c).1, (hinv c).2.closed⟩
  | create => cases h; exact hinv
  | createClosed =>
    simp only [step] at h
    split at h
    · cases h; exact hinv
    · cases h
  | conn c a =>
    simp only [step] at h
    split at h
    · next pc effect hnext =>
      cases h
      intro c'
      rcases eq_or_ne c' c with rfl | hne
      · rw [settled_apply_self, apply_conns, Function.update_self, next_settles hnext,
          Bool.or_eq_true, (hinv c').1, apply_close]
        exact ⟨Iff.rfl, next_possible hnext (hinv c').2⟩
      · rw [settled_apply_of_ne hne, apply_conns, Function.update_of_ne hne, apply_close]
        exact hinv c'
    · cases h

theorem accepting_inv {setup : Setup} {s : State}
    (h : (accepting setup).Reachable System.anyEvent s) : Inv setup s := by
  have hinit : Inv setup (accepting setup).init := fun c =>
    ⟨by simp [accepting, State.Settled, Pc.settles], trivial⟩
  exact h.invariant hinit fun _ _ _ hinv _ hstep => inv_step hinv hstep

/-- **Accepted connections.**  In any run of the listener, with any connections, calls of `Create`
and a `Close` at any time: a connection whose processing has ended was delivered to a consumer or
closed, if and only if the pool took its function, and it is not one that `NewClassicListener`
could not hand over because the listener was closed (where the connection is closed after
all if clearing the deadline fails). -/
theorem connection_settled_iff (setup : Setup) (s : State)
    (hreach : (accepting setup).Reachable System.anyEvent s) (c : ℕ) (exit : Exit)
    (clearErr : Bool) (hended : s.conns c = .ended exit clearErr) :
    (c ∈ s.delivered ∨ c ∈ s.peerCloses) ↔
      exit ≠ .queue ∧
        ¬ (setup.acceptor = .created ∧ s.close = true ∧ exit = .listenerClosed ∧
          clearErr = false) := by
  obtain ⟨hsettled, hpossible⟩ := accepting_inv hreach c
  rw [hended] at hsettled hpossible
  obtain ⟨hqueue, hclosed⟩ := hpossible
  refine hsettled.trans ?_
  simp only [Pc.settles, Bool.or_eq_true, decide_eq_true_eq]
  by_cases hexit : exit = .queue
  · simp [hexit, hqueue hexit]
  · by_cases hexit' : exit = .listenerClosed
    · simp [hexit', hclosed hexit']
    · simp [hexit, hexit']

/-- A listener with one handler that produces underlays through `Create`. -/
def createListener : Setup := ⟨1, .created⟩

/-- A connection that a waiting `Create` takes. -/
theorem connection_settled_create :
    ∃ s, (accepting createListener).Reachable System.anyEvent s ∧
      s.conns 0 = .ended .delivered false ∧ (0 ∈ s.delivered ∨ 0 ∈ s.peerCloses) := by
  obtain ⟨s, hreach, hended⟩ := System.reachable_of_replay (accepting createListener)
    System.anyEvent [.create, .conn 0 .ok, .conn 0 .ok, .conn 0 .ok, .conn 0 .ok, .conn 0 .ok,
      .conn 0 .ok, .conn 0 .ok, .conn 0 .rendezvous, .conn 0 .ok]
    (fun s => decide (s.conns 0 = .ended .delivered false)) (by decide)
  have hpc := of_decide_eq_true hended
  exact ⟨s, hreach, hpc, (connection_settled_iff createListener s hreach 0 _ _ hpc).mpr
    ⟨by decide, by simp⟩⟩

/-- A connection that arrives after `Close`, so that the pool refuses it; and one whose hello
is acknowledged, which nobody takes until `Close`.  Both end open, with no consumer. -/
theorem connection_settled_close_race :
    (∃ s, (accepting createListener).Reachable System.anyEvent s ∧
      s.conns 0 = .ended .queue false ∧ 0 ∉ s.delivered ∧ 0 ∉ s.peerCloses) ∧
    (∃ s, (accepting createListener).Reachable System.anyEvent s ∧
      s.conns 0 = .ended .listenerClosed false ∧ 0 ∉ s.delivered ∧ 0 ∉ s.peerCloses) := by
  constructor
  · obtain ⟨s, hreach, h⟩ := System.reachable_of_replay (accepting createListener)
      System.anyEvent [.close, .conn 0 .ok, .conn 0 .err]
      (fun s => decide (s.conns 0 = .ended .queue false ∧ 0 ∉ s.delivered ∧ 0 ∉ s.peerCloses))
      (by decide)
    exact ⟨s, hreach, of_decide_eq_true h⟩
  · obtain ⟨s, hreach, h⟩ := System.reachable_of_replay (accepting createListener)
      System.anyEvent [.conn 0 .ok, .conn 0 .ok, .conn 0 .ok, .conn 0 .ok, .conn 0 .ok,
        .conn 0 .ok, .conn 0 .ok, .close, .conn 0 .closeCase, .conn 0 .ok]
      (fun s => decide (s.conns 0 = .ended .listenerClosed false ∧ 0 ∉ s.delivered ∧
        0 ∉ s.peerCloses)) (by decide)
    exact ⟨s, hreach, of_decide_eq_true h⟩

end ZitiChannel.AcceptConnection
