import ZitiChannel.Receive
import ZitiChannel.Senders
import ZitiChannel.Lib.Transition

/-!
# Sending and receiving over many underlays

Each underlay of a channel has a goroutine that takes sendables from the channel's
queues and writes them, and one that receives messages.  They share the queues, the
waiter map and nothing else.  A write that fails gives the sendable back to the queues,
or up.

The model interleaves any number of both with senders, expiring contexts, the clock and
the closing of the channel.  Operations on the waiter map and on queues are single
steps, and so is what `reapExpired` does with one entry.  A connection may fail or be
closed at any time, and then the goroutine that receives from it stops.

## Main definitions

* `TxPc`, `txNext`, `TxState` — `txer`, `tx` and `RetryToQueues`, with what they do to
  the queues and what listeners are told.
* `RxPc`, `RxState.receive` — `rx`, with the waiters and where messages went.
* `multiplex` — the transition system.

## Main results

* `RxState.receive_cases`, `Multiplex.step_cases` — case analysis on a step.

The sources are `impl.go`, `senders.go`, `envelope.go` and `message_source.go`.
-/

namespace ZitiChannel

open ByteStream

/-! ### Sendables -/

/-- A sendable, as far as sending looks at it. -/
structure Sendable where
  /-- The sequence number of its message, if it has a message. -/
  msg : Option Int32
  replyReceiver : Bool
  deadline : Option Int
  /-- Whether it is a `queueWaitEnvelope`, whose write context never ends. -/
  queueWait : Bool

/-- What a send listener is told on account of an error. -/
inductive TxErr
  | timeout (err : ContextErr)
  | underlay (text : GoString)
  deriving DecidableEq

inductive Notice
  | beforeWrite
  | afterWrite
  | err (cause : TxErr)
  deriving DecidableEq

/-- What does not change while the channel runs. -/
structure MuxSetup where
  sendable : ℕ → Sendable
  /-- The queues that the message source of each `txer` selects from. -/
  source : ℕ → List ℕ
  /-- The queues of `RetryToQueues`, in order. -/
  retry : List ℕ
  capacity : ℕ → ℕ
  writeTimeout : Bool
  /-- The content types with a receive handler. -/
  receiveHandlers : Int32 → Bool

/-- The sequence number of a sendable's message. -/
def MuxSetup.seq (setup : MuxSetup) (x : ℕ) : Int32 := (setup.sendable x).msg.getD 0

/-- Whether a sendable is a request: a message that wants a reply. -/
def MuxSetup.IsRequest (setup : MuxSetup) (x : ℕ) : Prop :=
  (setup.sendable x).msg.isSome = true ∧ (setup.sendable x).replyReceiver = true

/-! ### Sending -/

/-- Where a `txer` stands. -/
inductive TxPc
  | source
  /-- In `tx`: before looking at the write context. -/
  | check (x : ℕ)
  | addWaiter (x : ℕ)
  | setWriteTimeout (x : ℕ)
  | write (x : ℕ)
  | wrote (x : ℕ)
  /-- After a failed write, before the waiter is removed. -/
  | failed (x : ℕ) (err : GoString)
  /-- In `HandleTxFailed`, with the queues not tried yet. -/
  | retry (x : ℕ) (queues : List ℕ) (err : GoString)
  /-- No queue took the sendable, and the error was reported. -/
  | refused (x : ℕ)
  | stopped
  deriving DecidableEq

def TxPc.sendable : TxPc → Option ℕ
  | .source | .stopped => none
  | .check x | .addWaiter x | .setWriteTimeout x | .write x | .wrote x | .failed x _
  | .retry x _ _ | .refused x => some x

/-- The sending half of the state. -/
structure TxState where
  queues : ℕ → Queue ℕ
  txers : ℕ → TxPc
  /-- The error of each sendable's context, once it has ended. -/
  ctxErr : ℕ → Option ContextErr
  /-- The sendables that a sender accepted. -/
  accepted : ℕ → Bool
  /-- The sendables that `tx` is done with. -/
  finished : ℕ → Bool
  /-- What each sendable's listener was told. -/
  notices : ℕ → List Notice
  /-- How often `underlay.Tx` returned success for each sendable. -/
  writes : ℕ → ℕ

/-- What decides how a `txer` goes on. -/
inductive TxAction
  | go
  /-- The message source takes from a queue. -/
  | take (q : ℕ)
  /-- The message source returns `io.EOF`. -/
  | eof
  /-- The underlay returns from `SetWriteTimeout` or `Tx`. -/
  | underlay (err : Option GoString)
  /-- The sendable is handed to another `txer` that waits on the queue. -/
  | hand (t : ℕ)

/-- What a step of a `txer` does to the rest. -/
inductive TxEffect
  | quiet
  | take (q x : ℕ) (rest : Queue ℕ)
  | notify (x : ℕ) (n : Notice)
  | finish (x : ℕ) (n : Notice)
  | addWaiter (x : ℕ)
  | written (x : ℕ)
  | removeWaiter (x : ℕ)
  | requeue (q x : ℕ) (queue : Queue ℕ)
  | hand (t x : ℕ)

section

variable (setup : MuxSetup)

namespace TxState

/-- The error of the context that must be live when the sendable is written. -/
def writeContextErr (s : TxState) (x : ℕ) : Option ContextErr :=
  if (setup.sendable x).queueWait then none else s.ctxErr x

/-- Whether a `txer` may be waiting on a queue. -/
def Parked (s : TxState) (t q : ℕ) : Prop :=
  s.txers t = .source ∧ q ∈ setup.source t ∧ (s.queues q).items = []

instance (s : TxState) (t q : ℕ) : Decidable (s.Parked setup t q) :=
  inferInstanceAs (Decidable (_ ∧ _ ∧ _))

end TxState

/-- The next step of `txer` `t`. -/
def txNext (s : TxState) (t : ℕ) : TxPc → TxAction → Option (TxPc × TxEffect)
  | .source, .take q =>
      if q ∈ setup.source t then
        match (s.queues q).pop? with
        | some (x, rest) => some (.check x, .take q x rest)
        | none => none
      else none
  | .source, .eof => some (.stopped, .quiet)
  | .check x, .go =>
      match s.writeContextErr setup x with
      | some err => some (.source, .finish x (.err (.timeout err)))
      | none =>
          match (setup.sendable x).msg with
          -- a tracer: only its time to the front of the queue is of interest
          | none => some (.source, .finish x .beforeWrite)
          | some _ => some (.addWaiter x, .notify x .beforeWrite)
  | .addWaiter x, .go =>
      if setup.writeTimeout then some (.setWriteTimeout x, .addWaiter x)
      else some (.write x, .addWaiter x)
  | .setWriteTimeout x, .underlay none => some (.write x, .quiet)
  | .setWriteTimeout x, .underlay (some err) => some (.stopped, .finish x (.err (.underlay err)))
  | .write x, .underlay none => some (.wrote x, .written x)
  | .write x, .underlay (some err) => some (.failed x err, .quiet)
  | .wrote x, .go => some (.source, .finish x .afterWrite)
  | .failed x err, .go => some (.retry x setup.retry err, .removeWaiter x)
  | .retry x [] err, .go => some (.refused x, .notify x (.err (.underlay err)))
  | .retry x (q :: qs) err, .go =>
      match (s.queues q).push? x with
      | some queue => some (.stopped, .requeue q x queue)
      | none => some (.retry x qs err, .quiet)
  | .retry x (q :: _) _, .hand t' =>
      if s.Parked setup t' q then some (.stopped, .hand t' x) else none
  | .refused x, .go => some (.stopped, .finish x .afterWrite)
  | _, _ => none

namespace TxState

def setTxer (s : TxState) (t : ℕ) (pc : TxPc) : TxState :=
  { s with txers := Function.update s.txers t pc }

def notify (s : TxState) (x : ℕ) (n : Notice) : TxState :=
  { s with notices := Function.update s.notices x (s.notices x ++ [n]) }

def setQueue (s : TxState) (q : ℕ) (queue : Queue ℕ) : TxState :=
  { s with queues := Function.update s.queues q queue }

def apply (s : TxState) : TxEffect → TxState
  | .quiet | .addWaiter _ | .removeWaiter _ => s
  | .take q _ queue | .requeue q _ queue => s.setQueue q queue
  | .notify x n => s.notify x n
  | .finish x n => { s.notify x n with finished := Function.update s.finished x true }
  | .written x => { s with writes := Function.update s.writes x (s.writes x + 1) }
  | .hand t x => s.setTxer t (.check x)

end TxState

/-! ### Receiving -/

/-- A registered reply receiver: whose it is, and which registration this is. -/
structure Registrant where
  owner : ℕ
  reg : ℕ
  deriving DecidableEq

/-- A received message and where it went. -/
structure Delivery where
  message : Message
  target : Target Registrant
  deriving DecidableEq

/-- Where an `rxer` stands. -/
inductive RxPc
  | reading
  /-- In `rx`, with the time of arrival. -/
  | got (m : Message) (now : Int)
  /-- In `reapExpired`, with the number of waiters deleted so far. -/
  | reaping (m : Message) (now : Int) (deleteCount : Int32)
  /-- Before taking the waiter. -/
  | lookup (m : Message)
  /-- No message comes out of `underlay.Rx` any more: the connection has failed, or was closed at
  this end or the other. -/
  | stopped
  deriving DecidableEq

/-- The receiving half of the state.  `latest` and `answered` are a record of the past: the
last waiter registered for each request, and whether a reply to its sequence number was
looked up since. -/
structure RxState where
  waiters : WaiterMap Registrant
  registrations : ℕ
  latest : ℕ → Option (Waiter Registrant)
  answered : ℕ → Bool
  clock : Int
  closed : Bool
  replyCounter : UInt32
  rxers : ℕ → RxPc
  deliveries : List Delivery

/-- What decides how an `rxer` goes on. -/
inductive RxAction
  | go
  | read (m : Message)
  /-- `reapExpired` visits a key. -/
  | reap (key : Int32)
  /-- `underlay.Rx` returns an error. -/
  | fail

namespace RxState

def setRxer (s : RxState) (r : ℕ) (pc : RxPc) : RxState :=
  { s with rxers := Function.update s.rxers r pc }

/-- Record where a message went. -/
def deliver (s : RxState) (m : Message) (target : Target Registrant) : RxState :=
  { s with deliveries := s.deliveries ++ [⟨m, target⟩] }

/-- `AddWaiter` for a sendable. -/
def addWaiter (s : RxState) (x : ℕ) : RxState :=
  if (setup.sendable x).replyReceiver then
    let waiters := s.waiters.addWaiter (setup.seq x) (some ⟨x, s.registrations⟩)
      (setup.sendable x).deadline s.clock
    { s with
      waiters := waiters
      registrations := s.registrations + 1
      latest := Function.update s.latest x (waiters.m (setup.seq x))
      answered := Function.update s.answered x false }
  else s

def apply (s : RxState) : TxEffect → RxState
  | .addWaiter x => s.addWaiter setup x
  | .removeWaiter x => { s with waiters := (s.waiters.removeWaiter (setup.seq x)).1 }
  | _ => s

/-- Record that a reply was looked up. -/
def answer (s : RxState) (m : Message) : RxState :=
  { s with answered := fun x => s.answered x || decide (setup.seq x = m.replyFor) }

/-- `RemoveWaiter` for a reply, and what follows from its result. -/
def takeReply (s : RxState) (m : Message) : RxState :=
  match s.waiters.removeWaiter m.replyFor with
  | (waiters, some replyReceiver) =>
      { s.answer setup m with waiters := waiters }.deliver m (.receiver replyReceiver)
  | (_, none) => (s.answer setup m).deliver m (dispatch setup.receiveHandlers m)

/-- The next step of `rxer` `r`. -/
def receive (s : RxState) (r : ℕ) : RxPc → RxAction → Option RxState
  | .reading, .read m => some (s.setRxer r (.got m s.clock))
  | .reading, .fail => some (s.setRxer r .stopped)
  | .got m now, .go =>
      if m.isReply then
        let s := { s with replyCounter := s.replyCounter + 1 }
        if reaps s.replyCounter s.waiters.size then some (s.setRxer r (.reaping m now 0))
        else some (s.setRxer r (.lookup m))
      else some ((s.deliver m (dispatch setup.receiveHandlers m)).setRxer r .reading)
  | .reaping m now deleteCount, .reap key =>
      let deleteCount := if s.waiters.expired now key then deleteCount + 1 else deleteCount
      some ({ s with waiters := s.waiters.reapEntry now key }.setRxer r
        (.reaping m now deleteCount))
  | .reaping m _ deleteCount, .go =>
      some ({ s with waiters := { s.waiters with size := s.waiters.size - deleteCount } }.setRxer r
        (.lookup m))
  | .lookup m, .go => some ((s.takeReply setup m).setRxer r .reading)
  | _, _ => none

end RxState

/-! ### The whole system -/

structure Multiplex where
  tx : TxState
  rx : RxState

namespace Multiplex

/-- What can happen. -/
inductive Action
  /-- A `Send` or `TrySend` puts a sendable into a queue. -/
  | send (x q : ℕ)
  /-- A `Send` or `TrySend` hands a sendable to a `txer` that waits on the queue. -/
  | sendTo (x q t : ℕ)
  | expire (x : ℕ) (err : ContextErr)
  | tx (t : ℕ) (a : TxAction)
  | rx (r : ℕ) (a : RxAction)
  | tick (ms : ℕ)
  /-- The channel is closed: first the flag, later the waiters. -/
  | close
  | clear

/-- The steps of the system.  A sendable is submitted once. -/
def step (s : Multiplex) : Action → Option Multiplex
  | .send x q =>
      if s.tx.accepted x then none
      else
        match (s.tx.queues q).push? x with
        | some queue =>
            some { s with tx := { s.tx.setQueue q queue with
              accepted := Function.update s.tx.accepted x true } }
        | none => none
  | .sendTo x q t =>
      if ¬ s.tx.accepted x ∧ s.tx.Parked setup t q then
        some { s with tx := { s.tx.setTxer t (.check x) with
          accepted := Function.update s.tx.accepted x true } }
      else none
  | .expire x err =>
      if (s.tx.ctxErr x).isNone then
        some { s with tx := { s.tx with ctxErr := Function.update s.tx.ctxErr x (some err) } }
      else none
  | .tx t a =>
      match txNext setup s.tx t (s.tx.txers t) a with
      | some (pc, e) =>
          some { tx := (s.tx.setTxer t pc).apply e, rx := s.rx.apply setup e }
      | none => none
  | .rx r a =>
      match s.rx.receive setup r (s.rx.rxers r) a with
      | some rx => some { s with rx := rx }
      | none => none
  | .tick ms => some { s with rx := { s.rx with clock := s.rx.clock + ms } }
  | .close => some { s with rx := { s.rx with closed := true } }
  | .clear =>
      if s.rx.closed then some { s with rx := { s.rx with waiters := s.rx.waiters.clear } } else none

end Multiplex

/-- The traffic of a channel as a transition system: empty queues, no waiters. -/
def multiplex : Transition.System Multiplex Multiplex.Action where
  init :=
    { tx := ⟨fun q => Queue.empty (setup.capacity q), fun _ => .source, fun _ => none,
        fun _ => false, fun _ => false, fun _ => [], fun _ => 0⟩
      rx := ⟨⟨fun _ => none, 0⟩, 0, fun _ => none, fun _ => false, 0, false, 0, fun _ => .reading,
        []⟩ }
  step := Multiplex.step setup

end

/-! ### What a step does -/

/-- The sendable that a `txer` holds, before and after a step with a given effect. -/
def TxEffect.Moves (s : TxState) (before after : TxPc) : TxEffect → Prop
  | .quiet => after.sendable = before.sendable
  | .take q x rest =>
      before.sendable = none ∧ after = .check x ∧ (s.queues q).pop? = some (x, rest)
  | .notify x _ | .addWaiter x | .written x | .removeWaiter x =>
      before.sendable = some x ∧ after.sendable = some x
  | .finish x _ => before.sendable = some x ∧ after.sendable = none
  | .requeue q x queue =>
      before.sendable = some x ∧ after.sendable = none ∧ (s.queues q).push? x = some queue
  | .hand t x => before.sendable = some x ∧ after.sendable = none ∧ s.txers t = .source

section

variable {setup : MuxSetup}

theorem txNext_moves {s : TxState} {t : ℕ} {pc pc' : TxPc} {a : TxAction} {e : TxEffect}
    (h : txNext setup s t pc a = some (pc', e)) : e.Moves s pc pc' := by
  revert h
  fun_cases txNext setup s t pc a
  all_goals intro h; cases h
  all_goals simp_all [TxEffect.Moves, TxPc.sendable, TxState.Parked]

theorem RxState.takeReply_of_some {s : RxState} {m : Message} {w : Waiter Registrant}
    (hw : s.waiters.m m.replyFor = some w) :
    s.takeReply setup m =
      { s.answer setup m with waiters := (s.waiters.removeWaiter m.replyFor).1 }.deliver m
        (.receiver w.replyReceiver) := by
  simp [takeReply, WaiterMap.removeWaiter, hw]

theorem RxState.takeReply_of_none {s : RxState} {m : Message}
    (hw : s.waiters.m m.replyFor = none) :
    s.takeReply setup m =
      (s.answer setup m).deliver m (dispatch setup.receiveHandlers m) := by
  simp [takeReply, WaiterMap.removeWaiter, hw]

/-- Whatever comes of a reply, its waiter is gone. -/
theorem RxState.takeReply_eq (setup : MuxSetup) (s : RxState) (m : Message) :
    ∃ target, s.takeReply setup m =
      { s.answer setup m with waiters := (s.waiters.removeWaiter m.replyFor).1 }.deliver m
        target := by
  cases hw : s.waiters.m m.replyFor with
  | some w => exact ⟨_, takeReply_of_some hw⟩
  | none =>
    refine ⟨dispatch setup.receiveHandlers m, ?_⟩
    simp [takeReply_of_none hw, WaiterMap.removeWaiter, hw, answer]

/-- What a step of an `rxer` can be. -/
theorem RxState.receive_cases {s s' : RxState} {r : ℕ} {a : RxAction} {P : RxState → Prop}
    (h : s.receive setup r (s.rxers r) a = some s')
    (read : ∀ m, s.rxers r = .reading → P (s.setRxer r (.got m s.clock)))
    (fail : s.rxers r = .reading → P (s.setRxer r .stopped))
    (reply : ∀ m now pc, s.rxers r = .got m now → m.isReply = true →
      pc = .reaping m now 0 ∨ pc = .lookup m →
      P ({ s with replyCounter := s.replyCounter + 1 }.setRxer r pc))
    (other : ∀ m now, s.rxers r = .got m now → m.isReply = false →
      P ((s.deliver m (dispatch setup.receiveHandlers m)).setRxer r .reading))
    (reap : ∀ m now n n' key, s.rxers r = .reaping m now n →
      P ({ s with waiters := s.waiters.reapEntry now key }.setRxer r (.reaping m now n')))
    (reaped : ∀ m now n, s.rxers r = .reaping m now n →
      P ({ s with waiters := { s.waiters with size := s.waiters.size - n } }.setRxer r (.lookup m)))
    (lookup : ∀ m, s.rxers r = .lookup m → P ((s.takeReply setup m).setRxer r .reading)) :
    P s' := by
  cases hpc : s.rxers r with
  | reading =>
    rw [hpc] at h
    cases a with
    | read m => cases h; exact read m hpc
    | fail => cases h; exact fail hpc
    | go | reap key => cases h
  | got m now =>
    rw [hpc] at h
    cases a with
    | read m | reap key | fail => cases h
    | go =>
      simp only [RxState.receive] at h
      split at h
      · next hm =>
        split at h
        · cases h; exact reply m now _ hpc hm (.inl rfl)
        · cases h; exact reply m now _ hpc hm (.inr rfl)
      · next hm => cases h; exact other m now hpc (by simpa using hm)
  | reaping m now n =>
    rw [hpc] at h
    cases a with
    | read m | fail => cases h
    | reap key => cases h; exact reap m now n _ key hpc
    | go => cases h; exact reaped m now n hpc
  | lookup m =>
    rw [hpc] at h
    cases a with
    | read m | reap key | fail => cases h
    | go => cases h; exact lookup m hpc
  | stopped => rw [hpc] at h; cases h

namespace Multiplex

variable {s s' : Multiplex}

/-- What a step can be. -/
theorem step_cases {act : Action} {P : Multiplex → Prop}
    (h : (multiplex setup).step s act = some s')
    (send : ∀ x q queue, act = .send x q → s.tx.accepted x = false →
      (s.tx.queues q).push? x = some queue →
      P { s with tx := { s.tx.setQueue q queue with
        accepted := Function.update s.tx.accepted x true } })
    (sendTo : ∀ x q t, act = .sendTo x q t → s.tx.accepted x = false → s.tx.txers t = .source →
      P { s with tx := { s.tx.setTxer t (.check x) with
        accepted := Function.update s.tx.accepted x true } })
    (expire : ∀ x err, act = .expire x err →
      P { s with tx := { s.tx with ctxErr := Function.update s.tx.ctxErr x (some err) } })
    (tx : ∀ t a pc e, act = .tx t a → txNext setup s.tx t (s.tx.txers t) a = some (pc, e) →
      P { tx := (s.tx.setTxer t pc).apply e, rx := s.rx.apply setup e })
    (rx : ∀ r a rx, act = .rx r a → s.rx.receive setup r (s.rx.rxers r) a = some rx →
      P { s with rx := rx })
    (tick : ∀ ms, act = .tick ms → P { s with rx := { s.rx with clock := s.rx.clock + ms } })
    (close : act = .close → P { s with rx := { s.rx with closed := true } })
    (clear : act = .clear → s.rx.closed = true →
      P { s with rx := { s.rx with waiters := s.rx.waiters.clear } }) : P s' := by
  simp only [multiplex, Multiplex.step] at h
  split at h
  · split at h
    · cases h
    · next x q hacc =>
      split at h
      · next queue hpush =>
        cases h
        exact send x q queue rfl (by simpa using hacc) hpush
      · cases h
  · split at h
    · next x q t hcond =>
      cases h
      exact sendTo x q t rfl (by simpa using hcond.1) hcond.2.1
    · cases h
  · split at h
    · cases h; exact expire _ _ rfl
    · cases h
  · split at h
    · next hnext => cases h; exact tx _ _ _ _ rfl hnext
    · cases h
  · split at h
    · next hnext => cases h; exact rx _ _ _ rfl hnext
    · cases h
  · cases h; exact tick _ rfl
  · cases h; exact close rfl
  · split at h
    · next hcl => cases h; exact clear rfl hcl
    · cases h

end Multiplex

end

end ZitiChannel
