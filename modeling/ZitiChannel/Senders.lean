import ZitiChannel.ChannelImpl
import ZitiChannel.Lib.Queue

/-!
# Sending

A sender puts sendables into the channel's queue.  Both its operations look at the
sendable's context first, then take a sequence number, and then select among the
end of the context, the closing of the channel and the queue.  A `select` with
several ready cases takes any of them, so an operation has a list of outcomes and
a result about it ranges over the list.

The first look is at the context only.  When the channel is closed and the queue
has room, two cases of the select are ready, and one of them queues the sendable:
`send_after_close_iff` says that this is exactly when a closed channel does not
refuse.

## Main definitions

* `trySend`, `send` — the outcomes of the two operations.
* `RefusesTrySend`, `RefusesSend` — what a closed channel owes its callers.

## Main results

* `send_after_close_iff` — **a closed channel refuses a sendable exactly when its
  context had ended or the queue cannot take it.**

The source is `senders.go`.
-/

namespace ZitiChannel

open ByteStream

/-! ### Errors -/

/-- Why a context ended. -/
inductive ContextErr
  | deadlineExceeded
  | canceled
  /-- An error of another kind, such as an error envelope carries. -/
  | other (text : GoString)
  deriving DecidableEq

/-- What a send fails with. -/
inductive SendError
  /-- `TimeoutError`: "timeout waiting to put message in send queue", with the
  context's error. -/
  | timeout (cause : Option ContextErr)
  /-- `ClosedError`: "channel closed". -/
  | closed
  /-- The context's own error. -/
  | context (err : ContextErr)
  deriving DecidableEq

/-- The error for a context that ended before the sendable was queued. -/
def queueContextErr : ContextErr → SendError
  | .deadlineExceeded => .timeout (some .deadlineExceeded)
  | .canceled => .timeout (some .canceled)
  | .other text => .context (.other text)

/-! ### The two operations -/

/-- What the select of a send sees. -/
structure SelectView (α : Type) where
  /-- The error of the sendable's context, once it has ended. -/
  ctxErr : Option ContextErr
  /-- Whether the close notification has been given. -/
  closeNotify : Bool
  queue : Queue α
  /-- Whether a receiver is parked on the queue. -/
  receiver : Bool

/-- The cases of the select. -/
inductive SelectCase
  | ctxDone
  | closeNotify
  /-- The queue takes the sendable. -/
  | enqueue
  deriving DecidableEq

/-- What a send did. -/
structure SendOutcome where
  /-- The boolean result of `TrySend`; for `Send`, whether it returned no error. -/
  sent : Bool
  err : Option SendError
  /-- The sequence number given to the sendable, if it came to that. -/
  sequence : Option Int32
  /-- Whether the sendable went into the queue or to a waiting receiver. -/
  queued : Bool
  deriving DecidableEq

/-- The sequence number a sender context hands out, from the counter's next value. -/
def nextSequence (next : UInt32) : Int32 := next.toInt32

namespace SelectView

variable {α : Type}

/-- Whether the queue can take an element now. -/
def CanEnqueue (v : SelectView α) : Prop := v.queue.HasRoom ∨ v.receiver = true

instance (v : SelectView α) : Decidable v.CanEnqueue := inferInstanceAs (Decidable (_ ∨ _))

def Ready (v : SelectView α) : SelectCase → Prop
  | .ctxDone => v.ctxErr.isSome = true
  | .closeNotify => v.closeNotify = true
  | .enqueue => v.CanEnqueue

instance (v : SelectView α) : DecidablePred v.Ready := fun c =>
  match c with
  | .ctxDone => inferInstanceAs (Decidable (_ = true))
  | .closeNotify => inferInstanceAs (Decidable (_ = true))
  | .enqueue => inferInstanceAs (Decidable v.CanEnqueue)

def ready (v : SelectView α) : List SelectCase :=
  [.ctxDone, .closeNotify, .enqueue].filter fun c => decide (v.Ready c)

theorem mem_ready {v : SelectView α} {c : SelectCase} : c ∈ v.ready ↔ v.Ready c := by
  unfold ready
  rw [List.mem_filter, decide_eq_true_eq]
  cases c <;> simp

/-- What a case does, for a sendable that was given the sequence number `seq`. -/
def run (v : SelectView α) (seq : Int32) : SelectCase → SendOutcome
  | .ctxDone => ⟨false, some (.timeout v.ctxErr), some seq, false⟩
  | .closeNotify => ⟨false, some .closed, some seq, false⟩
  | .enqueue => ⟨true, none, some seq, true⟩

end SelectView

section

variable {α : Type}

/-- The outcomes of a non-blocking send.  `entry` is the error of the context when
the call starts, `v` what the select sees later. -/
def trySend (entry : Option ContextErr) (next : UInt32) (v : SelectView α) : List SendOutcome :=
  match entry with
  | some err => [⟨false, some (queueContextErr err), none, false⟩]
  | none =>
      match v.ready with
      | [] => [⟨false, none, some (nextSequence next), false⟩]
      | c :: cs => (c :: cs).map (v.run (nextSequence next))

/-- The outcomes of a blocking send at the moment its select runs; with no case
ready there is none, and the call waits. -/
def send (entry : Option ContextErr) (next : UInt32) (v : SelectView α) : List SendOutcome :=
  match entry with
  | some err => [⟨false, some (queueContextErr err), none, false⟩]
  | none => v.ready.map (v.run (nextSequence next))

/-- With a live context, the outcomes of both operations are those of the ready
cases, and a blocking send has no others. -/
theorem mem_send_iff {next : UInt32} {v : SelectView α} {o : SendOutcome} :
    o ∈ send none next v ↔ ∃ c, v.Ready c ∧ v.run (nextSequence next) c = o := by
  simp only [send, List.mem_map, SelectView.mem_ready]

theorem trySend_eq_send {next : UInt32} {v : SelectView α} (h : v.ready ≠ []) :
    trySend none next v = send none next v := by
  simp only [trySend, send]
  cases hr : v.ready with
  | nil => exact absurd hr h
  | cons c cs => rfl

/-! ### What a closed channel owes its callers -/

/-- An outcome that refuses: no success, nothing queued, and `ClosedError` if the
context is live throughout. -/
def Refuses (entry : Option ContextErr) (v : SelectView α) (o : SendOutcome) : Prop :=
  o.sent = false ∧ o.queued = false ∧ (entry = none → v.ctxErr = none → o.err = some .closed)

def RefusesTrySend (entry : Option ContextErr) (next : UInt32) (v : SelectView α) : Prop :=
  ∀ o ∈ trySend entry next v, Refuses entry v o

def RefusesSend (entry : Option ContextErr) (next : UInt32) (v : SelectView α) : Prop :=
  ∀ o ∈ send entry next v, Refuses entry v o

/-- A context that had ended is reported before anything else. -/
theorem refuses_of_entry {err : ContextErr} {next : UInt32} {v : SelectView α} :
    RefusesTrySend (some err) next v ∧ RefusesSend (some err) next v := by
  constructor
  · intro o ho
    rw [trySend, List.mem_singleton] at ho
    subst ho
    exact ⟨rfl, rfl, fun h => by cases h⟩
  · intro o ho
    rw [send, List.mem_singleton] at ho
    subst ho
    exact ⟨rfl, rfl, fun h => by cases h⟩

/-- On a closed channel with a live context, `Send` refuses exactly when the queue
cannot take the sendable. -/
theorem refusesSend_iff {next : UInt32} {v : SelectView α} :
    RefusesSend none next v ↔ ¬ v.CanEnqueue := by
  constructor
  · intro h hroom
    have ho := h _ (mem_send_iff.mpr ⟨.enqueue, hroom, rfl⟩)
    exact Bool.noConfusion ho.1
  · intro hroom o ho
    obtain ⟨c, hc, rfl⟩ := mem_send_iff.mp ho
    cases c with
    | ctxDone =>
      refine ⟨rfl, rfl, fun _ hlive => ?_⟩
      rw [SelectView.Ready, hlive] at hc
      simp at hc
    | closeNotify => exact ⟨rfl, rfl, fun _ _ => rfl⟩
    | enqueue => exact absurd hc hroom

end

/-! ### After `Close` -/

/-- **When a closed channel refuses.**  Let a channel be closed at any point of its
life and let anything happen to it afterwards.  A `Send` or `TrySend` that begins
then never succeeds, never queues, and reports `ClosedError` to a live context,
whatever case the select takes, if and only if the sendable's context had already
ended when the call began or the queue can take no sendable when the select runs. -/
theorem send_after_close_iff {α : Type} (config : Config) (u : Underlay)
    (before later : List LifeStep) (entry ctxErr : Option ContextErr) (next : UInt32)
    (queue : Queue α) (receiver : Bool) :
    let ch := ((config.impl u).after before).close.after later
    let v : SelectView α := ⟨ctxErr, ch.closeNotify, queue, receiver⟩
    (RefusesSend entry next v ∧ RefusesTrySend entry next v) ↔
      (entry.isSome = true ∨ ¬ v.CanEnqueue) := by
  intro ch v
  have hclosed : v.Ready .closeNotify :=
    ChannelImpl.closeNotify_after later
      (ChannelImpl.closeNotify_close (ChannelImpl.closeNotify_of_closed before Bool.noConfusion))
  have hready : v.ready ≠ [] := List.ne_nil_of_mem (SelectView.mem_ready.mpr hclosed)
  cases entry with
  | some err => simp [refuses_of_entry.1, refuses_of_entry.2]
  | none =>
    have htry : RefusesTrySend none next v ↔ RefusesSend none next v := by
      rw [RefusesTrySend, RefusesSend, trySend_eq_send hready]
    rw [htry, and_self, refusesSend_iff]
    simp

/-- A channel closed before it was used, its queue of four slots empty, and a
sendable without a deadline: the select may take the queue's case, and then `TrySend`
reports success and `Send` no error, with the sendable in the queue. -/
theorem send_after_close_succeeds :
    let first : Underlay := ⟨0, [], [], ∅⟩
    let config : Config := ⟨[], true, true, some first, ⟨[], none⟩, false, ∅, 0⟩
    let ch := (config.impl first).close
    let v : SelectView Message := ⟨none, ch.closeNotify, Queue.empty 4, false⟩
    ch.closed = true ∧ v.queue.HasRoom ∧
      (⟨true, none, some 1, true⟩ : SendOutcome) ∈ trySend none 1 v ∧
      (⟨true, none, some 1, true⟩ : SendOutcome) ∈ send none 1 v := by
  decide

end ZitiChannel
