import ZitiChannel.Multiplex
import ZitiChannel.RequestReply

/-!
# Sending one message

`tx` is one attempt to write a sendable to an underlay, with everything it calls on the way: the
sendable's listener, the handlers of the channel, the waiter map, the underlay and, after a failed
write, the senders, who may put the sendable back into a queue.  The two ways in which the
underlay can fail are written apart, and only one of them asks the senders.

In `Multiplex` the same function is cut into the steps of a `txer` that other goroutines come in
between.  Run without them, the steps tell the listener what `tx` tells it.

## Main definitions

* `tx` — the calls of one attempt, in order, and the error it returns.
* `OffersRetry` — what a sender may expect of an attempt that failed.
* `txWaiters` — the waiters after an attempt.
* `txRun` — the steps of a `txer` that nobody comes in between of.

## Main results

* `txRun_tx` — the steps of a `txer` are those of `tx`.
* `tx_offersRetry_iff` — **a failed attempt is offered for retry exactly when it is not the write
  timeout that could not be set.**
* `tx_waiters_iff` — **with the same exception, an attempt that did not write leaves no waiter.**

The source is `impl.go`.
-/

namespace ZitiChannel

open ByteStream

/-! ### An attempt -/

/-- What `tx` calls. -/
inductive TxCall
  | notifyBeforeWrite
  | notifyErr (err : TxErr)
  | notifyAfterWrite
  /-- A transform handler, by its place in the list. -/
  | transform (i : ℕ)
  | addWaiter
  | setWriteTimeout (writeTimeout : Int)
  | tx (m : Message)
  | removeWaiter (sequence : Int32)
  | handleError (i : ℕ) (err : GoString)
  | handleTxFailed (underlayType : GoString)
  | peek (i : ℕ)
  deriving DecidableEq

/-- The channel, as far as `tx` uses it. -/
structure TxChannel where
  /-- What each transform handler makes of a message. -/
  transformHandlers : List (Message → Message)
  errorHandlers : ℕ
  peekHandlers : ℕ
  /-- Whether the senders take the sendable back. -/
  handleTxFailed : GoString → Bool

/-- The message after all transform handlers. -/
def TxChannel.transformed (ch : TxChannel) (m : Message) : Message :=
  ch.transformHandlers.foldl (fun m handler => handler m) m

/-- The underlay, as far as `tx` uses it. -/
structure TxUnderlay where
  underlayType : GoString
  setWriteTimeout : Int → Option GoString
  tx : Message → Option GoString

/-- Set the write timeout, if there is one. -/
def TxUnderlay.limit (underlay : TxUnderlay) (writeTimeout : Int) :
    List TxCall × Option GoString :=
  if writeTimeout > 0 then
    ([.setWriteTimeout writeTimeout], underlay.setWriteTimeout writeTimeout)
  else ([], none)

/-- The write, and what follows it. -/
def TxChannel.write (ch : TxChannel) (underlay : TxUnderlay) (m : Message) :
    List TxCall × Option GoString :=
  match underlay.tx m with
  | some err =>
      let calls := [.tx m, .removeWaiter m.sequence] ++
        (List.range ch.errorHandlers).map (.handleError · err) ++
        [.handleTxFailed underlay.underlayType]
      -- a sendable that was taken back is not over
      if ch.handleTxFailed underlay.underlayType then (calls, some err)
      else (calls ++ [.notifyErr (.underlay err), .notifyAfterWrite], some err)
  | none =>
      ([.tx m] ++ (List.range ch.peekHandlers).map .peek ++ [.notifyAfterWrite], none)

/-- One attempt to write a sendable: `ctxErr` is the error of its write context. -/
def tx (ch : TxChannel) (underlay : TxUnderlay) (ctxErr : Option ContextErr) (msg : Option Message)
    (writeTimeout : Int) : List TxCall × Option GoString :=
  match ctxErr, msg with
  | some err, _ => ([.notifyErr (.timeout err)], none)
  -- a tracer: only its time to the front of the queue is of interest
  | none, none => ([.notifyBeforeWrite], none)
  | none, some m =>
      let calls := [.notifyBeforeWrite] ++
        (List.range ch.transformHandlers.length).map .transform ++ [.addWaiter]
      match underlay.limit writeTimeout with
      | (limited, some err) => (calls ++ limited ++ [.notifyErr (.underlay err)], some err)
      | (limited, none) =>
          let (written, err) := ch.write underlay (ch.transformed m)
          (calls ++ limited ++ written, err)

/-! ### The steps of a `txer` -/

/-- What a call tells the listener. -/
def TxCall.notice : TxCall → Option Notice
  | .notifyBeforeWrite => some .beforeWrite
  | .notifyErr err => some (.err err)
  | .notifyAfterWrite => some .afterWrite
  | _ => none

/-- What a step tells the listener. -/
def TxEffect.notice : TxEffect → Option Notice
  | .notify _ n | .finish _ n => some n
  | _ => none

/-- What the listener is told once the waiter is there, by the errors of setting the write timeout
and of the write. -/
def endNotices (requeued : Bool) : Option GoString → Option GoString → List Notice
  | some err, _ => [.err (.underlay err)]
  | none, some err => if requeued then [] else [.err (.underlay err), .afterWrite]
  | none, none => [.afterWrite]

/-- Calls that are nothing to a bystander. -/
theorem filterMap_map_eq_nil {β : Type} {g : TxCall → Option β} {f : ℕ → TxCall}
    (h : ∀ i, g (f i) = none) (l : List ℕ) : (l.map f).filterMap g = [] := by
  rw [List.filterMap_eq_nil_iff]
  intro call hcall
  obtain ⟨i, -, rfl⟩ := List.mem_map.mp hcall
  exact h i

theorem TxUnderlay.limit_notices (underlay : TxUnderlay) (writeTimeout : Int) :
    (underlay.limit writeTimeout).1.filterMap TxCall.notice = [] := by
  unfold limit
  split <;> rfl

theorem TxChannel.write_notices (ch : TxChannel) (underlay : TxUnderlay) (m : Message) :
    (ch.write underlay m).2 = underlay.tx m ∧
      (ch.write underlay m).1.filterMap TxCall.notice =
        endNotices (ch.handleTxFailed underlay.underlayType) none (underlay.tx m) := by
  have hpeek := filterMap_map_eq_nil (g := TxCall.notice) (f := .peek) (fun _ => rfl)
    (List.range ch.peekHandlers)
  unfold write
  cases underlay.tx m with
  | none => simp [List.filterMap_cons, TxCall.notice, endNotices, hpeek]
  | some err =>
    have hhandle := filterMap_map_eq_nil (g := TxCall.notice) (f := (.handleError · err))
      (fun _ => rfl) (List.range ch.errorHandlers)
    cases ch.handleTxFailed underlay.underlayType with
    | true => simp [List.filterMap_append, List.filterMap_cons, TxCall.notice, endNotices, hhandle]
    | false => simp [List.filterMap_append, List.filterMap_cons, TxCall.notice, endNotices, hhandle]

/-- The error and the notices of an attempt with a live context and a message. -/
theorem tx_live (ch : TxChannel) (underlay : TxUnderlay) (m : Message) (writeTimeout : Int) :
    let setErr := (underlay.limit writeTimeout).2
    let txErr := underlay.tx (ch.transformed m)
    (tx ch underlay none (some m) writeTimeout).2 = setErr.or txErr ∧
      (tx ch underlay none (some m) writeTimeout).1.filterMap TxCall.notice =
        .beforeWrite :: endNotices (ch.handleTxFailed underlay.underlayType) setErr txErr := by
  have htransform := filterMap_map_eq_nil (g := TxCall.notice) (f := .transform) (fun _ => rfl)
    (List.range ch.transformHandlers.length)
  have hlimited := underlay.limit_notices writeTimeout
  obtain ⟨herr, hwritten⟩ := ch.write_notices underlay (ch.transformed m)
  simp only [tx]
  cases hset : underlay.limit writeTimeout with
  | mk limited setErr =>
    rw [hset] at hlimited
    cases setErr with
    | some err => simp [List.filterMap_cons, TxCall.notice, hlimited, htransform, endNotices]
    | none => simp [List.filterMap_cons, TxCall.notice, hlimited, htransform, herr, hwritten]

/-- Once the write timeout is set, an attempt ends with the write. -/
theorem tx_write_suffix (ch : TxChannel) {underlay : TxUnderlay} (m : Message) {writeTimeout : Int}
    (hlimit : (underlay.limit writeTimeout).2 = none) :
    (ch.write underlay (ch.transformed m)).1 <:+ (tx ch underlay none (some m) writeTimeout).1 := by
  simp only [tx]
  split
  · next hl => rw [hl] at hlimit; cases hlimit
  · exact List.suffix_append _ _

theorem exists_notifyErr_mem_iff (calls : List TxCall) :
    (∃ err, .notifyErr err ∈ calls) ↔ ∃ err, .err err ∈ calls.filterMap TxCall.notice := by
  constructor
  · rintro ⟨err, h⟩
    exact ⟨err, List.mem_filterMap.mpr ⟨_, h, rfl⟩⟩
  · rintro ⟨err, h⟩
    obtain ⟨call, hcall, hnotice⟩ := List.mem_filterMap.mp h
    cases call with
    | notifyErr err' => exact ⟨err', hcall⟩
    | _ => cases hnotice

/-- What `RetryToQueues` answers when nobody waits on the queues. -/
def retryToQueues (s : TxState) (x : ℕ) (queues : List ℕ) : Bool :=
  queues.any fun q => ((s.queues q).push? x).isSome

section

variable (setup : MuxSetup) (s : TxState) (t : ℕ)

/-- The steps of `txer` `t` while nothing else happens: where it gets to, and what it does. -/
def txRun : TxPc → List TxAction → Option (TxPc × List TxEffect)
  | pc, [] => some (pc, [])
  | pc, a :: as =>
      match txNext setup s t pc a with
      | some (pc, e) => (txRun pc as).map fun (pc, es) => (pc, e :: es)
      | none => none

end

section

variable {setup : MuxSetup} {s : TxState} {t x : ℕ}

/-- The queues are tried until one takes the sendable. -/
theorem txRun_retry (err : GoString) : ∀ queues, ∃ actions es,
    txRun setup s t (.retry x queues err) actions = some (.stopped, es) ∧
      es.filterMap TxEffect.notice =
        if retryToQueues s x queues then [] else [.err (.underlay err), .afterWrite] := by
  intro queues
  induction queues with
  | nil => exact ⟨[.go, .go], _, rfl, rfl⟩
  | cons q queues ih =>
    cases hpush : (s.queues q).push? x with
    | some queue =>
      refine ⟨[.go], [.requeue q x queue], ?_, ?_⟩
      · simp [txRun, txNext, hpush]
      · simp [TxEffect.notice, retryToQueues, hpush]
    | none =>
      obtain ⟨actions, es, hrun, hnotices⟩ := ih
      refine ⟨.go :: actions, .quiet :: es, ?_, ?_⟩
      · simp [txRun, txNext, hpush, hrun]
      · rw [List.filterMap_cons_none rfl, hnotices]
        simp [retryToQueues, hpush]

theorem txRun_cons {pc pc' pc'' : TxPc} {a : TxAction} {as : List TxAction} {e : TxEffect}
    {es : List TxEffect} (hnext : txNext setup s t pc a = some (pc', e))
    (hrun : txRun setup s t pc' as = some (pc'', es)) :
    txRun setup s t pc (a :: as) = some (pc'', e :: es) := by
  simp [txRun, hnext, hrun]

/-- From the write on, with the error that the underlay returns. -/
theorem txRun_write (txErr : Option GoString) :
    ∃ actions es, txRun setup s t (.write x) actions =
        some (if txErr.isSome then .stopped else .source, es) ∧
      es.filterMap TxEffect.notice = endNotices (retryToQueues s x setup.retry) none txErr := by
  cases txErr with
  | none => exact ⟨[.underlay none, .go], _, rfl, rfl⟩
  | some err =>
    obtain ⟨actions, es, hrun, hnotices⟩ := txRun_retry err setup.retry
    exact ⟨.underlay (some err) :: .go :: actions, .quiet :: .removeWaiter x :: es,
      txRun_cons rfl (txRun_cons rfl hrun), hnotices⟩

/-- From the waiter on, with the errors that the underlay returns. -/
theorem txRun_underlay {setErr : Option GoString}
    (hset : setup.writeTimeout = false → setErr = none) (txErr : Option GoString) :
    ∃ actions es, txRun setup s t (.addWaiter x) actions =
        some (if (setErr.or txErr).isSome then .stopped else .source, es) ∧
      es.filterMap TxEffect.notice =
        endNotices (retryToQueues s x setup.retry) setErr txErr := by
  obtain ⟨actions, es, hrun, hnotices⟩ := txRun_write txErr
  have hnext : txNext setup s t (.addWaiter x) .go =
      some (if setup.writeTimeout then .setWriteTimeout x else .write x, .addWaiter x) := by
    rw [txNext]; split <;> rfl
  cases htimeout : setup.writeTimeout with
  | false =>
    rw [htimeout] at hnext
    rw [hset htimeout]
    exact ⟨.go :: actions, .addWaiter x :: es, txRun_cons hnext hrun, hnotices⟩
  | true =>
    rw [htimeout] at hnext
    cases setErr with
    | none =>
      exact ⟨.go :: .underlay none :: actions, .addWaiter x :: .quiet :: es,
        txRun_cons hnext (txRun_cons rfl hrun), hnotices⟩
    | some err => exact ⟨[.go, .underlay (some err)], _, txRun_cons hnext rfl, rfl⟩

/-- **The steps of a `txer` are those of `tx`**: the listener is told the same, and the `txer` goes
on exactly when there is no error. -/
theorem txRun_tx {ch : TxChannel} {underlay : TxUnderlay} {msg : Option Message}
    {writeTimeout : Int} (hmsg : (setup.sendable x).msg = msg.map (·.sequence))
    (htimeout : setup.writeTimeout = decide (0 < writeTimeout))
    (hretry : ch.handleTxFailed underlay.underlayType = retryToQueues s x setup.retry) :
    ∃ actions es,
      let result := tx ch underlay (s.writeContextErr setup x) msg writeTimeout
      txRun setup s t (.check x) actions =
          some (if result.2.isSome then .stopped else .source, es) ∧
        es.filterMap TxEffect.notice = result.1.filterMap TxCall.notice := by
  cases hctx : s.writeContextErr setup x with
  | some err =>
    have hnext : txNext setup s t (.check x) .go =
        some (.source, .finish x (.err (.timeout err))) := by simp [txNext, hctx]
    exact ⟨[.go], _, txRun_cons hnext rfl, rfl⟩
  | none =>
    cases msg with
    | none =>
      have hnext : txNext setup s t (.check x) .go = some (.source, .finish x .beforeWrite) := by
        simp [txNext, hctx, hmsg]
      exact ⟨[.go], _, txRun_cons hnext rfl, rfl⟩
    | some m =>
      obtain ⟨herr, hnotices⟩ := tx_live ch underlay m writeTimeout
      have hset : setup.writeTimeout = false → (underlay.limit writeTimeout).2 = none := by
        intro h
        rw [htimeout, decide_eq_false_iff_not] at h
        rw [TxUnderlay.limit, if_neg h]
      obtain ⟨actions, es, hrun, hes⟩ := txRun_underlay hset (underlay.tx (ch.transformed m))
      have hnext : txNext setup s t (.check x) .go =
          some (.addWaiter x, .notify x .beforeWrite) := by simp [txNext, hctx, hmsg]
      rw [← herr] at hrun
      refine ⟨.go :: actions, _, txRun_cons hnext hrun, ?_⟩
      rw [hnotices, hretry, ← hes]
      rfl

/-! ### Failed attempts -/

/-- What a sender may expect of an attempt that failed: the senders were asked, and the listener
was told of the error, and then that it is over, exactly if they did not take the sendable back. -/
def OffersRetry (ch : TxChannel) (underlay : TxUnderlay)
    (result : List TxCall × Option GoString) : Prop :=
  result.2.isSome = true →
    .handleTxFailed underlay.underlayType ∈ result.1 ∧
    ((∃ err, .notifyErr err ∈ result.1) ↔ ch.handleTxFailed underlay.underlayType = false) ∧
    (ch.handleTxFailed underlay.underlayType = false →
      ∃ err, [.notifyErr err, .notifyAfterWrite] <:+ result.1)

/-- **Failed writes are offered for retry** if and only if it is not setting the write timeout that
fails: for every sendable with a live write context and a message, every write timeout, every
underlay and every answer of the senders. -/
theorem tx_offersRetry_iff (ch : TxChannel) (underlay : TxUnderlay) (m : Message)
    (writeTimeout : Int) :
    OffersRetry ch underlay (tx ch underlay none (some m) writeTimeout) ↔
      ¬ (0 < writeTimeout ∧ (underlay.setWriteTimeout writeTimeout).isSome = true) := by
  by_cases hset : 0 < writeTimeout ∧ (underlay.setWriteTimeout writeTimeout).isSome = true
  · -- the senders are not asked
    obtain ⟨hpos, hsome⟩ := hset
    obtain ⟨err, herr⟩ := Option.isSome_iff_exists.mp hsome
    have hlimit : underlay.limit writeTimeout = ([.setWriteTimeout writeTimeout], some err) := by
      rw [TxUnderlay.limit, if_pos hpos, herr]
    simp [OffersRetry, tx, hlimit, hpos, hsome]
  · refine iff_of_true ?_ hset
    have hlimit : (underlay.limit writeTimeout).2 = none := by
      rw [TxUnderlay.limit]
      split
      · next hpos => simpa [hpos] using hset
      · rfl
    obtain ⟨herr, hnotices⟩ := tx_live ch underlay m writeTimeout
    have hcalls := tx_write_suffix ch m hlimit
    intro hfailed
    rw [herr, hlimit, Option.none_or] at hfailed
    obtain ⟨err, htx⟩ := Option.isSome_iff_exists.mp hfailed
    rw [hlimit, htx] at hnotices
    rw [TxChannel.write, htx] at hcalls
    rw [exists_notifyErr_mem_iff, hnotices]
    cases hretry : ch.handleTxFailed underlay.underlayType with
    | true =>
      rw [hretry] at hcalls
      refine ⟨hcalls.subset (by simp), by simp [endNotices], by simp⟩
    | false =>
      rw [hretry] at hcalls
      refine ⟨hcalls.subset (by simp), by simp [endNotices], fun _ => ⟨.underlay err, ?_⟩⟩
      exact (List.suffix_append _ _).trans hcalls

/-- A dead connection, a write timeout of one second, and senders that would take the sendable
back: they are not asked, and the listener is told of the error and not that it is over. -/
theorem tx_offersRetry_dead :
    let ch : TxChannel := ⟨[], 0, 0, fun _ => true⟩
    let underlay : TxUnderlay := ⟨[], fun _ => some (str "closed"), fun _ => some (str "closed")⟩
    let result := tx ch underlay none (some (newMessage 7 [])) 1000000000
    result.2 = some (str "closed") ∧ .handleTxFailed [] ∉ result.1 ∧
      .notifyErr (.underlay (str "closed")) ∈ result.1 ∧ .notifyAfterWrite ∉ result.1 := by
  decide

end

/-! ### Waiters -/

section

variable {ρ : Type}

/-- What a call does to the waiters, for a sendable with the given sequence number. -/
def TxCall.waiterOp (sequence : Int32) (replyReceiver : Option ρ) (deadline : Option Int)
    (now : Int) : TxCall → Option (WaiterOp ρ)
  | .addWaiter => some (.add sequence replyReceiver deadline now)
  | .removeWaiter sequence => some (.remove sequence)
  | _ => none

/-- The waiters after the calls of an attempt.  The message is registered as the transform handlers
leave it; a tracer is not registered. -/
def txWaiters (ch : TxChannel) (msg : Option Message) (replyReceiver : Option ρ)
    (deadline : Option Int) (now : Int) (waiters : WaiterMap ρ) (calls : List TxCall) :
    WaiterMap ρ :=
  let sequence := msg.elim 0 fun m => (ch.transformed m).sequence
  waiters.ops (calls.filterMap (TxCall.waiterOp sequence replyReceiver deadline now))

/-- The underlay has written a message. -/
def Written (underlay : TxUnderlay) (calls : List TxCall) : Prop :=
  ∃ m, .tx m ∈ calls ∧ underlay.tx m = none

/-- A waiter that is added and removed leaves no trace. -/
theorem WaiterMap.removeWaiter_addWaiter {waiters : WaiterMap ρ} {seq : Int32}
    (h : waiters.m seq = none) (receiver : ρ) (deadline : Option Int) (now : Int) :
    ((waiters.addWaiter seq (some receiver) deadline now).removeWaiter seq).1 = waiters := by
  have hm : Function.update waiters.m seq none = waiters.m := by
    rw [← h, Function.update_eq_self]
  cases waiters
  simp only [addWaiter, removeWaiter, Function.update_self, Function.update_idem] at hm ⊢
  rw [hm, mk.injEq]
  exact ⟨rfl, Int32.add_sub_cancel _ _⟩

/-- What the write does to the waiters: a message that was not written is taken out again. -/
theorem TxChannel.write_waiterOps (ch : TxChannel) (underlay : TxUnderlay) (m : Message)
    (sequence : Int32) (replyReceiver : Option ρ) (deadline : Option Int) (now : Int) :
    (ch.write underlay m).1.filterMap (TxCall.waiterOp sequence replyReceiver deadline now) =
      if (underlay.tx m).isSome then [.remove m.sequence] else [] := by
  have hpeek := filterMap_map_eq_nil (g := TxCall.waiterOp sequence replyReceiver deadline now)
    (f := .peek) (fun _ => rfl) (List.range ch.peekHandlers)
  unfold write
  cases underlay.tx m with
  | none => simp [List.filterMap_cons, TxCall.waiterOp, hpeek]
  | some err =>
    have hhandle := filterMap_map_eq_nil
      (g := TxCall.waiterOp sequence replyReceiver deadline now) (f := (.handleError · err))
      (fun _ => rfl) (List.range ch.errorHandlers)
    cases ch.handleTxFailed underlay.underlayType with
    | true => simp [List.filterMap_append, List.filterMap_cons, TxCall.waiterOp, hhandle]
    | false => simp [List.filterMap_append, List.filterMap_cons, TxCall.waiterOp, hhandle]

/-- What an attempt does to the waiters, with a live context and a message. -/
theorem tx_waiterOps (ch : TxChannel) (underlay : TxUnderlay) (m : Message) (writeTimeout : Int)
    (sequence : Int32) (replyReceiver : Option ρ) (deadline : Option Int) (now : Int) :
    (tx ch underlay none (some m) writeTimeout).1.filterMap
        (TxCall.waiterOp sequence replyReceiver deadline now) =
      .add sequence replyReceiver deadline now ::
        if (underlay.limit writeTimeout).2 = none ∧ (underlay.tx (ch.transformed m)).isSome then
          [.remove (ch.transformed m).sequence]
        else [] := by
  have htransform := filterMap_map_eq_nil
    (g := TxCall.waiterOp sequence replyReceiver deadline now) (f := .transform) (fun _ => rfl)
    (List.range ch.transformHandlers.length)
  have hlimited : (underlay.limit writeTimeout).1.filterMap
      (TxCall.waiterOp sequence replyReceiver deadline now) = [] := by
    unfold TxUnderlay.limit
    split <;> rfl
  have hwrite := ch.write_waiterOps underlay (ch.transformed m) sequence replyReceiver deadline now
  simp only [tx]
  cases hset : underlay.limit writeTimeout with
  | mk limited setErr =>
    rw [hset] at hlimited
    cases setErr with
    | some err => simp [List.filterMap_cons, TxCall.waiterOp, hlimited, htransform]
    | none => simp [List.filterMap_cons, TxCall.waiterOp, hlimited, htransform, hwrite]

/-- A message is written if the write timeout could be set and the write does not fail. -/
theorem written_tx_iff (ch : TxChannel) (underlay : TxUnderlay) (m : Message)
    (writeTimeout : Int) :
    Written underlay (tx ch underlay none (some m) writeTimeout).1 ↔
      (underlay.limit writeTimeout).2 = none ∧ underlay.tx (ch.transformed m) = none := by
  have hlimited : ∀ m', .tx m' ∉ (underlay.limit writeTimeout).1 := by
    intro m'
    unfold TxUnderlay.limit
    split <;> simp
  have hwrite : ∀ m', .tx m' ∈ (ch.write underlay (ch.transformed m)).1 ↔
      m' = ch.transformed m := by
    intro m'
    unfold TxChannel.write
    split
    · split <;> simp
    · simp
  simp only [Written, tx]
  cases hset : underlay.limit writeTimeout with
  | mk limited setErr =>
    rw [hset] at hlimited
    cases setErr with
    | some err => simp [hlimited]
    | none => simp [hlimited, hwrite]

/-- **No waiter survives an unwritten request**, if and only if it is not setting the write timeout
that fails: for every sendable with a reply receiver, every context, message and write timeout,
every underlay, and every map without an entry for the message's sequence number. -/
theorem tx_waiters_iff (ch : TxChannel) (underlay : TxUnderlay) (ctxErr : Option ContextErr)
    (msg : Option Message) (writeTimeout : Int) (receiver : ρ) (deadline : Option Int) (now : Int)
    (waiters : WaiterMap ρ) (hnone : ∀ m ∈ msg, waiters.m (ch.transformed m).sequence = none) :
    (¬ Written underlay (tx ch underlay ctxErr msg writeTimeout).1 →
      txWaiters ch msg (some receiver) deadline now waiters
        (tx ch underlay ctxErr msg writeTimeout).1 = waiters) ↔
      ¬ (ctxErr = none ∧ msg.isSome = true ∧ 0 < writeTimeout ∧
        (underlay.setWriteTimeout writeTimeout).isSome = true) := by
  match ctxErr, msg with
  | some err, msg => exact iff_of_true (fun _ => rfl) (by simp)
  | none, none => exact iff_of_true (fun _ => rfl) (by simp)
  | none, some m =>
    have hfree := hnone m rfl
    have hlimit : (underlay.limit writeTimeout).2 = none ↔
        ¬ (0 < writeTimeout ∧ (underlay.setWriteTimeout writeTimeout).isSome = true) := by
      unfold TxUnderlay.limit
      split
      · next hpos => simp [hpos]
      · next hpos => simp [hpos]
    simp only [written_tx_iff, txWaiters, tx_waiterOps, Option.elim_some, true_and,
      Option.isSome_some, ← hlimit]
    by_cases hset : (underlay.limit writeTimeout).2 = none
    · refine iff_of_true (fun hwritten => ?_) hset
      have hfailed : (underlay.tx (ch.transformed m)).isSome = true := by
        rw [Option.isSome_iff_ne_none]
        exact fun h => hwritten ⟨hset, h⟩
      rw [if_pos ⟨hset, hfailed⟩]
      exact WaiterMap.removeWaiter_addWaiter hfree receiver deadline now
    · -- the waiter stays
      refine iff_of_false (fun h => ?_) hset
      have hkept := h fun hw => hset hw.1
      rw [if_neg fun hw => hset hw.1] at hkept
      have hentry := congrArg (fun w => w.m (ch.transformed m).sequence) hkept
      have hadded := waiters.addWaiter_self (ch.transformed m).sequence receiver deadline now
      simp only [WaiterMap.ops, List.foldl_cons, List.foldl_nil, WaiterMap.op, hadded, hfree,
        reduceCtorEq] at hentry

/-- The write of a request fails: no waiter is left. -/
theorem tx_waiters_write_fails :
    let ch : TxChannel := ⟨[], 0, 0, fun _ => true⟩
    let underlay : TxUnderlay := ⟨[], fun _ => none, fun _ => some (str "closed")⟩
    let waiters : WaiterMap Unit := ⟨fun _ => none, 0⟩
    let result := tx ch underlay none (some (newMessage 7 [])) 1000000000
    ¬ Written underlay result.1 ∧
      txWaiters ch (some (newMessage 7 [])) (some ()) none 0 waiters result.1 = waiters := by
  intro ch underlay waiters result
  have hwritten : ¬ Written underlay result.1 := by
    rintro ⟨m, -, hm⟩
    cases hm
  exact ⟨hwritten, (tx_waiters_iff ch underlay none (some (newMessage 7 [])) 1000000000 () none 0
    waiters (fun _ _ => rfl)).mpr (by decide) hwritten⟩

/-- A dead connection and a write timeout of one second: the request is not written, and its waiter
stays, and is counted. -/
theorem tx_waiters_dead :
    let ch : TxChannel := ⟨[], 0, 0, fun _ => true⟩
    let underlay : TxUnderlay := ⟨[], fun _ => some (str "closed"), fun _ => some (str "closed")⟩
    let waiters : WaiterMap Unit := ⟨fun _ => none, 0⟩
    let result := tx ch underlay none (some (newMessage 7 [])) 1000000000
    let after := txWaiters ch (some (newMessage 7 [])) (some ()) none 0 waiters result.1
    ¬ Written underlay result.1 ∧ (after.m (-1)).isSome = true ∧ after.size = 1 := by
  refine ⟨?_, by decide, by decide⟩
  rintro ⟨m, -, hm⟩
  cases hm

end

end ZitiChannel
