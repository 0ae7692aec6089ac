import ZitiChannel.QueueWait
import ZitiChannel.ReplyRouting
import ZitiChannel.Lib.Refinement

/-!
# Waiting for the wire and for a reply

`SendAndWaitForWire` and `SendForReply` send an envelope of their own and then wait: for the
closing of the channel, for the listener of the envelope, for the end of the context and, if it is
a reply they want, for the reply.  Several of these may be ready at once, and then any of them is
the answer.  On its way out a call cancels the context, if the envelope has a cancel function.

The calls run beside the traffic of the channel, as those of `SendAndWaitForQueue` do.  The two
channels that a call receives from are read off the record: a buffered error comes before the close
of `errC`, so what `errC` gives is the first thing its listener was told that counts, and `replyC`
keeps the first reply and drops the others.

An answer that a call could get it can get at any later time, since nothing that a select waits for
is ever taken back (`waitResult_mono`).  All that is said about answers rests on this.

## Main definitions

* `WaitKind`, `WaitSetup` — the envelopes that calls wait for.
* `Multiplex.waitResult` — what a case of the select of a waiting call gives.
* `envelopeWait` — the calls beside the traffic, as a transition system.

## Main results

* `refines_multiplex` — what happens to the traffic is what can happen to it in `multiplex`.
* `waitForWire_outcome` — **the answer of `SendAndWaitForWire` is the fate of the message.**
* `waitForReply_outcome` — **`SendForReply` gives each reply to one call, the one that asked.**
* `no_attempt_after_return` — **after a call has returned and cancelled, no attempt to write
  begins.**

The source is `envelope.go`.
-/

namespace ZitiChannel

open Transition

/-! ### Envelopes and answers -/

/-- What a call waits for once its message is queued. -/
inductive WaitKind
  /-- `sendWaitEnvelope` -/
  | wire
  /-- `replyEnvelope` -/
  | reply
  deriving DecidableEq

/-- The traffic of a channel, some of whose sendables are envelopes of waiting calls.  They have a
message and their own context, and one kind is its own reply receiver. -/
structure WaitSetup extends MuxSetup where
  kind : ℕ → Option WaitKind
  /-- Whether the envelope has a cancel function. -/
  cancelF : ℕ → Bool
  envelope : ∀ x k, kind x = some k → (sendable x).msg.isSome = true ∧
    (sendable x).queueWait = false ∧ (sendable x).replyReceiver = decide (k = .reply)

/-- What a waiting call fails with. -/
inductive WaitErr
  /-- The error of `Send`. -/
  | send (err : SendError)
  /-- `ClosedError` -/
  | closed
  /-- What the listener was told. -/
  | tx (err : TxErr)
  /-- `TimeoutError`: "timeout waiting for message to be written to wire" or "timeout waiting for
  message reply", with the context's error. -/
  | timeout (err : ContextErr)
  deriving DecidableEq

/-- What a waiting call returns. -/
inductive WaitResult
  | written
  | reply (m : Message)
  | err (err : WaitErr)
  deriving DecidableEq

/-- Whether the message was queued before the call returned this. -/
def WaitResult.put : WaitResult → Bool
  | .err (.send _) => false
  | _ => true

/-- What a notice makes `errC` give, if anything: an error or, by being closed, none. -/
def Notice.answer (k : WaitKind) : Notice → Option (Option TxErr)
  | .beforeWrite => none
  | .afterWrite => if k = .wire then some none else none
  | .err cause => some (some cause)

/-- The reply to `x` that a delivery is. -/
def Delivery.replyTo (x : ℕ) (d : Delivery) : Option Message :=
  match d.target with
  | .receiver r => if r.owner = x then some d.message else none
  | _ => none

/-- The cases of the select of a waiting call. -/
inductive WaitCase
  | closeNotify
  | errC
  | ctxDone
  | replyC
  deriving DecidableEq

namespace Multiplex

/-- What `errC` gives. -/
def errC (s : Multiplex) (k : WaitKind) (x : ℕ) : Option (Option TxErr) :=
  (s.tx.notices x).findSome? (Notice.answer k)

/-- What `replyC` gives. -/
def replyC (s : Multiplex) (x : ℕ) : Option Message :=
  s.rx.deliveries.findSome? (Delivery.replyTo x)

/-- What a case gives, if it is ready. -/
def waitResult (s : Multiplex) (k : WaitKind) (x : ℕ) : WaitCase → Option WaitResult
  | .closeNotify => if s.rx.closed then some (.err .closed) else none
  | .errC =>
      match s.errC k x with
      | some none => some .written
      | some (some err) => some (.err (.tx err))
      | none => none
  | .ctxDone => (s.tx.ctxErr x).map fun err => .err (.timeout err)
  | .replyC => if k = .reply then (s.replyC x).map .reply else none

end Multiplex

/-! ### Calls -/

/-- Where a call stands. -/
inductive WaitPc
  | idle
  /-- In the select of `Send`. -/
  | selecting
  | waiting
  /-- The answer is there, and the context is not cancelled yet. -/
  | returning (r : WaitResult)
  | returned (r : WaitResult)
  deriving DecidableEq

/-- Whether the call has queued its message. -/
def WaitPc.put : WaitPc → Bool
  | .idle | .selecting => false
  | .waiting => true
  | .returning r | .returned r => r.put

def WaitPc.result : WaitPc → Option WaitResult
  | .returning r | .returned r => some r
  | _ => none

/-- The calls and the traffic.  Each envelope has a call of its own. -/
structure EnvelopeWait where
  mux : Multiplex
  calls : ℕ → WaitPc

namespace EnvelopeWait

/-- What can happen. -/
inductive Event
  /-- The call begins: `Send` looks at the context. -/
  | call (x : ℕ)
  | select (x q : ℕ) (c : SelectCase) (receiver : Option ℕ)
  | wait (x : ℕ) (c : WaitCase)
  /-- The deferred cancel runs, and the call returns. -/
  | cancel (x : ℕ)
  /-- Anything else that happens to the traffic. -/
  | traffic (act : Multiplex.Action)

section

variable (setup : WaitSetup)

def setCall (s : EnvelopeWait) (x : ℕ) (pc : WaitPc) : EnvelopeWait :=
  { s with calls := Function.update s.calls x pc }

/-- `CancelF`, if there is one. -/
def cancel (s : Multiplex) (x : ℕ) : Multiplex :=
  if setup.cancelF x then s.cancel setup.toMuxSetup x else s

def step (s : EnvelopeWait) : Event → Option EnvelopeWait
  | .call x =>
      match s.calls x with
      | .idle =>
          if (setup.kind x).isSome then
            match s.mux.tx.ctxErr x with
            | some err => some (s.setCall x (.returning (.err (.send (queueContextErr err)))))
            | none => some (s.setCall x .selecting)
          else none
      | _ => none
  | .select x q c receiver =>
      match s.calls x with
      | .selecting =>
          match s.mux.sendSelect setup.toMuxSetup x q c receiver with
          | some (mux, none) => some { s.setCall x .waiting with mux := mux }
          | some (_, some err) => some (s.setCall x (.returning (.err (.send err))))
          | none => none
      | _ => none
  | .wait x c =>
      match s.calls x, setup.kind x with
      | .waiting, some k => (s.mux.waitResult k x c).map fun r => s.setCall x (.returning r)
      | _, _ => none
  | .cancel x =>
      match s.calls x with
      | .returning r => some { s.setCall x (.returned r) with mux := cancel setup s.mux x }
      | _ => none
  | .traffic act =>
      -- an envelope of a call is sent by the call
      if act.submitted.all fun x => (setup.kind x).isNone then
        (s.mux.step setup.toMuxSetup act).map fun mux => { s with mux := mux }
      else none

end

end EnvelopeWait

/-- The calls beside the traffic: no call has begun. -/
def envelopeWait (setup : WaitSetup) : System EnvelopeWait EnvelopeWait.Event where
  init := ⟨(multiplex setup.toMuxSetup).init, fun _ => .idle⟩
  step := EnvelopeWait.step setup

/-! ### What the traffic never takes back -/

/-- What a select waits for stays as it was, and only grows. -/
structure Multiplex.Extends (s s' : Multiplex) : Prop where
  notices : ∀ x, s.tx.notices x <+: s'.tx.notices x
  deliveries : s.rx.deliveries <+: s'.rx.deliveries
  closed : s.rx.closed = true → s'.rx.closed = true
  ctxErr : ∀ x err, s.tx.ctxErr x = some err → s'.tx.ctxErr x = some err

namespace Multiplex

variable {setup : MuxSetup} {s s' : Multiplex}

theorem Extends.of_eq (hn : s'.tx.notices = s.tx.notices)
    (hd : s'.rx.deliveries = s.rx.deliveries) (hc : s'.rx.closed = s.rx.closed)
    (hx : s'.tx.ctxErr = s.tx.ctxErr) : s.Extends s' :=
  ⟨fun _ => hn ▸ List.prefix_refl _, hd ▸ List.prefix_refl _, hc.trans, fun _ _ => hx ▸ id⟩

theorem ctxErr_apply (s : TxState) (t : ℕ) (pc : TxPc) (e : TxEffect) :
    ((s.setTxer t pc).apply e).ctxErr = s.ctxErr := by
  cases e <;> rfl

/-- What an `rxer` does adds to the deliveries, and does not open a closed channel. -/
theorem receive_extends {s s' : RxState} {r : ℕ} {a : RxAction}
    (h : s.receive setup r (s.rxers r) a = some s') :
    s.deliveries <+: s'.deliveries ∧ s'.closed = s.closed := by
  refine RxState.receive_cases (P := fun s' => s.deliveries <+: s'.deliveries ∧
    s'.closed = s.closed) h ?_ ?_ ?_ ?_ ?_ ?_ ?_
  · intro m _; exact ⟨List.prefix_refl _, rfl⟩
  · intro _; exact ⟨List.prefix_refl _, rfl⟩
  · intro m now pc _ _ _; exact ⟨List.prefix_refl _, rfl⟩
  · intro m now _ _; exact ⟨List.prefix_append _ _, rfl⟩
  · intro m now n n' key _; exact ⟨List.prefix_refl _, rfl⟩
  · intro m now n _; exact ⟨List.prefix_refl _, rfl⟩
  · intro m _
    obtain ⟨target, htarget⟩ := RxState.takeReply_eq setup s m
    rw [htarget]
    exact ⟨List.prefix_append _ _, rfl⟩

theorem extends_step {act : Action} (h : s.step setup act = some s') : s.Extends s' := by
  refine step_cases (P := fun s' => s.Extends s') h ?_ ?_ ?_ ?_ ?_ ?_ ?_ ?_
  · intro x q queue _ _ _; exact .of_eq rfl rfl rfl rfl
  · intro x q t _ _ _; exact .of_eq rfl rfl rfl rfl
  · intro x err hact
    subst hact
    obtain ⟨hnone, -⟩ := ctxErr_of_expire h
    refine ⟨fun _ => List.prefix_refl _, List.prefix_refl _, id, fun y err' hy => ?_⟩
    have hyx : y ≠ x := by rintro rfl; rw [hnone] at hy; cases hy
    exact (Function.update_of_ne hyx _ _).trans hy
  · intro t a pc e _ _
    refine ⟨fun x => ?_, ?_, ?_, fun x err hx => ?_⟩
    · rw [notices_apply]; exact List.prefix_append _ _
    · cases e with
      | addWaiter x =>
        simp only [RxState.apply, RxState.addWaiter]
        split <;> exact List.prefix_refl _
      | _ => exact List.prefix_refl _
    · cases e with
      | addWaiter x =>
        simp only [RxState.apply, RxState.addWaiter]
        split <;> exact id
      | _ => exact id
    · rw [ctxErr_apply]; exact hx
  · intro r a rx _ hrx
    obtain ⟨hdel, hclosed⟩ := receive_extends hrx
    exact ⟨fun _ => List.prefix_refl _, hdel, fun hc => hclosed.trans hc, fun _ _ => id⟩
  · intro ms _; exact .of_eq rfl rfl rfl rfl
  · intro _; exact ⟨fun _ => List.prefix_refl _, List.prefix_refl _, fun _ => rfl, fun _ _ => id⟩
  · intro _ _; exact .of_eq rfl rfl rfl rfl

/-- Grounds for an error of `Send` stay there. -/
theorem SendGround.mono (h : s.Extends s') {x : ℕ} {err : SendError} (hg : s.SendGround x err) :
    s'.SendGround x err := by
  cases err with
  | closed => exact h.closed hg
  | context err => exact h.ctxErr x err hg
  | timeout cause =>
    obtain ⟨hsome, hctx⟩ := hg
    obtain ⟨err, rfl⟩ := Option.isSome_iff_exists.mp hsome
    exact ⟨hsome, h.ctxErr x err hctx⟩

/-- What an answer says. -/
theorem waitResult_cases {k : WaitKind} {x : ℕ} {c : WaitCase} {r : WaitResult}
    (h : s.waitResult k x c = some r) :
    (r = .err .closed ∧ s.rx.closed = true) ∨ (r = .written ∧ s.errC k x = some none) ∨
    (∃ err, r = .err (.tx err) ∧ s.errC k x = some (some err)) ∨
    (∃ err, r = .err (.timeout err) ∧ s.tx.ctxErr x = some err) ∨
    ∃ m, r = .reply m ∧ k = .reply ∧ s.replyC x = some m := by
  cases c with
  | closeNotify =>
    simp only [waitResult] at h
    split at h
    · next hclosed => cases h; exact .inl ⟨rfl, hclosed⟩
    · cases h
  | errC =>
    simp only [waitResult] at h
    split at h
    · next herr => cases h; exact .inr (.inl ⟨rfl, herr⟩)
    · next err herr => cases h; exact .inr (.inr (.inl ⟨err, rfl, herr⟩))
    · cases h
  | ctxDone =>
    obtain ⟨err, herr, rfl⟩ := Option.map_eq_some_iff.mp h
    exact .inr (.inr (.inr (.inl ⟨err, rfl, herr⟩)))
  | replyC =>
    simp only [waitResult] at h
    split at h
    · next hk =>
      obtain ⟨m, hm, rfl⟩ := Option.map_eq_some_iff.mp h
      exact .inr (.inr (.inr (.inr ⟨m, rfl, hk, hm⟩)))
    · cases h

/-- **An answer that a call could get stays there.** -/
theorem waitResult_mono (h : s.Extends s') {k : WaitKind} {x : ℕ} {c : WaitCase} {r : WaitResult}
    (hr : s.waitResult k x c = some r) : s'.waitResult k x c = some r := by
  cases c with
  | closeNotify =>
    simp only [waitResult] at hr ⊢
    split at hr
    · next hc => rwa [if_pos (h.closed hc)]
    · cases hr
  | errC =>
    have herr : ∀ a, s.errC k x = some a → s'.errC k x = some a := fun a ha =>
      List.IsPrefix.findSome?_eq_some (h.notices x) ha
    simp only [waitResult] at hr ⊢
    cases ha : s.errC k x with
    | none => rw [ha] at hr; cases hr
    | some a => rw [herr a ha]; rwa [ha] at hr
  | ctxDone =>
    obtain ⟨err, herr, rfl⟩ := Option.map_eq_some_iff.mp hr
    rw [waitResult, h.ctxErr x err herr]
    rfl
  | replyC =>
    simp only [waitResult] at hr ⊢
    split at hr
    · next hk =>
      obtain ⟨m, hm, rfl⟩ := Option.map_eq_some_iff.mp hr
      have hm' : s'.replyC x = some m := List.IsPrefix.findSome?_eq_some h.deliveries hm
      rw [if_pos hk, hm']
      rfl
    · cases hr

end Multiplex

/-! ### What a step does -/

namespace EnvelopeWait

variable {setup : WaitSetup} {s s' : EnvelopeWait}

theorem cancel_cases (setup : WaitSetup) (mux : Multiplex) (x : ℕ) :
    (cancel setup mux x = mux ∨
      mux.step setup.toMuxSetup (.expire x .canceled) = some (cancel setup mux x)) ∧
    (setup.cancelF x = true → ((cancel setup mux x).tx.ctxErr x).isSome = true) := by
  unfold cancel
  split
  · obtain ⟨hcases, hended⟩ := mux.cancel_cases setup.toMuxSetup x
    exact ⟨hcases, fun _ => hended⟩
  · next hc => exact ⟨.inl rfl, fun h => absurd h hc⟩

/-- What a step can be: a call that goes on before its message is queued, or fails there; a call
that queues its message; a call that has its answer; a call that returns; or a step of the
traffic. -/
theorem step_cases {e : Event} {P : EnvelopeWait → Prop}
    (h : (envelopeWait setup).step s e = some s')
    (before : ∀ x pc, s.calls x = .idle ∨ s.calls x = .selecting →
      pc = .selecting ∨ (∃ err, pc = .returning (.err (.send err)) ∧ s.mux.SendGround x err) →
      P (s.setCall x pc))
    (enqueue : ∀ x act mux, s.calls x = .selecting → act.submitted = some x →
      s.mux.step setup.toMuxSetup act = some mux → P { s.setCall x .waiting with mux := mux })
    (answered : ∀ x k c r, s.calls x = .waiting → setup.kind x = some k →
      s.mux.waitResult k x c = some r → P (s.setCall x (.returning r)))
    (cancel : ∀ x r, s.calls x = .returning r →
      P { s.setCall x (.returned r) with mux := cancel setup s.mux x })
    (traffic : ∀ act mux, (∀ x, act.submitted = some x → setup.kind x = none) →
      s.mux.step setup.toMuxSetup act = some mux → P { s with mux := mux }) : P s' := by
  cases e with
  | call x =>
    simp only [envelopeWait, step] at h
    split at h
    · next hpc =>
      split at h
      · split at h
        · next hctx =>
          cases h
          exact before x _ (.inl hpc) (.inr ⟨_, rfl, Multiplex.sendGround_queueContextErr hctx⟩)
        · cases h; exact before x _ (.inl hpc) (.inl rfl)
      · cases h
    · cases h
  | select x q c receiver =>
    simp only [envelopeWait, step] at h
    split at h
    · next hpc =>
      split at h
      · next mux hsel =>
        cases h
        obtain ⟨-, act, hact, hmux⟩ | ⟨err, herr, -⟩ := Multiplex.sendSelect_cases hsel
        · exact enqueue x act mux hpc hact hmux
        · cases herr
      · next hsel =>
        cases h
        obtain ⟨herr, -⟩ | ⟨err, herr, -, hground⟩ := Multiplex.sendSelect_cases hsel
        · cases herr
        · cases herr
          exact before x _ (.inr hpc) (.inr ⟨_, rfl, hground⟩)
      · cases h
    · cases h
  | wait x c =>
    simp only [envelopeWait, step] at h
    split at h
    · next k hpc hk =>
      obtain ⟨r, hr, rfl⟩ := Option.map_eq_some_iff.mp h
      exact answered x k c r hpc hk hr
    · cases h
  | cancel x =>
    simp only [envelopeWait, step] at h
    split at h
    · next r hpc => cases h; exact cancel x r hpc
    · cases h
  | traffic act =>
    simp only [envelopeWait, step] at h
    split at h
    · next hact =>
      obtain ⟨mux, hmux, rfl⟩ := Option.map_eq_some_iff.mp h
      refine traffic act mux (fun x hx => ?_) hmux
      simpa [hx] using hact
    · cases h

/-- The traffic takes at most one step of its own. -/
theorem mux_step {e : Event} (h : (envelopeWait setup).step s e = some s') :
    s'.mux = s.mux ∨ ∃ act, s.mux.step setup.toMuxSetup act = some s'.mux := by
  refine step_cases (P := fun s' => s'.mux = s.mux ∨
    ∃ act, s.mux.step setup.toMuxSetup act = some s'.mux) h ?_ ?_ ?_ ?_ ?_
  · intro x pc _ _; exact .inl rfl
  · intro x act mux _ _ hmux; exact .inr ⟨act, hmux⟩
  · intro x k c r _ _ _; exact .inl rfl
  · intro x r _
    obtain ⟨hsame | hmux, -⟩ := cancel_cases setup s.mux x
    · exact .inl hsame
    · exact .inr ⟨_, hmux⟩
  · intro act mux _ hmux; exact .inr ⟨act, hmux⟩

/-- **The traffic beside the calls is that of `multiplex`.** -/
theorem refines_multiplex (setup : WaitSetup) :
    (envelopeWait setup).Refines System.anyEvent (multiplex setup.toMuxSetup) System.anyEvent
      EnvelopeWait.mux where
  init := rfl
  step s e s' _ _ h := by
    rcases mux_step h with hsame | ⟨act, hact⟩
    · rw [hsame]; exact System.Steps.stutter _
    · exact System.Steps.single (e := act) trivial hact

theorem extends_steps (h : (envelopeWait setup).Steps System.anyEvent s s') :
    s.mux.Extends s'.mux := by
  induction h with
  | refl => exact .of_eq rfl rfl rfl rfl
  | tail _ hlast ih =>
    obtain ⟨e, -, he⟩ := hlast
    rcases mux_step he with hsame | ⟨act, hact⟩
    · rw [hsame]; exact ih
    · have hstep := Multiplex.extends_step hact
      exact ⟨fun x => (ih.notices x).trans (hstep.notices x), ih.deliveries.trans hstep.deliveries,
        fun hc => hstep.closed (ih.closed hc),
        fun x err hx => hstep.ctxErr x err (ih.ctxErr x err hx)⟩

/-- A call that has returned stays so. -/
theorem returned_steps {x : ℕ} {r : WaitResult} (h : s.calls x = .returned r)
    (hrun : (envelopeWait setup).Steps System.anyEvent s s') : s'.calls x = .returned r := by
  refine System.Steps.invariant (P := fun s => s.calls x = .returned r) ?_ h hrun
  intro s e s' hpc _ hstep
  have hkeep : ∀ {y pc}, s.calls y ≠ .returned r → (s.setCall y pc).calls x = .returned r := by
    intro y pc hy
    have hxy : x ≠ y := fun hxy => hy (hxy ▸ hpc)
    simpa [setCall, hxy] using hpc
  refine step_cases (P := fun s' => s'.calls x = .returned r) hstep ?_ ?_ ?_ ?_ ?_
  · intro y pc hy _
    exact hkeep (by rcases hy with h | h <;> rw [h] <;> simp)
  · intro y act mux hy _ _; exact hkeep (by rw [hy]; simp)
  · intro y k c r' hy _ _; exact hkeep (by rw [hy]; simp)
  · intro y r' hy; exact hkeep (by rw [hy]; simp)
  · intro act mux _ _; exact hpc

/-- Whether the message of a call was accepted follows from where the call stands. -/
theorem accepted_eq (hs : (envelopeWait setup).Reachable System.anyEvent s) {x : ℕ}
    (hx : (setup.kind x).isSome = true) : s.mux.tx.accepted x = (s.calls x).put := by
  refine hs.invariant (P := fun s => s.mux.tx.accepted x = (s.calls x).put) rfl ?_
  intro s e s' hacc _ hstep
  refine step_cases (P := fun s' => s'.mux.tx.accepted x = (s'.calls x).put) hstep ?_ ?_ ?_ ?_ ?_
  · intro y pc hold hnew
    rcases eq_or_ne x y with rfl | hxy
    · have hput : (s.calls x).put = false := by rcases hold with h | h <;> rw [h] <;> rfl
      have hput' : pc.put = false := by
        rcases hnew with rfl | ⟨err, rfl, -⟩ <;> rfl
      simpa [setCall, hput'] using hacc.trans hput
    · simpa [setCall, hxy] using hacc
  · intro y act mux _ hact hmux
    have hmuxAcc := Multiplex.accepted_step hmux x
    rcases eq_or_ne x y with rfl | hxy
    · simp [setCall, hmuxAcc, hact, WaitPc.put]
    · have hne : act.submitted ≠ some x := by
        rw [hact]
        intro h
        exact hxy (Option.some.inj h).symm
      simpa [setCall, hxy, hmuxAcc, hne] using hacc
  · intro y k c r hpc hk hr
    rcases eq_or_ne x y with rfl | hxy
    · -- no case of the select gives the error of a `Send`
      have hput : r.put = true := by
        obtain ⟨rfl, -⟩ | ⟨rfl, -⟩ | ⟨err, rfl, -⟩ | ⟨err, rfl, -⟩ | ⟨m, rfl, -⟩ :=
          Multiplex.waitResult_cases hr <;> rfl
      rw [hpc] at hacc
      simpa [setCall, WaitPc.put, hput] using hacc
    · simpa [setCall, hxy] using hacc
  · intro y r hpc
    have hmuxAcc : (cancel setup s.mux y).tx.accepted x = s.mux.tx.accepted x := by
      unfold cancel
      split
      · exact Multiplex.accepted_cancel _ _ _ _
      · rfl
    rcases eq_or_ne x y with rfl | hxy
    · rw [hpc] at hacc
      simpa [setCall, hmuxAcc, WaitPc.put] using hacc
    · simpa [setCall, hxy, hmuxAcc] using hacc
  · intro act mux hact hmux
    have hne : act.submitted ≠ some x := fun h => by rw [hact x h] at hx; cases hx
    simpa [Multiplex.accepted_step hmux x, hne] using hacc

/-- **An answer has its grounds**: it is an error of `Send` that there still are grounds for, or
what the select would still give. -/
theorem grounds (hs : (envelopeWait setup).Reachable System.anyEvent s) {x : ℕ} {k : WaitKind}
    (hk : setup.kind x = some k) {r : WaitResult} (hr : (s.calls x).result = some r) :
    (∃ err, r = .err (.send err) ∧ s.mux.SendGround x err) ∨
      ∃ c, s.mux.waitResult k x c = some r := by
  revert hr
  refine hs.invariant (P := fun s => (s.calls x).result = some r →
    (∃ err, r = .err (.send err) ∧ s.mux.SendGround x err) ∨
      ∃ c, s.mux.waitResult k x c = some r) (fun h => by cases h) ?_
  intro s e s' ih _ hstep
  have hsteps : (envelopeWait setup).Steps System.anyEvent s s' := .single (e := e) trivial hstep
  have hmux : s.mux.Extends s'.mux := extends_steps hsteps
  have hkeep : (s.calls x).result = some r →
      (∃ err, r = .err (.send err) ∧ s'.mux.SendGround x err) ∨
        ∃ c, s'.mux.waitResult k x c = some r := fun h =>
    (ih h).imp (fun ⟨err, hr, hg⟩ => ⟨err, hr, hg.mono hmux⟩)
      fun ⟨c, hc⟩ => ⟨c, Multiplex.waitResult_mono hmux hc⟩
  -- a call that is not this one leaves it where it is
  have hother : ∀ {y pc}, x ≠ y → (s.setCall y pc).calls x = s.calls x := fun hxy =>
    Function.update_of_ne hxy _ _
  have hself : ∀ {pc}, (s.setCall x pc).calls x = pc := Function.update_self _ _ _
  revert hkeep
  refine step_cases (P := fun s' => ((s.calls x).result = some r →
    (∃ err, r = .err (.send err) ∧ s'.mux.SendGround x err) ∨
      ∃ c, s'.mux.waitResult k x c = some r) → (s'.calls x).result = some r →
    (∃ err, r = .err (.send err) ∧ s'.mux.SendGround x err) ∨
      ∃ c, s'.mux.waitResult k x c = some r) hstep ?_ ?_ ?_ ?_ ?_
  · intro y pc _ hpc hkeep hr
    rcases eq_or_ne x y with rfl | hxy
    · rw [hself] at hr
      rcases hpc with rfl | ⟨err, rfl, hground⟩
      · cases hr
      · cases hr; exact .inl ⟨err, rfl, hground⟩
    · rw [hother hxy] at hr; exact hkeep hr
  · intro y act mux _ _ _ hkeep hr
    rcases eq_or_ne x y with rfl | hxy
    · change ((s.setCall x .waiting).calls x).result = some r at hr
      rw [hself] at hr
      cases hr
    · exact hkeep ((congrArg WaitPc.result (hother hxy)).symm.trans hr)
  · intro y k' c r' _ hk' hc hkeep hr
    rcases eq_or_ne x y with rfl | hxy
    · rw [hself] at hr
      cases hr
      rw [hk] at hk'
      cases hk'
      exact .inr ⟨c, hc⟩
    · rw [hother hxy] at hr; exact hkeep hr
  · intro y r' hpc hkeep hr
    rcases eq_or_ne x y with rfl | hxy
    · change ((s.setCall x (.returned r')).calls x).result = some r at hr
      rw [hself] at hr
      refine hkeep ?_
      rw [hpc]
      exact hr
    · exact hkeep ((congrArg WaitPc.result (hother hxy)).symm.trans hr)
  · intro act mux _ _ hkeep hr; exact hkeep hr

/-- Once a call with a cancel function has returned, its context has ended. -/
theorem ctxErr_of_returned (hs : (envelopeWait setup).Reachable System.anyEvent s) {x : ℕ}
    (hc : setup.cancelF x = true) {r : WaitResult} (hr : s.calls x = .returned r) :
    (s.mux.tx.ctxErr x).isSome = true := by
  revert hr
  refine hs.invariant (P := fun s => s.calls x = .returned r → (s.mux.tx.ctxErr x).isSome = true)
    (fun h => by cases h) ?_
  intro s e s' ih _ hstep hr
  have hsteps : (envelopeWait setup).Steps System.anyEvent s s' := .single (e := e) trivial hstep
  have hmux : s.mux.Extends s'.mux := extends_steps hsteps
  by_cases hold : s.calls x = .returned r
  · obtain ⟨err, herr⟩ := Option.isSome_iff_exists.mp (ih hold)
    rw [hmux.ctxErr x err herr]
    rfl
  -- the call has returned just now
  revert hr
  refine step_cases (P := fun s' => s'.calls x = .returned r →
    (s'.mux.tx.ctxErr x).isSome = true) hstep ?_ ?_ ?_ ?_ ?_
  · intro y pc _ hpc hr
    rcases eq_or_ne x y with rfl | hxy
    · rcases hpc with rfl | ⟨err, rfl, -⟩ <;> simp [setCall] at hr
    · exact absurd (by simpa [setCall, hxy] using hr) hold
  · intro y act mux _ _ _ hr
    rcases eq_or_ne x y with rfl | hxy
    · simp [setCall] at hr
    · exact absurd (by simpa [setCall, hxy] using hr) hold
  · intro y k c r' _ _ _ hr
    rcases eq_or_ne x y with rfl | hxy
    · simp [setCall] at hr
    · exact absurd (by simpa [setCall, hxy] using hr) hold
  · intro y r' _ hr
    rcases eq_or_ne x y with rfl | hxy
    · exact (cancel_cases setup s.mux x).2 hc
    · exact absurd (by simpa [setCall, hxy] using hr) hold
  · intro act mux _ _ hr; exact absurd hr hold

end EnvelopeWait

/-! ### How a message ends -/

section

variable {setup : MuxSetup} {ok : Multiplex → Multiplex.Action → Prop} {s : Multiplex}

/-- The account of a sendable is one of few, wherever it is. -/
theorem account_mem (hs : (multiplex setup).Reachable ok s) (x : ℕ) :
    s.tx.account x ∈ ([], 1) :: finals := by
  obtain ⟨place, -, hacc⟩ := tied_multiplex hs
  have hx := hacc x
  cases hp : place x with
  | outside | queue => rw [hp] at hx; rw [show s.tx.account x = ([], 0) from hx]; simp [finals]
  | held t => rw [hp] at hx; rw [show s.tx.account x = _ from hx]; exact TxPc.account_mem _
  | finished => rw [hp] at hx; exact List.mem_cons_of_mem _ hx

/-- Whoever was told of an error was not written. -/
theorem writes_eq_zero_of_err (hs : (multiplex setup).Reachable ok s) {x : ℕ}
    (h : .err ∈ terminals (s.tx.notices x)) : s.tx.writes x = 0 := by
  have hall : ∀ a ∈ ([], 1) :: finals, .err ∈ a.1 → a.2 = 0 := by decide
  exact hall _ (account_mem hs x) h

/-- Whoever was told of the write before anything else was written once. -/
theorem account_of_head_after (hs : (multiplex setup).Reachable ok s) {x : ℕ}
    (h : (terminals (s.tx.notices x)).head? = some .after) :
    s.tx.writes x = 1 ∧ terminals (s.tx.notices x) = [.after] := by
  have hall : ∀ a ∈ ([], 1) :: finals, a.1.head? = some .after → a.2 = 1 ∧ a.1 = [.after] := by
    decide
  exact hall _ (account_mem hs x) h

/-- Only a tracer is done with without an outcome. -/
theorem txNext_finish_outcome {s : TxState} {t x : ℕ} {pc pc' : TxPc} {a : TxAction} {n : Notice}
    (h : txNext setup s t pc a = some (pc', .finish x n))
    (hmsg : (setup.sendable x).msg.isSome = true) :
    n.outcome.isSome = true := by
  revert h
  generalize he : TxEffect.finish x n = e
  fun_cases txNext setup s t pc a
  all_goals intro h; cases h
  all_goals cases he
  all_goals simp_all [Notice.outcome]

/-- **A message that `tx` is done with has an outcome.** -/
theorem terminals_ne_nil_of_finished (hs : (multiplex setup).Reachable ok s) {x : ℕ}
    (hmsg : (setup.sendable x).msg.isSome = true) (hfin : s.tx.finished x = true) :
    terminals (s.tx.notices x) ≠ [] := by
  revert hfin
  refine hs.invariant (P := fun s => s.tx.finished x = true → terminals (s.tx.notices x) ≠ [])
    (fun h => by cases h) ?_
  intro s act s' ih _ hstep
  refine Multiplex.step_cases (P := fun s' => s'.tx.finished x = true →
    terminals (s'.tx.notices x) ≠ []) hstep ?_ ?_ ?_ ?_ ?_ ?_ ?_ ?_
  · intro y q queue _ _ _; exact ih
  · intro y q t _ _ _; exact ih
  · intro y err _; exact ih
  · intro t a pc e _ hnext hfin
    rw [notices_apply]
    cases e with
    | finish y n =>
      rcases eq_or_ne x y with rfl | hxy
      · -- the step that finishes it tells its listener
        obtain ⟨o, ho⟩ := Option.isSome_iff_exists.mp (txNext_finish_outcome hnext hmsg)
        simp [TxEffect.told, terminals_append, ho]
      · have hold : s.tx.finished x = true := by
          simpa [TxState.apply, TxState.notify, TxState.setTxer, hxy] using hfin
        simpa [TxEffect.told, hxy.symm] using ih hold
    | notify y n =>
      have hold := ih hfin
      simp only [terminals, List.filterMap_append, ne_eq, List.append_eq_nil_iff, not_and] at hold ⊢
      exact fun h => absurd h hold
    | _ =>
      simp only [TxEffect.told, List.append_nil]
      exact ih hfin
  · intro r a rx _ _; exact ih
  · intro ms _; exact ih
  · intro _; exact ih
  · intro _ _; exact ih

/-- What `errC` of a `sendWaitEnvelope` gives is the first outcome. -/
theorem errC_wire_head (ns : List Notice) :
    (ns.findSome? (Notice.answer .wire)).map (fun a => if a.isSome then Outcome.err else .after) =
      (terminals ns).head? := by
  have houtcome : Option.map (fun a : Option TxErr => if a.isSome then Outcome.err else .after) ∘
      Notice.answer .wire = Notice.outcome := by
    funext n
    cases n <;> rfl
  rw [terminals, List.head?_filterMap, List.map_findSome?, houtcome]

theorem mem_notices_of_errC {k : WaitKind} {x : ℕ} {err : TxErr}
    (h : s.errC k x = some (some err)) : .err err ∈ s.tx.notices x := by
  obtain ⟨n, hn, hans⟩ := List.exists_of_findSome?_eq_some h
  cases n with
  | beforeWrite => cases hans
  | afterWrite =>
    simp only [Notice.answer] at hans
    split at hans <;> cases hans
  | err cause => cases hans; exact hn

theorem err_mem_terminals {ns : List Notice} {err : TxErr} (h : .err err ∈ ns) :
    .err ∈ terminals ns :=
  List.mem_filterMap.mpr ⟨_, h, rfl⟩

end

/-! ### The answers of calls -/

/-- What an error of a call says: on what grounds it was returned, and what this means for the
message. -/
def ErrFate (s : Multiplex) (x : ℕ) : WaitErr → Prop
  | .send err => s.SendGround x err ∧ s.tx.accepted x = false ∧ s.tx.writes x = 0
  | .closed => s.rx.closed = true
  | .tx err => .err err ∈ s.tx.notices x ∧ s.tx.writes x = 0
  | .timeout err => s.tx.ctxErr x = some err

/-- What the answer of `SendAndWaitForWire` says about the message. -/
def WireFate (s : Multiplex) (x : ℕ) : WaitResult → Prop
  | .written => s.tx.writes x = 1 ∧ terminals (s.tx.notices x) = [.after]
  | .reply _ => False
  | .err err => ErrFate s x err

/-- What the answer of `SendForReply` says about the message.  A reply was delivered to a
registration of this very request, which an attempt to write the request has made and no other
delivery has used. -/
def ReplyFate (setup : MuxSetup) (s : Multiplex) (x : ℕ) : WaitResult → Prop
  | .written => False
  | .reply m => m.replyFor = setup.seq x ∧ ∃ past reg rest,
      s.rx.deliveries = past ++ ⟨m, .receiver ⟨x, reg⟩⟩ :: rest ∧ s.Registered setup x reg ∧
      ∀ d ∈ past ++ rest, d.registration ≠ some reg
  | .err err => ErrFate s x err

section

variable {setup : WaitSetup} {s : EnvelopeWait} {x : ℕ} {k : WaitKind}

/-- What the errors of both kinds of call say. -/
theorem errFate (hs : (envelopeWait setup).Reachable System.anyEvent s) (hk : setup.kind x = some k)
    {err : WaitErr} (hr : (s.calls x).result = some (.err err)) : ErrFate s.mux x err := by
  have hmux := (EnvelopeWait.refines_multiplex setup).reachable hs
  rcases EnvelopeWait.grounds hs hk hr with ⟨err, herr, hground⟩ | ⟨c, hc⟩
  · cases herr
    have hacc : s.mux.tx.accepted x = false := by
      rw [EnvelopeWait.accepted_eq hs (by rw [hk]; rfl)]
      cases hpc : s.calls x <;> rw [hpc] at hr <;> cases hr <;> rfl
    exact ⟨hground, hacc, (Multiplex.nowhere_of_not_accepted hmux hacc).2.2⟩
  obtain ⟨heq, hclosed⟩ | ⟨heq, -⟩ | ⟨err, heq, herr⟩ | ⟨err, heq, herr⟩ | ⟨m, heq, -⟩ :=
    Multiplex.waitResult_cases hc <;> cases heq
  · exact hclosed
  · have hmem := mem_notices_of_errC herr
    exact ⟨hmem, writes_eq_zero_of_err hmux (err_mem_terminals hmem)⟩
  · exact herr

theorem wireFate (hs : (envelopeWait setup).Reachable System.anyEvent s)
    (hk : setup.kind x = some .wire) {r : WaitResult} (hr : (s.calls x).result = some r) :
    WireFate s.mux x r := by
  have hmux := (EnvelopeWait.refines_multiplex setup).reachable hs
  cases r with
  | err err => exact errFate hs hk hr
  | written =>
    obtain ⟨err, herr, -⟩ | ⟨c, hc⟩ := EnvelopeWait.grounds hs hk hr
    · cases herr
    obtain ⟨heq, -⟩ | ⟨-, herr⟩ | ⟨err, heq, -⟩ | ⟨err, heq, -⟩ | ⟨m, heq, -⟩ :=
      Multiplex.waitResult_cases hc <;> try cases heq
    refine account_of_head_after hmux ?_
    rw [← errC_wire_head, show (s.mux.tx.notices x).findSome? _ = some none from herr]
    rfl
  | reply m =>
    obtain ⟨err, herr, -⟩ | ⟨c, hc⟩ := EnvelopeWait.grounds hs hk hr
    · cases herr
    obtain ⟨heq, -⟩ | ⟨heq, -⟩ | ⟨err, heq, -⟩ | ⟨err, heq, -⟩ | ⟨m, -, hkind, -⟩ :=
      Multiplex.waitResult_cases hc <;> try cases heq
    cases hkind

/-- What `replyC` gives was delivered to a registration of the request, and to no other. -/
theorem replyFate_of_replyC {setup : MuxSetup} {s : Multiplex} {m : Message}
    (hs : (multiplex setup).Reachable System.anyEvent s) (h : s.replyC x = some m) :
    ReplyFate setup s x (.reply m) := by
  have hrouted := routed_multiplex hs
  obtain ⟨past, d, rest, hsplit, hd, -⟩ := List.findSome?_eq_some_iff.mp h
  obtain ⟨message, target⟩ := d
  simp only [Delivery.replyTo] at hd
  split at hd
  · next r =>
    split at hd
    · next howner =>
      cases hd
      obtain ⟨owner, reg⟩ := r
      cases howner
      have hmem : (⟨m, .receiver ⟨owner, reg⟩⟩ : Delivery) ∈ s.rx.deliveries := by
        rw [hsplit]; simp
      refine ⟨(hrouted.routed _ hmem ⟨owner, reg⟩ rfl).2, past, reg, rest, hsplit,
        (registered_multiplex hs).2 _ hmem ⟨owner, reg⟩ rfl, fun d hd hreg => ?_⟩
      -- the registration would have been used twice
      have honce := hrouted.once
      rw [RxState.used, hsplit, List.filterMap_append,
        List.filterMap_cons_some (f := Delivery.registration) rfl] at honce
      have hused : reg ∈ past.filterMap Delivery.registration ++
          rest.filterMap Delivery.registration := by
        rw [← List.filterMap_append]
        exact List.mem_filterMap.mpr ⟨d, hd, hreg⟩
      exact (List.nodup_cons.mp (List.nodup_middle.mp honce)).1 hused
    · cases hd
  · cases hd

theorem replyFate (hs : (envelopeWait setup).Reachable System.anyEvent s)
    (hk : setup.kind x = some .reply) {r : WaitResult} (hr : (s.calls x).result = some r) :
    ReplyFate setup.toMuxSetup s.mux x r := by
  have hmux := (EnvelopeWait.refines_multiplex setup).reachable hs
  cases r with
  | err err => exact errFate hs hk hr
  | written =>
    obtain ⟨err, herr, -⟩ | ⟨c, hc⟩ := EnvelopeWait.grounds hs hk hr
    · cases herr
    obtain ⟨heq, -⟩ | ⟨-, herr⟩ | ⟨err, heq, -⟩ | ⟨err, heq, -⟩ | ⟨m, heq, -⟩ :=
      Multiplex.waitResult_cases hc <;> try cases heq
    -- the listener of a `replyEnvelope` says nothing after a write
    obtain ⟨n, -, hn⟩ := List.exists_of_findSome?_eq_some herr
    cases n <;> simp [Notice.answer] at hn
  | reply m =>
    obtain ⟨err, herr, -⟩ | ⟨c, hc⟩ := EnvelopeWait.grounds hs hk hr
    · cases herr
    obtain ⟨heq, -⟩ | ⟨heq, -⟩ | ⟨err, heq, -⟩ | ⟨err, heq, -⟩ | ⟨m', heq, -, hm'⟩ :=
      Multiplex.waitResult_cases hc <;> cases heq
    exact replyFate_of_replyC hmux hm'

end

/-- A channel whose sendables are all envelopes of one kind, with one queue, to which a message
goes back when its write fails. -/
def plainWait (k : WaitKind) : WaitSetup where
  sendable _ := ⟨some 5, decide (k = .reply), none, false⟩
  source _ := [0]
  retry := [0]
  capacity _ := 1
  writeTimeout := false
  receiveHandlers _ := false
  kind _ := some k
  cancelF _ := true
  envelope x k' h := by
    cases h
    exact ⟨rfl, rfl, rfl⟩

/-- **The answer of `SendAndWaitForWire` is the fate of the message.**  Whatever the traffic, the
other calls and the contexts do: if a call returns no error, then its message has been written once
and for all; if it returns what its listener was told, or an error of `Send`, then the message has
not been written and never will be.  Whether it comes from `Send` or from the wait, an error says
that the channel is closed only if it is, and that the context has ended only with the error that
it has ended with.  While a call waits and `tx` is done with its message, the outcome is there for
it to take. -/
theorem waitForWire_outcome (setup : WaitSetup) (s : EnvelopeWait)
    (hs : (envelopeWait setup).Reachable System.anyEvent s) (x : ℕ)
    (hk : setup.kind x = some .wire) :
    (∀ r, s.calls x = .returned r → ∀ s', (envelopeWait setup).Steps System.anyEvent s s' →
      WireFate s'.mux x r) ∧
    (s.calls x = .waiting → s.mux.tx.finished x = true →
      ∃ r, s.mux.waitResult .wire x .errC = some r) := by
  constructor
  · intro r hr s' hrun
    refine wireFate (hs.steps hrun) hk ?_
    rw [EnvelopeWait.returned_steps hr hrun]
    rfl
  · intro _ hfin
    have hmux := (EnvelopeWait.refines_multiplex setup).reachable hs
    have hout := terminals_ne_nil_of_finished hmux (setup.envelope x .wire hk).1 hfin
    have hhead := errC_wire_head (s.mux.tx.notices x)
    simp only [Multiplex.waitResult, Multiplex.errC]
    cases ha : (s.mux.tx.notices x).findSome? (Notice.answer .wire) with
    | none =>
      rw [ha] at hhead
      exact absurd (List.head?_eq_none_iff.mp hhead.symm) hout
    | some a => cases a <;> exact ⟨_, rfl⟩

/-- A message whose write fails goes back to the queue; another `txer` writes it, and the call
returns. -/
theorem waitForWire_outcome_retry :
    ∃ s, (envelopeWait (plainWait .wire)).Reachable System.anyEvent s ∧
      s.calls 0 = .returned .written ∧ s.mux.tx.txers 0 = .stopped ∧ s.mux.tx.writes 0 = 1 := by
  obtain ⟨s, hs, h⟩ := System.reachable_of_replay (envelopeWait (plainWait .wire)) System.anyEvent
    ([.call 0, .select 0 0 .enqueue none] ++
      [.tx 0 (.take 0), .tx 0 .go, .tx 0 .go, .tx 0 (.underlay (some [])), .tx 0 .go, .tx 0 .go,
        .tx 1 (.take 0), .tx 1 .go, .tx 1 .go, .tx 1 (.underlay none), .tx 1 .go].map .traffic ++
      [.wait 0 .errC, .cancel 0] : List EnvelopeWait.Event)
    (fun s => decide (s.calls 0 = .returned .written ∧ s.mux.tx.txers 0 = .stopped)) (by decide)
  obtain ⟨hret, hstopped⟩ := of_decide_eq_true h
  obtain ⟨hfate, -⟩ := waitForWire_outcome (plainWait .wire) s hs 0 rfl
  exact ⟨s, hs, hret, hstopped, (hfate _ hret s (System.Steps.stutter s)).1⟩

/-- **`SendForReply` gives each reply to one call, the one that asked.**  If a call returns a
message, then that is a reply to its own sequence number, it came to a registration that an attempt
to write its own request has made, and no other delivery, so no other call, has used that
registration.  Its errors say what those of `SendAndWaitForWire` do. -/
theorem waitForReply_outcome (setup : WaitSetup) (s : EnvelopeWait)
    (hs : (envelopeWait setup).Reachable System.anyEvent s) (x : ℕ)
    (hk : setup.kind x = some .reply) (r : WaitResult) (hr : s.calls x = .returned r)
    (s' : EnvelopeWait) (hrun : (envelopeWait setup).Steps System.anyEvent s s') :
    ReplyFate setup.toMuxSetup s'.mux x r := by
  refine replyFate (hs.steps hrun) hk ?_
  rw [EnvelopeWait.returned_steps hr hrun]
  rfl

/-- A request is answered before its write has returned. -/
theorem waitForReply_outcome_early :
    let reply : Message := (newMessage 9 []).replyTo { newMessage 9 [] with sequence := 5 }
    ∃ s, (envelopeWait (plainWait .reply)).Reachable System.anyEvent s ∧
      s.calls 0 = .returned (.reply reply) ∧ s.mux.tx.writes 0 = 0 ∧ reply.replyFor = 5 := by
  intro reply
  obtain ⟨s, hs, h⟩ := System.reachable_of_replay (envelopeWait (plainWait .reply)) System.anyEvent
    ([.call 0, .select 0 0 .enqueue none] ++
      [.tx 0 (.take 0), .tx 0 .go, .tx 0 .go, .rx 0 (.read reply), .rx 0 .go,
        .rx 0 .go].map .traffic ++
      [.wait 0 .replyC, .cancel 0] : List EnvelopeWait.Event)
    (fun s => decide (s.calls 0 = .returned (.reply reply) ∧ s.mux.tx.writes 0 = 0)) (by decide)
  obtain ⟨hret, hwrites⟩ := of_decide_eq_true h
  have hfate := waitForReply_outcome (plainWait .reply) s hs 0 rfl _ hret s (System.Steps.stutter s)
  exact ⟨s, hs, hret, hwrites, hfate.1⟩

/-! ### Nothing is written behind the back of a caller -/

section

variable {setup : MuxSetup} {s s' : Multiplex} {x : ℕ}

/-- An attempt gets to write only with a live context. -/
theorem txNext_begins {s : TxState} {t : ℕ} {pc pc' : TxPc} {a : TxAction} {e : TxEffect}
    (h : txNext setup s t pc a = some (pc', e)) (hx : pc'.writing = some x) :
    pc.writing = some x ∨ s.writeContextErr setup x = none := by
  revert h
  fun_cases txNext setup s t pc a
  all_goals intro h; cases h
  all_goals simp_all [TxPc.writing]

theorem writes_apply (s : TxState) (t : ℕ) (pc : TxPc) {e : TxEffect} (he : e ≠ .written x) :
    ((s.setTxer t pc).apply e).writes x = s.writes x := by
  cases e with
  | written y =>
    have hxy : x ≠ y := fun hxy => he (hxy ▸ rfl)
    simp [TxState.apply, TxState.setTxer, hxy]
  | _ => rfl

/-- Which `txer` writes after a step of one of them: the one that did, or the one that moved. -/
theorem writing_apply {s : TxState} {t t' : ℕ} {pc : TxPc} {e : TxEffect}
    (h : (((s.setTxer t pc).apply e).txers t').writing = some x) :
    (t' ≠ t ∧ (s.txers t').writing = some x) ∨ (t' = t ∧ pc.writing = some x) := by
  have hset : ((s.setTxer t pc).txers t').writing = some x →
      (t' ≠ t ∧ (s.txers t').writing = some x) ∨ (t' = t ∧ pc.writing = some x) := by
    intro h
    rcases eq_or_ne t' t with rfl | ht
    · exact .inr ⟨rfl, by simpa [TxState.setTxer] using h⟩
    · exact .inl ⟨ht, by simpa [TxState.setTxer, ht] using h⟩
  cases e with
  | hand u y =>
    rcases eq_or_ne t' u with rfl | hu
    · simp [TxState.apply, TxState.setTxer, TxPc.writing] at h
    · have hsame : ((s.setTxer t pc).apply (.hand u y)).txers t' = (s.setTxer t pc).txers t' :=
        Function.update_of_ne hu _ _
      exact hset (hsame ▸ h)
  | _ => exact hset h

/-- With an ended context, no step begins an attempt, and only an attempt that has begun writes. -/
theorem no_attempt_step {act : Multiplex.Action} (hq : (setup.sendable x).queueWait = false)
    (hctx : (s.tx.ctxErr x).isSome = true) (h : s.step setup act = some s') :
    (∀ t, (s'.tx.txers t).writing = some x → (s.tx.txers t).writing = some x) ∧
    ((∀ t, (s.tx.txers t).writing ≠ some x) → s'.tx.writes x = s.tx.writes x) := by
  refine Multiplex.step_cases (P := fun s' =>
    (∀ t, (s'.tx.txers t).writing = some x → (s.tx.txers t).writing = some x) ∧
    ((∀ t, (s.tx.txers t).writing ≠ some x) → s'.tx.writes x = s.tx.writes x))
    h ?_ ?_ ?_ ?_ ?_ ?_ ?_ ?_
  · intro y q queue _ _ _; exact ⟨fun _ => id, fun _ => rfl⟩
  · intro y q t _ _ _
    refine ⟨fun t' ht' => ?_, fun _ => rfl⟩
    rcases writing_apply (e := .quiet) ht' with ⟨-, hold⟩ | ⟨-, hnew⟩
    · exact hold
    · cases hnew
  · intro y err _; exact ⟨fun _ => id, fun _ => rfl⟩
  · intro t a pc e _ hnext
    have hlive : s.tx.writeContextErr setup x ≠ none := by
      rw [TxState.writeContextErr, if_neg (by rw [hq]; exact Bool.false_ne_true)]
      exact Option.isSome_iff_ne_none.mp hctx
    refine ⟨fun t' ht' => ?_, fun hnone => writes_apply _ _ _ ?_⟩
    · rcases writing_apply ht' with ⟨-, hold⟩ | ⟨rfl, hpc⟩
      · exact hold
      · exact (txNext_begins hnext hpc).resolve_right hlive
    · intro he
      exact hnone t (TxPc.writing_of_registered ((txNext_registers hnext).written x he))
  · intro r a rx _ _; exact ⟨fun _ => id, fun _ => rfl⟩
  · intro ms _; exact ⟨fun _ => id, fun _ => rfl⟩
  · intro _; exact ⟨fun _ => id, fun _ => rfl⟩
  · intro _ _; exact ⟨fun _ => id, fun _ => rfl⟩

end

/-- **After a call has returned and cancelled, no attempt to write begins.**  Once a call whose
envelope has a cancel function has returned, whatever the reason, the only `txer` that can still be
writing its message is one that was when it returned, and if there was none then the message is not
written any more, wherever it is and however often it is put back into a queue. -/
theorem no_attempt_after_return (setup : WaitSetup) (s : EnvelopeWait)
    (hs : (envelopeWait setup).Reachable System.anyEvent s) (x : ℕ)
    (hk : (setup.kind x).isSome = true) (hc : setup.cancelF x = true) (r : WaitResult)
    (hr : s.calls x = .returned r) (s' : EnvelopeWait)
    (hrun : (envelopeWait setup).Steps System.anyEvent s s') :
    (∀ t, (s'.mux.tx.txers t).writing = some x → (s.mux.tx.txers t).writing = some x) ∧
    ((∀ t, (s.mux.tx.txers t).writing ≠ some x) → s'.mux.tx.writes x = s.mux.tx.writes x) := by
  obtain ⟨k, hk⟩ := Option.isSome_iff_exists.mp hk
  have hq := (setup.envelope x k hk).2.1
  have hctx := EnvelopeWait.ctxErr_of_returned hs hc hr
  -- the context stays ended, and that carries the two facts from step to step
  induction hrun with
  | refl => exact ⟨fun _ => id, fun _ => rfl⟩
  | @tail b c hrun hlast ih =>
    obtain ⟨e, -, he⟩ := hlast
    rcases EnvelopeWait.mux_step he with hsame | ⟨act, hact⟩
    · rw [hsame]; exact ih
    have hended : (b.mux.tx.ctxErr x).isSome = true := by
      obtain ⟨err, herr⟩ := Option.isSome_iff_exists.mp hctx
      rw [(EnvelopeWait.extends_steps hrun).ctxErr x err herr]
      rfl
    obtain ⟨hstep, hwrites⟩ := no_attempt_step hq hended hact
    refine ⟨fun t ht => ih.1 t (hstep t ht), fun hnone => ?_⟩
    rw [hwrites fun t ht => hnone t (ih.1 t ht), ih.2 hnone]

/-- A call gives up while its message is in the queue, and the `txer` that takes it does not write
it. -/
theorem no_attempt_after_return_queued :
    ∃ s s', (envelopeWait (plainWait .wire)).Reachable System.anyEvent s ∧
      s.calls 0 = .returned (.err (.timeout .deadlineExceeded)) ∧
      (envelopeWait (plainWait .wire)).Steps System.anyEvent s s' ∧
      s'.mux.tx.finished 0 = true ∧ ∀ t, (s'.mux.tx.txers t).writing = some 0 →
        (s.mux.tx.txers t).writing = some 0 := by
  obtain ⟨s, s', hs, hret, hrun, hfin⟩ := System.steps_of_replay₂ (envelopeWait (plainWait .wire))
    System.anyEvent
    [.call 0, .select 0 0 .enqueue none, .traffic (.expire 0 .deadlineExceeded), .wait 0 .ctxDone,
      .cancel 0]
    [.traffic (.tx 0 (.take 0)), .traffic (.tx 0 .go)]
    (fun s => decide (s.calls 0 = .returned (.err (.timeout .deadlineExceeded))))
    (fun s => decide (s.mux.tx.finished 0 = true)) (by decide)
  have hret := of_decide_eq_true hret
  obtain ⟨hkeep, -⟩ := no_attempt_after_return (plainWait .wire) s hs 0 rfl rfl _ hret s' hrun
  exact ⟨s, s', hs, hret, hrun, of_decide_eq_true hfin, hkeep⟩

end ZitiChannel
