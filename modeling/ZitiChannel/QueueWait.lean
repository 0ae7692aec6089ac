import ZitiChannel.Conservation

/-!
# Waiting for the queue

`SendAndWaitForQueue` applies the caller's timeout to the wait for queue space only.  It sends an
envelope of its own whose write context never ends, and cancels the caller's context on its way
out, when the message may still be in the queue or already be on its way for the third time.

The calls run beside the traffic of the channel.  A call looks at the context, then waits in the
select of `Send` for the context, the closing of the channel or the queue, and at last cancels the
context.

## Main definitions

* `Multiplex.sendSelect`, `Multiplex.SendGround` — the select of `Send` beside the traffic, and
  when `Send` returns which error.
* `QueueWaitPc`, `QueueWait` — the calls, together with the traffic.
* `queueWait` — the transition system.

## Main results

* `reachable_mux` — what happens to the traffic is what can happen to it in `multiplex`.
* `queueWait_fate` — **a call that returns no error has queued its message once, and every attempt
  to send it gets as far as the underlay; after an error the message is nowhere.**

The sources are `envelope.go` and `senders.go`.
-/

namespace ZitiChannel

open Transition

/-! ### Sending beside the traffic -/

namespace Multiplex

/-- The sendable that an action submits. -/
def Action.submitted : Action → Option ℕ
  | .send x _ | .sendTo x _ _ => some x
  | _ => none

/-- The select of a `Send` to queue `q`, on which a `txer` may be waiting: what becomes of the
traffic, and the error of `Send`. -/
def sendSelect (setup : MuxSetup) (s : Multiplex) (x q : ℕ) (c : SelectCase)
    (receiver : Option ℕ) : Option (Multiplex × Option SendError) :=
  let v : SelectView ℕ := ⟨s.tx.ctxErr x, s.rx.closed, s.tx.queues q, receiver.isSome⟩
  if v.Ready c then
    match c with
    | .enqueue =>
        (s.step setup (receiver.elim (.send x q) (.sendTo x q))).map fun mux => (mux, none)
    | c => some (s, (v.run (setup.seq x) c).err)
  else none

/-- The cancel function of a context: one that has ended keeps its error. -/
def cancel (setup : MuxSetup) (s : Multiplex) (x : ℕ) : Multiplex :=
  (s.step setup (.expire x .canceled)).getD s

/-- What is the case when `Send` returns an error: the channel is closed, or the context has ended
with the error that is reported. -/
def SendGround (s : Multiplex) (x : ℕ) : SendError → Prop
  | .timeout cause => cause.isSome = true ∧ s.tx.ctxErr x = cause
  | .closed => s.rx.closed = true
  | .context err => s.tx.ctxErr x = some err

section

variable {setup : MuxSetup} {s s' : Multiplex} {x : ℕ}

/-- What `Send` reports of a context that had ended before. -/
theorem sendGround_queueContextErr {err : ContextErr} (h : s.tx.ctxErr x = some err) :
    s.SendGround x (queueContextErr err) := by
  cases err with
  | deadlineExceeded | canceled => exact ⟨rfl, h⟩
  | other text => exact h

/-- What comes of the select of `Send`: the message is submitted, or there are grounds for an
error. -/
theorem sendSelect_cases {q : ℕ} {c : SelectCase} {receiver : Option ℕ} {err : Option SendError}
    (h : s.sendSelect setup x q c receiver = some (s', err)) :
    (err = none ∧ ∃ act, act.submitted = some x ∧ s.step setup act = some s') ∨
      ∃ e, err = some e ∧ s' = s ∧ s.SendGround x e := by
  simp only [sendSelect] at h
  split at h
  · next hready =>
    cases c with
    | enqueue =>
      obtain ⟨mux, hmux, heq⟩ := Option.map_eq_some_iff.mp h
      cases heq
      exact .inl ⟨rfl, _, by cases receiver <;> rfl, hmux⟩
    | ctxDone => cases h; exact .inr ⟨_, rfl, rfl, hready, rfl⟩
    | closeNotify => cases h; exact .inr ⟨_, rfl, rfl, hready⟩
  · cases h

theorem ctxErr_of_expire {err : ContextErr} (h : s.step setup (.expire x err) = some s') :
    s.tx.ctxErr x = none ∧ s'.tx.ctxErr x = some err := by
  simp only [step] at h
  split at h
  · next hnone =>
    cases h
    exact ⟨Option.isNone_iff_eq_none.mp hnone, Function.update_self _ _ _⟩
  · cases h

/-- Cancelling is an ordinary end of a context, or changes nothing. -/
theorem cancel_cases (setup : MuxSetup) (s : Multiplex) (x : ℕ) :
    (s.cancel setup x = s ∨ s.step setup (.expire x .canceled) = some (s.cancel setup x)) ∧
      ((s.cancel setup x).tx.ctxErr x).isSome = true := by
  unfold cancel
  cases hstep : s.step setup (.expire x .canceled) with
  | some s' =>
    refine ⟨.inr rfl, ?_⟩
    rw [Option.getD_some, (ctxErr_of_expire hstep).2]
    rfl
  | none =>
    refine ⟨.inl rfl, ?_⟩
    simp only [step] at hstep
    split at hstep
    · cases hstep
    · next hsome => simpa [Option.isNone_iff_eq_none, Option.isSome_iff_ne_none] using hsome

end

end Multiplex

/-! ### Calls -/

/-- Where a call of `SendAndWaitForQueue` stands. -/
inductive QueueWaitPc
  | idle
  /-- In the select of `Send`. -/
  | selecting
  /-- `Send` has returned, and the context is not cancelled yet. -/
  | sent (err : Option SendError)
  | returned (err : Option SendError)
  deriving DecidableEq

/-- Whether the call has queued its message. -/
def QueueWaitPc.put : QueueWaitPc → Bool
  | .sent none | .returned none => true
  | _ => false

/-- The calls and the traffic.  Each envelope has a call of its own; `puts` counts how often its
`Send` put it into a queue, or into the hands of a `txer` that waited there. -/
structure QueueWait where
  mux : Multiplex
  calls : ℕ → QueueWaitPc
  puts : ℕ → ℕ

namespace QueueWait

/-- What can happen. -/
inductive Event
  /-- The call begins: `Send` looks at the context. -/
  | call (x : ℕ)
  /-- The select takes a case, for a sender to queue `q`, on which a `txer` may be waiting. -/
  | select (x q : ℕ) (c : SelectCase) (receiver : Option ℕ)
  /-- The context is cancelled, and the call returns. -/
  | cancel (x : ℕ)
  /-- Anything else that happens to the traffic. -/
  | traffic (act : Multiplex.Action)

section

variable (setup : MuxSetup)

def setCall (s : QueueWait) (x : ℕ) (pc : QueueWaitPc) : QueueWait :=
  { s with calls := Function.update s.calls x pc }

def step (s : QueueWait) : Event → Option QueueWait
  | .call x =>
      match s.calls x with
      | .idle =>
          if (setup.sendable x).queueWait then
            match s.mux.tx.ctxErr x with
            | some err => some (s.setCall x (.sent (some (queueContextErr err))))
            | none => some (s.setCall x .selecting)
          else none
      | _ => none
  | .select x q c receiver =>
      match s.calls x with
      | .selecting =>
          match s.mux.sendSelect setup x q c receiver with
          | some (mux, none) =>
              some { s.setCall x (.sent none) with
                mux := mux
                puts := Function.update s.puts x (s.puts x + 1) }
          | some (_, some err) => some (s.setCall x (.sent (some err)))
          | none => none
      | _ => none
  | .cancel x =>
      match s.calls x with
      | .sent err => some { s.setCall x (.returned err) with mux := s.mux.cancel setup x }
      | _ => none
  | .traffic act =>
      -- an envelope of a call is sent by the call
      if act.submitted.all fun x => !(setup.sendable x).queueWait then
        (s.mux.step setup act).map fun mux => { s with mux := mux }
      else none

end

end QueueWait

/-- The calls beside the traffic: no call has begun. -/
def queueWait (setup : MuxSetup) : System QueueWait QueueWait.Event where
  init := ⟨(multiplex setup).init, fun _ => .idle, fun _ => 0⟩
  step := QueueWait.step setup

/-! ### What a step does -/

section

variable {setup : MuxSetup}

/-- Only submitting a sendable makes it an accepted one. -/
theorem Multiplex.accepted_step {s s' : Multiplex} {act : Multiplex.Action}
    (h : s.step setup act = some s') (x : ℕ) :
    s'.tx.accepted x = (s.tx.accepted x || decide (act.submitted = some x)) := by
  refine Multiplex.step_cases (P := fun s' => s'.tx.accepted x =
    (s.tx.accepted x || decide (act.submitted = some x))) h ?_ ?_ ?_ ?_ ?_ ?_ ?_ ?_
  · rintro y q queue rfl - -
    rcases eq_or_ne x y with rfl | hxy
    · simp [Action.submitted]
    · simp [Action.submitted, hxy, hxy.symm]
  · rintro y q t rfl - -
    rcases eq_or_ne x y with rfl | hxy
    · simp [Action.submitted]
    · simp [Action.submitted, hxy, hxy.symm]
  · rintro y err rfl; simp [Action.submitted]
  · rintro t a pc e rfl -
    cases e <;> simp [Action.submitted, TxState.apply, TxState.setTxer, TxState.setQueue,
      TxState.notify]
  · rintro r a rx rfl -; simp [Action.submitted]
  · rintro ms rfl; simp [Action.submitted]
  · rintro rfl; simp [Action.submitted]
  · rintro rfl -; simp [Action.submitted]

theorem Multiplex.accepted_cancel (setup : MuxSetup) (s : Multiplex) (y x : ℕ) :
    (s.cancel setup y).tx.accepted x = s.tx.accepted x := by
  obtain ⟨hsame | hmux, -⟩ := s.cancel_cases setup y
  · rw [hsame]
  · simp [accepted_step hmux x, Action.submitted]

/-- A message that was not accepted is nowhere, and was not written. -/
theorem Multiplex.nowhere_of_not_accepted {ok : Multiplex → Action → Prop} {s : Multiplex}
    (hs : (multiplex setup).Reachable ok s) {x : ℕ} (hacc : s.tx.accepted x = false) :
    (∀ q, x ∉ (s.tx.queues q).items) ∧ (∀ t, (s.tx.txers t).sendable ≠ some x) ∧
      s.tx.writes x = 0 := by
  obtain ⟨place, htied, haccount⟩ := tied_multiplex hs
  have hplace := htied.outside hacc
  have hfits := haccount x
  rw [hplace] at hfits
  refine ⟨fun q hq => ?_, fun t ht => ?_, congrArg Prod.snd hfits⟩
  · have := (htied.queue q x).mp hq
    rw [hplace] at this
    cases this
  · have := (htied.held t x).mp ht
    rw [hplace] at this
    cases this

namespace QueueWait

variable {s s' : QueueWait}

/-- What a step can be: a call that goes on without touching the traffic, and that does not queue;
a call that queues its message; a call that returns; or a step of the traffic. -/
theorem step_cases {e : Event} {P : QueueWait → Prop} (h : (queueWait setup).step s e = some s')
    (quiet : ∀ x pc, s.calls x = .idle ∨ s.calls x = .selecting → pc.put = false →
      P (s.setCall x pc))
    (enqueue : ∀ x act mux, s.calls x = .selecting → act.submitted = some x →
      s.mux.step setup act = some mux →
      P { s.setCall x (.sent none) with
        mux := mux, puts := Function.update s.puts x (s.puts x + 1) })
    (cancel : ∀ x err, s.calls x = .sent err →
      P { s.setCall x (.returned err) with mux := s.mux.cancel setup x })
    (traffic : ∀ act mux, (∀ x, act.submitted = some x → (setup.sendable x).queueWait = false) →
      s.mux.step setup act = some mux → P { s with mux := mux }) : P s' := by
  cases e with
  | call x =>
    simp only [queueWait, step] at h
    split at h
    · next hpc =>
      split at h
      · split at h
        · cases h; exact quiet x _ (.inl hpc) rfl
        · cases h; exact quiet x _ (.inl hpc) rfl
      · cases h
    · cases h
  | select x q c receiver =>
    simp only [queueWait, step] at h
    split at h
    · next hpc =>
      split at h
      · next mux hsel =>
        cases h
        obtain ⟨-, act, hact, hmux⟩ | ⟨err, herr, -⟩ := Multiplex.sendSelect_cases hsel
        · exact enqueue x act mux hpc hact hmux
        · cases herr
      · cases h; exact quiet x _ (.inr hpc) rfl
      · cases h
    · cases h
  | cancel x =>
    simp only [queueWait, step] at h
    split at h
    · next err hpc => cases h; exact cancel x err hpc
    · cases h
  | traffic act =>
    simp only [queueWait, step] at h
    split at h
    · next hact =>
      obtain ⟨mux, hmux, rfl⟩ := Option.map_eq_some_iff.mp h
      refine traffic act mux (fun x hx => ?_) hmux
      simpa [hx] using hact
    · cases h

/-- **The traffic beside the calls is that of `multiplex`.** -/
theorem reachable_mux (hs : (queueWait setup).Reachable System.anyEvent s) :
    (multiplex setup).Reachable System.anyEvent s.mux := by
  refine System.Reachable.invariant
    (P := fun s => (multiplex setup).Reachable System.anyEvent s.mux) .init ?_ hs
  intro s e s' hr _ hstep
  refine step_cases (P := fun s' => (multiplex setup).Reachable System.anyEvent s'.mux)
    hstep ?_ ?_ ?_ ?_
  · intro x pc _ _; exact hr
  · intro x act mux _ _ hmux; exact hr.step trivial hmux
  · intro x err _
    obtain ⟨hsame | hmux, -⟩ := s.mux.cancel_cases setup x
    · exact hsame.symm ▸ hr
    · exact hr.step (e := .expire x .canceled) trivial hmux
  · intro act mux _ hmux; exact hr.step trivial hmux

/-- **What a call has done follows from where it stands.** -/
theorem puts_eq (hs : (queueWait setup).Reachable System.anyEvent s) {x : ℕ}
    (hx : (setup.sendable x).queueWait = true) :
    s.puts x = (s.calls x).put.toNat ∧ s.mux.tx.accepted x = (s.calls x).put := by
  refine System.Reachable.invariant (P := fun s => s.puts x = (s.calls x).put.toNat ∧
    s.mux.tx.accepted x = (s.calls x).put) ⟨rfl, rfl⟩ ?_ hs
  rintro s e s' ⟨hputs, hacc⟩ - hstep
  refine step_cases (P := fun s' => s'.puts x = (s'.calls x).put.toNat ∧
    s'.mux.tx.accepted x = (s'.calls x).put) hstep ?_ ?_ ?_ ?_
  · intro y pc hpc hput
    rcases eq_or_ne x y with rfl | hxy
    · -- nothing was queued before, and nothing is now
      have hold : (s.calls x).put = false := by rcases hpc with h | h <;> rw [h] <;> rfl
      rw [hold] at hputs hacc
      simpa [setCall, hput] using And.intro hputs hacc
    · simpa [setCall, hxy] using And.intro hputs hacc
  · intro y act mux hpc hact hmux
    have hmuxAcc := Multiplex.accepted_step hmux x
    rw [hact] at hmuxAcc
    rcases eq_or_ne x y with rfl | hxy
    · rw [hpc] at hputs
      simp [setCall, hputs, hmuxAcc, QueueWaitPc.put]
    · simpa [setCall, hxy, hxy.symm, hmuxAcc] using And.intro hputs hacc
  · intro y err hpc
    have hmuxAcc := Multiplex.accepted_cancel setup s.mux y x
    rcases eq_or_ne x y with rfl | hxy
    · have hput : (QueueWaitPc.returned err).put = (s.calls x).put := by
        rw [hpc]; cases err <;> rfl
      simpa [setCall, hput, hmuxAcc] using And.intro hputs hacc
    · simpa [setCall, hxy, hmuxAcc] using And.intro hputs hacc
  · intro act mux hact hmux
    have hmuxAcc := Multiplex.accepted_step hmux x
    have hne : act.submitted ≠ some x := fun h => by rw [hact x h] at hx; cases hx
    simpa [hmuxAcc, hne] using And.intro hputs hacc

/-- A call that has returned stays so. -/
theorem returned_steps {x : ℕ} {err : Option SendError} (h : s.calls x = .returned err)
    (hrun : (queueWait setup).Steps System.anyEvent s s') : s'.calls x = .returned err := by
  refine System.Steps.invariant (P := fun s => s.calls x = .returned err) ?_ h hrun
  intro s e s' hpc _ hstep
  have hne : ∀ {y}, s.calls y ≠ .returned err → x ≠ y := fun hy hxy => hy (hxy ▸ hpc)
  refine step_cases (P := fun s' => s'.calls x = .returned err) hstep ?_ ?_ ?_ ?_
  · intro y pc hy _
    have hxy : x ≠ y := hne (by rcases hy with h | h <;> rw [h] <;> simp)
    simpa [setCall, hxy] using hpc
  · intro y act mux hy _ _
    have hxy : x ≠ y := hne (by rw [hy]; simp)
    simpa [setCall, hxy] using hpc
  · intro y err' hy
    have hxy : x ≠ y := hne (by rw [hy]; simp)
    simpa [setCall, hxy] using hpc
  · intro act mux _ _; exact hpc

/-- What was accepted stays accepted. -/
theorem accepted_steps {x : ℕ} (h : s.mux.tx.accepted x = true)
    (hrun : (queueWait setup).Steps System.anyEvent s s') : s'.mux.tx.accepted x = true := by
  refine System.Steps.invariant (P := fun s => s.mux.tx.accepted x = true) ?_ h hrun
  intro s e s' hacc _ hstep
  have hkeep : ∀ {act mux}, s.mux.step setup act = some mux → mux.tx.accepted x = true :=
    fun hmux => by rw [Multiplex.accepted_step hmux, hacc, Bool.true_or]
  refine step_cases (P := fun s' => s'.mux.tx.accepted x = true) hstep ?_ ?_ ?_ ?_
  · intro _ _ _ _; exact hacc
  · intro _ _ _ _ _ hmux; exact hkeep hmux
  · intro _ _ _; exact (Multiplex.accepted_cancel setup s.mux _ x).trans hacc
  · intro _ _ _ hmux; exact hkeep hmux

end QueueWait

/-! ### Contexts -/

/-- What a step tells the listener of a sendable. -/
def TxEffect.told (x : ℕ) : TxEffect → List Notice
  | .notify y n | .finish y n => if y = x then [n] else []
  | _ => []

theorem notices_apply (s : TxState) (t x : ℕ) (pc : TxPc) (e : TxEffect) :
    ((s.setTxer t pc).apply e).notices x = s.notices x ++ e.told x := by
  cases e with
  | notify y n | finish y n =>
    rcases eq_or_ne x y with rfl | hxy
    · simp [TxState.apply, TxState.notify, TxState.setTxer, TxEffect.told]
    · simp [TxState.apply, TxState.notify, TxState.setTxer, TxEffect.told, hxy, hxy.symm]
  | _ => simp [TxState.apply, TxState.setTxer, TxState.setQueue, TxEffect.told]

/-- Only a write context that has ended is reported. -/
theorem txNext_told {s : TxState} {t x : ℕ} {pc pc' : TxPc} {a : TxAction} {e : TxEffect}
    {err : ContextErr} (h : txNext setup s t pc a = some (pc', e))
    (hmem : .err (.timeout err) ∈ e.told x) : s.writeContextErr setup x = some err := by
  revert h
  fun_cases txNext setup s t pc a
  all_goals intro h; cases h
  all_goals simp [TxEffect.told] at hmem
  obtain ⟨rfl, rfl⟩ := hmem
  assumption

/-- No listener of such an envelope is told that a context has ended. -/
theorem not_timeout_mem_notices {s : Multiplex} (hs : (multiplex setup).Reachable System.anyEvent s)
    {x : ℕ} (hx : (setup.sendable x).queueWait = true) (err : ContextErr) :
    .err (.timeout err) ∉ s.tx.notices x := by
  refine System.Reachable.invariant (P := fun s => .err (.timeout err) ∉ s.tx.notices x)
    (by simp [multiplex]) ?_ hs
  intro s act s' hnot _ hstep
  refine Multiplex.step_cases (P := fun s' => .err (.timeout err) ∉ s'.tx.notices x)
    hstep ?_ ?_ ?_ ?_ ?_ ?_ ?_ ?_
  · intro _ _ _ _ _ _; exact hnot
  · intro _ _ _ _ _ _; exact hnot
  · intro _ _ _; exact hnot
  · intro t a pc e _ hnext
    rw [notices_apply, List.mem_append, not_or]
    refine ⟨hnot, fun htold => ?_⟩
    have hctx := txNext_told hnext htold
    rw [TxState.writeContextErr, if_pos hx] at hctx
    cases hctx
  · intro _ _ _ _ _; exact hnot
  · intro _ _; exact hnot
  · intro _; exact hnot
  · intro _ _; exact hnot

/-- An attempt that looks at the context of such an envelope goes on. -/
theorem txNext_check_queueWait {s : TxState} {t x : ℕ} {a : TxAction} {pc : TxPc} {e : TxEffect}
    (hx : (setup.sendable x).queueWait = true) (hmsg : (setup.sendable x).msg.isSome = true)
    (h : txNext setup s t (.check x) a = some (pc, e)) : pc = .addWaiter x := by
  obtain ⟨seq, hseq⟩ := Option.isSome_iff_exists.mp hmsg
  cases a with
  | go =>
    simp only [txNext, TxState.writeContextErr, hx, if_true, hseq] at h
    cases h
    rfl
  | _ => cases h

theorem txNext_addWaiter {s : TxState} {t x : ℕ} {a : TxAction} {pc : TxPc} {e : TxEffect}
    (h : txNext setup s t (.addWaiter x) a = some (pc, e)) :
    pc = if setup.writeTimeout then .setWriteTimeout x else .write x := by
  cases a with
  | go =>
    simp only [txNext] at h
    split at h
    · next htimeout => cases h; rw [if_pos htimeout]
    · next htimeout => cases h; rw [if_neg htimeout]
  | _ => cases h

end

/-- **The outcome of `SendAndWaitForQueue` matches the fate of the message.**  Once a call has
returned without an error, its `Send` has put the message into the queue once; from then on the
message is in one place at every moment, and no attempt to send it was or is dropped because a
context has ended: an attempt that looks at the context goes on to register the waiter and from
there to the underlay.  If a call returns an error, then at no moment of the run, before or after,
is the message in a queue or with a `txer`, and it is never written. -/
theorem queueWait_fate (setup : MuxSetup) (s : QueueWait)
    (hs : (queueWait setup).Reachable System.anyEvent s) (x : ℕ)
    (hx : (setup.sendable x).queueWait = true) (hmsg : (setup.sendable x).msg.isSome = true) :
    (s.calls x = .returned none → ∀ s', (queueWait setup).Steps System.anyEvent s s' →
      s'.puts x = 1 ∧ (∃! l, s'.mux.tx.At x l) ∧
      (∀ err, .err (.timeout err) ∉ s'.mux.tx.notices x) ∧
      ∀ t a pc e, txNext setup s'.mux.tx t (s'.mux.tx.txers t) a = some (pc, e) →
        (s'.mux.tx.txers t = .check x → pc = .addWaiter x) ∧
        (s'.mux.tx.txers t = .addWaiter x →
          pc = if setup.writeTimeout then .setWriteTimeout x else .write x)) ∧
    (∀ err, s.calls x = .returned (some err) →
      ∀ s', (queueWait setup).Reachable System.anyEvent s' →
      (queueWait setup).Steps System.anyEvent s s' ∨ (queueWait setup).Steps System.anyEvent s' s →
      s'.puts x = 0 ∧ (∀ q, x ∉ (s'.mux.tx.queues q).items) ∧
      (∀ t, (s'.mux.tx.txers t).sendable ≠ some x) ∧ s'.mux.tx.writes x = 0) := by
  constructor
  · intro hret s' hrun
    have hs' := hs.steps hrun
    obtain ⟨hputs, hput⟩ := QueueWait.puts_eq hs' hx
    rw [QueueWait.returned_steps hret hrun] at hputs hput
    obtain ⟨place, htied, -⟩ := tied_multiplex (QueueWait.reachable_mux hs')
    refine ⟨hputs, htied.existsUnique_at hput,
      not_timeout_mem_notices (QueueWait.reachable_mux hs') hx, fun t a pc e hnext => ⟨?_, ?_⟩⟩
    · intro hpc
      rw [hpc] at hnext
      exact txNext_check_queueWait hx hmsg hnext
    · intro hpc
      rw [hpc] at hnext
      exact txNext_addWaiter hnext
  · intro err hret s' hs' hrun
    have hacc : s'.mux.tx.accepted x = false := by
      obtain ⟨-, hput⟩ := QueueWait.puts_eq hs hx
      rw [hret] at hput
      rcases hrun with hrun | hrun
      · obtain ⟨-, hput'⟩ := QueueWait.puts_eq hs' hx
        rw [QueueWait.returned_steps hret hrun] at hput'
        exact hput'
      · rw [← Bool.not_eq_true]
        intro htrue
        rw [QueueWait.accepted_steps htrue hrun] at hput
        cases hput
    obtain ⟨hputs, hput⟩ := QueueWait.puts_eq hs' hx
    rw [← hput, hacc] at hputs
    exact ⟨hputs, Multiplex.nowhere_of_not_accepted (QueueWait.reachable_mux hs') hacc⟩

/-- A message is queued, its call returns and cancels the context, and after that it is taken out,
fails to be written, goes back to the queue and is written by another `txer`. -/
theorem queueWait_fate_retry :
    let setup : MuxSetup := ⟨fun _ => ⟨some 5, false, none, true⟩, fun t => [t], [1], fun _ => 1,
      false, fun _ => false⟩
    ∃ s s', (queueWait setup).Reachable System.anyEvent s ∧
      (queueWait setup).Steps System.anyEvent s s' ∧ s.mux.tx.ctxErr 0 = some .canceled ∧
      s'.mux.tx.writes 0 = 1 ∧ s'.puts 0 = 1 := by
  intro setup
  obtain ⟨s, s', hs, hret, hrun, hwrites⟩ := System.steps_of_replay₂ (queueWait setup)
    System.anyEvent [.call 0, .select 0 0 .enqueue none, .cancel 0]
    ([.tx 0 (.take 0), .tx 0 .go, .tx 0 .go, .tx 0 (.underlay (some [])), .tx 0 .go, .tx 0 .go,
      .tx 1 (.take 1), .tx 1 .go, .tx 1 .go, .tx 1 (.underlay none), .tx 1 .go].map .traffic)
    (fun s => decide (s.mux.tx.ctxErr 0 = some .canceled ∧ s.calls 0 = .returned none))
    (fun s => decide (s.mux.tx.writes 0 = 1)) (by decide)
  obtain ⟨hctx, hret⟩ := of_decide_eq_true hret
  obtain ⟨hputs, -⟩ := (queueWait_fate setup s hs 0 rfl rfl).1 hret s' hrun
  exact ⟨s, s', hs, hrun, hctx, of_decide_eq_true hwrites, hputs⟩

end ZitiChannel
