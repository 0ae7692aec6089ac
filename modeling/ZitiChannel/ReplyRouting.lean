import ZitiChannel.Conservation

/-!
# Reply routing

A reply goes to the receiver that waits for it.  One half needs no assumption: what
`AcceptReply` is called with replies to the request that registered the receiver, and a
registration is used once.  The other half needs sequence numbers to be distinct: while a
request is outstanding, no other message in flight may have its sequence number, since a
failed write removes the waiter of the message's sequence number whether or not the message
registered one.

## Main definitions

* `Routed` — the invariant of the first half.
* `Multiplex.Registered` — a registration that an attempt to write has made.
* `Multiplex.Outstanding`, `DistinctRequests`, `DistinctInFlight` — requests that await a
  reply, and what is asked of sequence numbers.
* `Awaits` — the invariant of the second half: the waiter of a request is in the map.

## Main results

* `registered_multiplex` — every registration was made by an attempt to write its request.
* `reply_routing` — **replies reach the receivers that wait for them, once.**
-/

namespace ZitiChannel

open Transition

/-! ### Receivers get their own replies, once -/

/-- The registration that a delivery used up. -/
def Delivery.registration (d : Delivery) : Option ℕ :=
  match d.target with
  | .receiver r => some r.reg
  | _ => none

/-- The registrations that were used up, in order. -/
def RxState.used (s : RxState) : List ℕ := s.deliveries.filterMap Delivery.registration

/-- Waiters stand under the sequence number of their request, and deliveries used each
registration at most once. -/
structure Routed (setup : MuxSetup) (s : RxState) : Prop where
  owner : ∀ k w, s.waiters.m k = some w →
    setup.IsRequest w.replyReceiver.owner ∧ setup.seq w.replyReceiver.owner = k
  fresh : ∀ k w, s.waiters.m k = some w → w.replyReceiver.reg < s.registrations
  unique : ∀ k k' w w', s.waiters.m k = some w → s.waiters.m k' = some w' →
    w.replyReceiver.reg = w'.replyReceiver.reg → k = k'
  routed : ∀ d ∈ s.deliveries, ∀ r, d.target = .receiver r →
    setup.IsRequest r.owner ∧ d.message.replyFor = setup.seq r.owner
  used_lt : ∀ reg ∈ s.used, reg < s.registrations
  not_used : ∀ k w, s.waiters.m k = some w → w.replyReceiver.reg ∉ s.used
  once : s.used.Nodup

section

variable {setup : MuxSetup} {s s' : RxState} {m : Message}

theorem RxState.used_deliver_receiver (r : Registrant) :
    (s.deliver m (.receiver r)).used = s.used ++ [r.reg] := by
  simp [used, deliver, Delivery.registration]

theorem RxState.used_deliver_dispatch :
    (s.deliver m (dispatch setup.receiveHandlers m)).used = s.used := by
  have hnone : Delivery.registration ⟨m, dispatch setup.receiveHandlers m⟩ = none := by
    unfold Delivery.registration
    split
    · next hr => exact absurd hr dispatch_ne_receiver
    · rfl
  simp [used, deliver, hnone]

/-- What is dispatched goes to no receiver. -/
theorem RxState.mem_of_deliver_dispatch {d : Delivery} {r : Registrant}
    (hd : d ∈ (s.deliver m (dispatch setup.receiveHandlers m)).deliveries)
    (hr : d.target = .receiver r) : d ∈ s.deliveries := by
  rcases List.mem_append.mp hd with hd | hd
  · exact hd
  · rw [List.mem_singleton.mp hd] at hr
    exact absurd hr dispatch_ne_receiver

/-- Waiters may go without being used. -/
theorem Routed.mono (h : Routed setup s)
    (hm : ∀ k w, s'.waiters.m k = some w → s.waiters.m k = some w)
    (hr : s'.registrations = s.registrations) (hd : s'.deliveries = s.deliveries) :
    Routed setup s' where
  owner k w hw := h.owner k w (hm k w hw)
  fresh k w hw := hr ▸ h.fresh k w (hm k w hw)
  unique k k' w w' hw hw' := h.unique k k' w w' (hm k w hw) (hm k' w' hw')
  routed := hd ▸ h.routed
  used_lt := by rw [RxState.used, hd, hr]; exact h.used_lt
  not_used k w hw := by rw [RxState.used, hd]; exact h.not_used k w (hm k w hw)
  once := by rw [RxState.used, hd]; exact h.once

/-- A message may go to a handler, or nowhere. -/
theorem Routed.dispatch (h : Routed setup s) (m : Message) :
    Routed setup (s.deliver m (dispatch setup.receiveHandlers m)) := by
  refine ⟨h.owner, h.fresh, h.unique, ?_, ?_, ?_, ?_⟩
  · intro d hd r hr
    exact h.routed d (RxState.mem_of_deliver_dispatch hd hr) r hr
  · rw [RxState.used_deliver_dispatch]; exact h.used_lt
  · rw [RxState.used_deliver_dispatch]; exact h.not_used
  · rw [RxState.used_deliver_dispatch]; exact h.once

/-- A reply that finds a waiter uses up its registration. -/
theorem Routed.takeReply (h : Routed setup s) (m : Message) :
    Routed setup (s.takeReply setup m) := by
  cases hw : s.waiters.m m.replyFor with
  | none =>
    have hsame : Routed setup (s.answer setup m) := h.mono (fun _ _ hw => hw) rfl rfl
    rw [RxState.takeReply_of_none hw]
    exact hsame.dispatch m
  | some w =>
    obtain ⟨hreq, hseq⟩ := h.owner _ w hw
    have hrest : ∀ k w', (s.waiters.removeWaiter m.replyFor).1.m k = some w' →
        s.waiters.m k = some w' ∧ k ≠ m.replyFor := by
      intro k w' hk
      refine ⟨WaiterMap.mem_of_removeWaiter hk, ?_⟩
      rintro rfl
      rw [WaiterMap.removeWaiter_self] at hk
      cases hk
    rw [RxState.takeReply_of_some hw]
    refine ⟨fun k w' hk => h.owner k w' (hrest k w' hk).1,
      fun k w' hk => h.fresh k w' (hrest k w' hk).1,
      fun k k' w₁ w₂ h₁ h₂ => h.unique k k' w₁ w₂ (hrest k w₁ h₁).1 (hrest k' w₂ h₂).1,
      ?_, ?_, ?_, ?_⟩
    · intro d hd r hr
      rcases List.mem_append.mp hd with hd | hd
      · exact h.routed d hd r hr
      · rw [List.mem_singleton.mp hd] at hr ⊢
        cases hr
        exact ⟨hreq, hseq.symm⟩
    · rw [RxState.used_deliver_receiver]
      intro reg hreg
      rcases List.mem_append.mp hreg with hreg | hreg
      · exact h.used_lt reg hreg
      · rw [List.mem_singleton.mp hreg]; exact h.fresh _ w hw
    · rw [RxState.used_deliver_receiver]
      intro k w' hk hreg
      obtain ⟨hk, hne⟩ := hrest k w' hk
      rcases List.mem_append.mp hreg with hreg | hreg
      · exact h.not_used k w' hk hreg
      · exact hne (h.unique k _ w' w hk hw (List.mem_singleton.mp hreg))
    · rw [RxState.used_deliver_receiver, List.nodup_append]
      refine ⟨h.once, List.nodup_singleton _, fun a ha b hb => ?_⟩
      rw [List.mem_singleton.mp hb]
      rintro rfl
      exact h.not_used _ w hw ha

/-- A request registers under its own sequence number, with a new registration. -/
theorem Routed.addWaiter (h : Routed setup s) {x : ℕ} (hx : (setup.sendable x).msg.isSome = true) :
    Routed setup (s.addWaiter setup x) := by
  unfold RxState.addWaiter
  split
  · next hreply =>
    refine ⟨?_, ?_, ?_, h.routed, fun reg hreg => Nat.lt_succ_of_lt (h.used_lt reg hreg), ?_, h.once⟩
    · intro k w hw
      rcases WaiterMap.mem_of_addWaiter hw with ⟨rfl, hreg⟩ | hw
      · rw [hreg]; exact ⟨⟨hx, hreply⟩, rfl⟩
      · exact h.owner k w hw
    · intro k w hw
      rcases WaiterMap.mem_of_addWaiter hw with ⟨-, hreg⟩ | hw
      · rw [hreg]; exact Nat.lt_succ_self _
      · exact Nat.lt_succ_of_lt (h.fresh k w hw)
    · intro k k' w w' hw hw' heq
      rcases WaiterMap.mem_of_addWaiter hw with ⟨rfl, hreg⟩ | hw <;>
        rcases WaiterMap.mem_of_addWaiter hw' with ⟨rfl, hreg'⟩ | hw'
      · rfl
      · rw [hreg] at heq; exact absurd heq (h.fresh k' w' hw').ne'
      · rw [hreg'] at heq; exact absurd heq (h.fresh k w hw).ne
      · exact h.unique k k' w w' hw hw' heq
    · intro k w hw
      rcases WaiterMap.mem_of_addWaiter hw with ⟨-, hreg⟩ | hw
      · rw [hreg]; exact fun hmem => (h.used_lt _ hmem).false
      · exact h.not_used k w hw
  · exact h

/-- What an `rxer` does keeps replies routed. -/
theorem Routed.receive (h : Routed setup s) {r : ℕ} {a : RxAction}
    (hr : s.receive setup r (s.rxers r) a = some s') : Routed setup s' := by
  have hmove : ∀ {s : RxState} {pc : RxPc}, Routed setup s → Routed setup (s.setRxer r pc) :=
    fun h => h.mono (fun _ _ hw => hw) rfl rfl
  refine RxState.receive_cases (P := Routed setup) hr ?_ ?_ ?_ ?_ ?_ ?_ ?_
  · intro m _; exact hmove h
  · intro _; exact hmove h
  · intro m now pc _ _ _; exact h.mono (fun _ _ hw => hw) rfl rfl
  · intro m now _ _; exact hmove (h.dispatch m)
  · intro m now n n' key _; exact h.mono (fun _ _ hw => WaiterMap.mem_of_reapEntry hw) rfl rfl
  · intro m now n _; exact h.mono (fun _ _ hw => hw) rfl rfl
  · intro m _; exact hmove (h.takeReply m)

end

/-- The sendable of a `txer` that is past `NotifyBeforeWrite`. -/
def TxPc.writing : TxPc → Option ℕ
  | .addWaiter x | .setWriteTimeout x | .write x | .wrote x | .failed x _ => some x
  | _ => none

/-- The sendable of a `txer` that is past `AddWaiter`, and before `RemoveWaiter` if the write
fails. -/
def TxPc.registered : TxPc → Option ℕ
  | .setWriteTimeout x | .write x | .wrote x | .failed x _ => some x
  | _ => none

/-- What a step says about who writes and who has registered. -/
structure TxEffect.Registers (setup : MuxSetup) (before after : TxPc) (e : TxEffect) : Prop where
  writing : ∀ x, after.writing = some x →
    before.writing = some x ∨ (setup.sendable x).msg.isSome = true
  registered : ∀ x, after.registered = some x → before.registered = some x ∨ e = .addWaiter x
  addWaiter : ∀ x, e = .addWaiter x → before.writing = some x
  written : ∀ x, e = .written x → before.registered = some x
  removeWaiter : ∀ x, e = .removeWaiter x → ∃ err, before = .failed x err ∧ after.registered = none

theorem txNext_registers {setup : MuxSetup} {s : TxState} {t : ℕ} {pc pc' : TxPc} {a : TxAction}
    {e : TxEffect} (h : txNext setup s t pc a = some (pc', e)) : e.Registers setup pc pc' := by
  revert h
  fun_cases txNext setup s t pc a
  all_goals intro h; cases h
  all_goals constructor <;> simp_all [TxPc.writing, TxPc.registered]

theorem TxPc.sendable_of_writing {pc : TxPc} {x : ℕ} (h : pc.writing = some x) :
    pc.sendable = some x := by
  cases pc <;> simp_all [TxPc.writing, TxPc.sendable]

theorem TxPc.writing_of_registered {pc : TxPc} {x : ℕ} (h : pc.registered = some x) :
    pc.writing = some x := by
  cases pc <;> simp_all [TxPc.writing, TxPc.registered]

/-- Where a `txer` is after a step: as before, or it is the one that moved.  Being handed a
sendable does not count. -/
theorem txers_apply {s : TxState} {f : TxPc → Option ℕ} (hcheck : ∀ y, f (.check y) = none)
    {t t' x : ℕ} {pc : TxPc} {e : TxEffect}
    (h : f (((s.setTxer t pc).apply e).txers t') = some x) :
    f (s.txers t') = some x ∨ f pc = some x := by
  have hset : ∀ t', f ((s.setTxer t pc).txers t') = some x → f (s.txers t') = some x ∨
      f pc = some x := by
    intro t' h
    rcases eq_or_ne t' t with rfl | ht
    · right; simpa [TxState.setTxer] using h
    · left; simpa [TxState.setTxer, ht] using h
  cases e with
  | hand u y =>
    rcases eq_or_ne t' u with rfl | hu
    · simp [TxState.apply, TxState.setTxer, hcheck] at h
    · refine hset t' ?_
      have hsame : ((s.setTxer t pc).apply (.hand u y)).txers t' = (s.setTxer t pc).txers t' :=
        Function.update_of_ne hu _ _
      rwa [hsame] at h
  | _ => exact hset t' h

section

variable {setup : MuxSetup} {ok : Multiplex → Multiplex.Action → Prop} {s : Multiplex}

/-- What is being written has a message. -/
theorem isSome_msg_of_writing (hs : (multiplex setup).Reachable ok s) {t x : ℕ}
    (hx : (s.tx.txers t).writing = some x) : (setup.sendable x).msg.isSome = true := by
  revert t x
  refine System.Reachable.invariant (P := fun s => ∀ {t x}, (s.tx.txers t).writing = some x →
    (setup.sendable x).msg.isSome = true) ?_ ?_ hs
  · intro t x hx; cases hx
  intro s act s' ih _ hstep
  refine Multiplex.step_cases (P := fun s => ∀ {t x}, (s.tx.txers t).writing = some x →
    (setup.sendable x).msg.isSome = true) hstep ?_ ?_ ?_ ?_ ?_ ?_ ?_ ?_
  · intro x q queue _ _ _; exact ih
  · intro y q t _ _ _ t' x hx
    -- a sendable that was just handed over is not being written
    rcases txers_apply (e := .quiet) (fun _ => rfl) hx with hx | hx
    · exact ih hx
    · cases hx
  · intro y err _; exact ih
  · intro t a pc e _ hnext t' x hx
    rcases txers_apply (fun _ => rfl) hx with hx | hx
    · exact ih hx
    · exact ((txNext_registers hnext).writing x hx).elim (fun hx => ih hx) id
  · intro r a rx _ _; exact ih
  · intro ms _; exact ih
  · intro _; exact ih
  · intro _ _; exact ih

/-- **Every run keeps replies routed.** -/
theorem routed_multiplex (hs : (multiplex setup).Reachable ok s) : Routed setup s.rx := by
  refine System.Reachable.invariant_of_reachable (P := fun s => Routed setup s.rx) ?_ ?_ hs
  · constructor <;> simp [multiplex, RxState.used]
  intro s act s' hs h _ hstep
  refine Multiplex.step_cases (P := fun s => Routed setup s.rx) hstep ?_ ?_ ?_ ?_ ?_ ?_ ?_ ?_
  · intro x q queue _ _ _; exact h
  · intro x q t _ _ _; exact h
  · intro x err _; exact h
  · intro t a pc e _ hnext
    cases e with
    | addWaiter x =>
      exact h.addWaiter (isSome_msg_of_writing hs ((txNext_registers hnext).addWaiter x rfl))
    | removeWaiter x => exact h.mono (fun _ _ hw => WaiterMap.mem_of_removeWaiter hw) rfl rfl
    | _ => exact h
  · intro r a rx _ hr; exact h.receive hr
  · intro ms _; exact h.mono (fun _ _ hw => hw) rfl rfl
  · intro _; exact h.mono (fun _ _ hw => hw) rfl rfl
  · intro _ _; exact h.mono (fun _ _ hw => by cases hw) rfl rfl

/-! ### Where registrations come from -/

/-- The registration was made by an attempt to write the sendable: at some moment of the run a
`txer` was about to write it and put its receiver into the map. -/
def Multiplex.Registered (setup : MuxSetup) (s : Multiplex) (x reg : ℕ) : Prop :=
  ∃ s₀ s₁ t, (multiplex setup).Reachable System.anyEvent s₀ ∧ s₀.tx.txers t = .addWaiter x ∧
    s₀.step setup (.tx t .go) = some s₁ ∧
    (s₁.rx.waiters.m (setup.seq x)).map Waiter.replyReceiver = some ⟨x, reg⟩ ∧
    (multiplex setup).Steps System.anyEvent s₁ s

theorem Multiplex.Registered.step {s' : Multiplex} {act : Multiplex.Action} {x reg : ℕ}
    (h : s.Registered setup x reg) (hstep : s.step setup act = some s') :
    s'.Registered setup x reg := by
  obtain ⟨s₀, s₁, t, hs₀, hpc, hadd, hreg, hrun⟩ := h
  exact ⟨s₀, s₁, t, hs₀, hpc, hadd, hreg, hrun.tail ⟨act, trivial, hstep⟩⟩

/-- Every registration, whether it is in the map or a delivery has used it, is as `P` says. -/
def RxState.AllRegistered (P : ℕ → ℕ → Prop) (s : RxState) : Prop :=
  (∀ k w, s.waiters.m k = some w → P w.replyReceiver.owner w.replyReceiver.reg) ∧
    ∀ d ∈ s.deliveries, ∀ r, d.target = .receiver r → P r.owner r.reg

namespace RxState.AllRegistered

variable {P : ℕ → ℕ → Prop} {rx rx' : RxState}

theorem dispatch (h : rx.AllRegistered P) (m : Message) :
    (rx.deliver m (dispatch setup.receiveHandlers m)).AllRegistered P :=
  ⟨h.1, fun d hd r hr => h.2 d (RxState.mem_of_deliver_dispatch hd hr) r hr⟩

/-- A receiver that is given a reply was in the map. -/
theorem takeReply (h : rx.AllRegistered P) (m : Message) :
    (rx.takeReply setup m).AllRegistered P := by
  cases hw : rx.waiters.m m.replyFor with
  | none =>
    have hsame : (rx.answer setup m).AllRegistered P := h
    rw [RxState.takeReply_of_none hw]
    exact hsame.dispatch m
  | some w =>
    rw [RxState.takeReply_of_some hw]
    refine ⟨fun k w' hk => h.1 k w' (WaiterMap.mem_of_removeWaiter hk), fun d hd r hr => ?_⟩
    rcases List.mem_append.mp hd with hd | hd
    · exact h.2 d hd r hr
    · rw [List.mem_singleton.mp hd] at hr
      cases hr
      exact h.1 _ w hw

theorem receive (h : rx.AllRegistered P) {r : ℕ} {a : RxAction}
    (hr : rx.receive setup r (rx.rxers r) a = some rx') : rx'.AllRegistered P := by
  refine RxState.receive_cases (P := RxState.AllRegistered P) hr ?_ ?_ ?_ ?_ ?_ ?_ ?_
  · intro m _; exact h
  · intro _; exact h
  · intro m now pc _ _ _; exact h
  · intro m now _ _; exact h.dispatch m
  · intro m now n n' key _
    exact ⟨fun k w hw => h.1 k w (WaiterMap.mem_of_reapEntry hw), h.2⟩
  · intro m now n _; exact h
  · intro m _; exact h.takeReply m

theorem addWaiter (h : rx.AllRegistered P) {x : ℕ}
    (hx : (setup.sendable x).replyReceiver = true → P x rx.registrations) :
    (rx.addWaiter setup x).AllRegistered P := by
  unfold RxState.addWaiter
  split
  · next hreply =>
    refine ⟨fun k w hw => ?_, h.2⟩
    rcases WaiterMap.mem_of_addWaiter hw with ⟨-, hreg⟩ | hw
    · rw [hreg]; exact hx hreply
    · exact h.1 k w hw
  · exact h

end RxState.AllRegistered

/-- Only an attempt to write registers, at one place. -/
theorem txNext_registering {st : TxState} {t x : ℕ} {pc pc' : TxPc} {a : TxAction}
    (h : txNext setup st t pc a = some (pc', .addWaiter x)) : pc = .addWaiter x ∧ a = .go := by
  revert h
  generalize he : TxEffect.addWaiter x = e
  fun_cases txNext setup st t pc a
  all_goals intro h; cases h
  all_goals cases he
  all_goals exact ⟨rfl, rfl⟩

/-- **Every registration was made by an attempt to write its request.** -/
theorem registered_multiplex (hs : (multiplex setup).Reachable System.anyEvent s) :
    s.rx.AllRegistered (s.Registered setup) := by
  refine System.Reachable.invariant_of_reachable
    (P := fun s => s.rx.AllRegistered (s.Registered setup)) ?_ ?_ hs
  · exact ⟨fun k w hw => (by cases hw), fun d hd => (by cases hd)⟩
  intro s act s' hs h _ hstep
  have hold : s.rx.AllRegistered (s'.Registered setup) :=
    ⟨fun k w hw => (h.1 k w hw).step hstep, fun d hd r hr => (h.2 d hd r hr).step hstep⟩
  -- a registration that is made now is made by this step
  have hnew : ∀ t a pc x, act = .tx t a →
      txNext setup s.tx t (s.tx.txers t) a = some (pc, .addWaiter x) →
      (setup.sendable x).replyReceiver = true → s'.Registered setup x s.rx.registrations := by
    rintro t a pc x rfl hnext hreply
    obtain ⟨hpc, rfl⟩ := txNext_registering hnext
    refine ⟨s, s', t, hs, hpc, hstep, ?_, .refl⟩
    simp only [multiplex, Multiplex.step, hnext] at hstep
    cases hstep
    simp [RxState.apply, RxState.addWaiter, hreply, WaiterMap.addWaiter_self]
  generalize s'.Registered setup = P at hold hnew
  refine Multiplex.step_cases (P := fun s' => s'.rx.AllRegistered P) hstep ?_ ?_ ?_ ?_ ?_ ?_ ?_ ?_
  · intro x q queue _ _ _; exact hold
  · intro x q t _ _ _; exact hold
  · intro x err _; exact hold
  · intro t a pc e hact hnext
    cases e with
    | addWaiter x => exact hold.addWaiter (hnew t a pc x hact hnext)
    | removeWaiter x => exact ⟨fun k w hw => hold.1 k w (WaiterMap.mem_of_removeWaiter hw), hold.2⟩
    | _ => exact hold
  · intro r a rx _ hr; exact hold.receive hr
  · intro ms _; exact hold
  · intro _; exact hold
  · intro _ _; exact ⟨fun k w hw => (by cases hw), hold.2⟩

/-! ### Arrivals -/

/-- The time at which a message arrived that is being handled. -/
def RxPc.arrival : RxPc → Option Int
  | .got _ now | .reaping _ now _ => some now
  | .reading | .lookup _ | .stopped => none

/-- Messages arrived in the past. -/
def RxState.Arrived (s : RxState) : Prop :=
  ∀ r now, (s.rxers r).arrival = some now → now ≤ s.clock

theorem RxState.Arrived.setRxer {s : RxState} (h : s.Arrived) {r : ℕ} {pc : RxPc}
    (hpc : ∀ now, pc.arrival = some now → now ≤ s.clock) : (s.setRxer r pc).Arrived := by
  intro r' now hr
  rcases eq_or_ne r' r with rfl | hne
  · exact hpc now (by simpa [RxState.setRxer] using hr)
  · exact h r' now (by simpa [RxState.setRxer, hne] using hr)

theorem RxState.Arrived.receive {s s' : RxState} (h : s.Arrived) {r : ℕ} {a : RxAction}
    (hr : s.receive setup r (s.rxers r) a = some s') : s'.Arrived := by
  refine RxState.receive_cases (P := RxState.Arrived) hr ?_ ?_ ?_ ?_ ?_ ?_ ?_
  · intro m _
    exact h.setRxer fun now hnow => by cases hnow; exact le_rfl
  · intro _
    exact h.setRxer fun now hnow => by cases hnow
  · rintro m now pc hpc - (rfl | rfl)
    · exact RxState.Arrived.setRxer h fun now' hnow => h r now' (by rw [hpc]; exact hnow)
    · exact RxState.Arrived.setRxer h (by simp [RxPc.arrival])
  · intro m now _ _
    exact RxState.Arrived.setRxer h (by simp [RxPc.arrival])
  · intro m now n n' key hpc
    exact RxState.Arrived.setRxer h fun now' hnow => h r now' (by rw [hpc]; exact hnow)
  · intro m now n _
    exact RxState.Arrived.setRxer h (by simp [RxPc.arrival])
  · intro m _
    obtain ⟨target, htake⟩ := RxState.takeReply_eq setup s m
    rw [htake]
    exact RxState.Arrived.setRxer h (by simp [RxPc.arrival])

theorem arrived_multiplex (hs : (multiplex setup).Reachable ok s) : s.rx.Arrived := by
  refine System.Reachable.invariant (P := fun s => s.rx.Arrived) ?_ ?_ hs
  · intro r now hr; cases hr
  intro s act s' h _ hstep
  refine Multiplex.step_cases (P := fun s => s.rx.Arrived) hstep ?_ ?_ ?_ ?_ ?_ ?_ ?_ ?_
  · intro x q queue _ _ _; exact h
  · intro x q t _ _ _; exact h
  · intro x err _; exact h
  · intro t a pc e _ _
    cases e with
    | addWaiter x =>
      simp only [RxState.apply, RxState.addWaiter]
      split <;> exact h
    | _ => exact h
  · intro r a rx _ hr; exact h.receive hr
  · intro ms _ r now hr
    exact (h r now hr).trans (by simp)
  · intro _; exact h
  · intro _ _; exact h

end

/-! ### The waiter of a written request -/

/-- Whether a sendable is in a queue or in the hands of a `txer`. -/
def Multiplex.InFlight (s : Multiplex) (x : ℕ) : Prop :=
  (∃ q, x ∈ (s.tx.queues q).items) ∨ ∃ t, (s.tx.txers t).sendable = some x

/-- Whether a sendable is a request that may still get its reply. -/
def Multiplex.Outstanding (setup : MuxSetup) (s : Multiplex) (x : ℕ) : Prop :=
  setup.IsRequest x ∧ (s.InFlight x ∨
    0 < s.tx.writes x ∧ ∃ w, s.rx.waiters.m (setup.seq x) = some w ∧ w.replyReceiver.owner = x)

/-- Outstanding requests have pairwise distinct sequence numbers, none of which says that a
message is not a reply. -/
structure DistinctRequests (setup : MuxSetup) (s : Multiplex) : Prop where
  inj : ∀ x y, s.Outstanding setup x → s.Outstanding setup y → setup.seq x = setup.seq y → x = y
  ne : ∀ x, s.Outstanding setup x → setup.seq x ≠ notAReply

/-- In addition, no other message in flight has the sequence number of an outstanding
request. -/
structure DistinctInFlight (setup : MuxSetup) (s : Multiplex) : Prop
    extends DistinctRequests setup s where
  alone : ∀ x y, s.Outstanding setup x → s.InFlight y → (setup.sendable y).msg.isSome = true →
    setup.seq x = setup.seq y → x = y

/-- Whether a sendable has registered, and has not been given up since. -/
def TxState.Registered (s : TxState) (x : ℕ) : Prop :=
  (∃ t, (s.txers t).registered = some x) ∨ 0 < s.writes x

/-- The last waiter of a request is in the map, unless a reply was looked up since, its time
has passed or the channel is closed. -/
def RxState.Awaits (setup : MuxSetup) (s : RxState) (x : ℕ) : Prop :=
  ∃ w, s.latest x = some w ∧ w.replyReceiver.owner = x ∧ (s.answered x = false →
    s.closed = false → s.clock ≤ w.ttlMs → s.waiters.m (setup.seq x) = some w)

section

variable {setup : MuxSetup} {x : ℕ}

theorem RxState.Awaits.mono {s s' : RxState} (h : s.Awaits setup x)
    (hlatest : s'.latest x = s.latest x) (hanswered : s'.answered x = false → s.answered x = false)
    (hclosed : s'.closed = false → s.closed = false) (hclock : s.clock ≤ s'.clock)
    (hm : ∀ w, s.waiters.m (setup.seq x) = some w → w.replyReceiver.owner = x →
      s'.answered x = false → s'.clock ≤ w.ttlMs → s'.waiters.m (setup.seq x) = some w) :
    s'.Awaits setup x := by
  obtain ⟨w, hw, hown, hmem⟩ := h
  refine ⟨w, hlatest.trans hw, hown, fun hans hcl hle => ?_⟩
  exact hm w (hmem (hanswered hans) (hclosed hcl) (hclock.trans hle)) hown hans hle

/-- An `rxer` takes the waiter of a request only for a reply to it, or after its time. -/
theorem RxState.Awaits.receive {s s' : RxState} (h : s.Awaits setup x) (harr : s.Arrived) {r : ℕ}
    {a : RxAction} (hr : s.receive setup r (s.rxers r) a = some s') : s'.Awaits setup x := by
  refine RxState.receive_cases (P := fun s => s.Awaits setup x) hr ?_ ?_ ?_ ?_ ?_ ?_ ?_
  · intro m _; exact h
  · intro _; exact h
  · intro m now pc _ _ _; exact h
  · intro m now _ _; exact h
  · intro m now n n' key hpc
    have hnow : now ≤ s.clock := harr r now (by rw [hpc]; rfl)
    exact h.mono rfl id id le_rfl fun w hw _ _ hle =>
      WaiterMap.reapEntry_of_live hw (hnow.trans hle) key
  · intro m now n _; exact h
  · intro m _
    obtain ⟨target, htake⟩ := RxState.takeReply_eq setup s m
    rw [htake]
    have hans : (s.answer setup m).answered x = false →
        s.answered x = false ∧ setup.seq x ≠ m.replyFor := by
      simp [RxState.answer]
    exact h.mono rfl (fun h => (hans h).1) id le_rfl fun w hw _ h _ =>
      (WaiterMap.removeWaiter_of_ne (hans h).2).trans hw

theorem RxState.Awaits.addWaiter_self (s : RxState) (hx : setup.IsRequest x) :
    (s.addWaiter setup x).Awaits setup x := by
  have hm := WaiterMap.addWaiter_self s.waiters (setup.seq x) (⟨x, s.registrations⟩ : Registrant)
    (setup.sendable x).deadline s.clock
  rw [RxState.addWaiter, if_pos hx.2]
  exact ⟨_, (Function.update_self ..).trans hm, rfl, fun _ _ _ => hm⟩

theorem RxState.Awaits.addWaiter {s : RxState} (h : s.Awaits setup x) {y : ℕ} (hxy : x ≠ y)
    (hseq : ∀ w, s.waiters.m (setup.seq x) = some w → w.replyReceiver.owner = x →
      setup.seq x ≠ setup.seq y) : (s.addWaiter setup y).Awaits setup x := by
  unfold RxState.addWaiter
  split
  · refine h.mono (Function.update_of_ne hxy ..) ?_ id le_rfl ?_
    · intro hans
      exact (Function.update_of_ne hxy ..).symm.trans hans
    · intro w hw hown _ _
      show (s.waiters.addWaiter (setup.seq y) (some ⟨y, s.registrations⟩)
        (setup.sendable y).deadline s.clock).m (setup.seq x) = some w
      rw [WaiterMap.addWaiter_of_ne (hseq w hw hown)]
      exact hw
  · exact h

theorem TxPc.sendable_of_registered {pc : TxPc} (h : pc.registered = some x) :
    pc.sendable = some x :=
  TxPc.sendable_of_writing (TxPc.writing_of_registered h)

variable {s : Multiplex}

/-- A request with a waiter is outstanding. -/
theorem Multiplex.outstanding_of_registered (hx : setup.IsRequest x) (hreg : s.tx.Registered x)
    {w : Waiter Registrant} (hw : s.rx.waiters.m (setup.seq x) = some w)
    (hown : w.replyReceiver.owner = x) : s.Outstanding setup x := by
  refine ⟨hx, ?_⟩
  rcases hreg with ⟨t, ht⟩ | hwrites
  · exact .inl (.inr ⟨t, TxPc.sendable_of_registered ht⟩)
  · exact .inr ⟨hwrites, w, hw, hown⟩

/-- Registered after a step is registered before, or by the step. -/
theorem TxState.registered_apply {s : TxState} {t : ℕ} {a : TxAction} {pc : TxPc} {e : TxEffect}
    (hnext : txNext setup s t (s.txers t) a = some (pc, e))
    (h : ((s.setTxer t pc).apply e).Registered x) : s.Registered x ∨ e = .addWaiter x := by
  have hr := txNext_registers hnext
  rcases h with ⟨t', ht'⟩ | hwrites
  · rcases txers_apply (fun _ => rfl) ht' with ht' | hpc
    · exact .inl (.inl ⟨t', ht'⟩)
    · exact (hr.registered x hpc).imp_left fun h => .inl ⟨t, h⟩
  · left
    cases e with
    | written y =>
      rcases eq_or_ne x y with rfl | hxy
      · exact .inl ⟨t, hr.written x rfl⟩
      · right
        simpa [TxState.apply, TxState.setTxer, hxy] using hwrites
    | _ => exact .inr hwrites

/-- When a failed write removes the waiter of its sequence number, the sendable is no longer
registered. -/
theorem TxState.not_registered_of_removeWaiter {s : TxState} {place : ℕ → Place}
    (htied : Tied s place) (hacc : Accounted s place) {t : ℕ} {a : TxAction} {pc : TxPc}
    (hnext : txNext setup s t (s.txers t) a = some (pc, .removeWaiter x)) :
    ¬ ((s.setTxer t pc).apply (.removeWaiter x)).Registered x := by
  obtain ⟨err, hfailed, hnone⟩ := (txNext_registers hnext).removeWaiter x rfl
  have hplace : place x = .held t := (htied.held t x).mp (by rw [hfailed]; rfl)
  rintro (⟨t', ht'⟩ | hwrites)
  · rcases eq_or_ne t' t with rfl | hne
    · rw [show ((s.setTxer t' pc).apply (.removeWaiter x)).txers t' = pc from
        Function.update_self ..] at ht'
      rw [hnone] at ht'
      cases ht'
    · rw [show ((s.setTxer t pc).apply (.removeWaiter x)).txers t' = s.txers t' from
        Function.update_of_ne hne ..] at ht'
      have hplace' := (htied.held t' x).mp (TxPc.sendable_of_registered ht')
      rw [hplace] at hplace'
      cases hplace'
      exact hne rfl
  · have hx := hacc x
    rw [hplace] at hx
    have hzero : s.writes x = 0 := by
      have hacct : s.account x = (s.txers t).account := hx
      rw [hfailed] at hacct
      exact congrArg Prod.snd hacct
    exact hwrites.ne' hzero

theorem distinctInFlight_init : DistinctInFlight setup (multiplex setup).init := by
  have hnone : ∀ x, ¬ (multiplex setup).init.Outstanding setup x := by
    intro x hx
    simp [Multiplex.Outstanding, Multiplex.InFlight, multiplex, TxPc.sendable] at hx
  exact ⟨⟨fun x _ hx => absurd hx (hnone x), fun x hx => absurd hx (hnone x)⟩,
    fun x _ hx => absurd hx (hnone x)⟩

/-- **The waiter of a registered request is in the map**, in runs where sequence numbers of
messages in flight are distinct. -/
theorem awaits_multiplex
    (hs : (multiplex setup).Reachable ((multiplex setup).throughout (DistinctInFlight setup)) s)
    (hx : setup.IsRequest x) (hreg : s.tx.Registered x) : s.rx.Awaits setup x := by
  revert hreg
  refine System.Reachable.invariant_of_reachable
    (P := fun s => s.tx.Registered x → s.rx.Awaits setup x) ?_ ?_ hs
  · rintro (⟨t, ht⟩ | hwrites)
    · cases ht
    · exact absurd hwrites (lt_irrefl 0)
  intro s act s' hs ih _ hstep
  have hd : DistinctInFlight setup s := System.Reachable.throughout distinctInFlight_init hs
  refine Multiplex.step_cases (P := fun s => s.tx.Registered x → s.rx.Awaits setup x) hstep
    ?_ ?_ ?_ ?_ ?_ ?_ ?_ ?_
  · intro y q queue _ _ _ hreg; exact ih hreg
  · intro y q t _ _ _ hreg
    refine ih ?_
    rcases hreg with ⟨t', ht'⟩ | hwrites
    · rcases txers_apply (e := .quiet) (fun _ => rfl) ht' with ht' | hpc
      · exact .inl ⟨t', ht'⟩
      · cases hpc
    · exact .inr hwrites
  · intro y err _ hreg; exact ih hreg
  · intro t a pc e _ hnext hreg
    -- the waiter of a registered request is not under the sequence number of anything else
    -- that is being written
    have hother : ∀ y, (s.tx.txers t).writing = some y → x ≠ y → s.tx.Registered x → ∀ w,
        s.rx.waiters.m (setup.seq x) = some w → w.replyReceiver.owner = x →
        setup.seq x ≠ setup.seq y := by
      intro y hy hxy hreg w hw hown hseq
      exact hxy (hd.alone x y (Multiplex.outstanding_of_registered hx hreg hw hown)
        (.inr ⟨t, TxPc.sendable_of_writing hy⟩) (isSome_msg_of_writing hs hy) hseq)
    have hr := txNext_registers hnext
    have hbefore := TxState.registered_apply hnext hreg
    cases e with
    | addWaiter y =>
      rcases eq_or_ne x y with rfl | hxy
      · exact RxState.Awaits.addWaiter_self s.rx hx
      · have hreg' : s.tx.Registered x :=
          hbefore.resolve_right fun h => hxy (TxEffect.addWaiter.inj h).symm
        exact (ih hreg').addWaiter hxy (hother y (hr.addWaiter y rfl) hxy hreg')
    | removeWaiter y =>
      obtain ⟨err, hfailed, -⟩ := hr.removeWaiter y rfl
      have hreg' : s.tx.Registered x := hbefore.resolve_right (by simp)
      have hxy : x ≠ y := by
        rintro rfl
        obtain ⟨place, htied, hacc⟩ := tied_multiplex hs
        exact TxState.not_registered_of_removeWaiter htied hacc hnext hreg
      refine (ih hreg').mono rfl id id le_rfl fun w hw hown _ _ => ?_
      have hne := hother y (by rw [hfailed]; rfl) hxy hreg' w hw hown
      exact (WaiterMap.removeWaiter_of_ne hne).trans hw
    | _ => exact ih (hbefore.resolve_right (by simp))
  · intro r a rx _ hr hreg
    exact (ih hreg).receive (arrived_multiplex hs) hr
  · intro ms _ hreg
    exact (ih hreg).mono rfl id id (by simp) fun _ hw _ _ _ => hw
  · intro _ hreg
    exact (ih hreg).mono rfl id (by simp) le_rfl fun _ hw _ _ _ => hw
  · intro _ hclosed hreg
    obtain ⟨w, hw, hown, -⟩ := ih hreg
    exact ⟨w, hw, hown, fun _ hopen => by rw [hclosed] at hopen; cases hopen⟩

/-! ### Where replies go -/

/-- The message that an `rxer` handles. -/
def RxPc.message : RxPc → Option Message
  | .reading | .stopped => none
  | .got m _ | .reaping m _ _ | .lookup m => some m

/-- While the waiter of its sequence number is in the map, a reply goes to that waiter's
receiver. -/
theorem RxState.receive_of_waiter {s s' : RxState} {r : ℕ} {a : RxAction} {m : Message}
    {w : Waiter Registrant} (hm : (s.rxers r).message = some m) (hreply : m.isReply = true)
    (hw : s.waiters.m m.replyFor = some w) (h : s.receive setup r (s.rxers r) a = some s') :
    s'.deliveries = s.deliveries ∨
      s'.deliveries = s.deliveries ++ [⟨m, .receiver w.replyReceiver⟩] := by
  refine RxState.receive_cases (P := fun s' => s'.deliveries = s.deliveries ∨
    s'.deliveries = s.deliveries ++ [⟨m, .receiver w.replyReceiver⟩]) h ?_ ?_ ?_ ?_ ?_ ?_ ?_
  · intro m' _; exact .inl rfl
  · intro _; exact .inl rfl
  · intro m' now pc _ _ _; exact .inl rfl
  · intro m' now hpc hnot
    rw [hpc] at hm
    cases hm
    rw [hreply] at hnot
    cases hnot
  · intro m' now n n' key _; exact .inl rfl
  · intro m' now n _; exact .inl rfl
  · intro m' hpc
    rw [hpc] at hm
    cases hm
    rw [RxState.takeReply_of_some hw]
    exact .inr rfl

/-- **Reply routing.**  With any number of `txer`s and `rxer`s, writes that fail and are
retried, replies that are duplicated, forged or late, reaping and closing, in runs where no
other message in flight has the sequence number of an outstanding request: `AcceptReply` gets
replies to the receiver's own request, at most one for each registration; and a reply to a
written request that is looked up as the first one, in time and before the channel is closed,
goes to the receiver of the request, and never to a handler. -/
theorem reply_routing (setup : MuxSetup) (s : Multiplex)
    (hs : (multiplex setup).Reachable ((multiplex setup).throughout (DistinctInFlight setup)) s) :
    (∀ d ∈ s.rx.deliveries, ∀ r, d.target = .receiver r →
      setup.IsRequest r.owner ∧ d.message.replyFor = setup.seq r.owner) ∧
    s.rx.used.Nodup ∧
    ∀ x, setup.IsRequest x → 0 < s.tx.writes x → s.rx.answered x = false → s.rx.closed = false →
      ∃ w, s.rx.latest x = some w ∧ w.replyReceiver.owner = x ∧ (s.rx.clock ≤ w.ttlMs →
        ∀ r m, (s.rx.rxers r).message = some m → m.replyFor = setup.seq x →
          (∀ a s', (multiplex setup).step s (.rx r a) = some s' →
            s'.rx.deliveries = s.rx.deliveries ∨
              s'.rx.deliveries = s.rx.deliveries ++ [⟨m, .receiver w.replyReceiver⟩]) ∧
          (s.rx.rxers r = .lookup m → ∃ s', (multiplex setup).step s (.rx r .go) = some s' ∧
            s'.rx.deliveries = s.rx.deliveries ++ [⟨m, .receiver w.replyReceiver⟩])) := by
  have hrouted := routed_multiplex hs
  refine ⟨hrouted.routed, hrouted.once, fun x hx hwrites hans hopen => ?_⟩
  obtain ⟨w, hlatest, hown, hmem⟩ := awaits_multiplex hs hx (.inr hwrites)
  refine ⟨w, hlatest, hown, fun hle r m hm hfor => ?_⟩
  have hw : s.rx.waiters.m (setup.seq x) = some w := hmem hans hopen hle
  have hout := Multiplex.outstanding_of_registered hx (.inr hwrites) hw hown
  have hd : DistinctInFlight setup s := System.Reachable.throughout distinctInFlight_init hs
  have hreply : m.isReply = true := decide_eq_true (hfor ▸ hd.ne x hout)
  rw [← hfor] at hw
  constructor
  · intro a s' hstep
    simp only [multiplex, Multiplex.step] at hstep
    split at hstep
    · next hrx =>
      cases hstep
      exact RxState.receive_of_waiter hm hreply hw hrx
    · cases hstep
  · intro hpc
    refine ⟨{ s with rx := (s.rx.takeReply setup m).setRxer r .reading }, ?_, ?_⟩
    · simp only [multiplex, Multiplex.step, hpc, RxState.receive]
    · rw [RxState.takeReply_of_some hw]
      rfl

/-- A request whose first write fails is written by another `txer`; its reply reaches the
second registration. -/
theorem reply_routing_retry :
    let setup : MuxSetup := ⟨fun x => if x = 0 then ⟨some 5, true, none, false⟩
      else ⟨none, false, none, false⟩, fun t => [t], [1], fun _ => 1, false, fun _ => true⟩
    let m : Message := ⟨⟨7, 1, some 5, ∅⟩, []⟩
    ∃ s, (multiplex setup).Reachable ((multiplex setup).throughout (DistinctInFlight setup)) s ∧
      s.rx.rxers 0 = .lookup m ∧ ∃ s', (multiplex setup).step s (.rx 0 .go) = some s' ∧
        s'.rx.deliveries = [⟨m, .receiver ⟨0, 1⟩⟩] := by
  intro setup m
  -- there is only one message to send
  have hone : ∀ x, (setup.sendable x).msg.isSome = true → x = 0 := by
    intro x hx
    by_contra hne
    simp [setup, hne] at hx
  have hdistinct : ∀ s, DistinctInFlight setup s := fun s =>
    ⟨⟨fun x y hx hy _ => (hone x hx.1.1).trans (hone y hy.1.1).symm, fun x hx => by
      rw [hone x hx.1.1]; decide⟩,
      fun x y hx _ hy _ => (hone x hx.1.1).trans (hone y hy).symm⟩
  obtain ⟨s, hs, h⟩ := System.reachable_of_replay (multiplex setup) System.anyEvent
    [.send 0 0, .tx 0 (.take 0), .tx 0 .go, .tx 0 .go, .tx 0 (.underlay (some [])), .tx 0 .go,
      .tx 0 .go, .tx 1 (.take 1), .tx 1 .go, .tx 1 .go, .tx 1 (.underlay none), .rx 0 (.read m),
      .rx 0 .go]
    (fun s => decide (0 < s.tx.writes 0 ∧ s.rx.answered 0 = false ∧ s.rx.closed = false ∧
      s.rx.latest 0 = some ⟨⟨0, 1⟩, 30000⟩ ∧ s.rx.clock ≤ 30000 ∧ s.rx.rxers 0 = .lookup m ∧
      s.rx.deliveries = []))
    (by decide)
  obtain ⟨hwrites, hans, hopen, hlatest, hclock, hpc, hnone⟩ := of_decide_eq_true h
  have hs' := System.Steps.throughout hdistinct hs
  obtain ⟨-, -, hreplies⟩ := reply_routing setup s hs'
  obtain ⟨w, hw, -, hroute⟩ := hreplies 0 ⟨rfl, rfl⟩ hwrites hans hopen
  rw [hlatest] at hw
  cases hw
  obtain ⟨-, hlookup⟩ := hroute hclock 0 m (by rw [hpc]; rfl) rfl
  obtain ⟨s', hstep, hdel⟩ := hlookup hpc
  exact ⟨s, hs', hpc, s', hstep, by rw [hdel, hnone]; rfl⟩

/-- It is not enough that the sequence numbers of outstanding requests are distinct, nor that
a reply arrives before the channel is closed.  First, another `txer` fails to write a message
that is no request but has the sequence number of a written one, and removes its waiter: the
reply goes to a handler.  Second, the waiters are cleared after the reply has arrived and before
it is looked up. -/
theorem reply_routing_waiter_removed :
    let setup : MuxSetup := ⟨fun x => ⟨some 5, decide (x = 0), none, false⟩, fun t => [t], [],
      fun _ => 1, false, fun _ => true⟩
    let m : Message := ⟨⟨7, 1, some 5, ∅⟩, []⟩
    let ok := (multiplex setup).throughout (DistinctRequests setup)
    -- the reply arrives after the write, as the first one, in time and before the end
    let arrives : Multiplex → Prop := fun s => s.tx.writes 0 = 1 ∧ s.rx.answered 0 = false ∧
      s.rx.closed = false ∧ s.rx.latest 0 = some ⟨⟨0, 0⟩, 30000⟩ ∧ s.rx.clock ≤ 30000 ∧
      s.rx.rxers 0 = .got m 0
    setup.IsRequest 0 ∧ m.replyFor = setup.seq 0 ∧
    (∃ s s', (multiplex setup).Reachable ok s ∧ arrives s ∧ (multiplex setup).Steps ok s s' ∧
      s'.rx.closed = false ∧ s'.rx.clock ≤ 30000 ∧ s'.rx.deliveries = [⟨m, .handler 7⟩]) ∧
    ∃ s s', (multiplex setup).Reachable ok s ∧ arrives s ∧ (multiplex setup).Steps ok s s' ∧
      s'.rx.clock ≤ 30000 ∧ s'.rx.deliveries = [⟨m, .handler 7⟩] := by
  intro setup m ok arrives
  have hone : ∀ x, setup.IsRequest x → x = 0 := fun x hx => of_decide_eq_true hx.2
  have hdistinct : ∀ s, DistinctRequests setup s := fun s =>
    ⟨fun x y hx hy _ => (hone x hx.1).trans (hone y hy.1).symm, fun x _ =>
      show (5 : Int32) ≠ notAReply by decide⟩
  let : DecidablePred arrives := fun s => inferInstanceAs (Decidable (_ ∧ _ ∧ _ ∧ _ ∧ _ ∧ _))
  refine ⟨⟨rfl, rfl⟩, rfl, ?_, ?_⟩
  · obtain ⟨s, s', hs, harr, hrun, h⟩ := System.steps_of_replay₂ (multiplex setup) System.anyEvent
      [.send 0 0, .tx 0 (.take 0), .tx 0 .go, .tx 0 .go, .tx 0 (.underlay none), .send 1 1,
        .tx 1 (.take 1), .tx 1 .go, .tx 1 .go, .tx 1 (.underlay (some [])), .tx 1 .go,
        .rx 0 (.read m)]
      [.rx 0 .go, .rx 0 .go] (fun s => decide (arrives s))
      (fun s' => decide (s'.rx.closed = false ∧ s'.rx.clock ≤ 30000 ∧
        s'.rx.deliveries = [⟨m, .handler 7⟩]))
      (by decide)
    exact ⟨s, s', System.Steps.throughout hdistinct hs, of_decide_eq_true harr,
      hrun.throughout hdistinct, of_decide_eq_true h⟩
  · obtain ⟨s, s', hs, harr, hrun, h⟩ := System.steps_of_replay₂ (multiplex setup) System.anyEvent
      [.send 0 0, .tx 0 (.take 0), .tx 0 .go, .tx 0 .go, .tx 0 (.underlay none), .rx 0 (.read m)]
      [.rx 0 .go, .close, .clear, .rx 0 .go] (fun s => decide (arrives s))
      (fun s' => decide (s'.rx.clock ≤ 30000 ∧ s'.rx.deliveries = [⟨m, .handler 7⟩]))
      (by decide)
    exact ⟨s, s', System.Steps.throughout hdistinct hs, of_decide_eq_true harr,
      hrun.throughout hdistinct, of_decide_eq_true h⟩

end

end ZitiChannel
