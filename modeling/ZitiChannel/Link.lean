import ZitiChannel.LinkWire

/-!
# Two ends of a channel

The two ends of a channel are joined by their connections: what `txer` `t` of one end has completed
on connection `t`, `rxer` `t` of the other end reads, in order.  Nothing says that it ever does:
connections may be slow, and they may be cut or closed at any time, and then the `rxer` stops.

Both ends send and receive, with any number of connections, retries and requeues.  What holds from
end to end follows from what each end does by itself: the log of one end says what is on the wire,
and the log of the other says what it delivered.

## Main definitions

* `link` — the two ends as a transition system.
* `Link.Honest` — applications that reply only to what was delivered to them.

## Main results

* `reads_prefix_wire` — what was read from a connection is what was put there first.
* `link_in_order` — **messages of one queue arrive over one connection in the order of the queue.**
* `link_at_most_once` — **nothing is delivered that was not sent, and nothing twice; what its sender
  was told has failed is never delivered.**
* `link_reply` — **a reply stands for a request that was delivered**, among applications that reply
  only to what they got.
-/

namespace ZitiChannel

open Transition ByteStream

namespace Link

/-- What can happen. -/
inductive Event
  /-- Something happens at an end, other than that a message arrives. -/
  | side (b : Bool) (e : Side.Event)
  /-- `rxer` `t` of an end reads the next message. -/
  | arrive (b : Bool) (t : ℕ)

end Link

/-- Whether an event reads a message. -/
def Side.Event.isRead : Side.Event → Bool
  | .mux (.rx _ (.read _)) => true
  | _ => false

/-- The message that an end reads next from a connection, if it is there. -/
def Side.next (setup : LinkSetup) (sender receiver : Side) (t : ℕ) : Option Message :=
  (sender.wireBy t)[(receiver.reads.keyed t).length]?.map fun c => setup.arrived c.sendable

/-- Two ends of a channel, joined by their connections. -/
def link (setup : Bool → LinkSetup) : System (Bool → Side) Link.Event where
  init b := (side (setup b)).init
  step l
    | .side b e =>
        if e.isRead then none
        else ((side (setup b)).step (l b) e).map (Function.update l b)
    | .arrive b t =>
        match Side.next (setup !b) (l !b) (l b) t with
        | some m => ((side (setup b)).step (l b) (.mux (.rx t (.read m)))).map (Function.update l b)
        | none => none

namespace Link

variable {setup : Bool → LinkSetup} {l l' : Bool → Side}
  {ok : (Bool → Side) → Link.Event → Prop}

/-- What a step can be. -/
theorem step_cases {e : Event} {P : (Bool → Side) → Prop} (h : (link setup).step l e = some l')
    (own : ∀ b e' s', e = .side b e' → e'.isRead = false →
      (side (setup b)).step (l b) e' = some s' → P (Function.update l b s'))
    (arrive : ∀ b t m s', e = .arrive b t → Side.next (setup !b) (l !b) (l b) t = some m →
      (side (setup b)).step (l b) (.mux (.rx t (.read m))) = some s' →
      P (Function.update l b s')) : P l' := by
  cases e with
  | side b e =>
    simp only [link] at h
    split at h
    · cases h
    · next hread =>
      obtain ⟨s', hs', rfl⟩ := Option.map_eq_some_iff.mp h
      exact own b e s' rfl (by simpa using hread) hs'
  | arrive b t =>
    simp only [link] at h
    split at h
    · next m hm =>
      obtain ⟨s', hs', rfl⟩ := Option.map_eq_some_iff.mp h
      exact arrive b t m s' rfl hm hs'
    · cases h

/-- **Each end does what an end does by itself.** -/
theorem refines_side (setup : Bool → LinkSetup) (ok : (Bool → Side) → Link.Event → Prop)
    (b : Bool) :
    (link setup).Refines ok (side (setup b)) System.anyEvent (fun l => l b) where
  init := rfl
  step l e l' _ _ h := by
    have hstep : ∀ b' e' s', (side (setup b')).step (l b') e' = some s' →
        (side (setup b)).Steps System.anyEvent (l b) (Function.update l b' s' b) := by
      intro b' e' s' hs'
      rcases eq_or_ne b b' with rfl | hb
      · rw [Function.update_self]
        exact System.Steps.single (e := e') trivial hs'
      · rw [Function.update_of_ne hb]
        exact System.Steps.stutter _
    refine step_cases (P := fun l' => (side (setup b)).Steps System.anyEvent (l b) (l' b)) h ?_ ?_
    · intro b' e' s' _ _ hs'; exact hstep b' e' s' hs'
    · intro b' t m s' _ _ hs'; exact hstep b' _ s' hs'

theorem reachable_side (hl : (link setup).Reachable ok l) (b : Bool) :
    (side (setup b)).Reachable System.anyEvent (l b) :=
  (refines_side setup ok b).reachable hl

end Link

namespace Side

variable {setup : LinkSetup} {s s' : Side}

/-- What is on a connection stays there. -/
theorem wireBy_step {e : Event} (h : (side setup).step s e = some s') (t : ℕ) :
    s.wireBy t <+: s'.wireBy t := by
  refine step_cases (P := fun s' => s.wireBy t <+: s'.wireBy t) h ?_ ?_ ?_
  · intro act mux _ _ _; exact List.prefix_refl _
  · intro u n x _ _ _; exact List.prefix_refl _
  · intro u n x c _ _ _ _
    show s.wire.filter _ <+: (s.wire ++ [c]).filter _
    rw [List.filter_append]
    exact List.prefix_append _ _

/-- Only a read adds to what was read. -/
theorem reads_step {e : Event} (h : (side setup).step s e = some s') :
    s'.reads = s.reads ++ match e with
      | .mux act => readBy act
      | .emit _ _ => [] := by
  cases e with
  | mux act =>
    simp only [side, step] at h
    split at h
    · obtain ⟨mux, -, rfl⟩ := Option.map_eq_some_iff.mp h; rfl
    · cases h
  | emit t n =>
    simp only [side, step] at h
    split at h
    · split at h
      · cases h; exact (List.append_nil _).symm
      · split at h
        · obtain ⟨c, -, rfl⟩ := Option.map_eq_some_iff.mp h
          exact (List.append_nil _).symm
        · cases h
    · cases h

theorem reads_of_not_isRead {e : Event} (h : (side setup).step s e = some s')
    (he : e.isRead = false) : s'.reads = s.reads := by
  rw [reads_step h]
  cases e with
  | emit t n => exact List.append_nil _
  | mux act =>
    cases act with
    | rx r a =>
      cases a with
      | read m => cases he
      | _ => exact List.append_nil _
    | _ => exact List.append_nil _

end Side

namespace Link

variable {setup : Bool → LinkSetup} {l l' : Bool → Side}
  {ok : (Bool → Side) → Link.Event → Prop}

/-- The messages on a connection. -/
def onWire (setup : LinkSetup) (s : Side) (t : ℕ) : List Message :=
  (s.wireBy t).map fun c => setup.arrived c.sendable

/-- **What was read from a connection is what was put there first.** -/
theorem reads_prefix_wire (hl : (link setup).Reachable ok l) (b : Bool) (t : ℕ) :
    (l b).reads.keyed t <+: onWire (setup !b) (l !b) t := by
  refine hl.invariant (P := fun l => ∀ b, (l b).reads.keyed t <+: onWire (setup !b) (l !b) t)
    ?_ ?_ b
  · intro b; exact List.prefix_refl _
  intro l e l' ih _ hstep
  -- what happens at the sending end only adds to what is on the wire
  have hsender : ∀ {b e' s'}, (side (setup !b)).step (l !b) e' = some s' →
      (l b).reads.keyed t <+: onWire (setup !b) s' t := fun {b _ _} hs' =>
    (ih b).trans ((Side.wireBy_step hs' t).map _)
  refine step_cases (P := fun l' => ∀ b, (l' b).reads.keyed t <+: onWire (setup !b) (l' !b) t)
    hstep ?_ ?_
  · intro b' e' s' _ hread hs' b
    rcases eq_or_ne b b' with rfl | hb
    · rw [Function.update_self, Function.update_of_ne (Bool.not_ne_self b),
        Side.reads_of_not_isRead hs' hread]
      exact ih b
    · have hb' : b' = !b := Bool.eq_not.mpr hb.symm
      subst hb'
      rw [Function.update_self, Function.update_of_ne hb]
      exact hsender hs'
  · intro b' u m s' _ hnext hs' b
    rcases eq_or_ne b b' with rfl | hb
    · rw [Function.update_self, Function.update_of_ne (Bool.not_ne_self b), Side.reads_step hs']
      show ((l b).reads ++ [(u, m)]).keyed t <+: _
      rw [List.keyed_append, List.keyed_singleton]
      rcases eq_or_ne u t with rfl | hut
      · -- the message read is the one behind those read before
        rw [if_pos rfl]
        have hget : (onWire (setup !b) (l !b) u)[((l b).reads.keyed u).length]? = some m := by
          rw [onWire, List.getElem?_map]
          exact hnext
        obtain ⟨rest, hrest⟩ := ih b
        rw [← hrest, List.getElem?_append_right le_rfl, Nat.sub_self] at hget
        cases rest with
        | nil => cases hget
        | cons m' rest =>
          cases hget
          rw [← hrest]
          exact ⟨rest, by simp⟩
      · rw [if_neg hut, List.append_nil]
        exact ih b
    · have hb' : b' = !b := Bool.eq_not.mpr hb.symm
      subst hb'
      rw [Function.update_self, Function.update_of_ne hb]
      exact hsender hs'

/-- An end with one queue, from which all of its `txer`s take. -/
def plainLink (o : ℕ → Outgoing) (replyReceiver : Bool) (hfit : ∀ x, (o x).dataLen ≤ maxInt32) :
    LinkSetup where
  sendable x := ⟨some (o x).msg.sequence, replyReceiver, none, false⟩
  source _ := [0]
  retry := [0]
  capacity _ := 2
  writeTimeout := false
  receiveHandlers _ := true
  message x := (o x).msg
  order x _ := (o x).order
  fits x _ := hfit x
  sequence _ := rfl

/-- Requests, with sequence numbers from five on. -/
def exchangeRequest (x : ℕ) : Outgoing :=
  ⟨(newMessage 7 []).setSequence (Int32.ofNat (5 + x)), [], by
    simp only [newMessage, Message.setSequence, Message.putReplyFor]
    rfl⟩

/-- The answer to the first request. -/
def exchangeAnswer : Outgoing :=
  ⟨(newMessage 2 []).replyTo (exchangeRequest 0).received, [⟨1, [5, 0, 0, 0]⟩], by decide⟩

/-- One end sends requests and the other answers. -/
def exchange : Bool → LinkSetup
  | false => plainLink exchangeRequest true fun _ => by
      show ([] : Bytes).length + ([] : Bytes).length ≤ maxInt32
      decide
  | true => plainLink (fun _ => exchangeAnswer) false fun _ => by decide

/-- A `txer` takes a message, gets it out and returns to its queue. -/
def sends (b : Bool) (t n : ℕ) : List Event :=
  [.side b (.mux (.tx t (.take 0))), .side b (.mux (.tx t .go)), .side b (.mux (.tx t .go)),
    .side b (.emit t n), .side b (.mux (.tx t (.underlay none))), .side b (.mux (.tx t .go))]

/-- **Messages of one queue arrive over one connection in the order of the queue.**  With any number
of connections, senders, retries and requeues at both ends: what `rxer` `t` of an end has delivered
is, message by message, a prefix of what the other end has put on connection `t`; and those messages
on the connection that came out of one queue came into that queue in the same order. -/
theorem link_in_order (setup : Bool → LinkSetup) (l : Bool → Side)
    (hl : (link setup).Reachable System.anyEvent l) (b : Bool) (t : ℕ) :
    (∃ carried, carried <+: (l !b).wireBy t ∧
      (l b).delivered.keyed t = carried.map fun c => (setup !b).arrived c.sendable) ∧
    ∀ q, ((((l !b).wireBy t).filter fun c => decide (c.queue = q)).map Carried.sendable).Sublist
      ((l !b).entered.keyed q) := by
  have hdel : (l b).delivered.keyed t <+: onWire (setup !b) (l !b) t := by
    refine List.IsPrefix.trans ?_ (reads_prefix_wire hl b t)
    rw [Side.reads_eq (reachable_side hl b) t]
    exact List.prefix_append _ _
  have htake : (l b).delivered.keyed t =
      ((((l !b).wireBy t).take ((l b).delivered.keyed t).length)).map
        fun c => (setup !b).arrived c.sendable := by
    rw [List.map_take]
    exact (List.prefix_iff_eq_take.mp hdel)
  exact ⟨⟨_, List.take_prefix _ _, htake⟩, Side.wire_order (reachable_side hl !b) t⟩

/-- Two requests are queued; the write of the first fails half way, it is queued again behind the
second, and both arrive over the other connection. -/
theorem link_in_order_requeued :
    ∃ l, (link exchange).Reachable System.anyEvent l ∧
      (l false).entered = [(0, 0), (0, 1), (0, 0)] ∧
      ∃ carried, carried <+: (l false).wireBy 1 ∧ carried.map Carried.sendable = [1, 0] := by
  obtain ⟨l, hl, h⟩ := System.reachable_of_replay (link exchange) System.anyEvent
    ([.side false (.mux (.send 0 0)), .side false (.mux (.send 1 0)),
      .side false (.mux (.tx 0 (.take 0))), .side false (.mux (.tx 0 .go)),
      .side false (.mux (.tx 0 .go)), .side false (.emit 0 9),
      .side false (.mux (.tx 0 (.underlay (some [])))), .side false (.mux (.tx 0 .go)),
      .side false (.mux (.tx 0 .go))] ++ sends false 1 20 ++ sends false 1 20 ++
      [.arrive true 1, .side true (.mux (.rx 1 .go)), .arrive true 1,
        .side true (.mux (.rx 1 .go))])
    (fun l => decide ((l false).entered = [(0, 0), (0, 1), (0, 0)] ∧
      ((l true).delivered.keyed 1).length = 2 ∧
      ((l false).wireBy 1).map Carried.sendable = [1, 0])) (by decide)
  obtain ⟨hentered, hlength, hwire⟩ := of_decide_eq_true h
  obtain ⟨⟨carried, hinit, hdel⟩, -⟩ := link_in_order exchange l hl true 1
  refine ⟨l, hl, hentered, carried, hinit, ?_⟩
  have hcarried : carried.length = 2 := by rw [hdel, List.length_map] at hlength; exact hlength
  have heq := List.prefix_iff_eq_take.mp (hinit.map Carried.sendable)
  rw [List.length_map, hcarried, show (l !true).wireBy 1 = (l false).wireBy 1 from rfl,
    hwire] at heq
  exact heq

/-- What is on the wire was accepted. -/
theorem accepted_of_wire {setup : LinkSetup} {s : Side}
    (hs : (side setup).Reachable System.anyEvent s) {x : ℕ}
    (hx : x ∈ s.wire.map Carried.sendable) : s.mux.tx.accepted x = true := by
  have hmux := Side.reachable_mux hs
  rw [← Bool.not_eq_false]
  intro hacc
  obtain ⟨-, hheld, hwrites⟩ := Multiplex.nowhere_of_not_accepted hmux hacc
  rcases ((Side.wire_nodup_iff hs).2 x).mp hx with hone | ⟨t, hout⟩
  · rw [hwrites] at hone
    cases hone
  · exact hheld t (by rw [hout.1]; rfl)

/-- What was delivered at an end is on the wire of the other. -/
theorem delivered_subperm (hl : (link setup).Reachable ok l) (b : Bool) :
    ((l b).mux.rx.deliveries.map Delivery.message).Subperm
      ((l !b).wire.map fun c => (setup !b).arrived c.sendable) := by
  have hkeyed : ∀ t, ((l b).delivered.keyed t).Subperm
      (((l !b).wire.map fun c => (c.txer, (setup !b).arrived c.sendable)).keyed t) := by
    intro t
    rw [List.keyed_map]
    refine (List.IsPrefix.sublist ?_).subperm
    refine List.IsPrefix.trans ?_ (reads_prefix_wire hl b t)
    rw [Side.reads_eq (reachable_side hl b) t]
    exact List.prefix_append _ _
  have hsub := List.subperm_of_keyed hkeyed
  rw [Side.delivered_eq (reachable_side hl b), List.map_map] at hsub
  exact hsub

/-- **Nothing is delivered that was not sent, and nothing twice.**  The messages that an end has
delivered, counted with repetitions, are among those that the other end has put on the wire; there
no accepted message stands twice; and a message whose listener was told of an error does not stand
there at all, so it is never delivered. -/
theorem link_at_most_once (setup : Bool → LinkSetup) (l : Bool → Side)
    (hl : (link setup).Reachable System.anyEvent l) (b : Bool) :
    ((l b).mux.rx.deliveries.map Delivery.message).Subperm
      (((l !b).wire.map Carried.sendable).map (setup !b).arrived) ∧
    ((l !b).wire.map Carried.sendable).Nodup ∧
    ∀ x, (x ∈ (l !b).wire.map Carried.sendable → (l !b).mux.tx.accepted x = true) ∧
      (.err ∈ terminals ((l !b).mux.tx.notices x) → x ∉ (l !b).wire.map Carried.sendable) ∧
      (terminals ((l !b).mux.tx.notices x) = [.after] → x ∈ (l !b).wire.map Carried.sendable) := by
  have hside := reachable_side hl !b
  obtain ⟨hnodup, hmem⟩ := Side.wire_nodup_iff hside
  refine ⟨?_, hnodup, fun x =>
    ⟨accepted_of_wire hside, Side.not_mem_wire_of_err hside, fun hafter => ?_⟩⟩
  · rw [List.map_map]
    exact delivered_subperm hl b
  · rw [hmem]
    exact .inl (account_of_head_after (Side.reachable_mux hside) (by rw [hafter]; rfl)).1

/-- A message whose write fails at the only connection and which no queue takes back is told to have
failed, and nothing of it is delivered. -/
theorem link_at_most_once_failed :
    ∃ l, (link exchange).Reachable System.anyEvent l ∧
      (l false).mux.tx.notices 0 = [.beforeWrite, .err (.underlay []), .afterWrite] ∧
      (l false).sent 0 ≠ [] ∧ 0 ∉ (l false).wire.map Carried.sendable := by
  obtain ⟨l, hl, h⟩ := System.reachable_of_replay (link exchange) System.anyEvent
    [.side false (.mux (.send 0 0)), .side false (.mux (.tx 0 (.take 0))),
      .side false (.mux (.send 1 0)), .side false (.mux (.send 2 0)),
      .side false (.mux (.tx 0 .go)), .side false (.mux (.tx 0 .go)), .side false (.emit 0 9),
      .side false (.mux (.tx 0 (.underlay (some [])))), .side false (.mux (.tx 0 .go)),
      .side false (.mux (.tx 0 .go)), .side false (.mux (.tx 0 .go)),
      .side false (.mux (.tx 0 .go))]
    (fun l => decide (
      (l false).mux.tx.notices 0 = [.beforeWrite, .err (.underlay []), .afterWrite] ∧
      (l false).sent 0 ≠ [])) (by decide)
  obtain ⟨hnotices, hsent⟩ := of_decide_eq_true h
  obtain ⟨-, -, hall⟩ := link_at_most_once exchange l hl true
  have herr : .err ∈ terminals ((l false).mux.tx.notices 0) := by rw [hnotices]; decide
  exact ⟨l, hl, hnotices, hsent, (hall 0).2.1 herr⟩

/-! ### Requests and replies -/

/-- Applications that reply only to what was delivered to them. -/
def Honest (setup : Bool → LinkSetup) (l : Bool → Side) : Event → Prop
  | .side b (.mux act) => ∀ y ∈ act.submitted, ((setup b).arrived y).isReply = true →
      ∃ d ∈ (l b).mux.rx.deliveries, d.message.sequence = ((setup b).arrived y).replyFor
  | _ => True

instance (setup : Bool → LinkSetup) (l : Bool → Side) : DecidablePred (Honest setup l) := fun e =>
  match e with
  | .side b (.mux act) => inferInstanceAs (Decidable (∀ y ∈ act.submitted,
      ((setup b).arrived y).isReply = true →
      ∃ d ∈ (l b).mux.rx.deliveries, d.message.sequence = ((setup b).arrived y).replyFor))
  | .side _ (.emit _ _) => inferInstanceAs (Decidable True)
  | .arrive _ _ => inferInstanceAs (Decidable True)

end Link

/-- The reply that an `rxer` looks for a waiter of. -/
def RxPc.replying : RxPc → Option Message
  | .reaping m _ _ | .lookup m => some m
  | .reading | .got _ _ | .stopped => none

/-- What a receiver is given is a reply. -/
def RxState.Replies (s : RxState) : Prop :=
  (∀ r m, (s.rxers r).replying = some m → m.isReply = true) ∧
    ∀ d ∈ s.deliveries, ∀ r, d.target = .receiver r → d.message.isReply = true

theorem RxState.Replies.receive {setup : MuxSetup} {s s' : RxState} {r : ℕ} {a : RxAction}
    (h : s.Replies) (hr : s.receive setup r (s.rxers r) a = some s') : s'.Replies := by
  obtain ⟨hpc, hdel⟩ := h
  have hset : ∀ {st : RxState} {pc : RxPc}, st.rxers = s.rxers →
      (∀ m, pc.replying = some m → m.isReply = true) →
      ∀ r' m, ((st.setRxer r pc).rxers r').replying = some m → m.isReply = true := by
    intro st pc hst hnew r' m hm
    rcases eq_or_ne r' r with rfl | hr'
    · exact hnew m (by simpa [RxState.setRxer] using hm)
    · exact hpc r' m (by simpa [RxState.setRxer, hr', hst] using hm)
  refine RxState.receive_cases (P := RxState.Replies) hr ?_ ?_ ?_ ?_ ?_ ?_ ?_
  · intro m _
    exact ⟨hset rfl (fun _ h => by cases h), hdel⟩
  · intro _
    exact ⟨hset rfl (fun _ h => by cases h), hdel⟩
  · intro m now pc _ hm hpc
    refine ⟨hset rfl fun m' hm' => ?_, hdel⟩
    rcases hpc with rfl | rfl <;> cases hm' <;> exact hm
  · intro m now _ _
    exact ⟨hset rfl (fun _ h => by cases h), fun d hd r' hr' =>
      hdel d (RxState.mem_of_deliver_dispatch hd hr') r' hr'⟩
  · intro m now n n' key hold
    refine ⟨hset rfl fun m' hm' => hpc r m' ?_, hdel⟩
    rw [hold]
    exact hm'
  · intro m now n hold
    refine ⟨hset rfl fun m' hm' => hpc r m' ?_, hdel⟩
    rw [hold]
    exact hm'
  · intro m hold
    obtain ⟨target, htarget⟩ := RxState.takeReply_eq setup s m
    rw [htarget]
    refine ⟨hset rfl (fun _ h => by cases h), fun d hd r' hr' => ?_⟩
    rcases List.mem_append.mp hd with hd | hd
    · exact hdel d hd r' hr'
    · rw [List.mem_singleton.mp hd]
      exact hpc r m (by rw [hold]; rfl)

theorem replies_multiplex {setup : MuxSetup} {ok : Multiplex → Multiplex.Action → Prop}
    {s : Multiplex}
    (hs : (multiplex setup).Reachable ok s) : s.rx.Replies := by
  refine hs.invariant (P := fun s => s.rx.Replies) ?_ ?_
  · exact ⟨fun r m h => (by cases h), fun d hd => (by cases hd)⟩
  intro s act s' ih _ hstep
  refine Multiplex.step_cases (P := fun s => s.rx.Replies) hstep ?_ ?_ ?_ ?_ ?_ ?_ ?_ ?_
  · intro x q queue _ _ _; exact ih
  · intro x q t _ _ _; exact ih
  · intro x err _; exact ih
  · intro t a pc e _ _
    obtain ⟨hdel, hrxers⟩ := Side.rx_apply setup s.rx e
    unfold RxState.Replies
    rw [hdel, hrxers]
    exact ih
  · intro r a rx _ hrx; exact ih.receive hrx
  · intro ms _; exact ih
  · intro _; exact ih
  · intro _ _; exact ih

namespace Link

variable {setup : Bool → LinkSetup} {l l' : Bool → Side}
  {ok : (Bool → Side) → Link.Event → Prop}

/-- What was delivered stays so. -/
theorem deliveries_extend {setup : LinkSetup} {s s' : Side} {e : Side.Event}
    (h : (side setup).step s e = some s') : s.mux.rx.deliveries <+: s'.mux.rx.deliveries := by
  refine Side.step_cases (P := fun s' => s.mux.rx.deliveries <+: s'.mux.rx.deliveries) h ?_ ?_ ?_
  · intro act mux _ _ hmux; exact (Multiplex.extends_step hmux).deliveries
  · intro t n x _ _ _; exact List.prefix_refl _
  · intro t n x c _ _ _ _; exact List.prefix_refl _

theorem accepted_of_not_submitted {setup : LinkSetup} {s s' : Side} {e : Side.Event} {y : ℕ}
    (h : (side setup).step s e = some s')
    (hsub : ∀ act, e = .mux act → act.submitted ≠ some y) :
    s'.mux.tx.accepted y = s.mux.tx.accepted y := by
  refine Side.step_cases (P := fun s' => s'.mux.tx.accepted y = s.mux.tx.accepted y) h ?_ ?_ ?_
  · intro act mux hact _ hmux
    show mux.tx.accepted y = _
    rw [Multiplex.accepted_step hmux y]
    simp [hsub act hact]
  · intro t n x _ _ _; rfl
  · intro t n x c _ _ _ _; rfl

/-- Among honest applications, a reply that was accepted replies to something delivered. -/
theorem replies_to_delivered (hl : (link setup).Reachable (Honest setup) l) (b : Bool) {y : ℕ}
    (hy : (l b).mux.tx.accepted y = true) (hreply : ((setup b).arrived y).isReply = true) :
    ∃ d ∈ (l b).mux.rx.deliveries, d.message.sequence = ((setup b).arrived y).replyFor := by
  revert hy
  refine hl.invariant (P := fun l => (l b).mux.tx.accepted y = true →
    ∃ d ∈ (l b).mux.rx.deliveries, d.message.sequence = ((setup b).arrived y).replyFor)
    (fun h => by cases h) ?_
  intro l e l' ih hok hstep
  -- a step of this end that accepts nothing new
  have hkeep : ∀ {e' s'}, (side (setup b)).step (l b) e' = some s' →
      s'.mux.tx.accepted y = (l b).mux.tx.accepted y → s'.mux.tx.accepted y = true →
      ∃ d ∈ s'.mux.rx.deliveries, d.message.sequence = ((setup b).arrived y).replyFor := by
    intro e' s' hs' hsame hacc
    obtain ⟨d, hd, hseq⟩ := ih (hsame.symm.trans hacc)
    exact ⟨d, (deliveries_extend hs').subset hd, hseq⟩
  refine step_cases (P := fun l' => (l' b).mux.tx.accepted y = true →
    ∃ d ∈ (l' b).mux.rx.deliveries, d.message.sequence = ((setup b).arrived y).replyFor) hstep ?_ ?_
  · intro b' e' s' he _ hs'
    rcases eq_or_ne b b' with rfl | hb
    · rw [Function.update_self]
      by_cases hsub : ∃ act, e' = .mux act ∧ act.submitted = some y
      · -- the application submits it now, and it is honest
        intro _
        obtain ⟨act, rfl, hact⟩ := hsub
        subst he
        obtain ⟨d, hd, hseq⟩ := hok y hact hreply
        exact ⟨d, (deliveries_extend hs').subset hd, hseq⟩
      · exact hkeep hs' (accepted_of_not_submitted hs' fun act hact hy => hsub ⟨act, hact, hy⟩)
    · rw [Function.update_of_ne hb]
      exact ih
  · intro b' t m s' _ _ hs'
    rcases eq_or_ne b b' with rfl | hb
    · rw [Function.update_self]
      refine hkeep hs' (accepted_of_not_submitted hs' fun act hact hy => ?_)
      cases hact
      cases hy
    · rw [Function.update_of_ne hb]
      exact ih

/-- **A reply stands for a request that was delivered.**  Let the applications at both ends be
honest: they reply only to what was delivered to them.  When a receiver is given a reply, then the
reply is one that the other end has sent, to the sequence number of the request that registered the
receiver, and a message of this end with that sequence number has been delivered there.  It is the
request itself, provided that no other message that this end has put on the wire has its sequence
number. -/
theorem link_reply (setup : Bool → LinkSetup) (l : Bool → Side)
    (hl : (link setup).Reachable (Honest setup) l) (b : Bool) (x reg : ℕ) (m : Message)
    (hm : ⟨m, .receiver ⟨x, reg⟩⟩ ∈ (l b).mux.rx.deliveries) :
    (∃ y ∈ (l !b).wire.map Carried.sendable,
      m = (setup !b).arrived y ∧ m.replyFor = (setup b).seq x) ∧
    (∃ x' ∈ (l b).wire.map Carried.sendable, (setup b).seq x' = (setup b).seq x ∧
      (setup b).arrived x' ∈ (l !b).mux.rx.deliveries.map Delivery.message) ∧
    ((∀ x' ∈ (l b).wire.map Carried.sendable, (setup b).seq x' = (setup b).seq x → x' = x) →
      x ∈ (l b).wire.map Carried.sendable ∧
      (setup b).arrived x ∈ (l !b).mux.rx.deliveries.map Delivery.message) := by
  have hmux : ∀ b, (multiplex (setup b).toMuxSetup).Reachable System.anyEvent (l b).mux := fun b =>
    Side.reachable_mux (reachable_side hl b)
  -- whatever an end has delivered is the image of something on the wire of the other
  have hsource : ∀ b m, m ∈ (l b).mux.rx.deliveries.map Delivery.message →
      ∃ y ∈ (l !b).wire.map Carried.sendable, m = (setup !b).arrived y := by
    intro b m hm
    obtain ⟨c, hc, rfl⟩ := List.mem_map.mp ((delivered_subperm hl b).subset hm)
    exact ⟨c.sendable, List.mem_map_of_mem hc, rfl⟩
  have hfor : m.replyFor = (setup b).seq x := ((routed_multiplex (hmux b)).routed _ hm _ rfl).2
  have hreply : m.isReply = true := (replies_multiplex (hmux b)).2 _ hm _ rfl
  obtain ⟨y, hy, rfl⟩ := hsource b m (List.mem_map_of_mem hm)
  obtain ⟨d, hd, hdseq⟩ := replies_to_delivered hl (!b)
    (accepted_of_wire (reachable_side hl !b) hy) hreply
  obtain ⟨x', hx', hdx'⟩ := hsource (!b) d.message (List.mem_map_of_mem hd)
  rw [Bool.not_not] at hx' hdx'
  -- the message that was replied to has the sequence number of the request
  have hsame : (setup b).seq x' = (setup b).seq x := by
    rw [← hfor, ← hdseq, hdx', LinkSetup.arrived, Message.arrived_sequence, (setup b).sequence]
  have hgot : (setup b).arrived x' ∈ (l !b).mux.rx.deliveries.map Delivery.message :=
    hdx' ▸ List.mem_map_of_mem hd
  refine ⟨⟨y, hy, rfl, hfor⟩, ⟨x', hx', hsame, hgot⟩, fun hseq => ?_⟩
  obtain rfl : x' = x := hseq x' hx' hsame
  exact ⟨hx', hgot⟩

/-- A request goes out, and its answer comes back to the receiver that waits for it. -/
theorem link_reply_exchange :
    ∃ l, (link exchange).Reachable (Honest exchange) l ∧
      ⟨exchangeAnswer.received, .receiver ⟨0, 0⟩⟩ ∈ (l false).mux.rx.deliveries ∧
      (exchange false).arrived 0 ∈ (l true).mux.rx.deliveries.map Delivery.message := by
  obtain ⟨l, hl, h⟩ := System.reachable_of_replay (link exchange) (Honest exchange)
    ([.side false (.mux (.send 0 0))] ++ sends false 0 20 ++
      [.arrive true 0, .side true (.mux (.rx 0 .go)), .side true (.mux (.send 0 0))] ++
      sends true 0 32 ++
      [.arrive false 0, .side false (.mux (.rx 0 .go)), .side false (.mux (.rx 0 .go))])
    (fun l => decide (⟨exchangeAnswer.received, .receiver ⟨0, 0⟩⟩ ∈ (l false).mux.rx.deliveries ∧
      (l false).wire.map Carried.sendable = [0])) (by decide)
  obtain ⟨hm, hwire⟩ := of_decide_eq_true h
  obtain ⟨-, -, hrequest⟩ := link_reply exchange l hl false 0 0 _ hm
  refine ⟨l, hl, hm, (hrequest fun x' hx' _ => ?_).2⟩
  simpa [hwire] using hx'

end Link

end ZitiChannel
