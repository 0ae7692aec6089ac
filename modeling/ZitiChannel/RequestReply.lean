import ZitiChannel.Receive
import ZitiChannel.Senders
import ZitiChannel.WireRoundTrip

/-!
# Requests and replies

A request that wants a reply is given the next sequence number and leaves a waiter
under it.  The peer reads the request, answers it with a message made by `ReplyTo`, and
the answer is read back and received.  Whether it reaches the receiver that waits for it
depends on the sequence number alone: `-1` is at once a number that the counter issues
and the mark of a message that is not a reply.

## Main definitions

* `WaiterOp` — what else happens to the waiter map in the meantime.
* `SupportsReply` — the reply to a request with this counter value arrives.

## Main results

* `supportsReply_iff` — **every counter value but the last supports request and reply.**

The sources are `impl.go` and `message.go`.
-/

namespace ZitiChannel

open ByteStream ByteSource

/-! ### The waiter in the meantime -/

/-- An operation on the waiter map. -/
inductive WaiterOp (ρ : Type)
  | add (seq : Int32) (replyReceiver : Option ρ) (deadline : Option Int) (now : Int)
  | remove (seq : Int32)
  | reap (now : Int) (keys : List Int32)

namespace WaiterMap

variable {ρ : Type}

def op (self : WaiterMap ρ) : WaiterOp ρ → WaiterMap ρ
  | .add seq replyReceiver deadline now => self.addWaiter seq replyReceiver deadline now
  | .remove seq => (self.removeWaiter seq).1
  | .reap now keys => self.reapExpired now keys

def ops (self : WaiterMap ρ) (os : List (WaiterOp ρ)) : WaiterMap ρ := os.foldl op self

end WaiterMap

/-- The operation concerns other sequence numbers, and no reaping happens after `ttlMs`. -/
def WaiterOp.Spares {ρ : Type} (seq : Int32) (ttlMs : Int) : WaiterOp ρ → Prop
  | .add seq' _ _ _ => seq ≠ seq'
  | .remove seq' => seq ≠ seq'
  | .reap now _ => now ≤ ttlMs

theorem WaiterMap.ops_of_spares {ρ : Type} {seq : Int32} {w : Waiter ρ} :
    ∀ (os : List (WaiterOp ρ)) {self : WaiterMap ρ}, self.m seq = some w →
      (∀ o ∈ os, o.Spares seq w.ttlMs) → (self.ops os).m seq = some w := by
  intro os
  induction os with
  | nil => intro self h _; exact h
  | cons o os ih =>
    intro self h hos
    refine ih ?_ fun o' ho' => hos o' (List.mem_cons_of_mem o ho')
    have ho := hos o List.mem_cons_self
    cases o with
    | add seq' r d now => exact (WaiterMap.addWaiter_of_ne ho r d now).trans h
    | remove seq' => exact (WaiterMap.removeWaiter_of_ne ho).trans h
    | reap now keys => exact WaiterMap.reapExpired_of_live h ho keys

/-! ### Over the wire and back -/

/-- A message keeps its sequence number on the wire. -/
theorem received_sequence (o : Outgoing) : o.received.sequence = o.msg.sequence := by
  unfold Outgoing.received Message.putReplyFor
  split <;> rfl

/-- The answer to a message replies to its sequence number, after the wire as before. -/
theorem received_replyFor {o : Outgoing} {answer request : Message}
    (ho : o.msg = answer.replyTo request) : o.received.replyFor = request.sequence := by
  refine MessageHeader.replyFor_of_header rfl ?_
  have h := lookup_putReplyFor o.msg replyForHeader
  rw [ho, Message.replyTo_cachedReplyFor] at h
  simpa [Outgoing.received, ho] using h

/-- **What is asked of a counter value.**  Give any request the sequence number that the
counter value `next` yields, register its receiver, and let a peer read its frame from any
byte source.  Let the peer answer by `ReplyTo`, and let the answer be read back from any
byte source and received before the waiter expires, whatever happened to other waiters
since.  Then the answer goes to the request's receiver. -/
def SupportsReply (next : UInt32) : Prop :=
  ∀ (σ ρ : Type) [ByteSource σ] (request : Outgoing) (atPeer : σ) (rest : Bytes),
    request.msg.sequence = nextSequence next → request.dataLen ≤ maxInt32 →
    remaining atPeer = request.frame ++ rest →
    ∃ received atPeer', readV2 atPeer = (.ok received, atPeer') ∧
      ∀ (answer : Message) (reply : Outgoing) (back : σ) (rest' : Bytes),
        reply.msg = answer.replyTo received → reply.dataLen ≤ maxInt32 →
        remaining back = reply.frame ++ rest' →
        ∃ m back', readV2 back = (.ok m, back') ∧
          ∀ (waiters : WaiterMap ρ) (receiver : ρ) (deadline : Option Int) (sent now : Int)
            (os : List (WaiterOp ρ)) (handlers : Int32 → Bool) (replyCounter : UInt32)
            (keys : List Int32),
            (∀ o ∈ os, o.Spares request.msg.sequence (deadline.getD (sent + 30000))) →
            now ≤ deadline.getD (sent + 30000) →
            (rx handlers replyCounter ((waiters.addWaiter request.msg.sequence (some receiver)
              deadline sent).ops os) now keys m).2.2 = .receiver receiver

/-- The sequence numbers the counter yields, and the one that is not recognised. -/
theorem nextSequence_eq_notAReply_iff (next : UInt32) :
    nextSequence next = notAReply ↔ next = 4294967295 := by
  constructor
  · intro h
    have hto := congrArg Int32.toUInt32 h
    rw [nextSequence, UInt32.toUInt32_toInt32] at hto
    exact hto.trans (by decide)
  · rintro rfl
    decide

/-- The request that is given the last value of the counter. -/
def lastRequest : Outgoing := ⟨(newMessage 7 []).setSequence (nextSequence 4294967295), [], rfl⟩

/-- The answer to it. -/
def lastReply : Outgoing :=
  ⟨(newMessage 2 []).replyTo lastRequest.received, [⟨1, [255, 255, 255, 255]⟩], by decide⟩

/-- A source that holds a single frame. -/
def Outgoing.alone (o : Outgoing) : Chopped := ⟨o.frame, fun _ => (1, false)⟩

theorem readV2_alone {o : Outgoing} (hfit : o.dataLen ≤ maxInt32) :
    ∃ s, readV2 o.alone = (.ok o.received, s) := by
  obtain ⟨s, -, h⟩ := readV2_frame hfit (show remaining o.alone = o.frame ++ [] from
    (List.append_nil _).symm)
  exact ⟨s, h⟩

theorem eq_received_of_readV2 {o : Outgoing} {m : Message} {s : Chopped}
    (hfit : o.dataLen ≤ maxInt32) (h : readV2 o.alone = (.ok m, s)) : m = o.received := by
  obtain ⟨s', hs⟩ := readV2_alone hfit
  rw [h] at hs
  injection hs with hm
  injection hm

/-- **Every counter value but the last supports request and reply**: exactly the value
`2^32 - 1` yields the number that marks a message as no reply. -/
theorem supportsReply_iff (next : UInt32) : SupportsReply next ↔ next ≠ 4294967295 := by
  constructor
  · -- the last value: the answer is not taken for a reply, and nobody handles it
    rintro h rfl
    obtain ⟨received, atPeer', hread, hanswer⟩ := h Chopped Unit lastRequest lastRequest.alone []
      rfl (by decide) (List.append_nil _).symm
    obtain rfl := eq_received_of_readV2 (by decide) hread
    obtain ⟨m, back', hread', hrx⟩ := hanswer (newMessage 2 []) lastReply lastReply.alone [] rfl
      (by decide) (List.append_nil _).symm
    obtain rfl := eq_received_of_readV2 (by decide) hread'
    have hdropped := hrx ⟨fun _ => none, 0⟩ () none 0 1 [] (fun _ => false) 0 [] (by simp)
      (by decide)
    exact absurd hdropped (by decide)
  · intro hne σ ρ _ request atPeer rest hseq hfit hpeer
    obtain ⟨atPeer', -, hread⟩ := readV2_frame hfit hpeer
    refine ⟨request.received, atPeer', hread, fun answer reply back rest' hreply hfit' hback => ?_⟩
    obtain ⟨back', -, hread'⟩ := readV2_frame hfit' hback
    refine ⟨reply.received, back', hread', ?_⟩
    intro waiters receiver deadline sent now os handlers replyCounter keys hos hnow
    have hfor : reply.received.replyFor = request.msg.sequence := by
      rw [received_replyFor hreply, received_sequence]
    have hisReply : reply.received.isReply = true := by
      rw [MessageHeader.isReply, decide_eq_true_eq, hfor, hseq, ne_eq,
        nextSequence_eq_notAReply_iff]
      exact hne
    have hadded := waiters.addWaiter_self request.msg.sequence receiver deadline sent
    generalize deadline.getD (sent + 30000) = ttlMs at hos hnow hadded
    have hwaiter := WaiterMap.ops_of_spares os hadded hos
    refine rx_of_waiter (w := ⟨receiver, ttlMs⟩) hisReply ?_ hnow
    rw [hfor]
    exact hwaiter

/-- The exchange of the request with the last value of the counter, with no waiters but its
own, no handlers and nothing in between: both frames are read, and the answer is dropped. -/
theorem supportsReply_last_dropped :
    (∃ s, readV2 lastRequest.alone = (.ok lastRequest.received, s)) ∧
    (∃ s, readV2 lastReply.alone = (.ok lastReply.received, s)) ∧
    lastReply.msg = (newMessage 2 []).replyTo lastRequest.received ∧
    (rx (fun _ => false) 0 (WaiterMap.addWaiter ⟨fun _ => none, 0⟩ lastRequest.msg.sequence
      (some ()) none 0) 1 [] lastReply.received).2.2 = .dropped :=
  ⟨readV2_alone (by decide), readV2_alone (by decide), rfl, by decide⟩

end ZitiChannel
