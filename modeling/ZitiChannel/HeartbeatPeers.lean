import ZitiChannel.Handshake
import ZitiChannel.Heartbeat

/-!
# Two heartbeaters

A heartbeater assumes that there is another one at the other end of the channel.  What a callback is
told comes out of headers, and headers can be there for other reasons: a message whose write failed
is handed to `Tx` again, with what the first attempt has put into it; messages of several
connections overtake each other; a heartbeat is answered by whichever message comes next.

The network hands over any message that the other end has sent, any number of times and in any
order.  A connection does less.  Of the application it is only asked that it keeps out of the two
headers.

## Main definitions

* `Times`, `Vetted` — which times may be in which place of one heartbeater.
* `Peers`, `peers` — two heartbeaters, and what each has sent.
* `Clean` — a message that is handed to `Tx` has no times in it, or has been through `Tx` before.

## Main results

* `Vetted.step` — one end, whatever arrives.
* `heartbeat_provenance` — **a callback is told of the answer to a heartbeat only if its end has
  sent that heartbeat and the other end has received it.**
* `heartbeat_spacing` — **with one `txer`, heartbeats keep the distance of the send interval.**

The source is `heartbeater.go`.
-/

namespace ZitiChannel.Heartbeater

open Transition ByteStream

variable {ι : Type} [DecidableEq ι]

/-! ### One end -/

/-- Which times one end has to do with. -/
structure Times where
  /-- Heartbeats that this end has put on messages. -/
  stamped : Int64 → Prop
  /-- Heartbeats that `pulse` has taken note of. -/
  heard : Int64 → Prop
  /-- Heartbeats that may arrive. -/
  arriving : Int64 → Prop
  /-- Answers that may arrive. -/
  answers : Int64 → Prop

/-- The heartbeat and the answer that are found in a message. -/
def Marks (heartbeat response : Int64 → Prop) (m : Message) : Prop :=
  (∀ ts, rxHeartbeat m = some (.rx ts) → heartbeat ts) ∧
    ∀ ts, rxResponse m = some (.respRx ts) → response ts

namespace Times

/-- What may be in an outgoing message. -/
def Sends (w : Times) : Message → Prop := Marks w.stamped fun ts => ts ≠ 0 ∧ w.heard ts

/-- What may be in a message that arrives. -/
def Receives (w : Times) : Message → Prop := Marks w.arriving w.answers

def TxOk (w : Times) : TxPc → Prop
  | .idle => True
  | .loadLast m _ | .loadInterval m _ _ | .putHeartbeat m _ | .loadUnresponded m _
  | .storeUnresponded m _ _ | .queueRespTx m _ | .ret m => w.Sends m
  | .storeLast m now | .queueTx m now => w.Sends m ∧ w.stamped now
  | .putResponse m _ unrespondedHeartbeat =>
      w.Sends m ∧ unrespondedHeartbeat ≠ 0 ∧ w.heard unrespondedHeartbeat

def RxOk (w : Times) : RxPc → Prop
  | .idle => True
  | .heartbeat m | .response m => w.Receives m

def EventOk (w : Times) : HeartbeatEvent → Prop
  | .tx ts => w.stamped ts
  | .rx ts => w.arriving ts
  | .respRx ts => w.answers ts
  | .respTx _ | .handleUnresponded => True

def PulseOk (w : Times) : PulsePc → Prop
  | .handle event => w.EventOk event
  | .received ts => w.arriving ts
  | _ => True

def NoticeOk (w : Times) : Notice → Prop
  | .heartbeatTx ts => w.stamped ts
  | .heartbeatRx ts => w.arriving ts
  | .heartbeatRespRx ts => w.answers ts
  | .heartbeatRespTx _ | .checkHeartBeat => True

/-- Times are added. -/
structure Grows (w w' : Times) : Prop where
  stamped : ∀ ts, w.stamped ts → w'.stamped ts
  heard : ∀ ts, w.heard ts → w'.heard ts
  arriving : ∀ ts, w.arriving ts → w'.arriving ts
  answers : ∀ ts, w.answers ts → w'.answers ts

end Times

/-- Wherever there is a time, it belongs there. -/
structure Vetted (w : Times) (s : State ι) : Prop where
  txers : ∀ i, w.TxOk (s.txers i)
  rxers : ∀ i, w.RxOk (s.rxers i)
  events : ∀ event ∈ s.events.items, w.EventOk event
  pulse : w.PulseOk s.pulse
  unresponded : s.unrespondedHeartbeat ≠ 0 → w.heard s.unrespondedHeartbeat
  notices : ∀ notice ∈ s.notices, w.NoticeOk notice

/-- The heartbeat that a step puts on a message. -/
def stampedBy (s : State ι) : Event ι → Option Int64
  | .txStep i =>
      match s.txers i with
      | .putHeartbeat _ now => some now
      | _ => none
  | _ => none

/-- The heartbeat that a step of `pulse` takes note of. -/
def heardBy (s : State ι) : Event ι → Option Int64
  | .pulseStep =>
      match s.pulse with
      | .handle (.rx ts) => some ts
      | _ => none
  | _ => none

/-- The message with which `Tx` has returned, after a step. -/
def sentBy (s' : State ι) : Event ι → Option Message
  | .tx i _ _ | .txStep i =>
      match s'.txers i with
      | .ret m => some m
      | _ => none
  | _ => none

section

variable {w w' : Times} {s s' : State ι} {e : Event ι} {m : Message}

/-! #### Times in messages -/

theorem rxTime_congr {key : Int32} {event : Int64 → HeartbeatEvent} {m' : Message}
    (h : m'.headers.lookup key = m.headers.lookup key) :
    rxTime key event m' = rxTime key event m := by
  unfold rxTime Headers.getUint64Header
  rw [h]

theorem rxTime_putTime (key : Int32) (event : Int64 → HeartbeatEvent) (ts : Int64) (m : Message) :
    rxTime key event (putTime key ts m) = some (event ts) := by
  have hget : (putTime key ts m).headers.getUint64Header key =
      (uint64 (putUint64 ts.toUInt64), true) :=
    Headers.getUint64Header_of_length (Finmap.lookup_insert _) (length_putUint64 _)
  rw [rxTime, hget, uint64_putUint64]
  simp only [Int64.toInt64_toUInt64]

theorem rxTime_putTime_of_ne {key key' : Int32} (hne : key' ≠ key)
    (event : Int64 → HeartbeatEvent) (ts : Int64) (m : Message) :
    rxTime key' event (putTime key ts m) = rxTime key' event m :=
  rxTime_congr (Finmap.lookup_insert_of_ne _ hne)

/-- A message is found to have the times that it was sent with. -/
theorem Marks.arrived {P Q : Int64 → Prop} (h : Marks P Q m) : Marks P Q m.arrived := by
  have hheartbeat : rxHeartbeat m.arrived = rxHeartbeat m :=
    rxTime_congr (Message.lookup_arrived m (by decide))
  have hresponse : rxResponse m.arrived = rxResponse m :=
    rxTime_congr (Message.lookup_arrived m (by decide))
  rw [Marks, hheartbeat, hresponse]
  exact h

theorem Times.Sends.putHeartbeat {now : Int64} (h : w.Sends m) (hnow : w.stamped now) :
    w.Sends (putTime heartbeatHeader now m) := by
  constructor
  · intro ts hts
    rw [rxHeartbeat, rxTime_putTime] at hts
    cases hts
    exact hnow
  · intro ts hts
    rw [rxResponse, rxTime_putTime_of_ne (by decide)] at hts
    exact h.2 ts hts

theorem Times.Sends.putResponse {unrespondedHeartbeat : Int64} (h : w.Sends m)
    (hne : unrespondedHeartbeat ≠ 0) (hheard : w.heard unrespondedHeartbeat) :
    w.Sends (putTime heartbeatResponseHeader unrespondedHeartbeat m) := by
  constructor
  · intro ts hts
    rw [rxHeartbeat, rxTime_putTime_of_ne (by decide)] at hts
    exact h.1 ts hts
  · intro ts hts
    rw [rxResponse, rxTime_putTime] at hts
    cases hts
    exact ⟨hne, hheard⟩

/-! #### More times -/

theorem Marks.mono {P Q P' Q' : Int64 → Prop} (h : Marks P Q m) (hP : ∀ ts, P ts → P' ts)
    (hQ : ∀ ts, Q ts → Q' ts) : Marks P' Q' m :=
  ⟨fun ts hts => hP ts (h.1 ts hts), fun ts hts => hQ ts (h.2 ts hts)⟩

namespace Times.Grows

theorem sends (hw : w.Grows w') (h : w.Sends m) : w'.Sends m :=
  h.mono hw.stamped fun ts hts => ⟨hts.1, hw.heard ts hts.2⟩

theorem txOk (hw : w.Grows w') {pc : TxPc} (h : w.TxOk pc) : w'.TxOk pc := by
  cases pc with
  | idle => trivial
  | storeLast m now | queueTx m now => exact ⟨hw.sends h.1, hw.stamped _ h.2⟩
  | putResponse m now ts => exact ⟨hw.sends h.1, h.2.1, hw.heard _ h.2.2⟩
  | _ => exact hw.sends h

theorem rxOk (hw : w.Grows w') {pc : RxPc} (h : w.RxOk pc) : w'.RxOk pc := by
  cases pc with
  | idle => trivial
  | heartbeat m | response m => exact Marks.mono h hw.arriving hw.answers

theorem eventOk (hw : w.Grows w') {event : HeartbeatEvent} (h : w.EventOk event) :
    w'.EventOk event := by
  cases event with
  | tx ts => exact hw.stamped ts h
  | rx ts => exact hw.arriving ts h
  | respRx ts => exact hw.answers ts h
  | respTx ts | handleUnresponded => trivial

theorem pulseOk (hw : w.Grows w') {pc : PulsePc} (h : w.PulseOk pc) : w'.PulseOk pc := by
  cases pc with
  | handle event => exact hw.eventOk h
  | received ts => exact hw.arriving ts h
  | _ => trivial

theorem noticeOk (hw : w.Grows w') {notice : Notice} (h : w.NoticeOk notice) :
    w'.NoticeOk notice := by
  cases notice with
  | heartbeatTx ts => exact hw.stamped ts h
  | heartbeatRx ts => exact hw.arriving ts h
  | heartbeatRespRx ts => exact hw.answers ts h
  | heartbeatRespTx ts | checkHeartBeat => trivial

end Times.Grows

namespace Vetted

omit [DecidableEq ι] in
theorem mono (hw : w.Grows w') (h : Vetted w s) : Vetted w' s where
  txers i := hw.txOk (h.txers i)
  rxers i := hw.rxOk (h.rxers i)
  events event hevent := hw.eventOk (h.events event hevent)
  pulse := hw.pulseOk h.pulse
  unresponded hne := hw.heard _ (h.unresponded hne)
  notices notice hnotice := hw.noticeOk (h.notices notice hnotice)

/-! #### The steps of one end -/

omit [DecidableEq ι] in
theorem queueEvent (h : Vetted w s) (event : HeartbeatEvent) (hevent : w.EventOk event) :
    Vetted w (s.queueEvent event) := by
  unfold State.queueEvent
  split
  · next q hpush =>
    refine { h with events := fun event' hmem => ?_ }
    rw [(Queue.push?_eq_some hpush).2.2, List.mem_append, List.mem_singleton] at hmem
    rcases hmem with hmem | rfl
    · exact h.events event' hmem
    · exact hevent
  · exact h

theorem setTx (h : Vetted w s) (i : ι) (pc : TxPc) (hpc : w.TxOk pc) : Vetted w (s.setTx i pc) := by
  refine { h with txers := fun j => ?_ }
  rcases eq_or_ne j i with rfl | hj
  · rw [show (s.setTx j pc).txers j = pc from Function.update_self ..]
    exact hpc
  · rw [show (s.setTx i pc).txers j = s.txers j from Function.update_of_ne hj _ _]
    exact h.txers j

theorem setRx (h : Vetted w s) (i : ι) (pc : RxPc) (hpc : w.RxOk pc) : Vetted w (s.setRx i pc) := by
  refine { h with rxers := fun j => ?_ }
  rcases eq_or_ne j i with rfl | hj
  · rw [show (s.setRx j pc).rxers j = pc from Function.update_self ..]
    exact hpc
  · rw [show (s.setRx i pc).rxers j = s.rxers j from Function.update_of_ne hj _ _]
    exact h.rxers j

omit [DecidableEq ι] in
theorem setPulse (h : Vetted w s) (pc : PulsePc) (hpc : w.PulseOk pc) :
    Vetted w { s with pulse := pc } :=
  { h with pulse := hpc }

omit [DecidableEq ι] in
theorem notify (h : Vetted w s) (notice : Notice) (hnotice : w.NoticeOk notice) :
    Vetted w (s.notify notice) := by
  refine { h with pulse := trivial, notices := fun notice' hmem => ?_ }
  rw [show (s.notify notice).notices = s.notices ++ [notice] from rfl, List.mem_append,
    List.mem_singleton] at hmem
  rcases hmem with hmem | rfl
  · exact h.notices notice' hmem
  · exact hnotice

theorem txStep {i : ι} (h : Vetted w s)
    (hstamp : ∀ ts, stampedBy s (.txStep i) = some ts → w.stamped ts)
    (hstep : s.txStep i = some s') : Vetted w s' := by
  have hi := h.txers i
  simp only [stampedBy] at hstamp
  unfold State.txStep at hstep
  cases hpc : s.txers i with
  | idle | ret m => rw [hpc] at hstep; cases hstep
  | loadLast m now =>
    rw [hpc] at hstep hi
    cases hstep
    exact h.setTx i _ hi
  | loadInterval m now last =>
    rw [hpc] at hstep hi
    dsimp only at hstep
    split at hstep <;> cases hstep <;> exact h.setTx i _ hi
  | putHeartbeat m now =>
    rw [hpc] at hstep hi hstamp
    cases hstep
    exact h.setTx i _ ⟨Times.Sends.putHeartbeat hi (hstamp now rfl), hstamp now rfl⟩
  | storeLast m now =>
    rw [hpc] at hstep hi
    cases hstep
    exact { h.setTx i (.queueTx m now) hi with }
  | queueTx m now =>
    rw [hpc] at hstep hi
    cases hstep
    exact (h.queueEvent (.tx now) hi.2).setTx i _ hi.1
  | loadUnresponded m now =>
    rw [hpc] at hstep hi
    dsimp only at hstep
    split at hstep
    · next hne => cases hstep; exact h.setTx i _ ⟨hi, hne, h.unresponded hne⟩
    · cases hstep; exact h.setTx i _ hi
  | putResponse m now ts =>
    rw [hpc] at hstep hi
    cases hstep
    exact { h.setTx i (.storeUnresponded _ now ts) (hi.1.putResponse hi.2.1 hi.2.2) with }
  | storeUnresponded m now ts =>
    rw [hpc] at hstep hi
    cases hstep
    exact { h.setTx i (.queueRespTx m now) hi with unresponded := fun hne => absurd rfl hne }
  | queueRespTx m now =>
    rw [hpc] at hstep hi
    cases hstep
    exact (h.queueEvent (.respTx now) trivial).setTx i _ hi

omit [DecidableEq ι] in
/-- What `Rx` finds in a header is an event for that header. -/
theorem exists_of_rxTime {key : Int32} {event : Int64 → HeartbeatEvent} {found : HeartbeatEvent}
    (h : rxTime key event m = some found) : ∃ ts, found = event ts := by
  unfold rxTime at h
  split at h
  · cases h; exact ⟨_, rfl⟩
  · cases h

theorem rxStep {i : ι} (h : Vetted w s) (hstep : s.rxStep i = some s') : Vetted w s' := by
  have hi := h.rxers i
  unfold State.rxStep at hstep
  cases hpc : s.rxers i with
  | idle => rw [hpc] at hstep; cases hstep
  | heartbeat m =>
    rw [hpc] at hstep hi
    dsimp only at hstep
    split at hstep
    · next event hevent =>
      cases hstep
      obtain ⟨ts, rfl⟩ := exists_of_rxTime hevent
      exact (h.queueEvent (.rx ts) (hi.1 ts hevent)).setRx i _ hi
    · cases hstep; exact h.setRx i _ hi
  | response m =>
    rw [hpc] at hstep hi
    dsimp only at hstep
    split at hstep
    · next event hevent =>
      cases hstep
      obtain ⟨ts, rfl⟩ := exists_of_rxTime hevent
      exact (h.queueEvent (.respRx ts) (hi.2 ts hevent)).setRx i _ trivial
    · cases hstep; exact h.setRx i _ trivial

omit [DecidableEq ι] in
theorem pulseStep (h : Vetted w s) (hheard : ∀ ts, heardBy s .pulseStep = some ts → w.heard ts)
    (hstep : s.pulseStep = some s') : Vetted w s' := by
  have hpulse := h.pulse
  simp only [heardBy] at hheard
  revert hstep
  fun_cases State.pulseStep s
  all_goals intro hstep; cases hstep
  case case12 => exact h.notify _ trivial
  case case13 ts hpc => rw [hpc] at hpulse; exact h.notify _ hpulse
  case case14 ts hpc =>
    rw [hpc] at hpulse hheard
    exact { h with unresponded := fun _ => hheard ts rfl, pulse := hpulse }
  case case15 => exact h.notify _ trivial
  case case16 ts hpc => rw [hpc] at hpulse; exact h.notify _ hpulse
  case case19 ts hpc =>
    rw [hpc] at hpulse
    exact { h.notify (.heartbeatRx ts) hpulse with pulse := trivial }
  all_goals exact { h.setPulse .isClosed trivial with pulse := trivial }

/-- **Times stay where they belong**, at one end and whatever it is given. -/
theorem step (h : Vetted w s) (hstamp : ∀ ts, stampedBy s e = some ts → w.stamped ts)
    (hheard : ∀ ts, heardBy s e = some ts → w.heard ts)
    (htx : ∀ i m now, e = .tx i m now → w.Sends m) (hrx : ∀ i m, e = .rx i m → w.Receives m)
    (hstep : Heartbeater.step s e = some s') : Vetted w s' := by
  cases e with
  | txStep i => exact h.txStep hstamp hstep
  | rxStep i => exact h.rxStep hstep
  | pulseStep => exact h.pulseStep hheard hstep
  | tx i m now =>
    have hm := htx i m now rfl
    simp only [Heartbeater.step] at hstep
    split at hstep
    · split at hstep <;> cases hstep <;> exact h.setTx i _ hm
    · split at hstep <;> cases hstep <;> exact h.setTx i _ hm
    · cases hstep
  | rx i m =>
    simp only [Heartbeater.step] at hstep
    split at hstep <;> cases hstep
    exact h.setRx i _ (hrx i m rfl)
  | tick now =>
    simp only [Heartbeater.step] at hstep
    split at hstep <;> cases hstep
    exact h.setPulse _ trivial
  | event =>
    simp only [Heartbeater.step] at hstep
    split at hstep <;> cases hstep
    next event q _ hpop =>
    have hitems := (Queue.pop?_eq_some hpop).2
    refine { h with
      events := fun event' hmem => h.events event' ?_
      pulse := h.events event ?_ }
    · rw [hitems]; exact List.mem_cons_of_mem _ hmem
    · rw [hitems]; exact List.mem_cons_self
  | reconfig =>
    simp only [Heartbeater.step] at hstep
    split at hstep <;> cases hstep
    exact { h with pulse := trivial }
  | timer =>
    simp only [Heartbeater.step] at hstep
    split at hstep <;> cases hstep
    next timers _ =>
    have htimers : Vetted w { s with timers := timers } := { h with }
    exact htimers.queueEvent _ trivial
  | updateIntervals sendInterval checkInterval | updateStep =>
    simp only [Heartbeater.step] at hstep
    split at hstep <;> cases hstep <;> exact { h with }
  | close =>
    cases hstep
    exact { h with }

omit [DecidableEq ι] in
/-- What `Tx` returns may be sent. -/
theorem sends_of_sentBy (h : Vetted w s') {m : Message} (hm : sentBy s' e = some m) :
    w.Sends m := by
  have hret : ∀ i, (match s'.txers i with | .ret m => some m | _ => none) = some m → w.Sends m := by
    intro i hi
    have hok := h.txers i
    split at hi
    · next hpc => rw [hpc] at hok; cases hi; exact hok
    · cases hi
  cases e with
  | tx i m now => exact hret i hm
  | txStep i => exact hret i hm
  | _ => cases hm

omit [DecidableEq ι] in
/-- `pulse` takes note of what has arrived. -/
theorem arriving_of_heardBy (h : Vetted w s) {ts : Int64} (hts : heardBy s e = some ts) :
    w.arriving ts := by
  have hpulse := h.pulse
  cases e with
  | pulseStep =>
    simp only [heardBy] at hts
    split at hts
    · next hpc => rw [hpc] at hpulse; cases hts; exact hpulse
    · cases hts
  | _ => cases hts

end Vetted

end

/-! ### Two ends -/

/-- Two heartbeaters, with what each of them has done. -/
structure Peers (ι : Type) where
  side : Bool → State ι
  /-- The heartbeats that an end has put on messages. -/
  stamped : Bool → List Int64
  /-- The heartbeats that the `pulse` of an end has taken note of. -/
  heard : Bool → List Int64
  /-- The messages that came out of the `Tx` of an end. -/
  sent : Bool → List Message

namespace Peers

/-- The network makes nothing up. -/
def Delivers (p : Peers ι) (b : Bool) : Event ι → Prop
  | .rx _ m => m ∈ (p.sent !b).map Message.arrived
  | _ => True

instance (p : Peers ι) (b : Bool) : DecidablePred (p.Delivers b)
  | .rx _ m => inferInstanceAs (Decidable (m ∈ _))
  | .tx _ _ _ | .txStep _ | .rxStep _ | .pulseStep | .tick _ | .event | .reconfig | .timer
  | .updateIntervals _ _ | .updateStep | .close => instDecidableTrue

/-- What is known after a step of one end. -/
def record (p : Peers ι) (b : Bool) (e : Event ι) (s' : State ι) : Peers ι where
  side := Function.update p.side b s'
  stamped := Function.update p.stamped b (p.stamped b ++ (stampedBy (p.side b) e).toList)
  heard := Function.update p.heard b (p.heard b ++ (heardBy (p.side b) e).toList)
  sent := Function.update p.sent b (p.sent b ++ (sentBy s' e).toList)

end Peers

/-- Two heartbeaters as a transition system: each end with its send and check interval. -/
def peers (ι : Type) [DecidableEq ι] (interval : Bool → Duration × Duration) :
    System (Peers ι) (Bool × Event ι) where
  init :=
    { side := fun b => (heartbeating ι (interval b).1 (interval b).2).init
      stamped := fun _ => []
      heard := fun _ => []
      sent := fun _ => [] }
  step p e := if p.Delivers e.1 e.2 then (step (p.side e.1) e.2).map (p.record e.1 e.2) else none

/-- The application keeps out of the two headers.  A message whose write has failed may have been
through `Tx` before. -/
def Clean (p : Peers ι) : Bool × Event ι → Prop
  | (b, .tx _ m _) => (rxHeartbeat m = none ∧ rxResponse m = none) ∨ m ∈ p.sent b
  | _ => True

namespace Peers

variable {p p' : Peers ι} {e : Bool × Event ι} {interval : Bool → Duration × Duration}

/-- What the times of an end can be, as far as is known. -/
def times (p : Peers ι) (b : Bool) : Times where
  stamped ts := ts ∈ p.stamped b
  heard ts := ts ∈ p.heard b
  arriving ts := ts ∈ p.stamped !b
  answers ts := ts ≠ 0 ∧ ts ∈ p.heard !b

theorem step_eq (h : (peers ι interval).step p e = some p') :
    p.Delivers e.1 e.2 ∧ ∃ s', step (p.side e.1) e.2 = some s' ∧ p' = p.record e.1 e.2 s' := by
  simp only [peers] at h
  split at h
  · next hdelivers =>
    obtain ⟨s', hs', rfl⟩ := Option.map_eq_some_iff.mp h
    exact ⟨hdelivers, s', hs', rfl⟩
  · cases h

omit [DecidableEq ι] in
/-- More is added to one list, the other is as it was. -/
theorem mem_update {α : Type*} (f : Bool → List α) (b : Bool) (l : List α) (c : Bool) {x : α}
    (h : x ∈ f c) : x ∈ Function.update f b (f b ++ l) c := by
  rcases eq_or_ne c b with rfl | hc
  · rw [Function.update_self]
    exact List.mem_append_left _ h
  · rw [Function.update_of_ne hc]
    exact h

omit [DecidableEq ι] in
theorem grows (p : Peers ι) (b : Bool) (e : Event ι) (s' : State ι) (c : Bool) :
    (p.times c).Grows ((p.record b e s').times c) where
  stamped _ h := mem_update _ b _ c h
  heard _ h := mem_update _ b _ c h
  arriving _ h := mem_update _ b _ (!c) h
  answers _ h := ⟨h.1, mem_update _ b _ (!c) h.2⟩

/-- What is known of an end: wherever there is a time, it belongs there. -/
structure Sound (p : Peers ι) (b : Bool) : Prop where
  vetted : Vetted (p.times b) (p.side b)
  sent : ∀ m ∈ p.sent b, (p.times b).Sends m
  heard : ∀ ts ∈ p.heard b, ts ∈ p.stamped !b

omit [DecidableEq ι] in
/-- What is in a list that more was added to. -/
theorem mem_of_mem_update {α : Type*} {f : Bool → List α} {b : Bool} {o : Option α} {c : Bool}
    {x : α} (h : x ∈ Function.update f b (f b ++ o.toList) c) :
    x ∈ f c ∨ c = b ∧ o = some x := by
  rcases eq_or_ne c b with rfl | hc
  · rw [Function.update_self, List.mem_append, Option.mem_toList] at h
    exact h.imp_right fun h => ⟨rfl, h⟩
  · rw [Function.update_of_ne hc] at h
    exact .inl h

omit [DecidableEq ι] in
theorem mem_update_self {α : Type*} {f : Bool → List α} {b : Bool} {o : Option α} {x : α}
    (h : o = some x) : x ∈ Function.update f b (f b ++ o.toList) b := by
  rw [Function.update_self]
  exact List.mem_append_right _ (Option.mem_toList.mpr h)

/-- One end takes a step. -/
theorem vetted_record {b : Bool} {e : Event ι} {s' : State ι} (ih : ∀ b, p.Sound b)
    (hclean : Clean p (b, e)) (hdelivers : p.Delivers b e) (hstep : step (p.side b) e = some s') :
    Vetted ((p.record b e s').times b) s' := by
  have hgrows := p.grows b e s' b
  refine ((ih b).vetted.mono hgrows).step (fun ts hts => mem_update_self hts)
    (fun ts hts => mem_update_self hts) ?_ ?_ hstep
  · intro i m now he
    subst he
    rcases hclean with ⟨hheartbeat, hresponse⟩ | hsent
    · refine ⟨fun ts hts => ?_, fun ts hts => ?_⟩
      · rw [hheartbeat] at hts; cases hts
      · rw [hresponse] at hts; cases hts
    · exact hgrows.sends ((ih b).sent m hsent)
  · intro i m he
    subst he
    obtain ⟨m₀, hm₀, rfl⟩ := List.mem_map.mp hdelivers
    -- what the other end sends is what may arrive here
    have hsends : Marks (p.times b).arriving (p.times b).answers m₀ := (ih !b).sent m₀ hm₀
    exact hsends.arrived.mono hgrows.arriving hgrows.answers

theorem sound (hp : (peers ι interval).Reachable Clean p) (b : Bool) : p.Sound b := by
  refine hp.invariant (P := fun p => ∀ b, p.Sound b) ?_ ?_ b
  · intro b
    refine ⟨⟨fun _ => trivial, fun _ => trivial, ?_, trivial, fun h => absurd rfl h, ?_⟩,
      ?_, ?_⟩ <;> intro x hx <;> cases hx
  intro p e p' ih hclean hstep c
  obtain ⟨b, e⟩ := e
  obtain ⟨hdelivers, s', hs', rfl⟩ := step_eq hstep
  have hgrows := p.grows b e s' c
  have hvetted : Vetted ((p.record b e s').times c) ((p.record b e s').side c) := by
    rcases eq_or_ne c b with rfl | hc
    · rw [show (p.record c e s').side c = s' from Function.update_self ..]
      exact vetted_record ih hclean hdelivers hs'
    · rw [show (p.record b e s').side c = p.side c from Function.update_of_ne hc _ _]
      exact (ih c).vetted.mono hgrows
  refine ⟨hvetted, fun m hm => ?_, fun ts hts => ?_⟩
  · rcases mem_of_mem_update hm with hm | ⟨rfl, hm⟩
    · exact hgrows.sends ((ih c).sent m hm)
    · rw [show (p.record c e s').side c = s' from Function.update_self ..] at hvetted
      exact hvetted.sends_of_sentBy hm
  · rcases mem_of_mem_update hts with hts | ⟨rfl, hts⟩
    · exact hgrows.arriving ts ((ih c).heard ts hts)
    · exact hgrows.arriving ts ((ih c).vetted.arriving_of_heardBy hts)

end Peers

/-- **Nobody is told of a heartbeat or an answer that was not sent.**  With any number of `txer`s
and `rxer`s at both ends, with messages that are lost, repeated, overtaken or handed to `Tx` again,
and with applications that keep out of the two headers: the callback of an end is told of a
heartbeat only if the other end has put it on a message, and of an answer only if this end has put
that very heartbeat on a message and the other end has taken note of it. -/
theorem heartbeat_provenance (interval : Bool → Duration × Duration) (p : Peers ι)
    (hp : (peers ι interval).Reachable Clean p) (b : Bool) :
    (∀ ts, .heartbeatTx ts ∈ (p.side b).notices → ts ∈ p.stamped b) ∧
    (∀ ts, .heartbeatRx ts ∈ (p.side b).notices → ts ∈ p.stamped !b) ∧
    (∀ ts, .heartbeatRespRx ts ∈ (p.side b).notices →
      ts ≠ 0 ∧ ts ∈ p.stamped b ∧ ts ∈ p.heard !b) := by
  have hnotices := (Peers.sound hp b).vetted.notices
  refine ⟨fun ts hts => hnotices _ hts, fun ts hts => hnotices _ hts, fun ts hts => ?_⟩
  obtain ⟨hne, hheard⟩ : ts ≠ 0 ∧ ts ∈ p.heard !b := hnotices _ hts
  have hstamped := (Peers.sound hp !b).heard ts hheard
  rw [Bool.not_not] at hstamped
  exact ⟨hne, hstamped, hheard⟩

instance (p : Peers ι) : DecidablePred (Clean p) := fun e => by
  unfold Clean
  split <;> infer_instance

/-- The steps of one end. -/
def steps (b : Bool) (es : List (Event Unit)) : List (Bool × Event Unit) := es.map (b, ·)

/-- A call of `Tx`, and its steps. -/
def calls (m : Message) (now : Int64) (n : ℕ) : List (Event Unit) :=
  .tx () m now :: List.replicate n (.txStep ())

def marked : Message := putTime heartbeatHeader 20 (newMessage 2 [])

def response : Message := putTime heartbeatResponseHeader 20 (newMessage 3 [])

/-- A message gets a heartbeat, is not written and handed to `Tx` again; the other end answers on a
message of its own. -/
def answered : List (Bool × Event Unit) :=
  [steps false [.pulseStep, .pulseStep], steps false (calls (newMessage 2 []) 20 6),
    steps false (calls marked 25 3),
    steps true [.pulseStep, .pulseStep, .rx () marked.arrived, .rxStep (), .rxStep (), .event,
      .pulseStep],
    steps true (calls (newMessage 3 []) 22 6),
    steps false [.rx () response.arrived, .rxStep (), .rxStep (), .event, .pulseStep, .pulseStep,
      .event, .pulseStep]].flatten

/-- An answer arrives. -/
theorem heartbeat_provenance_answered :
    ∃ p, (peers Unit fun b => if b then (100, 1) else (10, 1)).Reachable Clean p ∧
      .heartbeatRespRx 20 ∈ (p.side false).notices ∧ 20 ∈ p.stamped false ∧ 20 ∈ p.heard true := by
  obtain ⟨p, hp, hnotice⟩ := System.reachable_of_replay
    (peers Unit fun b => if b then (100, 1) else (10, 1)) Clean answered
    (fun p => decide (.heartbeatRespRx 20 ∈ (p.side false).notices)) (by decide +kernel)
  have hnotice := of_decide_eq_true hnotice
  exact ⟨p, hp, hnotice, ((heartbeat_provenance _ p hp false).2.2 20 hnotice).2⟩

/-! ### The distance between heartbeats -/

/-- The heartbeat that was put on a message last, zero for none. -/
def lastOf (stamped : List Int64) : Int64 := stamped.getLastD 0

/-- What the only `txer` knows of the last heartbeat.  Between putting a heartbeat on a message and
storing its time, the time that is stored is an old one. -/
def PcPaced (least : Duration) (lastHeartbeatTx : Int64) (stamped : List Int64) : TxPc → Prop
  | .storeLast _ now => lastOf stamped = now
  | .loadInterval _ _ last => lastHeartbeatTx = lastOf stamped ∧ last = lastOf stamped
  | .putHeartbeat _ now => lastHeartbeatTx = lastOf stamped ∧ least < now - lastOf stamped
  | _ => lastHeartbeatTx = lastOf stamped

/-- Heartbeats keep a distance, and the one that is about to be sent will. -/
structure Paced (least : Duration) (s : State ι) (stamped : List Int64) : Prop where
  interval : least ≤ s.heartBeatIntervalNs
  requested : ∀ sendInterval checkInterval,
    s.retuning.updater = .store sendInterval checkInterval → least ≤ sendInterval
  chain : (0 :: stamped).IsChain fun ts ts' => least < ts' - ts
  txer : ∀ i, PcPaced least s.lastHeartbeatTx stamped (s.txers i)

/-- The send interval of an end is not made shorter than this. -/
def AtLeast (b : Bool) (least : Duration) (_ : Peers ι) : Bool × Event ι → Prop
  | (c, .updateIntervals sendInterval _) => c = b → least ≤ sendInterval
  | _ => True

section

variable {s s' : State ι} {e : Event ι} {least : Duration} {stamped : List Int64}

/-- What the steps of others leave alone. -/
structure Frame (s : State ι) (e : Event ι) (s' : State ι) : Prop where
  txers : s'.txers = s.txers
  last : s'.lastHeartbeatTx = s.lastHeartbeatTx
  interval : s'.heartBeatIntervalNs = s.heartBeatIntervalNs ∨
    ∃ checkInterval, s.retuning.updater = .store s'.heartBeatIntervalNs checkInterval
  requested : ∀ sendInterval checkInterval,
    s'.retuning.updater = .store sendInterval checkInterval →
      s.retuning.updater = .store sendInterval checkInterval ∨
        e = .updateIntervals sendInterval checkInterval

omit [DecidableEq ι] in
theorem Frame.of_eq (htxers : s'.txers = s.txers) (hlast : s'.lastHeartbeatTx = s.lastHeartbeatTx)
    (hinterval : s'.heartBeatIntervalNs = s.heartBeatIntervalNs)
    (hupdater : s'.retuning.updater = s.retuning.updater) : Frame s e s' :=
  ⟨htxers, hlast, .inl hinterval, fun _ _ h => .inl (hupdater ▸ h)⟩

theorem frame_of_rxStep {i : ι} (h : s.rxStep i = some s') : Frame s e s' := by
  revert h
  fun_cases State.rxStep s i
  all_goals intro h; cases h
  case case2 | case4 =>
    next event _ =>
    obtain ⟨q, hq⟩ := queueEvent_eq (s := s) event
    rw [hq]
    exact .of_eq rfl rfl rfl rfl
  all_goals exact .of_eq rfl rfl rfl rfl

omit [DecidableEq ι] in
theorem frame_of_pulseStep (h : s.pulseStep = some s') : Frame s e s' := by
  revert h
  fun_cases State.pulseStep s
  all_goals intro h; cases h
  all_goals exact .of_eq rfl rfl rfl rfl

/-- After its first step, `UpdateIntervals` has stored the send interval. -/
theorem Retuning.not_store_of_update {r r' : Retuning} (h : r.update = some r')
    (sendInterval checkInterval : Duration) : r'.updater ≠ .store sendInterval checkInterval := by
  revert h
  fun_cases Retuning.update r
  all_goals intro h; cases h
  all_goals intro h; cases h

/-- **Others touch neither `Tx` nor the time of the last heartbeat.** -/
theorem frame_of_step (h : step s e = some s') (htx : ∀ i m now, e ≠ .tx i m now)
    (htxStep : ∀ i, e ≠ .txStep i) : Frame s e s' := by
  cases e with
  | tx i m now => exact absurd rfl (htx i m now)
  | txStep i => exact absurd rfl (htxStep i)
  | rxStep i => exact frame_of_rxStep h
  | pulseStep => exact frame_of_pulseStep h
  | reconfig =>
    simp only [step] at h
    split at h <;> cases h
    next r _ hreceive =>
    refine .of_eq rfl rfl rfl ?_
    unfold Retuning.receive at hreceive
    split at hreceive <;> cases hreceive
    rfl
  | timer =>
    simp only [step] at h
    split at h <;> cases h
    next timers _ =>
    obtain ⟨q, hq⟩ := queueEvent_eq (s := { s with timers := timers }) .handleUnresponded
    rw [hq]
    exact .of_eq rfl rfl rfl rfl
  | updateIntervals sendInterval checkInterval =>
    simp only [step] at h
    split at h <;> cases h
    next r hrequest =>
    unfold Retuning.request at hrequest
    split at hrequest <;> cases hrequest
    refine ⟨rfl, rfl, .inl rfl, fun si ci hupdater => .inr ?_⟩
    cases hupdater
    rfl
  | updateStep =>
    simp only [step] at h
    split at h
    · next hstore hupdate =>
      cases h
      exact ⟨rfl, rfl, .inr ⟨_, hstore⟩, fun si ci h =>
        absurd h (Retuning.not_store_of_update hupdate si ci)⟩
    · next hupdate _ =>
      cases h
      exact ⟨rfl, rfl, .inl rfl, fun si ci h =>
        absurd h (Retuning.not_store_of_update hupdate si ci)⟩
    · cases h
  | rx i m | tick now | event =>
    simp only [step] at h
    split at h <;> cases h
    exact .of_eq rfl rfl rfl rfl
  | close =>
    cases h
    exact .of_eq rfl rfl rfl rfl

omit [DecidableEq ι] in
theorem Paced.frame (h : Paced least s stamped) (hframe : Frame s e s')
    (hrequest : ∀ sendInterval checkInterval, e = .updateIntervals sendInterval checkInterval →
      least ≤ sendInterval) : Paced least s' stamped := by
  refine ⟨?_, fun si ci hupdater => ?_, h.chain, ?_⟩
  · rcases hframe.interval with hinterval | ⟨ci, hupdater⟩
    · rw [hinterval]; exact h.interval
    · exact h.requested _ ci hupdater
  · rcases hframe.requested si ci hupdater with hupdater | he
    · exact h.requested si ci hupdater
    · exact hrequest si ci he
  · rw [hframe.txers, hframe.last]; exact h.txer

/-- The only `txer` goes on. -/
theorem Paced.goTo [Subsingleton ι] (h : Paced least s stamped) {i : ι} {pc : TxPc}
    (htxers : s'.txers = Function.update s.txers i pc)
    (hinterval : s'.heartBeatIntervalNs = s.heartBeatIntervalNs)
    (hretuning : s'.retuning = s.retuning) (hpc : PcPaced least s'.lastHeartbeatTx stamped pc) :
    Paced least s' stamped := by
  refine ⟨hinterval ▸ h.interval, hretuning ▸ h.requested, h.chain, fun j => ?_⟩
  rw [htxers, Subsingleton.elim j i, Function.update_self]
  exact hpc

theorem isChain_stamp {now : Int64} (h : (0 :: stamped).IsChain fun ts ts' => least < ts' - ts)
    (hnow : least < now - lastOf stamped) :
    (0 :: (stamped ++ [now])).IsChain fun ts ts' => least < ts' - ts := by
  rw [← List.cons_append, List.isChain_append]
  refine ⟨h, .singleton _, fun ts hts ts' hts' => ?_⟩
  cases hts'
  have hlast : ts = lastOf stamped := by
    rw [List.getLast?_cons, Option.mem_some] at hts
    rw [← hts, lastOf, List.getLastD_eq_getLast?]
  rw [hlast]
  exact hnow

theorem Paced.txStep [Subsingleton ι] {i : ι} (h : Paced least s stamped)
    (hstep : s.txStep i = some s') :
    Paced least s' (stamped ++ (stampedBy s (.txStep i)).toList) := by
  have hi := h.txer i
  have hqueue : ∀ event pc, PcPaced least s.lastHeartbeatTx stamped pc →
      Paced least ((s.queueEvent event).setTx i pc) stamped := by
    intro event pc hpc
    obtain ⟨q, hq⟩ := queueEvent_eq (s := s) event
    rw [hq]
    exact h.goTo (i := i) rfl rfl rfl hpc
  simp only [stampedBy]
  unfold State.txStep at hstep
  cases hpc : s.txers i with
  | idle | ret m => rw [hpc] at hstep; cases hstep
  | putHeartbeat m now =>
    rw [hpc] at hstep hi
    cases hstep
    have hlast : lastOf (stamped ++ [now]) = now := List.getLastD_concat ..
    refine ⟨h.interval, h.requested, isChain_stamp h.chain hi.2, fun j => ?_⟩
    rw [Subsingleton.elim j i, show (s.setTx i _).txers i = _ from Function.update_self ..]
    exact hlast
  | loadLast m now =>
    rw [hpc] at hstep hi
    cases hstep
    rw [Option.toList_none, List.append_nil]
    exact h.goTo (i := i) rfl rfl rfl ⟨hi, hi⟩
  | loadInterval m now last =>
    rw [hpc] at hstep hi
    rw [Option.toList_none, List.append_nil]
    dsimp only at hstep
    split at hstep
    · next hdue =>
      cases hstep
      refine h.goTo (i := i) rfl rfl rfl ⟨hi.1, ?_⟩
      rw [← hi.2]
      exact Int64.lt_of_le_of_lt h.interval hdue
    · cases hstep
      exact h.goTo (i := i) rfl rfl rfl hi.1
  | storeLast m now =>
    rw [hpc] at hstep hi
    cases hstep
    rw [Option.toList_none, List.append_nil]
    exact h.goTo (i := i) rfl rfl rfl (Eq.symm hi)
  | queueTx m now | queueRespTx m now =>
    rw [hpc] at hstep hi
    cases hstep
    rw [Option.toList_none, List.append_nil]
    exact hqueue _ _ hi
  | loadUnresponded m now =>
    rw [hpc] at hstep hi
    rw [Option.toList_none, List.append_nil]
    dsimp only at hstep
    split at hstep <;> cases hstep <;> exact h.goTo (i := i) rfl rfl rfl hi
  | putResponse m now ts | storeUnresponded m now ts =>
    rw [hpc] at hstep hi
    cases hstep
    rw [Option.toList_none, List.append_nil]
    exact h.goTo (i := i) rfl rfl rfl hi

theorem Paced.tx [Subsingleton ι] {i : ι} {m : Message} {now : Int64} (h : Paced least s stamped)
    (hstep : step s (.tx i m now) = some s') : Paced least s' stamped := by
  have hi := h.txer i
  simp only [step] at hstep
  split at hstep
  · next hpc =>
    rw [hpc] at hi
    split at hstep <;> cases hstep <;> exact h.goTo (i := i) rfl rfl rfl hi
  · next hpc =>
    rw [hpc] at hi
    split at hstep <;> cases hstep <;> exact h.goTo (i := i) rfl rfl rfl hi
  · cases hstep

theorem Paced.step [Subsingleton ι] (h : Paced least s stamped)
    (hrequest : ∀ sendInterval checkInterval, e = .updateIntervals sendInterval checkInterval →
      least ≤ sendInterval) (hstep : Heartbeater.step s e = some s') :
    Paced least s' (stamped ++ (stampedBy s e).toList) := by
  cases e with
  | txStep i => exact h.txStep hstep
  | tx i m now =>
    show Paced least s' (stamped ++ [])
    rw [List.append_nil]
    exact h.tx hstep
  | _ =>
    show Paced least s' (stamped ++ [])
    rw [List.append_nil]
    exact h.frame (frame_of_step hstep (by simp) (by simp)) hrequest

end

/-- **With one `txer`, heartbeats keep their distance.**  As long as the send interval is never made
shorter than some duration, any two heartbeats in a row are further apart than it, and the first is
further from zero; the difference is that of 64-bit integers.  Several `txer`s may load the time of
the last heartbeat before one of them stores a new one. -/
theorem heartbeat_spacing [Subsingleton ι] (interval : Bool → Duration × Duration) (b : Bool)
    (least : Duration) (hleast : least ≤ (interval b).1) (p : Peers ι)
    (hp : (peers ι interval).Reachable (AtLeast b least) p) :
    (0 :: p.stamped b).IsChain fun ts ts' => least < ts' - ts := by
  have hpaced : Paced least (p.side b) (p.stamped b) := by
    refine hp.invariant (P := fun p => Paced least (p.side b) (p.stamped b)) ?_ ?_
    · exact ⟨hleast, fun _ _ h => (by cases h), .singleton _, fun _ => rfl⟩
    intro p e p' ih hok hstep
    obtain ⟨c, e⟩ := e
    obtain ⟨-, s', hs', rfl⟩ := Peers.step_eq hstep
    rcases eq_or_ne b c with rfl | hc
    · have hstamped : (p.record b e s').stamped b =
          p.stamped b ++ (stampedBy (p.side b) e).toList := Function.update_self ..
      have hside : (p.record b e s').side b = s' := Function.update_self ..
      rw [hstamped, hside]
      refine ih.step (fun sendInterval checkInterval he => ?_) hs'
      subst he
      exact hok rfl
    · rw [show (p.record c e s').side b = p.side b from Function.update_of_ne hc _ _,
        show (p.record c e s').stamped b = p.stamped b from Function.update_of_ne hc _ _]
      exact ih
  exact hpaced.chain

instance (b : Bool) (least : Duration) (p : Peers ι) : DecidablePred (AtLeast b least p) :=
  fun e => by
    unfold AtLeast
    split <;> infer_instance

/-- Three messages. -/
def threeMessages : List (Bool × Event Unit) :=
  steps false [calls (newMessage 2 []) 20 6, calls (newMessage 2 []) 25 3,
    calls (newMessage 2 []) 40 6].flatten

/-- Two heartbeats, and a message between them that gets none. -/
theorem heartbeat_spacing_two :
    ∃ p, (peers Unit fun _ => (10, 1)).Reachable (AtLeast false 10) p ∧
      p.stamped false = [20, 40] ∧
      (0 :: p.stamped false).IsChain fun ts ts' => (10 : Int64) < ts' - ts := by
  obtain ⟨p, hp, hstamped⟩ := System.reachable_of_replay (peers Unit fun _ => (10, 1))
    (AtLeast false 10) threeMessages
    (fun p => decide (p.stamped false = [20, 40])) (by decide +kernel)
  exact ⟨p, hp, of_decide_eq_true hstamped, heartbeat_spacing _ false 10 (by decide) p hp⟩

end ZitiChannel.Heartbeater
