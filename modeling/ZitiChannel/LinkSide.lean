import ZitiChannel.CutFrames
import ZitiChannel.EnvelopeWait
import ZitiChannel.Handshake
import ZitiChannel.Lib.Keyed

/-!
# One end of a channel

What the traffic of a channel puts on its connections, and what it does with what it reads from
them.  `multiplex` says that a write returns; here a write takes time.  While a `txer` is in
`underlay.Tx`, the bytes of the frame go out in pieces.  If `Tx` returns without an error, all of
them are out, and if it returns an error, some are missing: this is what is asked of a connection,
and it is what the connections of `classicImpl` give.

A log is kept of what entered the queues, what `txer`s took out of them, which frames are complete
on which connection, and what was read and delivered.

## Main definitions

* `LinkSetup` — the traffic together with the messages.
* `Side`, `side` — the traffic with its log and its connections, as a transition system.

## Main results

* `moves_step` — what an action is for one `txer`.
* `entered_eq` — a queue is first in, first out.
* `wire_order` — what came out of a queue by one connection is there in the order of the queue.

The sources are `impl.go`, `senders.go`, `message_source.go` and `classic_impl.go`.
-/

namespace ZitiChannel

open Transition ByteStream

/-! ### Messages and frames -/

/-- The traffic of a channel together with the messages.  A header order is chosen whenever a
message is marshalled, which a `txer` does at most once for each message it takes; the sequence
number is the one that the sender gave. -/
structure LinkSetup extends MuxSetup where
  message : ℕ → Message
  /-- The order in which `txer` `t` ranges over the headers of a message. -/
  order (x t : ℕ) : Ranging.Order (message x).putReplyFor.headers
  fits : ∀ x t, (Outgoing.mk (message x) (order x t)).dataLen ≤ maxInt32
  sequence : ∀ x, (message x).sequence = toMuxSetup.seq x

namespace LinkSetup

variable (setup : LinkSetup)

def outgoing (x t : ℕ) : Outgoing := ⟨setup.message x, setup.order x t⟩

def frame (x t : ℕ) : Bytes := (setup.outgoing x t).frame

/-- The message that the other end reads. -/
def arrived (x : ℕ) : Message := (setup.message x).arrived

end LinkSetup

/-- A sendable in the hands of a `txer`, and the queue it came from. -/
structure Carried where
  txer : ℕ
  queue : ℕ
  sendable : ℕ
  deriving DecidableEq

/-- One end of a channel. -/
structure Side where
  mux : Multiplex
  /-- What entered which queue. -/
  entered : List (ℕ × ℕ)
  /-- What the `txer`s took. -/
  taken : List Carried
  /-- The frames that are complete on a connection. -/
  wire : List Carried
  /-- How much of the frame that a `txer` is writing is out. -/
  progress : ℕ → ℕ
  /-- The bytes on each connection. -/
  sent : ℕ → Bytes
  /-- What each `rxer` read. -/
  reads : List (ℕ × Message)
  /-- What each `rxer` delivered. -/
  delivered : List (ℕ × Message)

/-- The queue that a requeue tries next. -/
def TxPc.retryQueue : TxPc → ℕ
  | .retry _ (q :: _) _ => q
  | _ => 0

/-- The sendable that a `txer` has yet to write. -/
def TxPc.early : TxPc → Option ℕ
  | .check x | .addWaiter x | .setWriteTimeout x | .write x => some x
  | _ => none

/-- The message that an `rxer` gets by an action. -/
def RxAction.message : RxAction → Option Message
  | .read m => some m
  | _ => none

/-- What a step of a `txer` puts into queues. -/
def TxEffect.enters (before : TxPc) : TxEffect → List (ℕ × ℕ)
  | .requeue q x _ => [(q, x)]
  | .hand _ x => [(before.retryQueue, x)]
  | _ => []

/-- What a step of `txer` `t` takes out of queues. -/
def TxEffect.takes (t : ℕ) (before : TxPc) : TxEffect → List Carried
  | .take q x _ => [⟨t, q, x⟩]
  | .hand t' x => [⟨t', before.retryQueue, x⟩]
  | _ => []

namespace Side

/-- What can happen. -/
inductive Event
  | mux (act : Multiplex.Action)
  /-- `n` more bytes of the frame that `txer` `t` writes go out. -/
  | emit (t n : ℕ)

section

variable (setup : LinkSetup) (s : Side)

/-- What an action puts into queues.  A sendable that is handed to a waiting `txer` passes through
the queue. -/
def enters : Multiplex.Action → List (ℕ × ℕ)
  | .send x q | .sendTo x q _ => [(q, x)]
  | .tx t a =>
      match txNext setup.toMuxSetup s.mux.tx t (s.mux.tx.txers t) a with
      | some (_, e) => e.enters (s.mux.tx.txers t)
      | none => []
  | _ => []

/-- What an action takes out of queues. -/
def takes : Multiplex.Action → List Carried
  | .sendTo x q t => [⟨t, q, x⟩]
  | .tx t a =>
      match txNext setup.toMuxSetup s.mux.tx t (s.mux.tx.txers t) a with
      | some (_, e) => e.takes t (s.mux.tx.txers t)
      | none => []
  | _ => []

/-- A write that succeeds has put out the whole frame, and one that fails has not. -/
def returns : Multiplex.Action → Bool
  | .tx t (.underlay err) =>
      match s.mux.tx.txers t with
      | .write x =>
          if err.isSome then decide (s.progress t < (setup.frame x t).length)
          else decide ((setup.frame x t).length ≤ s.progress t)
      | _ => true
  | _ => true

/-- The next frame starts at its first byte. -/
def progressAfter : Multiplex.Action → ℕ → ℕ
  | .tx t (.underlay none) => Function.update s.progress t 0
  | _ => s.progress

/-- What an action reads. -/
def readBy : Multiplex.Action → List (ℕ × Message)
  | .rx r a => a.message.toList.map fun m => (r, m)
  | _ => []

/-- What an action delivers, if it leads to `mux`. -/
def deliveredBy (mux : Multiplex) : Multiplex.Action → List (ℕ × Message)
  | .rx r _ =>
      (mux.rx.deliveries.drop s.mux.rx.deliveries.length).map fun d => (r, d.message)
  | _ => []

/-- The log after an action that leads to `mux`. -/
def note (act : Multiplex.Action) (mux : Multiplex) : Side :=
  { s with
    mux := mux
    entered := s.entered ++ s.enters setup act
    taken := s.taken ++ s.takes setup act
    progress := s.progressAfter act
    reads := s.reads ++ readBy act
    delivered := s.delivered ++ s.deliveredBy mux act }

/-- What a `txer` took, in order. -/
def takenBy (t : ℕ) : List Carried := s.taken.filter fun c => decide (c.txer = t)

/-- What is complete on a connection, in order. -/
def wireBy (t : ℕ) : List Carried := s.wire.filter fun c => decide (c.txer = t)

/-- What was taken out of a queue, in order. -/
def takenFrom (q : ℕ) : List ℕ := (s.taken.map fun c => (c.queue, c.sendable)).keyed q

/-- More of a frame goes out. -/
def put (t n : ℕ) (frame : Bytes) : Side :=
  { s with
    progress := Function.update s.progress t (s.progress t + n)
    sent := Function.update s.sent t (s.sent t ++ slice frame (s.progress t) (s.progress t + n)) }

/-- The last bytes of a frame go out. -/
def complete (t n : ℕ) (frame : Bytes) (c : Carried) : Side :=
  { s.put t n frame with wire := s.wire ++ [c] }

def step : Event → Option Side
  | .mux act =>
      if s.returns setup act then
        (s.mux.step setup.toMuxSetup act).map (s.note setup act)
      else none
  | .emit t n =>
      match s.mux.tx.txers t with
      | .write x =>
          let frame := setup.frame x t
          if 0 < n ∧ s.progress t + n < frame.length then some (s.put t n frame)
          else if 0 < n ∧ s.progress t + n = frame.length then
            -- the frame is complete: it is that of the last sendable this `txer` took
            (s.takenBy t).getLast?.map (s.complete t n frame)
          else none
      | _ => none

end

end Side

/-- One end of a channel as a transition system. -/
def side (setup : LinkSetup) : System Side Side.Event where
  init := ⟨(multiplex setup.toMuxSetup).init, [], [], [], fun _ => 0, fun _ => [], [], []⟩
  step := Side.step setup

namespace Side

variable {setup : LinkSetup} {s s' : Side}

@[simp] theorem put_progress (t n : ℕ) (frame : Bytes) :
    (s.put t n frame).progress t = s.progress t + n :=
  Function.update_self ..

@[simp] theorem complete_progress (t n : ℕ) (frame : Bytes) (c : Carried) :
    (s.complete t n frame c).progress t = s.progress t + n :=
  Function.update_self ..

/-! ### What a step does -/

/-- What a step can be: an action of the traffic, a piece of a frame, or its last piece. -/
theorem step_cases {e : Event} {P : Side → Prop} (h : (side setup).step s e = some s')
    (mux : ∀ act mux, e = .mux act → s.returns setup act = true →
      s.mux.step setup.toMuxSetup act = some mux → P (s.note setup act mux))
    (piece : ∀ t n x, s.mux.tx.txers t = .write x → 0 < n →
      s.progress t + n < (setup.frame x t).length → P (s.put t n (setup.frame x t)))
    (complete : ∀ t n x c, s.mux.tx.txers t = .write x → 0 < n →
      s.progress t + n = (setup.frame x t).length → (s.takenBy t).getLast? = some c →
      P (s.complete t n (setup.frame x t) c)) : P s' := by
  cases e with
  | mux act =>
    simp only [side, step] at h
    split at h
    · next hret =>
      obtain ⟨mux', hmux, rfl⟩ := Option.map_eq_some_iff.mp h
      exact mux act mux' rfl hret hmux
    · cases h
  | emit t n =>
    simp only [side, step] at h
    split at h
    · next x hpc =>
      split at h
      · next hn => cases h; exact piece t n x hpc hn.1 hn.2
      · split at h
        · next hn =>
          obtain ⟨c, hc, rfl⟩ := Option.map_eq_some_iff.mp h
          exact complete t n x c hpc hn.1 hn.2 hc
        · cases h
    · cases h

/-- **The traffic of a side is that of `multiplex`.** -/
theorem refines_multiplex (setup : LinkSetup) :
    (side setup).Refines System.anyEvent (multiplex setup.toMuxSetup) System.anyEvent Side.mux where
  init := rfl
  step s e s' _ _ h := by
    refine step_cases (P := fun s' =>
      (multiplex setup.toMuxSetup).Steps System.anyEvent s.mux s'.mux) h ?_ ?_ ?_
    · intro act mux _ _ hmux; exact System.Steps.single (e := act) trivial hmux
    · intro t n x _ _ _; exact System.Steps.stutter _
    · intro t n x c _ _ _ _; exact System.Steps.stutter _

/-! ### Queues are first in, first out -/

/-- A sendable is handed over only through an empty queue. -/
theorem txNext_hand {st : TxState} {t t' x : ℕ} {pc pc' : TxPc} {a : TxAction}
    (h : txNext setup.toMuxSetup st t pc a = some (pc', .hand t' x)) :
    st.Parked setup.toMuxSetup t' pc.retryQueue := by
  revert h
  generalize he : TxEffect.hand t' x = e
  fun_cases txNext setup.toMuxSetup st t pc a
  all_goals intro h; cases h
  all_goals cases he
  assumption

theorem parked_of_sendTo {mux mux' : Multiplex} {x q t : ℕ}
    (h : mux.step setup.toMuxSetup (.sendTo x q t) = some mux') :
    mux.tx.Parked setup.toMuxSetup t q := by
  simp only [Multiplex.step] at h
  split at h
  · next hcond => exact hcond.2
  · cases h

theorem queues_apply (st : TxState) (t q : ℕ) (pc : TxPc) (e : TxEffect) :
    ((st.setTxer t pc).apply e).queues q =
      match e with
      | .take q' _ queue | .requeue q' _ queue => if q = q' then queue else st.queues q
      | _ => st.queues q := by
  cases e with
  | take q' x queue | requeue q' x queue =>
    rcases eq_or_ne q q' with rfl | hq
    · simp [TxState.apply, TxState.setQueue]
    · simp [TxState.apply, TxState.setQueue, TxState.setTxer, hq]
  | _ => rfl

/-- **What is taken and what is left is what was there and what is added.** -/
theorem queue_step {act : Multiplex.Action} {mux : Multiplex}
    (h : s.mux.step setup.toMuxSetup act = some mux) (q : ℕ) :
    ((s.takes setup act).map fun c => (c.queue, c.sendable)).keyed q ++ (mux.tx.queues q).items =
      (s.mux.tx.queues q).items ++ (s.enters setup act).keyed q := by
  refine Multiplex.step_cases (P := fun mux =>
    ((s.takes setup act).map fun c => (c.queue, c.sendable)).keyed q ++ (mux.tx.queues q).items =
      (s.mux.tx.queues q).items ++ (s.enters setup act).keyed q) h ?_ ?_ ?_ ?_ ?_ ?_ ?_ ?_
  · intro x q' queue hact _ hpush
    subst hact
    obtain ⟨-, -, hitems⟩ := Queue.push?_eq_some hpush
    rcases eq_or_ne q q' with rfl | hq
    · simp [takes, enters, TxState.setQueue, hitems]
    · simp [takes, enters, TxState.setQueue, hq, hq.symm]
  · intro x q' t hact _ _
    subst hact
    -- the queue is empty, so what passes through it overtakes nothing
    obtain ⟨-, -, hempty⟩ := parked_of_sendTo h
    rcases eq_or_ne q q' with rfl | hq
    · simp [takes, enters, TxState.setTxer, hempty]
    · simp [takes, enters, TxState.setTxer, hq.symm]
  · intro x err hact; subst hact; simp [takes, enters]
  · intro t a pc e hact hnext
    subst hact
    have hmoves := txNext_moves hnext
    simp only [takes, enters, hnext, queues_apply]
    cases e with
    | take q' x rest =>
      obtain ⟨-, -, hpop⟩ := hmoves
      obtain ⟨-, hitems⟩ := Queue.pop?_eq_some hpop
      rcases eq_or_ne q q' with rfl | hq
      · simp [TxEffect.takes, TxEffect.enters, hitems]
      · simp [TxEffect.takes, TxEffect.enters, hq, hq.symm]
    | requeue q' x queue =>
      obtain ⟨-, -, hpush⟩ := hmoves
      obtain ⟨-, -, hitems⟩ := Queue.push?_eq_some hpush
      rcases eq_or_ne q q' with rfl | hq
      · simp [TxEffect.takes, TxEffect.enters, hitems]
      · simp [TxEffect.takes, TxEffect.enters, hq, hq.symm]
    | hand t' x =>
      obtain ⟨-, -, hempty⟩ := txNext_hand hnext
      rcases eq_or_ne q (s.mux.tx.txers t).retryQueue with rfl | hq
      · simp [TxEffect.takes, TxEffect.enters, hempty]
      · simp [TxEffect.takes, TxEffect.enters, hq.symm]
    | _ => simp [TxEffect.takes, TxEffect.enters]
  · intro r a rx hact _; subst hact; simp [takes, enters]
  · intro ms hact; subst hact; simp [takes, enters]
  · intro hact; subst hact; simp [takes, enters]
  · intro hact _; subst hact; simp [takes, enters]

/-- **A queue is first in, first out**: what entered it is what was taken out of it followed by
what is in it. -/
theorem entered_eq (hs : (side setup).Reachable System.anyEvent s) (q : ℕ) :
    s.entered.keyed q = s.takenFrom q ++ (s.mux.tx.queues q).items := by
  refine hs.invariant (P := fun s => s.entered.keyed q =
    s.takenFrom q ++ (s.mux.tx.queues q).items) rfl ?_
  intro s e s' ih _ hstep
  refine step_cases (P := fun s' => s'.entered.keyed q =
    s'.takenFrom q ++ (s'.mux.tx.queues q).items) hstep ?_ ?_ ?_
  · intro act mux _ _ hmux
    have hqueue := queue_step hmux q
    simp only [note, takenFrom, List.map_append, List.keyed_append, List.append_assoc, hqueue]
    rw [ih, takenFrom, List.append_assoc]
  · intro t n x _ _ _; exact ih
  · intro t n x c _ _ _ _; exact ih

/-! ### Connections keep the order of their `txer` -/

/-- The sendable that a `txer` has yet to put on its connection. -/
def ahead (setup : LinkSetup) (s : Side) (t : ℕ) : Option ℕ :=
  match s.mux.tx.txers t with
  | .write x => if s.progress t < (setup.frame x t).length then some x else none
  | pc => pc.early

theorem ahead_of_write {t x : ℕ} (h : s.mux.tx.txers t = .write x) :
    s.ahead setup t = if s.progress t < (setup.frame x t).length then some x else none := by
  rw [ahead, h]

theorem ahead_of_not_write {t : ℕ} (h : ∀ x, s.mux.tx.txers t ≠ .write x) :
    s.ahead setup t = (s.mux.tx.txers t).early := by
  unfold ahead
  split
  · next x hx => exact absurd hx (h x)
  · rfl

/-- Whatever a `txer` is about to put on its connection, it has yet to write. -/
theorem ahead_eq_none_of_early {t : ℕ} (h : (s.mux.tx.txers t).early = none) :
    s.ahead setup t = none := by
  rw [ahead_of_not_write, h]
  intro x hx
  rw [hx] at h
  cases h

/-- Where the `txer`s are after one of them moved. -/
theorem txers_apply_eq (st : TxState) (t t' : ℕ) (pc : TxPc) (e : TxEffect) :
    ((st.setTxer t pc).apply e).txers t' =
      match e with
      | .hand u x => if t' = u then .check x else if t' = t then pc else st.txers t'
      | _ => if t' = t then pc else st.txers t' := by
  cases e with
  | hand u x =>
    simp only [TxState.apply, TxState.setTxer, Function.update_apply]
  | take q x queue | requeue q x queue =>
    simp only [TxState.apply, TxState.setQueue, TxState.setTxer, Function.update_apply]
  | _ => simp only [TxState.apply, TxState.notify, TxState.setTxer, Function.update_apply]

theorem ahead_congr {t : ℕ} (hpc : s'.mux.tx.txers t = s.mux.tx.txers t)
    (hprogress : s'.progress t = s.progress t) : s'.ahead setup t = s.ahead setup t := by
  rw [ahead, ahead, hpc, hprogress]

theorem progressAfter_of_ne {t u : ℕ} (a : TxAction) (h : t ≠ u) :
    s.progressAfter (.tx u a) t = s.progress t := by
  cases a with
  | underlay err =>
    cases err with
    | none => exact Function.update_of_ne h _ _
    | some err => rfl
  | _ => rfl

/-- What an action takes for one `txer`. -/
def takesBy (setup : LinkSetup) (s : Side) (act : Multiplex.Action) (t : ℕ) : List Carried :=
  (s.takes setup act).filter fun c => decide (c.txer = t)

/-- What an action that leads to `mux` is for `txer` `t`. -/
inductive Moves (setup : LinkSetup) (s : Side) (act : Multiplex.Action) (mux : Multiplex) (t : ℕ) :
    Prop
  /-- It has nothing to do with it. -/
  | still (htakes : s.takesBy setup act t = []) (hpc : mux.tx.txers t = s.mux.tx.txers t)
      (hprogress : s.progressAfter act t = s.progress t)
  /-- It waits for a sendable, and gets one. -/
  | takes (c : Carried) (htakes : s.takesBy setup act t = [c])
      (hidle : s.mux.tx.txers t = .source) (hpc : mux.tx.txers t = .check c.sendable)
      (hprogress : s.progressAfter act t = s.progress t)
  /-- It goes on. -/
  | goes (a : TxAction) (pc : TxPc) (e : TxEffect) (hact : act = .tx t a)
      (hnext : txNext setup.toMuxSetup s.mux.tx t (s.mux.tx.txers t) a = some (pc, e))
      (htake : ∀ q x rest, e ≠ .take q x rest) (htakes : s.takesBy setup act t = [])
      (hpc : mux.tx.txers t = pc)

theorem txNext_take {st : TxState} {t q x : ℕ} {pc pc' : TxPc} {a : TxAction} {rest : Queue ℕ}
    (h : txNext setup.toMuxSetup st t pc a = some (pc', .take q x rest)) :
    pc = .source ∧ pc' = .check x ∧ a = .take q := by
  revert h
  generalize he : TxEffect.take q x rest = e
  fun_cases txNext setup.toMuxSetup st t pc a
  all_goals intro h; cases h
  all_goals cases he
  exact ⟨rfl, rfl, rfl⟩

/-- **Every action is one of these for every `txer`.** -/
theorem moves_step {act : Multiplex.Action} {mux : Multiplex}
    (h : s.mux.step setup.toMuxSetup act = some mux) (t : ℕ) : Moves setup s act mux t := by
  refine Multiplex.step_cases (P := fun mux => Moves setup s act mux t) h ?_ ?_ ?_ ?_ ?_ ?_ ?_ ?_
  · intro x q queue hact _ _; subst hact; exact .still rfl rfl rfl
  · intro x q u hact _ hsource
    subst hact
    rcases eq_or_ne t u with rfl | htu
    · exact .takes ⟨t, q, x⟩ (by simp [takesBy, Side.takes]) hsource (by simp [TxState.setTxer]) rfl
    · exact .still (by simp [takesBy, Side.takes, htu.symm]) (by simp [TxState.setTxer, htu]) rfl
  · intro x err hact; subst hact; exact .still rfl rfl rfl
  · intro u a pc e hact hnext
    subst hact
    have htakes : s.takesBy setup (.tx u a) t =
        (e.takes u (s.mux.tx.txers u)).filter fun c => decide (c.txer = t) := by
      simp only [takesBy, Side.takes, hnext]
    have hpc := txers_apply_eq s.mux.tx u t pc e
    rcases eq_or_ne t u with rfl | htu
    · cases e with
      | take q x rest =>
        obtain ⟨hsource, rfl, rfl⟩ := txNext_take hnext
        exact .takes ⟨t, q, x⟩ (by rw [htakes]; simp [TxEffect.takes]) hsource
          (hpc.trans (if_pos rfl)) rfl
      | hand t' x =>
        -- the one who gives is not the one who waits
        have hne : t ≠ t' := by
          rintro rfl
          obtain ⟨hx, -, hsource⟩ := txNext_moves hnext
          rw [hsource] at hx
          cases hx
        refine .goes a pc _ rfl hnext (fun _ _ _ h => by cases h) ?_ ?_
        · rw [htakes]; simp [TxEffect.takes, hne.symm]
        · exact hpc.trans ((if_neg hne).trans (if_pos rfl))
      | _ =>
        exact .goes a pc _ rfl hnext (fun _ _ _ h => by cases h) htakes (hpc.trans (if_pos rfl))
    · cases e with
      | hand t' x =>
        obtain ⟨hsource, -⟩ := txNext_hand hnext
        rcases eq_or_ne t t' with rfl | ht
        · exact .takes ⟨t, (s.mux.tx.txers u).retryQueue, x⟩
            (by rw [htakes]; simp [TxEffect.takes]) hsource
            (hpc.trans (if_pos rfl)) (progressAfter_of_ne a htu)
        · exact .still (by rw [htakes]; simp [TxEffect.takes, ht.symm])
            (hpc.trans ((if_neg ht).trans (if_neg htu))) (progressAfter_of_ne a htu)
      | take q x rest =>
        exact .still (by rw [htakes]; simp [TxEffect.takes, htu.symm]) (hpc.trans (if_neg htu))
          (progressAfter_of_ne a htu)
      | _ => exact .still htakes (hpc.trans (if_neg htu)) (progressAfter_of_ne a htu)
  · intro r a rx hact _; subst hact; exact .still rfl rfl rfl
  · intro ms hact; subst hact; exact .still rfl rfl rfl
  · intro hact; subst hact; exact .still rfl rfl rfl
  · intro hact _; subst hact; exact .still rfl rfl rfl

/-- A `txer` that goes on keeps what it has yet to write, until it is done with writing. -/
theorem txNext_early {st : TxState} {t : ℕ} {pc pc' : TxPc} {a : TxAction} {e : TxEffect}
    (h : txNext setup.toMuxSetup st t pc a = some (pc', e))
    (htake : ∀ q x rest, e ≠ .take q x rest) :
    pc'.early = none ∨ (pc'.early = pc.early ∧ ∀ x, pc ≠ .write x) := by
  revert h htake
  fun_cases txNext setup.toMuxSetup st t pc a
  all_goals intro h; cases h
  all_goals simp [TxPc.early]

/-- A `txer` takes nothing and goes on with what it has, or it takes one sendable. -/
theorem ahead_step {act : Multiplex.Action} {mux : Multiplex}
    (h : s.mux.step setup.toMuxSetup act = some mux) (t : ℕ) :
    (s.takesBy setup act t = [] ∧ ((s.note setup act mux).ahead setup t = s.ahead setup t ∨
      (s.note setup act mux).ahead setup t = none)) ∨
    ∃ c, s.takesBy setup act t = [c] ∧ (s.note setup act mux).ahead setup t = some c.sendable := by
  cases moves_step h t with
  | still htakes hpc hprogress => exact .inl ⟨htakes, .inl (ahead_congr hpc hprogress)⟩
  | takes c htakes _ hpc _ =>
    refine .inr ⟨c, htakes, ?_⟩
    rw [ahead, show (s.note setup act mux).mux.tx.txers t = .check c.sendable from hpc]
    rfl
  | goes a pc e _ hnext htake htakes hpc =>
    refine .inl ⟨htakes, ?_⟩
    have hpc : (s.note setup act mux).mux.tx.txers t = pc := hpc
    rcases txNext_early hnext htake with hnone | ⟨hsame, hwrite⟩
    · exact .inr (ahead_eq_none_of_early ((congrArg TxPc.early hpc).trans hnone))
    · rw [ahead_of_not_write hwrite, ← hsame]
      by_cases hw : ∃ x, pc = .write x
      · obtain ⟨x, rfl⟩ := hw
        rw [ahead_of_write hpc]
        split
        · exact .inl rfl
        · exact .inr rfl
      · refine .inl ?_
        rw [ahead_of_not_write fun x hx => hw ⟨x, hpc.symm.trans hx⟩]
        exact congrArg TxPc.early hpc

/-- What is on a connection comes before what its `txer` has yet to put there. -/
def Behind (setup : LinkSetup) (s : Side) (t : ℕ) : Prop :=
  match s.ahead setup t with
  | none => (s.wireBy t).Sublist (s.takenBy t)
  | some x => ∃ rest c, s.takenBy t = rest ++ [c] ∧ c.sendable = x ∧ (s.wireBy t).Sublist rest

theorem Behind.sublist {t : ℕ} (h : Behind setup s t) : (s.wireBy t).Sublist (s.takenBy t) := by
  unfold Behind at h
  split at h
  · exact h
  · obtain ⟨rest, c, htaken, -, hsub⟩ := h
    rw [htaken]
    exact hsub.trans (List.sublist_append_left rest [c])

theorem takenBy_note (act : Multiplex.Action) (mux : Multiplex) (t : ℕ) :
    (s.note setup act mux).takenBy t = s.takenBy t ++ s.takesBy setup act t :=
  List.filter_append ..

theorem behind (hs : (side setup).Reachable System.anyEvent s) (t : ℕ) : Behind setup s t := by
  refine hs.invariant (P := fun s => Behind setup s t) ?_ ?_
  · exact List.Sublist.refl []
  intro s e s' ih _ hstep
  refine step_cases (P := fun s' => Behind setup s' t) hstep ?_ ?_ ?_
  · intro act mux _ _ hmux
    have hwire : (s.note setup act mux).wireBy t = s.wireBy t := rfl
    rcases ahead_step hmux t with ⟨htakes, hahead | hahead⟩ | ⟨c, htakes, hahead⟩
    · rw [Behind, hahead, takenBy_note, htakes, List.append_nil, hwire]
      exact ih
    · rw [Behind, hahead, takenBy_note, htakes, List.append_nil, hwire]
      exact ih.sublist
    · rw [Behind, hahead, takenBy_note, htakes, hwire]
      exact ⟨s.takenBy t, c, rfl, rfl, ih.sublist⟩
  · intro u n x hpc _ hlt
    have hahead : (s.put u n (setup.frame x u)).ahead setup t = s.ahead setup t := by
      rcases eq_or_ne t u with rfl | htu
      · have hpc' : (s.put t n (setup.frame x t)).mux.tx.txers t = .write x := hpc
        rw [ahead_of_write hpc, ahead_of_write hpc', put_progress, if_pos hlt, if_pos (by omega)]
      · exact ahead_congr rfl (Function.update_of_ne htu _ _)
    rw [Behind, hahead]
    exact ih
  · intro u n x c hpc hn heq hlast
    have hcu : c.txer = u := by
      have hmem := List.mem_of_getLast? hlast
      simpa [takenBy] using (List.mem_filter.mp hmem).2
    rcases eq_or_ne t u with rfl | htu
    · -- the frame that is complete is that of the last sendable taken
      have hbefore : s.ahead setup t = some x := by rw [ahead_of_write hpc, if_pos (by omega)]
      rw [Behind, hbefore] at ih
      obtain ⟨rest, c', htaken, -, hsub⟩ := ih
      have hcc : c' = c := by simpa [htaken] using hlast
      have hpc' : (s.complete t n (setup.frame x t) c).mux.tx.txers t = .write x := hpc
      have hafter : (s.complete t n (setup.frame x t) c).ahead setup t = none := by
        rw [ahead_of_write hpc', complete_progress, if_neg (by omega)]
      rw [Behind, hafter]
      show ((s.wire ++ [c]).filter _).Sublist (s.takenBy t)
      rw [List.filter_append, htaken, hcc]
      exact hsub.append (by simp [hcu])
    · have hahead : (s.complete u n (setup.frame x u) c).ahead setup t = s.ahead setup t :=
        ahead_congr rfl (Function.update_of_ne htu _ _)
      have hwire : (s.complete u n (setup.frame x u) c).wireBy t = s.wireBy t := by
        simp [wireBy, complete, hcu, htu.symm]
      rw [Behind, hahead, hwire]
      exact ih

/-- **A connection carries messages in the order in which its `txer` took them.** -/
theorem wireBy_sublist (hs : (side setup).Reachable System.anyEvent s) (t : ℕ) :
    (s.wireBy t).Sublist (s.takenBy t) :=
  (behind hs t).sublist

/-- What came out of a queue by one connection is on that connection in the order in which it
entered the queue. -/
theorem wire_order (hs : (side setup).Reachable System.anyEvent s) (t q : ℕ) :
    (((s.wireBy t).filter fun c => decide (c.queue = q)).map Carried.sendable).Sublist
      (s.entered.keyed q) := by
  have htaken : (s.wireBy t).Sublist s.taken := (wireBy_sublist hs t).trans List.filter_sublist
  have hqueue := (htaken.filter fun c => decide (c.queue = q)).map Carried.sendable
  rw [entered_eq hs q, takenFrom, List.keyed_map]
  exact hqueue.trans (List.sublist_append_left _ _)

end Side

end ZitiChannel
