import ZitiChannel.Link
import ZitiChannel.Lib.Measure

/-!
# A link empties itself

`Link` says what two ends of a channel never do: deliver out of order, twice, or what was never
sent.  All of this holds of a channel that never delivers anything.  Here is the other half.  Leave
an end to itself, with nothing new to send and connections that do not fail any more: it takes what
is in its queues, writes it, tries again what had failed before, and the other end reads and
delivers it.  Every such step lowers a number, so this comes to an end, after however many steps in
whatever order; and at the end nothing is under way.  What was accepted then is on the wire, or its
listener knows of an error, or it is in a queue that no living connection takes from.  And what is
on the wire has been delivered, as far as the other end still reads from the connection: an `rxer`
may stop at any time, with the connection or with its end of the channel, and what it leaves unread
is lost.

## Main definitions

* `LinkSetup.Below` — how many connections and queues there are.
* `Link.quiet` — nothing new to send, and no write fails.
* `Link.own` — the steps that bring a message further.
* `Link.pending` — the number.

## Main results

* `pending_step` — every such step lowers it, and nothing raises it.
* `idle_of_stuck` — where no such step can be done, nothing is under way.
* `link_drains` — **a link that is left to itself delivers what it has accepted**, over the
  connections that are still read from.

The sources are `impl.go`, `senders.go` and `message_source.go`.
-/

namespace ZitiChannel

open Transition ByteStream

/-- The connections in use, and the queues that they take from, have numbers below `n`. -/
def LinkSetup.Below (setup : LinkSetup) (n : ℕ) : Prop :=
  ∀ t, ∀ q ∈ setup.source t, t < n ∧ q < n

/-! ### Only connections in use hold something -/

namespace Side

variable {setup : LinkSetup} {s s' : Side}

theorem txNext_take_source {st : TxState} {t q x : ℕ} {pc pc' : TxPc} {a : TxAction}
    {rest : Queue ℕ} (h : txNext setup.toMuxSetup st t pc a = some (pc', .take q x rest)) :
    q ∈ setup.source t := by
  revert h
  generalize he : TxEffect.take q x rest = e
  fun_cases txNext setup.toMuxSetup st t pc a
  all_goals intro h; cases h
  all_goals cases he
  assumption

/-- What a `txer` takes comes out of a queue of its message source. -/
theorem takes_source {act : Multiplex.Action} {mux : Multiplex}
    (h : s.mux.step setup.toMuxSetup act = some mux) :
    ∀ c ∈ s.takes setup act, c.queue ∈ setup.source c.txer := by
  intro c hc
  cases act with
  | sendTo x q t =>
    cases List.mem_singleton.mp hc
    exact (parked_of_sendTo h).2.1
  | tx t a =>
    simp only [takes] at hc
    split at hc
    · next pc e hnext =>
      cases e with
      | take q x rest =>
        cases List.mem_singleton.mp hc
        exact txNext_take_source hnext
      | hand t' x =>
        cases List.mem_singleton.mp hc
        exact (txNext_hand hnext).2.1
      | _ => cases hc
    · cases hc
  | _ => cases hc

/-- **Only a `txer` with a message source holds something, or puts it on its connection.** -/
theorem held_source (hs : (side setup).Reachable System.anyEvent s) :
    (∀ c ∈ s.taken, c.queue ∈ setup.source c.txer) ∧
      ∀ t x, (s.mux.tx.txers t).sendable = some x → setup.source t ≠ [] := by
  refine hs.invariant (P := fun s => (∀ c ∈ s.taken, c.queue ∈ setup.source c.txer) ∧
    ∀ t x, (s.mux.tx.txers t).sendable = some x → setup.source t ≠ []) ?_ ?_
  · exact ⟨fun _ h => (by cases h), fun _ _ h => (by cases h)⟩
  rintro s e s' ⟨htaken, hheld⟩ - hstep
  refine step_cases (P := fun s' => (∀ c ∈ s'.taken, c.queue ∈ setup.source c.txer) ∧
    ∀ t x, (s'.mux.tx.txers t).sendable = some x → setup.source t ≠ []) hstep ?_ ?_ ?_
  · intro act mux _ _ hmux
    constructor
    · intro c hc
      rcases List.mem_append.mp hc with hc | hc
      · exact htaken c hc
      · exact takes_source hmux c hc
    · intro t x hx
      have hx : (mux.tx.txers t).sendable = some x := hx
      cases moves_step hmux t with
      | still _ hpc _ => exact hheld t x (hpc ▸ hx)
      | takes c htakes _ _ _ =>
        have hmem : c ∈ s.takesBy setup act t := by rw [htakes]; exact List.mem_singleton.mpr rfl
        obtain ⟨hc, ht⟩ := List.mem_filter.mp hmem
        obtain rfl : c.txer = t := of_decide_eq_true ht
        exact List.ne_nil_of_mem (takes_source hmux c hc)
      | goes a pc e _ hnext htake _ hpc =>
        rw [hpc] at hx
        have hmoves := txNext_moves hnext
        cases e with
        | take q y rest => exact absurd rfl (htake q y rest)
        | quiet => exact hheld t x (hmoves.symm.trans hx)
        | notify y n | addWaiter y | written y | removeWaiter y => exact hheld t y hmoves.1
        | finish y n => rw [hmoves.2] at hx; cases hx
        | requeue q y queue => rw [hmoves.2.1] at hx; cases hx
        | hand u y => rw [hmoves.2.1] at hx; cases hx
  · intro t n x _ _ _; exact ⟨htaken, hheld⟩
  · intro t n x c _ _ _ _; exact ⟨htaken, hheld⟩

end Side

/-! ### What is left to do -/

section

variable (setup : LinkSetup) (n : ℕ)

/-- What writing a message takes: more for each byte than for reading and delivering it. -/
def LinkSetup.weight (x : ℕ) : ℕ := 10 * Family.total n fun t => (setup.frame x t).length

/-- What is left to do for `txer` `t`, which has `progress` bytes out. -/
def TxPc.rank (t progress : ℕ) : TxPc → ℕ
  | .source | .stopped => 0
  | .check x => setup.weight n x + 5
  | .addWaiter x => setup.weight n x + 4
  | .setWriteTimeout x => setup.weight n x + 3
  | .write x => 10 * ((setup.frame x t).length - progress) + 2
  | .wrote _ | .refused _ => 1
  -- the sendable may go back to a queue
  | .failed x _ => setup.weight n x + 8 + setup.retry.length
  | .retry x queues _ => setup.weight n x + 7 + queues.length

/-- What is left to do for the sendables in a queue. -/
def LinkSetup.load (queue : Queue ℕ) : ℕ := (queue.items.map fun x => setup.weight n x + 6).sum

def RxPc.rank : RxPc → ℕ
  | .reading | .stopped => 0
  | .lookup _ => 1
  | .reaping _ _ _ => 2
  | .got _ _ => 3

/-- What is left to do for the sending half of an end. -/
def Side.sending (s : Side) : ℕ :=
  (Family.total n fun t => (s.mux.tx.txers t).rank setup n t (s.progress t)) +
    Family.total n fun q => setup.load n (s.mux.tx.queues q)

/-- What is left to do for the receiving half. -/
def Side.receiving (s : Side) : ℕ := Family.total n fun r => (s.mux.rx.rxers r).rank

end

/-- Everything that is left to do in one direction of a link. -/
def Link.pending (setup : LinkSetup) (n : ℕ) (sender receiver : Side) : ℕ :=
  sender.sending setup n + 8 * (sender.wire.length - receiver.reads.length) + receiver.receiving n

/-- An action of a `txer` by which nothing fails. -/
def TxAction.faultless : TxAction → Bool
  | .go | .take _ | .underlay none | .hand _ => true
  | .eof | .underlay (some _) => false

/-- How much an action of an `rxer` lowers what is left to do for it, and how much it raises it. -/
def RxAction.lowers : RxAction → ℕ
  | .go => 1
  | .read _ | .reap _ | .fail => 0

def RxAction.raises : RxAction → ℕ
  | .read _ => 3
  | .go | .reap _ | .fail => 0

/-- An event at an end that gives it nothing new to send, and by which nothing fails. -/
def Side.Event.calm : Side.Event → Bool
  | .mux (.send _ _) | .mux (.sendTo _ _ _) => false
  | .mux (.tx _ a) => a.faultless
  | _ => true

/-- An event of the sending half of an end. -/
def Side.Event.sends : Side.Event → Bool
  | .mux (.tx _ a) => a.faultless
  | .emit _ _ => true
  | _ => false

/-- An event of the receiving half of an end, other than a read. -/
def Side.Event.receives : Side.Event → Bool
  | .mux (.rx _ .go) => true
  | _ => false

/-- The direction from end `b` is left to itself: `b` is given nothing new to send, and its writes
do not fail.  Whatever else happens may happen: the other end may stop to read. -/
def Link.quiet (b : Bool) : Link.Event → Bool
  | .side c e => c != b || e.calm
  | .arrive _ _ => true

/-- The steps that bring the messages of end `b` further. -/
def Link.own (b : Bool) : Link.Event → Bool
  | .side c e => if c = b then e.sends else e.receives
  | .arrive c _ => c != b

/-- What a step takes out of a queue and what it puts into one. -/
def TxEffect.unloads (setup : LinkSetup) (n : ℕ) : TxEffect → ℕ
  | .take _ x _ => setup.weight n x + 6
  | _ => 0

def TxEffect.loads (setup : LinkSetup) (n : ℕ) : TxEffect → ℕ
  | .requeue _ x _ => setup.weight n x + 6
  | _ => 0

/-- What a step leaves to another `txer`. -/
def TxEffect.hands (setup : LinkSetup) (n : ℕ) : TxEffect → ℕ
  | .hand _ x => setup.weight n x + 5
  | _ => 0

/-! ### Every step does some of it -/

section

variable {setup : LinkSetup} {n t : ℕ}

/-- Writing a frame takes no more than what was reserved for it. -/
theorem frame_le_weight (ht : t < n) (x : ℕ) :
    10 * (setup.frame x t).length ≤ setup.weight n x :=
  Nat.mul_le_mul_left 10 (Family.le_total ht fun t => (setup.frame x t).length)

theorem txNext_rank {st : TxState} {pc pc' : TxPc} {a : TxAction} {e : TxEffect}
    (ht : t < n) (ha : a.faultless = true)
    (h : txNext setup.toMuxSetup st t pc a = some (pc', e)) (progress progress' : ℕ) :
    pc'.rank setup n t progress' + e.loads setup n + e.hands setup n <
      pc.rank setup n t progress + e.unloads setup n := by
  have hwrite : ∀ x, 10 * (setup.frame x t).length ≤ setup.weight n x := frame_le_weight ht
  revert h ha
  fun_cases txNext setup.toMuxSetup st t pc a
  all_goals intro ha h
  all_goals cases h
  all_goals simp only [TxAction.faultless, Bool.false_eq_true] at ha
  all_goals simp only [TxPc.rank, TxEffect.loads, TxEffect.unloads, TxEffect.hands,
    List.length_cons]
  all_goals grind

theorem load_update (setup : LinkSetup) (queues : ℕ → Queue ℕ) {q : ℕ} (hq : q < n)
    (queue : Queue ℕ) :
    (Family.total n fun u => setup.load n (Function.update queues q queue u)) +
        setup.load n (queues q) =
      (Family.total n fun u => setup.load n (queues u)) + setup.load n queue := by
  have hchange := Family.total_change (f := fun u => setup.load n (queues u))
    (g := fun u => setup.load n (Function.update queues q queue u)) hq
    fun u hu => congrArg (setup.load n) (Function.update_of_ne hu _ _)
  simpa only [Function.update_self] using hchange

/-- The queues hold as much more or less as a step says. -/
theorem load_apply {st : TxState} {pc pc' : TxPc} {a : TxAction} {e : TxEffect}
    (hb : setup.Below n) (h : txNext setup.toMuxSetup st t pc a = some (pc', e)) :
    (Family.total n fun q => setup.load n (((st.setTxer t pc').apply e).queues q)) +
        e.unloads setup n ≤
      (Family.total n fun q => setup.load n (st.queues q)) + e.loads setup n := by
  have hmoves := txNext_moves h
  cases e with
  | take q x rest =>
    obtain ⟨-, hitems⟩ := Queue.pop?_eq_some hmoves.2.2
    have hload : setup.load n (st.queues q) = setup.weight n x + 6 + setup.load n rest := by
      simp [LinkSetup.load, hitems]
    have hq : q < n := (hb t q (Side.txNext_take_source h)).2
    have hchange := load_update setup st.queues hq rest
    show (Family.total n fun u => setup.load n (Function.update st.queues q rest u)) +
      (setup.weight n x + 6) ≤ _ + 0
    omega
  | requeue q x queue =>
    obtain ⟨-, -, hitems⟩ := Queue.push?_eq_some hmoves.2.2
    have hload : setup.load n queue = setup.load n (st.queues q) + (setup.weight n x + 6) := by
      simp [LinkSetup.load, hitems]
    show (Family.total n fun u => setup.load n (Function.update st.queues q queue u)) + 0 ≤
      _ + (setup.weight n x + 6)
    rcases Nat.lt_or_ge q n with hq | hq
    · have hchange := load_update setup st.queues hq queue
      omega
    · -- nobody takes from this queue
      have hsame := Family.total_of_le (f := fun u => setup.load n (st.queues u))
        (g := fun u => setup.load n (Function.update st.queues q queue u)) hq
        fun u hu => congrArg (setup.load n) (Function.update_of_ne hu _ _)
      omega
  | _ => exact le_refl _

end

namespace Side

variable {setup : LinkSetup} {s s' : Side} {n t : ℕ}

/-- A `txer` that does something has a message source. -/
theorem lt_of_faultless (hb : setup.Below n) (hs : (side setup).Reachable System.anyEvent s)
    {a : TxAction} {pc : TxPc} {e : TxEffect} (ha : a.faultless = true)
    (h : txNext setup.toMuxSetup s.mux.tx t (s.mux.tx.txers t) a = some (pc, e)) : t < n := by
  have hsource : setup.source t ≠ [] := by
    cases hx : (s.mux.tx.txers t).sendable with
    | some x => exact (held_source hs).2 t x hx
    | none =>
      cases hpc : s.mux.tx.txers t with
      | source =>
        rw [hpc] at h
        cases a with
        | take q =>
          simp only [txNext] at h
          split at h
          · next hq => exact List.ne_nil_of_mem hq
          · cases h
        | eof => cases ha
        | _ => cases h
      | stopped => rw [hpc] at h; cases h
      | _ => rw [hpc] at hx; cases hx
  obtain ⟨q, hq⟩ := List.exists_mem_of_ne_nil _ hsource
  exact (hb t q hq).1

/-- What is left to do for the `txer`s, after one of them has gone on to `pc`. -/
theorem ranks_apply (hb : setup.Below n) (ht : t < n) {a : TxAction} {pc : TxPc} {e : TxEffect}
    (h : txNext setup.toMuxSetup s.mux.tx t (s.mux.tx.txers t) a = some (pc, e)) (k : ℕ) :
    (Family.total n fun u => (((s.mux.tx.setTxer t pc).apply e).txers u).rank setup n u
        (Function.update s.progress t k u)) +
        (s.mux.tx.txers t).rank setup n t (s.progress t) =
      (Family.total n fun u => (s.mux.tx.txers u).rank setup n u (s.progress u)) +
        pc.rank setup n t k + e.hands setup n := by
  -- only one `txer` has moved
  have hone := Family.total_change
    (f := fun u => (s.mux.tx.txers u).rank setup n u (s.progress u))
    (g := fun u => ((s.mux.tx.setTxer t pc).txers u).rank setup n u
      (Function.update s.progress t k u)) ht fun u hu => by
        rw [Function.update_of_ne hu,
          show (s.mux.tx.setTxer t pc).txers u = s.mux.tx.txers u from Function.update_of_ne hu _ _]
  beta_reduce at hone
  rw [show (s.mux.tx.setTxer t pc).txers t = pc from Function.update_self .., Function.update_self]
    at hone
  cases e with
  | hand u x =>
    -- and another one, that was waiting
    obtain ⟨hsource, hmem, -⟩ := txNext_hand h
    have hut : u ≠ t := by
      rintro rfl
      rw [hsource] at h
      cases a <;> simp only [txNext] at h <;> grind
    have htwo := Family.total_change
      (f := fun v => ((s.mux.tx.setTxer t pc).txers v).rank setup n v
        (Function.update s.progress t k v))
      (g := fun v => (((s.mux.tx.setTxer t pc).setTxer u (.check x)).txers v).rank setup n v
        (Function.update s.progress t k v)) (hb u _ hmem).1 fun v hv => by
          rw [show ((s.mux.tx.setTxer t pc).setTxer u (.check x)).txers v =
            (s.mux.tx.setTxer t pc).txers v from Function.update_of_ne hv _ _]
    have hbefore : ((s.mux.tx.setTxer t pc).txers u).rank setup n u (s.progress u) = 0 := by
      rw [show (s.mux.tx.setTxer t pc).txers u = .source from
        (Function.update_of_ne hut _ _).trans hsource]
      rfl
    have hafter : (((s.mux.tx.setTxer t pc).setTxer u (.check x)).txers u).rank setup n u
        (s.progress u) = setup.weight n x + 5 := by
      rw [show ((s.mux.tx.setTxer t pc).setTxer u (.check x)).txers u = .check x from
        Function.update_self ..]
      rfl
    beta_reduce at htwo
    rw [Function.update_of_ne hut, hbefore, hafter] at htwo
    show (Family.total n fun v => (((s.mux.tx.setTxer t pc).setTxer u (.check x)).txers v).rank
      setup n v (Function.update s.progress t k v)) + _ = _ + _ + (setup.weight n x + 5)
    omega
  | _ => exact hone

theorem progressAfter_eq (a : TxAction) :
    s.progressAfter (.tx t a) = Function.update s.progress t (s.progressAfter (.tx t a) t) := by
  funext u
  rcases eq_or_ne u t with rfl | hu
  · rw [Function.update_self]
  · rw [Function.update_of_ne hu, progressAfter_of_ne a hu]

/-- **A step of a `txer` by which nothing fails.** -/
theorem sending_tx (hb : setup.Below n) (hs : (side setup).Reachable System.anyEvent s)
    {a : TxAction} {mux : Multiplex} (ha : a.faultless = true)
    (h : s.mux.step setup.toMuxSetup (.tx t a) = some mux) :
    (s.note setup (.tx t a) mux).sending setup n < s.sending setup n := by
  simp only [Multiplex.step] at h
  split at h
  · next pc e hnext =>
    cases h
    have ht := lt_of_faultless hb hs ha hnext
    have hrank := txNext_rank ht ha hnext (s.progress t) (s.progressAfter (.tx t a) t)
    have hload := load_apply hb hnext
    have hranks := ranks_apply hb ht hnext (s.progressAfter (.tx t a) t)
    rw [← progressAfter_eq] at hranks
    show (Family.total n fun u => (((s.mux.tx.setTxer t pc).apply e).txers u).rank setup n u
        (s.progressAfter (.tx t a) u)) +
      (Family.total n fun q => setup.load n (((s.mux.tx.setTxer t pc).apply e).queues q)) <
        s.sending setup n
    unfold sending
    omega
  · cases h

/-- **Bytes of a frame go out.** -/
theorem sending_put (ht : t < n) {x k : ℕ} (hpc : s.mux.tx.txers t = .write x)
    (hk : s.progress t + k ≤ (setup.frame x t).length) :
    (s.put t k (setup.frame x t)).sending setup n + 10 * k = s.sending setup n := by
  have hchange := Family.total_change
    (f := fun u => (s.mux.tx.txers u).rank setup n u (s.progress u))
    (g := fun u => (s.mux.tx.txers u).rank setup n u
      (Function.update s.progress t (s.progress t + k) u)) ht
    fun u hu => by rw [Function.update_of_ne hu]
  have hwrite : ∀ p, (s.mux.tx.txers t).rank setup n t p =
      10 * ((setup.frame x t).length - p) + 2 := by
    intro p
    rw [hpc]
    rfl
  beta_reduce at hchange
  rw [Function.update_self, hwrite, hwrite] at hchange
  show (Family.total n fun u => (s.mux.tx.txers u).rank setup n u
      (Function.update s.progress t (s.progress t + k) u)) +
    (Family.total n fun q => setup.load n (s.mux.tx.queues q)) + 10 * k = _
  unfold sending
  omega

/-- **A step of an `rxer`.** -/
theorem receive_rank {mux : MuxSetup} {rx rx' : RxState} {r : ℕ} {a : RxAction}
    (h : rx.receive mux r (rx.rxers r) a = some rx') :
    (∀ u, u ≠ r → rx'.rxers u = rx.rxers u) ∧
      (rx'.rxers r).rank + a.lowers ≤ (rx.rxers r).rank + a.raises := by
  have hset : ∀ {st : RxState} {pc : RxPc}, st.rxers = rx.rxers →
      pc.rank + a.lowers ≤ (rx.rxers r).rank + a.raises →
      (∀ u, u ≠ r → (st.setRxer r pc).rxers u = rx.rxers u) ∧
        ((st.setRxer r pc).rxers r).rank + a.lowers ≤ (rx.rxers r).rank + a.raises := by
    intro st pc hrxers hle
    refine ⟨fun u hu => (Function.update_of_ne hu _ _).trans (congrFun hrxers u), ?_⟩
    rw [show (st.setRxer r pc).rxers r = pc from Function.update_self ..]
    exact hle
  cases hpc : rx.rxers r with
  | reading =>
    rw [hpc] at h hset
    cases a with
    | read m => cases h; exact hset rfl (by simp [RxPc.rank, RxAction.lowers, RxAction.raises])
    | fail => cases h; exact hset rfl (by simp [RxPc.rank, RxAction.lowers, RxAction.raises])
    | _ => cases h
  | got m now =>
    rw [hpc] at h hset
    cases a with
    | go =>
      simp only [RxState.receive] at h
      split at h
      · split at h <;> cases h <;>
          exact hset rfl (by simp [RxPc.rank, RxAction.lowers, RxAction.raises])
      · cases h; exact hset rfl (by simp [RxPc.rank, RxAction.lowers, RxAction.raises])
    | _ => cases h
  | reaping m now deleteCount =>
    rw [hpc] at h hset
    cases a with
    | go => cases h; exact hset rfl (by simp [RxPc.rank, RxAction.lowers, RxAction.raises])
    | reap key => cases h; exact hset rfl (by simp [RxPc.rank, RxAction.lowers, RxAction.raises])
    | read m | fail => cases h
  | lookup m =>
    rw [hpc] at h hset
    cases a with
    | go =>
      cases h
      obtain ⟨target, htake⟩ := RxState.takeReply_eq mux rx m
      rw [htake]
      exact hset rfl (by simp [RxPc.rank, RxAction.lowers, RxAction.raises])
    | _ => cases h
  | stopped => rw [hpc] at h; cases h

/-! ### What an end does for one direction -/

/-- What a calm step leaves the `txer`s and the queues to. -/
theorem tx_of_calm {act : Multiplex.Action} {mux : Multiplex}
    (hcalm : Event.calm (.mux act) = true) (h : s.mux.step setup.toMuxSetup act = some mux) :
    (∃ t a, act = .tx t a ∧ a.faultless = true) ∨
      (mux.tx.txers = s.mux.tx.txers ∧ mux.tx.queues = s.mux.tx.queues ∧
        s.progressAfter act = s.progress ∧ Event.sends (.mux act) = false) := by
  refine Multiplex.step_cases (P := fun mux => (∃ t a, act = .tx t a ∧ a.faultless = true) ∨
    (mux.tx.txers = s.mux.tx.txers ∧ mux.tx.queues = s.mux.tx.queues ∧
      s.progressAfter act = s.progress ∧ Event.sends (.mux act) = false)) h ?_ ?_ ?_ ?_ ?_ ?_ ?_ ?_
  · rintro x q queue rfl; cases hcalm
  · rintro x q t rfl; cases hcalm
  · rintro x err rfl; exact .inr ⟨rfl, rfl, rfl, rfl⟩
  · rintro t a pc e rfl -; exact .inl ⟨t, a, rfl, hcalm⟩
  · rintro r a rx rfl -; exact .inr ⟨rfl, rfl, rfl, rfl⟩
  · rintro ms rfl; exact .inr ⟨rfl, rfl, rfl, rfl⟩
  · rintro rfl; exact .inr ⟨rfl, rfl, rfl, rfl⟩
  · rintro rfl -; exact .inr ⟨rfl, rfl, rfl, rfl⟩

/-- **The sending end**, of whose frames `k` have been read. -/
theorem sending_step (hb : setup.Below n) (hs : (side setup).Reachable System.anyEvent s)
    {e : Event} (hcalm : e.calm = true) (h : (side setup).step s e = some s') (k : ℕ) :
    s'.sending setup n + 8 * (s'.wire.length - k) + e.sends.toNat ≤
      s.sending setup n + 8 * (s.wire.length - k) := by
  have hbound : ∀ {t x}, s.mux.tx.txers t = .write x → t < n := by
    intro t x hpc
    obtain ⟨q, hq⟩ := List.exists_mem_of_ne_nil _ ((held_source hs).2 t x (by rw [hpc]; rfl))
    exact (hb t q hq).1
  refine step_cases (P := fun s' => s'.sending setup n + 8 * (s'.wire.length - k) +
    e.sends.toNat ≤ s.sending setup n + 8 * (s.wire.length - k)) h ?_ ?_ ?_
  · rintro act mux rfl - hmux
    show (s.note setup act mux).sending setup n + 8 * (s.wire.length - k) + _ ≤ _
    rcases tx_of_calm hcalm hmux with ⟨t, a, rfl, ha⟩ | ⟨htxers, hqueues, hprogress, hsends⟩
    · have hlt := sending_tx hb hs ha hmux
      have hone : (Event.sends (.mux (.tx t a))).toNat ≤ 1 := Bool.toNat_le _
      omega
    · have hsame : (s.note setup act mux).sending setup n = s.sending setup n := by
        simp only [sending, note, htxers, hqueues, hprogress]
      rw [hsame, hsends]
      exact le_refl _
  · intro t m x hpc hm hlt
    have hput : (s.put t m (setup.frame x t)).sending setup n + 10 * m = s.sending setup n :=
      sending_put (hbound hpc) hpc hlt.le
    have hone := Bool.toNat_le e.sends
    show _ + 8 * (s.wire.length - k) + _ ≤ _
    omega
  · intro t m x c hpc hm heq _
    have hput : (s.put t m (setup.frame x t)).sending setup n + 10 * m = s.sending setup n :=
      sending_put (hbound hpc) hpc heq.le
    have hone := Bool.toNat_le e.sends
    show (s.put t m (setup.frame x t)).sending setup n + 8 * ((s.wire ++ [c]).length - k) + _ ≤ _
    rw [List.length_append, List.length_singleton]
    omega

/-- An `rxer` that goes on by itself has a message. -/
theorem message_of_go {r : ℕ} (h : (side setup).step s (.mux (.rx r .go)) = some s') :
    (s.mux.rx.rxers r).message.isSome = true := by
  simp only [side, step, returns, if_true, Multiplex.step] at h
  cases hpc : s.mux.rx.rxers r with
  | reading | stopped => rw [hpc] at h; cases h
  | got m now | reaping m now n | lookup m => rfl

/-- **The receiving end.** -/
theorem receiving_step {e : Event} (h : (side setup).step s e = some s')
    (hr : ∀ r, e = .mux (.rx r .go) → r < n) :
    s'.receiving n + e.receives.toNat ≤ s.receiving n + if e.isRead then 3 else 0 := by
  cases e with
  | emit t m =>
    refine step_cases (P := fun s' => s'.receiving n ≤ s.receiving n) h ?_ ?_ ?_
    · intro act mux he; cases he
    · intro t m x _ _ _; exact le_refl _
    · intro t m x c _ _ _ _; exact le_refl _
  | mux act =>
    simp only [side, step] at h
    split at h
    · obtain ⟨mux, hmux, rfl⟩ := Option.map_eq_some_iff.mp h
      show (Family.total n fun r => (mux.rx.rxers r).rank) + _ ≤ _
      cases act with
      | rx r a =>
        simp only [Multiplex.step] at hmux
        split at hmux
        · next rx hrx =>
          cases hmux
          obtain ⟨hother, hle⟩ := receive_rank hrx
          have hrank : ∀ u, u ≠ r → (rx.rxers u).rank = (s.mux.rx.rxers u).rank := fun u hu => by
            rw [hother u hu]
          have hevent : (Event.receives (.mux (.rx r a))).toNat = a.lowers ∧
              (if Event.isRead (.mux (.rx r a)) then 3 else 0) = a.raises := by
            cases a <;> exact ⟨rfl, rfl⟩
          rw [hevent.1, hevent.2]
          show (Family.total n fun u => (rx.rxers u).rank) + _ ≤
            (Family.total n fun u => (s.mux.rx.rxers u).rank) + _
          rcases Nat.lt_or_ge r n with hrn | hrn
          · have hchange := Family.total_change hrn hrank
            omega
          · -- an `rxer` that does not count has nothing to go on with
            have hsame := Family.total_of_le hrn hrank
            have hgo : a.lowers = 0 := by
              cases a with
              | go => exact absurd (hr r rfl) (Nat.not_lt.mpr hrn)
              | _ => rfl
            omega
        · cases hmux
      | _ =>
        rcases rx_step hmux with ⟨-, -, -, hrxers⟩ | ⟨r, a, hact, -⟩
        · rw [hrxers]
          exact le_refl _
        · cases hact
    · cases h

/-! ### Where an end comes to rest -/

theorem txNext_go_ne_none {mux : MuxSetup} {st : TxState} {pc : TxPc}
    (hsource : pc ≠ .source) (hstopped : pc ≠ .stopped) (htimeout : ∀ x, pc ≠ .setWriteTimeout x)
    (hwrite : ∀ x, pc ≠ .write x) : txNext mux st t pc .go ≠ none := by
  cases pc with
  | source => exact absurd rfl hsource
  | stopped => exact absurd rfl hstopped
  | setWriteTimeout x => exact absurd rfl (htimeout x)
  | write x => exact absurd rfl (hwrite x)
  | check x =>
    simp only [txNext]
    split
    · exact Option.some_ne_none _
    · split <;> exact Option.some_ne_none _
  | addWaiter x => simp only [txNext]; split <;> exact Option.some_ne_none _
  | wrote x | refused x | failed x err => exact Option.some_ne_none _
  | retry x queues err =>
    cases queues with
    | nil => exact Option.some_ne_none _
    | cons q qs => simp only [txNext]; split <;> exact Option.some_ne_none _

/-- **An end at rest holds nothing**, and its queues are empty as far as someone takes from them. -/
theorem resting (hs : (side setup).Reachable System.anyEvent s)
    (hrest : ∀ e : Event, e.sends = true → (side setup).step s e = none) (t : ℕ) :
    (s.mux.tx.txers t = .source ∧ ∀ q ∈ setup.source t, (s.mux.tx.queues q).items = []) ∨
      s.mux.tx.txers t = .stopped := by
  have hnone : ∀ a : TxAction, a.faultless = true → s.returns setup (.tx t a) = true →
      txNext setup.toMuxSetup s.mux.tx t (s.mux.tx.txers t) a = none := by
    intro a ha hret
    have hstep := hrest (.mux (.tx t a)) ha
    simp only [side, step, hret, if_true, Option.map_eq_none_iff, Multiplex.step] at hstep
    split at hstep
    · cases hstep
    · next hnext => exact hnext
  by_cases hsource : s.mux.tx.txers t = .source
  · refine .inl ⟨hsource, fun q hq => Queue.items_of_pop? ?_⟩
    have hnext := hnone (.take q) rfl rfl
    simp only [hsource, txNext, if_pos hq] at hnext
    split at hnext
    · cases hnext
    · next hpop => exact hpop
  refine .inr (by_contra fun hstopped => txNext_go_ne_none hsource hstopped ?_ ?_
    (hnone .go rfl rfl))
  · intro x hpc
    have hnext := hnone (.underlay none) rfl (by simp only [returns, hpc])
    rw [hpc] at hnext
    cases hnext
  · intro x hpc
    by_cases hprogress : s.progress t < (setup.frame x t).length
    · -- the rest of the frame can go out
      have hstep := hrest (.emit t ((setup.frame x t).length - s.progress t)) rfl
      have hbehind := behind hs t
      rw [Behind, ahead_of_write hpc, if_pos hprogress] at hbehind
      obtain ⟨rest, c, htaken, -, -⟩ := hbehind
      simp only [side, step, hpc] at hstep
      rw [if_neg (by omega), if_pos (by omega), htaken, List.getLast?_concat] at hstep
      cases hstep
    · have hnext := hnone (.underlay none) rfl (by
        simp only [returns, hpc, Option.isSome_none, Bool.false_eq_true, if_false,
          decide_eq_true_eq]
        omega)
      rw [hpc] at hnext
      cases hnext

/-- An end at rest has delivered what it has read. -/
theorem reading_of_resting
    (hrest : ∀ e : Event, e.receives = true → (side setup).step s e = none) (r : ℕ) :
    s.mux.rx.rxers r = .reading ∨ s.mux.rx.rxers r = .stopped := by
  have hstep := hrest (.mux (.rx r .go)) rfl
  simp only [side, step, returns, if_true, Option.map_eq_none_iff, Multiplex.step] at hstep
  cases hpc : s.mux.rx.rxers r with
  | reading => exact .inl rfl
  | stopped => exact .inr rfl
  | got m now =>
    rw [hpc] at hstep
    simp only [RxState.receive] at hstep
    grind
  | reaping m now deleteCount => rw [hpc] at hstep; cases hstep
  | lookup m => rw [hpc] at hstep; cases hstep

end Side

namespace Link

variable {setup : Bool → LinkSetup} {l l' : Bool → Side} {n : ℕ} {b : Bool}

/-- What is on the wire is on a connection in use. -/
theorem lt_of_onWire (hb : (setup b).Below n) (hl : (link setup).Reachable System.anyEvent l)
    {t : ℕ} (h : onWire (setup b) (l b) t ≠ []) : t < n := by
  obtain ⟨m, hm⟩ := List.exists_mem_of_ne_nil _ h
  obtain ⟨c, hc, -⟩ := List.mem_map.mp hm
  have hs := reachable_side hl b
  have htaken := (Side.wireBy_sublist hs t).subset hc
  obtain ⟨hmem, ht⟩ := List.mem_filter.mp htaken
  obtain rfl : c.txer = t := of_decide_eq_true ht
  exact (hb _ _ ((Side.held_source hs).1 c hmem)).1

/-- No more was read than is on the wire. -/
theorem reads_length_le (hl : (link setup).Reachable System.anyEvent l) (b : Bool) :
    (l !b).reads.length ≤ (l b).wire.length := by
  have hkeyed : ∀ t, ((l !b).reads.keyed t).Subperm
      (((l b).wire.map fun c => (c.txer, (setup b).arrived c.sendable)).keyed t) := by
    intro t
    rw [List.keyed_map]
    have hread := reads_prefix_wire hl (!b) t
    rw [Bool.not_not] at hread
    exact hread.sublist.subperm
  simpa using (List.subperm_of_keyed hkeyed).length_le

/-- An `rxer` that has a message reads from a connection in use. -/
theorem lt_of_message (hb : (setup b).Below n) (hl : (link setup).Reachable System.anyEvent l)
    {r : ℕ} (h : ((l !b).mux.rx.rxers r).message.isSome = true) : r < n := by
  refine lt_of_onWire hb hl fun hnil => ?_
  have hread := reads_prefix_wire hl (!b) r
  rw [Bool.not_not, hnil, List.prefix_nil, Side.reads_eq (reachable_side hl (!b)) r,
    List.append_eq_nil_iff, Option.toList_eq_nil_iff] at hread
  rw [hread.2] at h
  cases h

/-- What brings a message further is no fault. -/
theorem quiet_of_own {e : Event} (h : own b e = true) : quiet b e = true := by
  cases e with
  | arrive c t => rfl
  | side c e =>
    rcases eq_or_ne c b with rfl | hc
    · rw [own, if_pos rfl] at h
      simp only [quiet, bne_self_eq_false, Bool.false_or]
      cases e with
      | emit t n => rfl
      | mux act =>
        cases act with
        | tx t a => exact h
        | _ => cases h
    · simp [quiet, hc]

/-- **Every step that brings a message of an end further lowers what is left to do, and no step
raises it.** -/
theorem pending_step (hb : (setup b).Below n) (hl : (link setup).Reachable System.anyEvent l)
    {e : Event} (hquiet : quiet b e = true) (h : (link setup).step l e = some l') :
    pending (setup b) n (l' b) (l' !b) + (own b e).toNat ≤
      pending (setup b) n (l b) (l !b) := by
  have hl' : (link setup).Reachable System.anyEvent l' := hl.step trivial h
  have hread := reads_length_le hl' b
  revert hread
  refine step_cases (P := fun l' => (l' !b).reads.length ≤ (l' b).wire.length →
    pending (setup b) n (l' b) (l' !b) + (own b e).toNat ≤
      pending (setup b) n (l b) (l !b)) h ?_ ?_
  · rintro c e' s' rfl hnoread hs' -
    rcases eq_or_ne c b with rfl | hc
    · -- the sending end
      have hcalm : e'.calm = true := by simpa [quiet] using hquiet
      have hsend := Side.sending_step hb (reachable_side hl c) hcalm hs' (l !c).reads.length
      rw [Function.update_self, Function.update_of_ne (Bool.not_ne_self c), own, if_pos rfl]
      unfold pending
      omega
    · -- the receiving end
      obtain rfl : c = !b := Bool.eq_not.mpr hc
      have hrecv := Side.receiving_step (n := n) hs' fun r he => by
        subst he
        exact lt_of_message hb hl (Side.message_of_go hs')
      rw [hnoread, if_neg Bool.false_ne_true] at hrecv
      rw [Function.update_self, Function.update_of_ne hc.symm, own, if_neg hc]
      unfold pending
      rw [Side.reads_of_not_isRead hs' hnoread]
      omega
  · rintro c t m s' rfl - hs' hread
    rcases eq_or_ne c b with rfl | hc
    · have hsend := Side.sending_step hb (reachable_side hl c) (e := .mux (.rx t (.read m))) rfl hs'
        (l !c).reads.length
      rw [Function.update_self, Function.update_of_ne (Bool.not_ne_self c)]
      simp only [own, bne_self_eq_false, Side.Event.sends] at hsend ⊢
      unfold pending
      omega
    · obtain rfl : c = !b := Bool.eq_not.mpr hc
      have hrecv := Side.receiving_step (n := n) hs' fun r he => by cases he
      have hreads : s'.reads = (l !b).reads ++ [(t, m)] := Side.reads_step hs'
      rw [Function.update_self, Function.update_of_ne hc.symm, hreads, List.length_append,
        List.length_singleton] at hread
      rw [Function.update_self, Function.update_of_ne hc.symm]
      simp only [Side.Event.receives, Side.Event.isRead, if_true, Bool.toNat_false] at hrecv
      have hone := Bool.toNat_le (own b (.arrive (!b) t))
      unfold pending
      rw [hreads, List.length_append, List.length_singleton]
      omega

/-- **Where nothing more can be done, nothing is under way**: the sending end is at rest, and
everything on the wire has been read and delivered, unless nobody reads there any more. -/
theorem idle_of_stuck (hl : (link setup).Reachable System.anyEvent l)
    (hstuck : ∀ e, own b e = true → (link setup).step l e = none) :
    (∀ t, ((l b).mux.tx.txers t = .source ∧
        ∀ q ∈ (setup b).source t, ((l b).mux.tx.queues q).items = []) ∨
      (l b).mux.tx.txers t = .stopped) ∧
    ∀ t, (l !b).mux.rx.rxers t = .stopped ∨
      (l !b).delivered.keyed t = onWire (setup b) (l b) t := by
  have hside : ∀ c (e : Side.Event), e.isRead = false → own b (.side c e) = true →
      (side (setup c)).step (l c) e = none := by
    intro c e hread hown
    have hstep := hstuck (.side c e) hown
    simpa only [link, hread, Bool.false_eq_true, if_false, Option.map_eq_none_iff] using hstep
  constructor
  · refine Side.resting (reachable_side hl b) fun e he => hside b e ?_ ?_
    · cases e with
      | emit t n => rfl
      | mux act => cases act <;> first | rfl | cases he
    · rw [own, if_pos rfl]
      exact he
  intro t
  have hother : ∀ e : Side.Event, e.receives = true →
      (side (setup !b)).step (l !b) e = none := by
    intro e he
    refine hside (!b) e ?_ ?_
    · cases e with
      | emit t n => rfl
      | mux act =>
        cases act with
        | rx r a => cases a <;> first | rfl | cases he
        | _ => rfl
    · rw [own, if_neg (Bool.not_ne_self b)]
      exact he
  refine (Side.reading_of_resting hother t).symm.imp_right fun hreading => ?_
  have hread := Side.reads_eq (reachable_side hl (!b)) t
  rw [hreading, show RxPc.reading.message.toList = [] from rfl, List.append_nil] at hread
  rw [← hread]
  -- what is not read yet could be
  have hnext := hstuck (.arrive (!b) t) (by simp [own])
  simp only [link, Bool.not_not] at hnext
  have hle : (onWire (setup b) (l b) t).length ≤ ((l !b).reads.keyed t).length := by
    by_contra hlt
    split at hnext
    · next m hm =>
      rw [Option.map_eq_none_iff] at hnext
      simp [side, Side.step, Side.returns, Multiplex.step, hreading, RxState.receive] at hnext
    · next hm =>
      rw [Side.next, Option.map_eq_none_iff, List.getElem?_eq_none_iff] at hm
      rw [onWire, List.length_map] at hlt
      exact hlt hm
  have hpre := reads_prefix_wire hl (!b) t
  rw [Bool.not_not] at hpre
  exact hpre.eq_of_length (le_antisymm hpre.length_le hle)

/-- An end at rest has settled what it has accepted. -/
theorem settled_of_resting {setup : LinkSetup} {s : Side}
    (hs : (side setup).Reachable System.anyEvent s)
    (hrest : ∀ t, (s.mux.tx.txers t = .source ∧
        ∀ q ∈ setup.source t, (s.mux.tx.queues q).items = []) ∨ s.mux.tx.txers t = .stopped)
    {x : ℕ} (hacc : s.mux.tx.accepted x = true) (hmsg : (setup.sendable x).msg.isSome = true) :
    x ∈ s.wire.map Carried.sendable ∨ .err ∈ terminals (s.mux.tx.notices x) ∨
      ∃ q, x ∈ (s.mux.tx.queues q).items ∧
        ∀ t, q ∈ setup.source t → s.mux.tx.txers t = .stopped := by
  have hmux := Side.reachable_mux hs
  obtain ⟨place, htied, haccount⟩ := tied_multiplex hmux
  cases hplace : place x with
  | outside => exact absurd hplace ((htied.accepted x).mp hacc)
  | queue q =>
    have hx := (htied.queue q x).mpr hplace
    refine .inr (.inr ⟨q, hx, fun t hq => (hrest t).resolve_left fun hsource => ?_⟩)
    rw [hsource.2 q hq] at hx
    cases hx
  | held t =>
    have hx := (htied.held t x).mpr hplace
    rcases hrest t with ⟨hpc, -⟩ | hpc <;> rw [hpc] at hx <;> cases hx
  | finished =>
    have hterminals := terminals_ne_nil_of_finished hmux hmsg ((htied.finished x).mpr hplace)
    have hfinal := haccount x
    rw [hplace] at hfinal
    have hmem : s.mux.tx.account x ∈ finals := hfinal
    simp only [finals, TxState.account, List.mem_cons, Prod.mk.injEq, List.not_mem_nil,
      or_false] at hmem
    rcases hmem with ⟨h, -⟩ | ⟨-, hone⟩ | ⟨h, -⟩ | ⟨h, -⟩
    · exact absurd h hterminals
    · exact .inl (((Side.wire_nodup_iff hs).2 x).mpr (.inl hone))
    · exact .inr (.inl (by rw [h]; decide))
    · exact .inr (.inl (by rw [h]; decide))

/-- **A link that is left to itself delivers what it has accepted.**  Give an end nothing new to
send, and let its writes not fail any more.  Then, in whatever order things happen, there are at
most as many steps that bring one of its messages further as is left to do.  And when there are
none: each `rxer` of the other end that has not stopped has delivered everything that is on its
connection; and every message that was accepted is on the wire, or its listener was told of an
error, or it is in a queue that no living `txer` takes from. -/
theorem link_drains (setup : Bool → LinkSetup) (n : ℕ) (b : Bool) (hb : (setup b).Below n)
    (l : Bool → Side) (hl : (link setup).Reachable System.anyEvent l) :
    (∀ es l', (link setup).replay (fun _ e => quiet b e = true) l es = some l' →
      es.countP (own b) + pending (setup b) n (l' b) (l' !b) ≤
        pending (setup b) n (l b) (l !b)) ∧
    ((∀ e, own b e = true → (link setup).step l e = none) →
      (∀ t, (l !b).mux.rx.rxers t = .stopped ∨
        (l !b).delivered.keyed t = onWire (setup b) (l b) t) ∧
      ∀ x, (l b).mux.tx.accepted x = true → ((setup b).sendable x).msg.isSome = true →
        x ∈ (l b).wire.map Carried.sendable ∨
        .err ∈ terminals ((l b).mux.tx.notices x) ∨
        ∃ q, x ∈ ((l b).mux.tx.queues q).items ∧
          ∀ t, q ∈ (setup b).source t → (l b).mux.tx.txers t = .stopped) := by
  constructor
  · intro es l' hrun
    refine System.countP_le_of_measure (P := fun l => (link setup).Reachable System.anyEvent l)
      (μ := fun l => pending (setup b) n (l b) (l !b)) ?_ es l hl hrun
    intro l e l' hl hquiet hstep
    exact ⟨hl.step trivial hstep, pending_step hb hl hquiet hstep⟩
  · intro hstuck
    obtain ⟨hrest, hdel⟩ := idle_of_stuck hl hstuck
    exact ⟨hdel, fun x => settled_of_resting (reachable_side hl b) hrest⟩

/-- Two ends with two connections. -/
def twoConnections (b : Bool) : LinkSetup :=
  { exchange b with source := fun t => if t < 2 then [0] else [] }

theorem below_twoConnections (b : Bool) : (twoConnections b).Below 2 := by
  intro t q hq
  simp only [twoConnections] at hq
  split at hq
  · rw [List.mem_singleton.mp hq]
    omega
  · cases hq

/-- A write fails half way, and the connection is closed at both ends; the message goes out on the
other connection, and when all is done it has arrived there. -/
theorem link_drains_retried :
    ∃ l, (link twoConnections).Reachable System.anyEvent l ∧
      (l false).mux.tx.txers 0 = .stopped ∧ (l true).mux.rx.rxers 0 = .stopped ∧
      pending (twoConnections false) 2 (l false) (l true) = 0 ∧
      (l true).delivered.keyed 1 = [(exchange false).arrived 0] := by
  obtain ⟨l, hl, h⟩ := System.reachable_of_replay (link twoConnections) System.anyEvent
    ([.side false (.mux (.send 0 0)), .side false (.mux (.tx 0 (.take 0))),
      .side false (.mux (.tx 0 .go)), .side false (.mux (.tx 0 .go)), .side false (.emit 0 9),
      .side false (.mux (.tx 0 (.underlay (some [])))), .side false (.mux (.tx 0 .go)),
      .side false (.mux (.tx 0 .go)), .side true (.mux (.rx 0 .fail))] ++ sends false 1 20 ++
      [.arrive true 1, .side true (.mux (.rx 1 .go))])
    (fun l => decide ((l false).mux.tx.txers 0 = .stopped ∧ (l true).mux.rx.rxers 0 = .stopped ∧
      (l true).mux.rx.rxers 1 = .reading ∧
      pending (twoConnections false) 2 (l false) (l true) = 0 ∧
      (l false).wireBy 1 = [⟨1, 0, 0⟩])) (by decide)
  obtain ⟨htxer, hrxer, hreading, hpending, hwire⟩ := of_decide_eq_true h
  obtain ⟨hruns, hrest⟩ := link_drains twoConnections 2 false (below_twoConnections false) l hl
  -- with nothing left to do, nothing more can be done
  have hstuck : ∀ e, own false e = true → (link twoConnections).step l e = none := by
    intro e he
    rw [Option.eq_none_iff_forall_ne_some]
    intro l' hstep
    have hle := hruns [e] l' (by rw [System.replay, if_pos (quiet_of_own he), hstep]; rfl)
    rw [List.countP_singleton, if_pos he] at hle
    have hzero : pending (twoConnections false) 2 (l false) (l !false) = 0 := hpending
    omega
  refine ⟨l, hl, htxer, hrxer, hpending, ?_⟩
  rcases (hrest hstuck).1 1 with hstopped | hdel
  · cases hreading.symm.trans hstopped
  · rw [onWire, hwire] at hdel
    exact hdel

end Link

end ZitiChannel
