import ZitiChannel.Backoff
import ZitiChannel.HeaderWords
import ZitiChannel.Lib.Queue
import ZitiChannel.Lib.Transition

/-!
# The heartbeater

A heartbeater transforms the messages of a channel.  Its `Tx` marks an outgoing message with a
heartbeat when one is due, and with the answer to the heartbeat that was received last; its `Rx`
looks for both in what arrives.  A goroutine of its own, `pulse`, waits for a ticker, for the events
that the others queue for it, and for a new check interval.

They share three words and two channels, and there is no lock.  A step of the model is one load,
store, send or receive, by any of the goroutines; `Tx` and `Rx` run on any number of them.

The check interval is changed by `UpdateIntervals`, which runs on one goroutine.  It empties a
channel with one slot and fills it again, in two steps, and `pulse` may receive before, between and
after them.

## Main definitions

* `TxPc`, `RxPc`, `PulsePc`, `UpdatePc` — where the goroutines are.
* `heartbeating` — the system, over the names of the goroutines.
* `Retuning`, `Retuning.Kept` — the channel with the check interval, and its invariant.

## Main results

* `retuning_step` — what a step does to the check interval.
* `retuning_latest` — **`UpdateIntervals` does not block, `pulse` receives the intervals in order,
  and the latest is not lost.**

The source is `heartbeater.go`.
-/

namespace ZitiChannel.Heartbeater

open Transition ByteStream

/-! ### The goroutines -/

def contentTypeHeartbeat : Int32 := 5
def contentTypeRaw : Int32 := 6

/-- A message with a time in a header. -/
def putTime (key : Int32) (ts : Int64) (m : Message) : Message :=
  { m with headers := m.headers.putUint64Header key ts.toUInt64 }

/-- A goroutine that calls `Tx`. -/
inductive TxPc
  | idle
  | loadLast (m : Message) (now : Int64)
  | loadInterval (m : Message) (now lastHeartbeatTx : Int64)
  | putHeartbeat (m : Message) (now : Int64)
  | storeLast (m : Message) (now : Int64)
  | queueTx (m : Message) (now : Int64)
  | loadUnresponded (m : Message) (now : Int64)
  | putResponse (m : Message) (now unrespondedHeartbeat : Int64)
  | storeUnresponded (m : Message) (now unrespondedHeartbeat : Int64)
  | queueRespTx (m : Message) (now : Int64)
  /-- `Tx` has returned, and this is what the message has become. -/
  | ret (m : Message)

/-- A goroutine that calls `Rx`. -/
inductive RxPc
  | idle
  | heartbeat (m : Message)
  | response (m : Message)

inductive PulsePc
  | newTicker (checkInterval : Duration)
  /-- `time.NewTicker` has panicked. -/
  | panicked
  | isClosed
  | select
  | loadLast (now : Int64)
  | loadInterval (now lastHeartbeatTx : Int64)
  | sendHeartbeat
  | checkHeartBeat
  | handle (event : HeartbeatEvent)
  /-- The rest of what is done for a heartbeat, after it is stored. -/
  | received (ts : Int64)
  | afterFunc
  | sendHeartbeatIfQueueFree
  | reset (newCheckInterval : Duration)
  | ret

/-- The goroutine that calls `UpdateIntervals`. -/
inductive UpdatePc
  | idle
  | store (sendInterval checkInterval : Duration)
  | drain (checkInterval : Duration)
  | refill (checkInterval : Duration)
  deriving DecidableEq

/-- How many steps are left of `UpdateIntervals`. -/
def UpdatePc.remaining : UpdatePc → ℕ
  | .idle => 0
  | .refill _ => 1
  | .drain _ => 2
  | .store _ _ => 3

/-- A call of the callback. -/
inductive Notice
  | heartbeatTx (ts : Int64)
  | heartbeatRx (ts : Int64)
  | heartbeatRespTx (ts : Int64)
  | heartbeatRespRx (ts : Int64)
  | checkHeartBeat
  deriving DecidableEq

/-! ### The check interval -/

/-- The channel with the check interval, and the one goroutine that fills it. -/
structure Retuning where
  reconfigC : Queue Duration
  updater : UpdatePc
  /-- What `UpdateIntervals` was called with. -/
  requested : List Duration
  /-- What `pulse` has received. -/
  received : List Duration

namespace Retuning

/-- `UpdateIntervals` is called. -/
def request (r : Retuning) (sendInterval checkInterval : Duration) : Option Retuning :=
  match r.updater with
  | .idle =>
      some { r with
        updater := .store sendInterval checkInterval
        requested := r.requested ++ [checkInterval] }
  | _ => none

/-- A step of `UpdateIntervals`.  Neither `select` waits. -/
def update (r : Retuning) : Option Retuning :=
  match r.updater with
  | .idle => none
  | .store _ checkInterval => some { r with updater := .drain checkInterval }
  | .drain checkInterval =>
      -- what `pulse` has not received is dropped
      match r.reconfigC.pop? with
      | some (_, q) => some { r with reconfigC := q, updater := .refill checkInterval }
      | none => some { r with updater := .refill checkInterval }
  | .refill checkInterval =>
      match r.reconfigC.push? checkInterval with
      | some q => some { r with reconfigC := q, updater := .idle }
      | none => some { r with updater := .idle }

/-- `pulse` receives. -/
def receive (r : Retuning) : Option (Duration × Retuning) :=
  match r.reconfigC.pop? with
  | some (newCheckInterval, q) =>
      some (newCheckInterval,
        { r with reconfigC := q, received := r.received ++ [newCheckInterval] })
  | none => none

end Retuning

/-! ### The system -/

variable {ι : Type} [DecidableEq ι]

variable (ι) in
structure State where
  lastHeartbeatTx : Int64
  heartBeatIntervalNs : Int64
  unrespondedHeartbeat : Int64
  events : Queue HeartbeatEvent
  retuning : Retuning
  /-- Whether the channel is closed. -/
  closed : Bool
  txers : ι → TxPc
  rxers : ι → RxPc
  pulse : PulsePc
  /-- The interval of the ticker. -/
  ticker : Duration
  /-- How many of the functions given to `time.AfterFunc` have not run. -/
  timers : ℕ
  /-- The calls of the callback. -/
  notices : List Notice
  /-- The messages that were given an answer. -/
  given : List Message

variable (ι) in
inductive Event
  /-- `Tx` is called. -/
  | tx (i : ι) (m : Message) (now : Int64)
  | txStep (i : ι)
  /-- `Rx` is called. -/
  | rx (i : ι) (m : Message)
  | rxStep (i : ι)
  | pulseStep
  /-- `pulse` receives from its ticker. -/
  | tick (now : Int64)
  /-- `pulse` receives an event. -/
  | event
  /-- `pulse` receives a check interval. -/
  | reconfig
  /-- A function given to `time.AfterFunc` runs. -/
  | timer
  /-- `UpdateIntervals` is called. -/
  | updateIntervals (sendInterval checkInterval : Duration)
  | updateStep
  | close

namespace State

/-- The event is dropped if there is no room. -/
def queueEvent (s : State ι) (event : HeartbeatEvent) : State ι :=
  match s.events.push? event with
  | some q => { s with events := q }
  | none => s

def setTx (s : State ι) (i : ι) (pc : TxPc) : State ι :=
  { s with txers := Function.update s.txers i pc }

def setRx (s : State ι) (i : ι) (pc : RxPc) : State ι :=
  { s with rxers := Function.update s.rxers i pc }

def notify (s : State ι) (notice : Notice) : State ι :=
  { s with notices := s.notices ++ [notice], pulse := .isClosed }

def txStep (s : State ι) (i : ι) : Option (State ι) :=
  match s.txers i with
  | .idle | .ret _ => none
  | .loadLast m now => some (s.setTx i (.loadInterval m now s.lastHeartbeatTx))
  | .loadInterval m now lastHeartbeatTx =>
      if now - lastHeartbeatTx > s.heartBeatIntervalNs then some (s.setTx i (.putHeartbeat m now))
      else some (s.setTx i (.loadUnresponded m now))
  | .putHeartbeat m now => some (s.setTx i (.storeLast (putTime heartbeatHeader now m) now))
  | .storeLast m now => some { s.setTx i (.queueTx m now) with lastHeartbeatTx := now }
  | .queueTx m now => some ((s.queueEvent (.tx now)).setTx i (.loadUnresponded m now))
  | .loadUnresponded m now =>
      if s.unrespondedHeartbeat ≠ 0 then
        some (s.setTx i (.putResponse m now s.unrespondedHeartbeat))
      else some (s.setTx i (.ret m))
  | .putResponse m now unrespondedHeartbeat =>
      -- what has been stored since the load is not looked at
      let m' := putTime heartbeatResponseHeader unrespondedHeartbeat m
      some { s.setTx i (.storeUnresponded m' now unrespondedHeartbeat) with given := s.given ++ [m'] }
  | .storeUnresponded m now _ =>
      some { s.setTx i (.queueRespTx m now) with unrespondedHeartbeat := 0 }
  | .queueRespTx m now => some ((s.queueEvent (.respTx now)).setTx i (.ret m))

def rxStep (s : State ι) (i : ι) : Option (State ι) :=
  match s.rxers i with
  | .idle => none
  | .heartbeat m =>
      match rxHeartbeat m with
      | some event => some ((s.queueEvent event).setRx i (.response m))
      | none => some (s.setRx i (.response m))
  | .response m =>
      match rxResponse m with
      | some event => some ((s.queueEvent event).setRx i .idle)
      | none => some (s.setRx i .idle)

/-- A step of `pulse`, except for its `select`.  That a message was sent, or could not be, may take
any time. -/
def pulseStep (s : State ι) : Option (State ι) :=
  match s.pulse with
  | .panicked | .select | .ret => none
  | .newTicker checkInterval =>
      if 0 < checkInterval then some { s with ticker := checkInterval, pulse := .isClosed }
      else some { s with pulse := .panicked }
  | .isClosed => if s.closed then some { s with pulse := .ret } else some { s with pulse := .select }
  | .loadLast now => some { s with pulse := .loadInterval now s.lastHeartbeatTx }
  | .loadInterval now lastHeartbeatTx =>
      if now - lastHeartbeatTx > s.heartBeatIntervalNs then some { s with pulse := .sendHeartbeat }
      else some { s with pulse := .checkHeartBeat }
  | .sendHeartbeat => some { s with pulse := .checkHeartBeat }
  | .checkHeartBeat => some (s.notify .checkHeartBeat)
  | .handle (.tx ts) => some (s.notify (.heartbeatTx ts))
  | .handle (.rx ts) => some { s with unrespondedHeartbeat := ts, pulse := .received ts }
  | .handle (.respTx ts) => some (s.notify (.heartbeatRespTx ts))
  | .handle (.respRx ts) => some (s.notify (.heartbeatRespRx ts))
  | .handle .handleUnresponded =>
      if s.unrespondedHeartbeat ≠ 0 then some { s with pulse := .sendHeartbeatIfQueueFree }
      else some { s with pulse := .isClosed }
  | .received ts => some { s.notify (.heartbeatRx ts) with pulse := .afterFunc }
  | .afterFunc => some { s with timers := s.timers + 1, pulse := .isClosed }
  | .sendHeartbeatIfQueueFree => some { s with pulse := .isClosed }
  | .reset newCheckInterval =>
      -- `Reset` panics on other intervals, and they are ignored
      if 0 < newCheckInterval then some { s with ticker := newCheckInterval, pulse := .isClosed }
      else some { s with pulse := .isClosed }

end State

def step (s : State ι) : Event ι → Option (State ι)
  | .tx i m now =>
      match s.txers i with
      | .idle | .ret _ =>
          if m.contentType = contentTypeRaw then some (s.setTx i (.ret m))
          else some (s.setTx i (.loadLast m now))
      | _ => none
  | .txStep i => s.txStep i
  | .rx i m =>
      match s.rxers i with
      | .idle => some (s.setRx i (.heartbeat m))
      | _ => none
  | .rxStep i => s.rxStep i
  | .pulseStep => s.pulseStep
  | .tick now =>
      match s.pulse with
      | .select => some { s with pulse := .loadLast now }
      | _ => none
  | .event =>
      match s.pulse, s.events.pop? with
      | .select, some (event, q) => some { s with events := q, pulse := .handle event }
      | _, _ => none
  | .reconfig =>
      match s.pulse, s.retuning.receive with
      | .select, some (newCheckInterval, r) =>
          some { s with retuning := r, pulse := .reset newCheckInterval }
      | _, _ => none
  | .timer =>
      -- all of them do the same
      match s.timers with
      | 0 => none
      | timers + 1 => some ({ s with timers := timers }.queueEvent .handleUnresponded)
  | .updateIntervals sendInterval checkInterval =>
      match s.retuning.request sendInterval checkInterval with
      | some r => some { s with retuning := r }
      | none => none
  | .updateStep =>
      match s.retuning.updater, s.retuning.update with
      | .store sendInterval _, some r =>
          some { s with heartBeatIntervalNs := sendInterval, retuning := r }
      | _, some r => some { s with retuning := r }
      | _, none => none
  | .close => some { s with closed := true }

/-- `ConfigureHeartbeat`. -/
def heartbeating (ι : Type) [DecidableEq ι] (heartbeatInterval checkInterval : Duration) :
    System (State ι) (Event ι) where
  init :=
    { lastHeartbeatTx := 0
      heartBeatIntervalNs := heartbeatInterval
      unrespondedHeartbeat := 0
      events := .empty 4
      retuning := ⟨.empty 1, .idle, [], []⟩
      closed := false
      txers := fun _ => .idle
      rxers := fun _ => .idle
      pulse := .newTicker checkInterval
      ticker := 0
      timers := 0
      notices := []
      given := [] }
  step := step

/-! ### The latest check interval -/

/-- The interval that `UpdateIntervals` has not sent yet. -/
def UpdatePc.pending : UpdatePc → List Duration
  | .idle => []
  | .store _ checkInterval | .drain checkInterval | .refill checkInterval => [checkInterval]

namespace Retuning

/-- The intervals that were received or are on their way, in their order. -/
def passing (r : Retuning) : List Duration := r.received ++ (r.reconfigC.items ++ r.updater.pending)

structure Kept (r : Retuning) : Prop where
  cap : r.reconfigC.cap = 1
  ordered : r.passing.Sublist r.requested
  latest : r.passing.getLast? = r.requested.getLast?
  /-- Before the second `select` the channel is empty. -/
  drained : ∀ c, r.updater = .refill c → r.reconfigC.items = []

variable {r r' : Retuning}

/-- Nothing else happens to it. -/
inductive Step (r r' : Retuning) : Prop
  | same (h : r' = r)
  | request (sendInterval checkInterval : Duration) (h : r.request sendInterval checkInterval = some r')
  | update (h : r.update = some r')
  | receive (c : Duration) (h : r.receive = some (c, r'))

theorem Kept.request {sendInterval checkInterval : Duration} (hk : r.Kept)
    (h : r.request sendInterval checkInterval = some r') : r'.Kept := by
  unfold Retuning.request at h
  split at h
  · next hidle =>
    cases h
    have hpassing : r.passing = r.received ++ r.reconfigC.items := by
      rw [passing, hidle]
      simp [UpdatePc.pending]
    refine ⟨hk.cap, ?_, ?_, by simp⟩
    · have hordered := hk.ordered
      rw [hpassing] at hordered
      rw [passing, ← List.append_assoc]
      exact hordered.append (List.Sublist.refl _)
    · rw [passing, ← List.append_assoc]
      simp [UpdatePc.pending]
  · cases h

/-- The channel has one slot. -/
theorem Kept.rest_eq_nil (hk : r.Kept) {c : Duration} {q : Queue Duration}
    (h : r.reconfigC.pop? = some (c, q)) : r.reconfigC.items = [c] ∧ q.items = [] := by
  obtain ⟨-, hitems⟩ := Queue.pop?_eq_some h
  have hbound := r.reconfigC.bounded
  rw [hk.cap, hitems, List.length_cons] at hbound
  have hnil : q.items = [] := List.eq_nil_of_length_eq_zero (by omega)
  exact ⟨by rw [hitems, hnil], hnil⟩

/-- What is on its way may change its place. -/
theorem Kept.of_passing (hk : r.Kept) (hcap : r'.reconfigC.cap = r.reconfigC.cap)
    (hrequested : r'.requested = r.requested) (hpassing : r'.passing = r.passing)
    (hdrained : ∀ c, r'.updater = .refill c → r'.reconfigC.items = []) : r'.Kept where
  cap := hcap.trans hk.cap
  ordered := by
    rw [hpassing, hrequested]
    exact hk.ordered
  latest := by
    rw [hpassing, hrequested]
    exact hk.latest
  drained := hdrained

theorem Kept.update (hk : r.Kept) (h : r.update = some r') : r'.Kept := by
  revert h
  fun_cases Retuning.update r
  all_goals intro h; cases h
  case case2 sendInterval c hpc =>
    exact hk.of_passing rfl rfl (by simp [passing, hpc, UpdatePc.pending]) (by simp)
  case case3 c hpc old q hpop =>
    -- an interval is dropped, and there is a later one
    obtain ⟨hitems, hnil⟩ := hk.rest_eq_nil hpop
    obtain ⟨hcap, -⟩ := Queue.pop?_eq_some hpop
    have hbefore : r.passing = r.received ++ [old, c] := by
      simp [passing, hitems, hpc, UpdatePc.pending]
    have hordered := hk.ordered
    have hlatest := hk.latest
    rw [hbefore] at hordered hlatest
    refine ⟨hcap.trans hk.cap, ?_, ?_, fun _ _ => hnil⟩
    · have hsub : (r.received ++ [c]).Sublist (r.received ++ [old, c]) :=
        (List.Sublist.refl _).append (List.sublist_cons_self old [c])
      simpa [passing, hnil, UpdatePc.pending] using hsub.trans hordered
    · simpa [passing, hnil, UpdatePc.pending] using hlatest
  case case4 c hpc hpop =>
    exact hk.of_passing rfl rfl (by simp [passing, hpc, UpdatePc.pending])
      fun _ _ => Queue.items_of_pop? hpop
  case case5 c hpc q hpush =>
    obtain ⟨-, hcap, hitems⟩ := Queue.push?_eq_some hpush
    exact hk.of_passing hcap rfl (by simp [passing, hpc, hitems, UpdatePc.pending]) (by simp)
  case case6 c hpc hpush =>
    -- the channel has room
    have hroom : r.reconfigC.HasRoom := by
      rw [Queue.HasRoom, hk.drained c hpc, hk.cap]
      exact Nat.one_pos
    exact absurd hroom (Queue.not_hasRoom_of_push? hpush)

theorem Kept.receive {c : Duration} (hk : r.Kept) (h : r.receive = some (c, r')) : r'.Kept := by
  unfold Retuning.receive at h
  split at h
  · next x q hpop =>
    cases h
    obtain ⟨hcap, hitems⟩ := Queue.pop?_eq_some hpop
    refine hk.of_passing hcap rfl (by simp [passing, hitems]) ?_
    intro c' hpc
    exact (hk.rest_eq_nil hpop).2
  · cases h

theorem Kept.step (hk : r.Kept) (h : r.Step r') : r'.Kept := by
  cases h with
  | same h => exact h ▸ hk
  | request sendInterval checkInterval h => exact hk.request h
  | update h => exact hk.update h
  | receive c h => exact hk.receive h

/-- Neither `select` of `UpdateIntervals` waits. -/
theorem exists_update (hpc : r.updater ≠ .idle) :
    ∃ r', r.update = some r' ∧ r'.updater.remaining < r.updater.remaining := by
  fun_cases Retuning.update r
  case case1 hidle => exact absurd hidle hpc
  all_goals exact ⟨_, rfl, by simp [*, UpdatePc.remaining]⟩

/-- Between two calls, the latest interval is in the channel or was received last. -/
theorem Kept.latest_of_idle (hk : r.Kept) (hidle : r.updater = .idle) {c : Duration}
    (hc : c ∈ r.requested.getLast?) : c ∈ r.reconfigC.items ∨ r.received.getLast? = some c := by
  have hlatest : (r.received ++ r.reconfigC.items).getLast? = some c := by
    have h := hk.latest.trans hc
    rw [passing, hidle] at h
    simpa [UpdatePc.pending] using h
  rw [List.getLast?_append] at hlatest
  -- it is the last of those received, or of those in the channel if there are any
  cases hitems : r.reconfigC.items.getLast? with
  | none =>
    rw [hitems] at hlatest
    exact .inr hlatest
  | some x =>
    rw [hitems] at hlatest
    cases hlatest
    exact .inl (List.mem_of_getLast? hitems)

end Retuning

section

variable {s s' : State ι} {e : Event ι} {heartbeatInterval checkInterval : Duration}

omit [DecidableEq ι] in
/-- An event in the queue touches nothing else. -/
theorem queueEvent_eq (event : HeartbeatEvent) :
    ∃ q, s.queueEvent event = { s with events := q } := by
  unfold State.queueEvent
  split
  · exact ⟨_, rfl⟩
  · exact ⟨s.events, rfl⟩

omit [DecidableEq ι] in
theorem queueEvent_retuning (event : HeartbeatEvent) :
    (s.queueEvent event).retuning = s.retuning := by
  obtain ⟨q, hq⟩ := queueEvent_eq (s := s) event
  rw [hq]

theorem txStep_retuning {i : ι} (h : s.txStep i = some s') : s'.retuning = s.retuning := by
  revert h
  fun_cases State.txStep s i
  all_goals intro h; cases h
  case case8 | case13 => exact queueEvent_retuning _
  all_goals rfl

theorem rxStep_retuning {i : ι} (h : s.rxStep i = some s') : s'.retuning = s.retuning := by
  revert h
  fun_cases State.rxStep s i
  all_goals intro h; cases h
  case case2 | case4 => exact queueEvent_retuning _
  all_goals rfl

omit [DecidableEq ι] in
theorem pulseStep_retuning (h : s.pulseStep = some s') : s'.retuning = s.retuning := by
  revert h
  fun_cases State.pulseStep s
  all_goals intro h; cases h
  all_goals rfl

/-- What a step does to the check interval. -/
theorem retuning_step (h : step s e = some s') : s.retuning.Step s'.retuning := by
  cases e with
  | txStep i => exact .same (txStep_retuning h)
  | rxStep i => exact .same (rxStep_retuning h)
  | pulseStep => exact .same (pulseStep_retuning h)
  | reconfig =>
    simp only [step] at h
    split at h
    · next c r _ hreceive =>
      cases h
      exact .receive c hreceive
    · cases h
  | updateIntervals sendInterval checkInterval =>
    simp only [step] at h
    split at h
    · next r hrequest =>
      cases h
      exact .request sendInterval checkInterval hrequest
    · cases h
  | updateStep =>
    simp only [step] at h
    split at h
    · next hupdate =>
      cases h
      exact .update hupdate
    · next hupdate _ =>
      cases h
      exact .update hupdate
    · cases h
  | timer =>
    simp only [step] at h
    split at h
    · cases h
    · cases h
      exact .same (queueEvent_retuning _)
  | close =>
    cases h
    exact .same rfl
  | tx i m now =>
    simp only [step] at h
    split at h
    · split at h <;> cases h <;> exact .same rfl
    · split at h <;> cases h <;> exact .same rfl
    · cases h
  | rx i m =>
    simp only [step] at h
    split at h <;> cases h
    exact .same rfl
  | tick now =>
    simp only [step] at h
    split at h <;> cases h
    exact .same rfl
  | event =>
    simp only [step] at h
    split at h <;> cases h
    exact .same rfl

theorem exists_updateStep {r : Retuning} (h : s.retuning.update = some r) :
    ∃ s', step s .updateStep = some s' ∧ s'.retuning = r := by
  simp only [step, h]
  split
  · next heq =>
    cases heq
    exact ⟨_, rfl, rfl⟩
  · next heq _ =>
    cases heq
    exact ⟨_, rfl, rfl⟩
  · next heq => cases heq

/-- **Heartbeats are retuned.**  In every state of every run: `UpdateIntervals` can take its next
step, and has fewer left then; the check intervals that `pulse` has received are some of those that
were requested, in their order; and between two calls, the one that was requested last is in the
channel or is the one that `pulse` received last. -/
theorem retuning_latest
    (hs : (heartbeating ι heartbeatInterval checkInterval).Reachable System.anyEvent s) :
    (s.retuning.updater ≠ .idle → ∃ s', step s .updateStep = some s' ∧
      s'.retuning.updater.remaining < s.retuning.updater.remaining) ∧
    s.retuning.received.Sublist s.retuning.requested ∧
    (s.retuning.updater = .idle → ∀ c ∈ s.retuning.requested.getLast?,
      c ∈ s.retuning.reconfigC.items ∨ s.retuning.received.getLast? = some c) := by
  have hk : s.retuning.Kept := by
    refine hs.invariant (P := fun s => s.retuning.Kept) ?_ fun _ _ _ hk _ h => hk.step (retuning_step h)
    exact ⟨rfl, List.Sublist.refl _, rfl, fun _ _ => rfl⟩
  refine ⟨fun hpc => ?_, ?_, fun hidle c hc => hk.latest_of_idle hidle hc⟩
  · obtain ⟨r, hr, hlt⟩ := Retuning.exists_update hpc
    obtain ⟨s', hstep, rfl⟩ := exists_updateStep hr
    exact ⟨s', hstep, hlt⟩
  · exact (List.sublist_append_left _ _).trans hk.ordered

/-- The heartbeater is retuned twice, and `pulse` takes the first interval after the second call has
begun. -/
theorem retuning_latest_twice :
    ∃ s, (heartbeating Unit 10 1).Reachable System.anyEvent s ∧
      s.retuning.requested = [5, 6] ∧ s.retuning.reconfigC.items = [6] ∧ s.retuning.received = [5] ∧
      (s.retuning.updater = .idle → ∀ c ∈ s.retuning.requested.getLast?,
        c ∈ s.retuning.reconfigC.items ∨ s.retuning.received.getLast? = some c) := by
  obtain ⟨s, hs, h⟩ := System.reachable_of_replay (heartbeating Unit 10 1) System.anyEvent
    ([.pulseStep, .pulseStep, .updateIntervals 10 5, .updateStep, .updateStep, .updateStep,
      .updateIntervals 10 6, .updateStep, .reconfig, .updateStep, .updateStep])
    (fun s => decide (s.retuning.requested = [5, 6] ∧ s.retuning.reconfigC.items = [6] ∧
      s.retuning.received = [5])) (by decide +kernel)
  obtain ⟨hrequested, hitems, hreceived⟩ := of_decide_eq_true h
  exact ⟨s, hs, hrequested, hitems, hreceived, (retuning_latest hs).2.2⟩

end

end ZitiChannel.Heartbeater
