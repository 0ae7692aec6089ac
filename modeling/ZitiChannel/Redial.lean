import ZitiChannel.Backoff
import ZitiChannel.ConstraintLoop
import ZitiChannel.Epochs

/-!
# A channel and its dial policy

A channel with a `BackoffDialPolicy` dials as long as it has fewer underlays than desired.  Here the two
run side by side: the goroutines of the channel as they are, `Dial` at the grain of its lock sections,
and a clock.  What the dialer returns is up to the peer, and so is how long an underlay lives.

Of the channel only this matters to the policy: who is in `dialUnderlay`, and when an underlay is
reported closed.

## Main definitions

* `DialPc`, `DialPc.next` — `Dial`, by its points.
* `Attempt`, `Call` — what is remembered of a call of `dialUnderlay`.
* `redialing` — the system.
* `callPart` — where a goroutine is in `dialUnderlay`.
* `DialPc.Moves`, `PartStep`, `Happens` — what can happen in `Dial`, to a goroutine, and at all.

## Main results

* `happens_of_step` — case analysis on a step.
* `chan_reachable` — the channel of the system is a channel.
* `callPart_of_ne` — one goroutine at a time is in `dialUnderlay`.

The sources are `dial_policy.go` and `impl.go`.
-/

namespace ZitiChannel.Redial

open Transition Concurrent

/-! ### `Dial` -/

/-- `Dial` of a `BackoffDialPolicy`. -/
inductive DialPc
  | groupConnectionId
  | resetStaleFailures
  /-- Before looking how long ago the last dial was. -/
  | minDialInterval
  | waitInterval (deadline : Time)
  | lastDialTime
  | getBackoffDelay
  | waitBackoff (deadline : Time)
  /-- Before the last look whether the channel is closed. -/
  | select
  /-- In the dialer. -/
  | createWithHeaders
  /-- Before `recordFailure` or `recordSuccess`. -/
  | record (result : Option Underlay)
  | ret (result : Option Underlay)
  deriving DecidableEq

/-- What decides how `Dial` goes on. -/
inductive DialAction
  | go
  /-- The wait is cut short. -/
  | cancel
  /-- The random number. -/
  | draw (x : ℚ)
  /-- The dialer returns an underlay, with whatever headers the peer sent, or an error. -/
  | created (result : Option Underlay)

/-- The next step of `Dial`, and the policy after it.  `cancel` tells whether the channel's
`closeNotify` is closed. -/
def DialPc.next (p : BackoffDialPolicy) (now : Time) (connectionId : GoString) (isFirst cancel : Bool) :
    DialPc → DialAction → Option (DialPc × BackoffDialPolicy)
  | .groupConnectionId, .go =>
      some (.resetStaleFailures,
        { p with iteration := (ZitiChannel.groupConnectionId p.iteration connectionId isFirst).1 })
  | .resetStaleFailures, .go => some (.minDialInterval, p.resetStaleFailures now)
  | .minDialInterval, .go =>
      let elapsed := since now p.lastDialTime
      if 0 < p.backoff.minDialInterval ∧ elapsed < p.backoff.minDialInterval then
        some (.waitInterval (now + (p.backoff.minDialInterval - elapsed).toInt), p)
      else some (.lastDialTime, p)
  | .waitInterval deadline, .go => if deadline ≤ now then some (.lastDialTime, p) else none
  | .waitInterval _, .cancel => if cancel then some (.ret none, p) else none
  | .lastDialTime, .go => some (.getBackoffDelay, { p with lastDialTime := now })
  | .getBackoffDelay, .draw x =>
      if 0 ≤ x ∧ x < 1 then
        let delay := p.getBackoffDelay x
        if 0 < delay then some (.waitBackoff (now + delay.toInt), p) else some (.select, p)
      else none
  | .waitBackoff deadline, .go => if deadline ≤ now then some (.select, p) else none
  | .waitBackoff _, .cancel => if cancel then some (.ret none, p) else none
  | .select, .go => if cancel then some (.ret none, p) else some (.createWithHeaders, p)
  | .createWithHeaders, .created result => some (.record result, p)
  | .record none, .go => some (.ret none, p.recordFailure now)
  | .record (some u), .go => some (.ret (some u), p.recordSuccess now)
  | _, _ => none

/-- The wait has been computed. -/
def DialPc.past : DialPc → Bool
  | .waitBackoff _ | .select | .createWithHeaders | .record _ | .ret _ => true
  | _ => false

/-- What is done to the policy before the wait is computed. -/
structure Prepared (p p' : BackoffDialPolicy) : Prop where
  backoff : p'.backoff = p.backoff
  success : p'.lastDialSuccess = p.lastDialSuccess
  negative : p'.lastNegativeEvent = p.lastNegativeEvent
  failures : p.lastDialSuccess ≤ p.lastNegativeEvent → p'.consecutiveFailures = p.consecutiveFailures

/-- Failures are not dropped if nothing has succeeded since. -/
theorem prepared_resetStaleFailures (p : BackoffDialPolicy) (now : Time) :
    Prepared p (p.resetStaleFailures now) := by
  unfold BackoffDialPolicy.resetStaleFailures
  split
  · exact ⟨rfl, rfl, rfl, fun _ => rfl⟩
  · split
    · next h => exact ⟨rfl, rfl, rfl, fun hle => absurd h.1 (not_lt.mpr hle)⟩
    · exact ⟨rfl, rfl, rfl, fun _ => rfl⟩

/-- What can happen in `Dial`. -/
inductive DialPc.Moves (p : BackoffDialPolicy) (now : Time) (cancel : Bool) :
    DialPc → DialAction → DialPc → BackoffDialPolicy → Prop
  | prepare (pc pc' : DialPc) (a : DialAction) (p' : BackoffDialPolicy) (hpc : pc.past = false)
      (hpc' : pc'.past = false) (hp : Prepared p p') : Moves p now cancel pc a pc' p'
  | cancelled (pc : DialPc) (a : DialAction) (h : cancel = true) :
      Moves p now cancel pc a (.ret none) p
  | waits (x : ℚ) (h0 : 0 ≤ x) (h1 : x < 1) (h : 0 < p.getBackoffDelay x) :
      Moves p now cancel .getBackoffDelay (.draw x)
        (.waitBackoff (now + (p.getBackoffDelay x).toInt)) p
  | noWait (x : ℚ) (h0 : 0 ≤ x) (h1 : x < 1) (h : ¬ 0 < p.getBackoffDelay x) :
      Moves p now cancel .getBackoffDelay (.draw x) .select p
  | waited (deadline : Time) (h : deadline ≤ now) :
      Moves p now cancel (.waitBackoff deadline) .go .select p
  | create : Moves p now cancel .select .go .createWithHeaders p
  | created (result : Option Underlay) :
      Moves p now cancel .createWithHeaders (.created result) (.record result) p
  | failure : Moves p now cancel (.record none) .go (.ret none) (p.recordFailure now)
  | success (u : Underlay) :
      Moves p now cancel (.record (some u)) .go (.ret (some u)) (p.recordSuccess now)

theorem DialPc.moves_of_next {p p' : BackoffDialPolicy} {now : Time} {connectionId : GoString}
    {isFirst cancel : Bool} {pc pc' : DialPc} {a : DialAction}
    (h : pc.next p now connectionId isFirst cancel a = some (pc', p')) :
    pc.Moves p now cancel a pc' p' := by
  revert h
  fun_cases DialPc.next p now connectionId isFirst cancel pc a
  all_goals intro h
  all_goals cases h
  · exact .prepare _ _ _ _ rfl rfl ⟨rfl, rfl, rfl, fun _ => rfl⟩
  · exact .prepare _ _ _ _ rfl rfl (prepared_resetStaleFailures p now)
  · exact .prepare _ _ _ _ rfl rfl ⟨rfl, rfl, rfl, fun _ => rfl⟩
  · exact .prepare _ _ _ _ rfl rfl ⟨rfl, rfl, rfl, fun _ => rfl⟩
  · exact .prepare _ _ _ _ rfl rfl ⟨rfl, rfl, rfl, fun _ => rfl⟩
  · next h => exact .cancelled _ _ h
  · exact .prepare _ _ _ _ rfl rfl ⟨rfl, rfl, rfl, fun _ => rfl⟩
  · next x hx delay h => exact .waits x hx.1 hx.2 h
  · next x hx delay h => exact .noWait x hx.1 hx.2 h
  · next h => exact .waited _ h
  · next h => exact .cancelled _ _ h
  · next h => exact .cancelled _ _ h
  · exact .create
  · exact .created _
  · exact .failure
  · exact .success _

/-- The policy keeps its configuration, and records nothing that is yet to come. -/
theorem DialPc.Moves.policy {pc pc' : DialPc} {act : DialAction} {cancel : Bool} {p p' : BackoffDialPolicy}
    {now : Time} (h : pc.Moves p now cancel act pc' p')
    (hclock : p.lastDialSuccess ≤ now ∧ p.lastNegativeEvent ≤ now) :
    p'.backoff = p.backoff ∧ p'.lastDialSuccess ≤ now ∧ p'.lastNegativeEvent ≤ now := by
  cases h with
  | prepare _ _ _ _ _ _ hp =>
    rw [hp.success, hp.negative]
    exact ⟨hp.backoff, hclock⟩
  | failure => exact ⟨rfl, hclock.1, le_rfl⟩
  | success u => exact ⟨rfl, le_rfl, hclock.2⟩
  | _ => exact ⟨rfl, hclock⟩

/-- If the wait is yet to be computed, the policy was prepared for it. -/
theorem DialPc.Moves.prepared {pc pc' : DialPc} {act : DialAction} {cancel : Bool} {p p' : BackoffDialPolicy}
    {now : Time} (h : pc.Moves p now cancel act pc' p') (hpast : pc'.past = false) :
    pc.past = false ∧ Prepared p p' := by
  cases h with
  | prepare _ _ _ _ hpc _ hp => exact ⟨hpc, hp⟩
  | _ => cases hpast

/-! ### Calls of `dialUnderlay` -/

/-- What is remembered of a call of `dialUnderlay` while it is going on. -/
structure Attempt where
  /-- The failures that the wait was computed from. -/
  failures : UInt32
  delay : Duration
  /-- When the dialer was called. -/
  dialed : Time

/-- The wait is computed, or the dialer is called. -/
def Attempt.note (a : Attempt) (p : BackoffDialPolicy) (now : Time) : DialPc → DialAction → Attempt
  | .getBackoffDelay, .draw x =>
      { a with
        failures := p.consecutiveFailures
        delay := p.getBackoffDelay x }
  | .select, _ => { a with dialed := now }
  | _, _ => a

/-- What is remembered of a call that has returned. -/
structure Call extends Attempt where
  /-- The failures that are counted when it returns. -/
  after : UInt32
  ended : Time
  /-- Whether there is a new underlay in the channel. -/
  accepted : Bool
  /-- Whether the channel is still open. -/
  isOpen : Bool

/-- The channel is open, and has no new underlay. -/
def Call.Fruitless (c : Call) : Prop := c.isOpen = true ∧ c.accepted = false

instance (c : Call) : Decidable c.Fruitless := inferInstanceAs (Decidable (_ ∧ _))

/-! ### The system -/

/-- A channel, its policy, and a clock. -/
structure State where
  chan : Concurrent.State
  policy : BackoffDialPolicy
  now : Time
  /-- Where a goroutine is in `Dial`, if it is there. -/
  pcs : ℕ → DialPc
  attempts : ℕ → Attempt
  /-- The calls of `dialUnderlay` that have returned. -/
  calls : List Call

inductive Event
  | tick (now : Time)
  /-- A step of `Dial`. -/
  | dial (g : ℕ) (a : DialAction)
  /-- `Dial` returns to `dialUnderlay`. -/
  | dialed (g : ℕ)
  /-- `AcceptUnderlay` returns to `dialUnderlay`. -/
  | accepted (g : ℕ)
  /-- The channel calls `UnderlayClosed`, for an underlay that has lived this long. -/
  | underlayClosed (g : ℕ) (lifetime : Duration)
  /-- Any other step of the channel. -/
  | channel (e : Concurrent.Event)

/-- Whether a goroutine is where the policy takes part in what it does next. -/
def involvesPolicy : Routine → Bool
  | .applyConstraints (.dial _ _ _ _) => true
  | .applyConstraints (.accept _ (.unlock _) _ _) => true
  | .closeUnderlay _ .dialPolicy => true
  | _ => false

/-- A call returns. -/
def State.returns (s : State) (g : ℕ) (accepted : Bool) : State :=
  { s with
    calls := s.calls ++ [{ s.attempts g with
      after := s.policy.consecutiveFailures
      ended := s.now
      accepted := accepted
      isOpen := !s.chan.ch.closed }] }

section

variable (setup : Setup)

def step (s : State) : Event → Option State
  | .tick now => if s.now ≤ now then some { s with now := now } else none
  | .dial g a =>
      match s.chan.routines g with
      | .applyConstraints (.dial _ isFirst _ _) =>
          match (s.pcs g).next s.policy s.now s.chan.ch.channelId isFirst s.chan.ch.closeNotify a with
          | some (pc, p) =>
              some { s with
                policy := p
                pcs := Function.update s.pcs g pc
                attempts := Function.update s.attempts g
                  ((s.attempts g).note s.policy s.now (s.pcs g) a) }
          | none => none
      | _ => none
  | .dialed g =>
      match s.chan.routines g, s.pcs g with
      | .applyConstraints (.dial _ _ _ _), .ret result =>
          match (Concurrent.channel setup).step s.chan (.run g (.dialed result)) with
          | some chan =>
              let s := { s with pcs := Function.update s.pcs g .groupConnectionId }
              match result with
              | none => some { s.returns g false with chan := chan }
              | some _ => some { s with chan := chan }
          | none => none
      | _, _ => none
  | .accepted g =>
      match s.chan.routines g with
      | .applyConstraints (.accept _ (.unlock accepted) _ _) =>
          match (Concurrent.channel setup).step s.chan (.run g .go) with
          | some chan => some { s.returns g accepted with chan := chan }
          | none => none
      | _ => none
  | .underlayClosed g lifetime =>
      match s.chan.routines g with
      | .closeUnderlay _ .dialPolicy =>
          match (Concurrent.channel setup).step s.chan (.run g .go) with
          | some chan => some { s with
              chan := chan
              policy := if s.chan.ch.dialPolicy then s.policy.underlayClosed lifetime s.now
                else s.policy }
          | none => none
      | _ => none
  | .channel e =>
      match e with
      | .run g _ =>
          if involvesPolicy (s.chan.routines g) then none
          else ((Concurrent.channel setup).step s.chan e).map fun chan => { s with chan := chan }
      | _ => ((Concurrent.channel setup).step s.chan e).map fun chan => { s with chan := chan }

/-- A channel that is being made, with a new policy. -/
def redialing (config : BackoffConfig) (start : Time) : System State Event where
  init :=
    { chan := (Concurrent.channel setup).init
      policy := .newBackoffDialPolicy config
      now := start
      pcs := fun _ => .groupConnectionId
      attempts := fun _ => ⟨0, 0, 0⟩
      calls := [] }
  step := step setup

end

/-! ### Who is in a call -/

/-- Where a goroutine is in `dialUnderlay`. -/
inductive CallPart
  | out
  /-- In `Dial`. -/
  | dialing
  /-- In `AcceptUnderlay`; `refused` tells whether the underlay was turned away. -/
  | accepting (u : Underlay) (refused : Bool)

def refused : AcceptPc → Bool
  | .refuse | .unlock false => true
  | _ => false

def callPart : Routine → CallPart
  | .applyConstraints (.dial _ _ _ _) => .dialing
  | .applyConstraints (.accept u pc _ _) => .accepting u (refused pc)
  | _ => .out

section

variable {setup : Setup} {s s' : Concurrent.State} {g : ℕ} {r r' : Routine}
  {eff : Concurrent.Effect}

theorem flagged_of_callPart (h : callPart r ≠ .out) : r.flagged = true := by
  unfold callPart at h
  split at h
  · rfl
  · rfl
  · exact absurd rfl h

/-- How a goroutine goes on without the policy: it begins a call, or the underlay that it has dialed
is turned away, or nothing changes. -/
inductive PartStep (admits : Underlay → Prop) : CallPart → CallPart → Prop
  | same (p : CallPart) : PartStep admits p p
  | start : PartStep admits .out .dialing
  | refuse (u : Underlay) (h : ¬ admits u) :
      PartStep admits (.accepting u false) (.accepting u true)

theorem callPart_moves (h : r.Moves setup s r' eff) (hapart : involvesPolicy r = false) :
    PartStep s.ch.Admits (callPart r) (callPart r') := by
  cases h with
  | isFirst => exact .start
  | dialAccept u pc pc' counts todo eff h =>
    cases h with
    | reject h => exact .refuse u h
    | _ => exact .same _
  | dialFailed | dialed | dialReturn => cases hapart
  | _ => exact .same _

/-- A step of a routine changes where its own goroutine is, and no other. -/
theorem callPart_run (hen : eff.enabled s g = true) :
    (fun b => callPart (((s.setRoutine g r).apply g eff).routines b)) =
      Function.update (fun b => callPart (s.routines b)) g (callPart r) :=
  map_routines hen rfl (fun _ => rfl) fun _ => rfl

/-- A step of a routine, as far as calls are concerned. -/
theorem run_step {a : Action} (h : (Concurrent.channel setup).step s (.run g a) = some s') :
    ∃ r eff, (s.routines g).next setup s a = some (r, eff) ∧
      (fun b => callPart (s'.routines b)) =
        Function.update (fun b => callPart (s.routines b)) g (callPart r) ∧
      s'.ch.closed = s.ch.closed := by
  simp only [Concurrent.channel, Concurrent.step] at h
  split at h
  · cases h
  · split at h
    · cases h
    · next r eff hnext =>
      split at h
      · next hen =>
        cases h
        exact ⟨r, eff, hnext, callPart_run hen,
          (Routine.moves_of_next hnext).frame (t := s.setRoutine g r).closed⟩
      · cases h

/-- `Dial` returns to `dialUnderlay`. -/
theorem dialed_step {result : Option Underlay} {t : GoString} {isFirst : Bool}
    {counts : Tally GoString} {todo : List Entry}
    (hr : s.routines g = .applyConstraints (.dial t isFirst counts todo))
    (h : (Concurrent.channel setup).step s (.run g (.dialed result)) = some s') :
    (fun b => callPart (s'.routines b)) = Function.update (fun b => callPart (s.routines b)) g
        (result.elim .out fun u => .accepting u false) ∧
      s'.ch.closed = s.ch.closed := by
  obtain ⟨r, eff, hnext, hparts, hclosed⟩ := run_step h
  rw [hr] at hnext
  refine ⟨hparts.trans ?_, hclosed⟩
  cases result with
  | none => cases hnext; rfl
  | some u => cases hnext; rfl

/-- `AcceptUnderlay` returns to `dialUnderlay`. -/
theorem accepted_step {u : Underlay} {accepted : Bool} {counts : Tally GoString} {todo : List Entry}
    (hr : s.routines g = .applyConstraints (.accept u (.unlock accepted) counts todo))
    (h : (Concurrent.channel setup).step s (.run g .go) = some s') :
    (fun b => callPart (s'.routines b)) =
        Function.update (fun b => callPart (s.routines b)) g .out ∧
      s'.ch.closed = s.ch.closed := by
  obtain ⟨r, eff, hnext, hparts, hclosed⟩ := run_step h
  rw [hr] at hnext
  cases hnext
  exact ⟨hparts, hclosed⟩

/-- The channel tells the policy that an underlay was closed. -/
theorem underlayClosed_step {u : Underlay} (hr : s.routines g = .closeUnderlay u .dialPolicy)
    (h : (Concurrent.channel setup).step s (.run g .go) = some s') :
    (fun b => callPart (s'.routines b)) = (fun b => callPart (s.routines b)) ∧
      s'.ch.closed = s.ch.closed := by
  obtain ⟨r, eff, hnext, hparts, hclosed⟩ := run_step h
  have hout : callPart r = callPart (s.routines g) := by
    rw [hr] at hnext ⊢
    simp only [Routine.next, CloseUnderlayPc.next] at hnext
    split at hnext <;> cases hnext <;> rfl
  refine ⟨hparts.trans ?_, hclosed⟩
  rw [hout]
  exact Function.update_eq_self g fun b => callPart (s.routines b)

/-- Any other step of the channel: where one goroutine is changes, or the channel is closed, or
neither. -/
theorem channel_step {e : Concurrent.Event}
    (hapart : ∀ g a, e = .run g a → involvesPolicy (s.routines g) = false)
    (h : (Concurrent.channel setup).step s e = some s') :
    (s'.ch.closed = s.ch.closed ∧ ∃ g part, PartStep s.ch.Admits (callPart (s.routines g)) part ∧
      (fun b => callPart (s'.routines b)) =
        Function.update (fun b => callPart (s.routines b)) g part) ∨
    (s'.ch.closed = true ∧
      (fun b => callPart (s'.routines b)) = fun b => callPart (s.routines b)) := by
  have hsame : ∀ g, ∃ part, PartStep s.ch.Admits (callPart (s.routines g)) part ∧
      (fun b => callPart (s.routines b)) =
        Function.update (fun b => callPart (s.routines b)) g part :=
    fun g => ⟨_, .same _, (Function.update_eq_self g fun b => callPart (s.routines b)).symm⟩
  refine step_cases (P := fun s' => (s'.ch.closed = s.ch.closed ∧ ∃ g part,
    PartStep s.ch.Admits (callPart (s.routines g)) part ∧ (fun b => callPart (s'.routines b)) =
      Function.update (fun b => callPart (s.routines b)) g part) ∨ (s'.ch.closed = true ∧
    (fun b => callPart (s'.routines b)) = fun b => callPart (s.routines b))) h ?_ ?_ ?_ ?_
  · intro g a r eff he _ hmoves hen
    exact Or.inl ⟨hmoves.frame (t := s.setRoutine g r).closed, g, callPart r,
      callPart_moves hmoves (hapart g a he), callPart_run hen⟩
  · intro g a pc rest pcs eff _ _ hmoves _
    rw [hmoves.frame.routines]
    cases hmoves with
    | first => exact Or.inr ⟨rfl, rfl⟩
    | _ => exact Or.inl ⟨rfl, g, hsame g⟩
  · intro g u _ hidle
    refine Or.inl ⟨rfl, g, ?_⟩
    have hparts := map_routines_callAccept (f := callPart) (u := u) hidle rfl
    dsimp only
    rw [hparts]
    exact hsame g
  · intro g _ _
    exact Or.inl ⟨rfl, g, hsame g⟩

end

/-! ### The steps of the system -/

section

variable {setup : Setup} {config : BackoffConfig} {start : Time} {s s' : State} {e : Event}
  {ok : State → Event → Prop} {g : ℕ}

/-- What can happen. -/
inductive Happens (setup : Setup) (s : State) : Event → State → Prop
  | tick (now : Time) (h : s.now ≤ now) : Happens setup s (.tick now) { s with now := now }
  | dial (g : ℕ) (a : DialAction) (isFirst : Bool) (pc : DialPc) (p : BackoffDialPolicy)
      (hg : callPart (s.chan.routines g) = .dialing)
      (hnext : (s.pcs g).next s.policy s.now s.chan.ch.channelId isFirst s.chan.ch.closeNotify a =
        some (pc, p)) :
      Happens setup s (.dial g a)
        { s with
          policy := p
          pcs := Function.update s.pcs g pc
          attempts := Function.update s.attempts g
            ((s.attempts g).note s.policy s.now (s.pcs g) a) }
  | dialFailed (g : ℕ) (t : GoString) (isFirst : Bool) (counts : Tally GoString) (todo : List Entry)
      (chan : Concurrent.State)
      (hr : s.chan.routines g = .applyConstraints (.dial t isFirst counts todo))
      (hpc : s.pcs g = .ret none)
      (hchan : (Concurrent.channel setup).step s.chan (.run g (.dialed none)) = some chan) :
      Happens setup s (.dialed g)
        { ({ s with pcs := Function.update s.pcs g .groupConnectionId } : State).returns g false with
          chan := chan }
  | dialed (g : ℕ) (u : Underlay) (t : GoString) (isFirst : Bool) (counts : Tally GoString)
      (todo : List Entry) (chan : Concurrent.State)
      (hr : s.chan.routines g = .applyConstraints (.dial t isFirst counts todo))
      (hpc : s.pcs g = .ret (some u))
      (hchan : (Concurrent.channel setup).step s.chan (.run g (.dialed (some u))) = some chan) :
      Happens setup s (.dialed g)
        { s with
          pcs := Function.update s.pcs g .groupConnectionId
          chan := chan }
  | accepted (g : ℕ) (u : Underlay) (accepted : Bool) (counts : Tally GoString) (todo : List Entry)
      (chan : Concurrent.State)
      (hr : s.chan.routines g = .applyConstraints (.accept u (.unlock accepted) counts todo))
      (hchan : (Concurrent.channel setup).step s.chan (.run g .go) = some chan) :
      Happens setup s (.accepted g) { s.returns g accepted with chan := chan }
  | underlayClosed (g : ℕ) (lifetime : Duration) (u : Underlay) (chan : Concurrent.State)
      (hr : s.chan.routines g = .closeUnderlay u .dialPolicy)
      (hchan : (Concurrent.channel setup).step s.chan (.run g .go) = some chan) :
      Happens setup s (.underlayClosed g lifetime)
        { s with
          chan := chan
          policy := if s.chan.ch.dialPolicy then s.policy.underlayClosed lifetime s.now
            else s.policy }
  | channel (e : Concurrent.Event) (chan : Concurrent.State)
      (hapart : ∀ g a, e = .run g a → involvesPolicy (s.chan.routines g) = false)
      (hchan : (Concurrent.channel setup).step s.chan e = some chan) :
      Happens setup s (.channel e) { s with chan := chan }

theorem happens_of_step (h : (redialing setup config start).step s e = some s') :
    Happens setup s e s' := by
  change step setup s e = some s' at h
  cases e with
  | tick now =>
    rw [step] at h
    split at h
    · next hle => cases h; exact .tick now hle
    · cases h
  | dial g a =>
    rw [step] at h
    split at h
    · next t isFirst counts todo hr =>
      split at h
      · next pc p hnext => cases h; exact .dial g a isFirst pc p (by rw [hr]; rfl) hnext
      · cases h
    · cases h
  | dialed g =>
    rw [step] at h
    split at h
    · next t isFirst counts todo result hr hpc =>
      split at h
      · next chan hchan =>
        cases result with
        | none => cases h; exact .dialFailed g t isFirst counts todo chan hr hpc hchan
        | some u => cases h; exact .dialed g u t isFirst counts todo chan hr hpc hchan
      · cases h
    · cases h
  | accepted g =>
    rw [step] at h
    split at h
    · next u accepted counts todo hr =>
      split at h
      · next chan hchan => cases h; exact .accepted g u accepted counts todo chan hr hchan
      · cases h
    · cases h
  | underlayClosed g lifetime =>
    rw [step] at h
    split at h
    · next u hr =>
      split at h
      · next chan hchan => cases h; exact .underlayClosed g lifetime u chan hr hchan
      · cases h
    · cases h
  | channel e =>
    cases e with
    | run g a =>
      rw [step] at h
      split at h
      · cases h
      · next hapart =>
        obtain ⟨chan, hchan, rfl⟩ := Option.map_eq_some_iff.mp h
        refine .channel _ chan (fun g' a' he => ?_) hchan
        cases he
        simpa using hapart
    | _ =>
      obtain ⟨chan, hchan, rfl⟩ := Option.map_eq_some_iff.mp h
      exact .channel _ chan (fun g a he => by cases he) hchan

/-- The channel of the system is a channel. -/
theorem chan_reachable (hs : (redialing setup config start).Reachable ok s) :
    (Concurrent.channel setup).Reachable System.anyEvent s.chan := by
  refine hs.invariant (P := fun s => (Concurrent.channel setup).Reachable System.anyEvent s.chan)
    .init fun s e s' hreach _ hstep => ?_
  cases happens_of_step hstep with
  | tick | dial => exact hreach
  | dialFailed g t isFirst counts todo chan _ _ hchan => exact hreach.step trivial hchan
  | dialed g u t isFirst counts todo chan _ _ hchan => exact hreach.step trivial hchan
  | accepted g u accepted counts todo chan _ hchan => exact hreach.step trivial hchan
  | underlayClosed g lifetime u chan _ hchan => exact hreach.step trivial hchan
  | channel e chan _ hchan => exact hreach.step trivial hchan

/-- While one goroutine is in a call, nobody else is. -/
theorem callPart_of_ne (hs : (redialing setup config start).Reachable ok s)
    (hg : callPart (s.chan.routines g) ≠ .out) : ∀ b, b ≠ g → callPart (s.chan.routines b) = .out := by
  intro b hne
  by_contra hb
  exact hne ((flagged_unique (chan_reachable hs) g (flagged_of_callPart hg)).2 b
    (flagged_of_callPart hb))

end

end ZitiChannel.Redial
