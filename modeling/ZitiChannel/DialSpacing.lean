import ZitiChannel.Redial

/-!
# The time between dials

`MinDialInterval` is the least time between dials.  `Dial` looks how long ago the last dial was,
sleeps until the interval is over, and then writes down the time, for the next call to look at.
Only after that does it back off, and then it calls the dialer.  The time that is written down is
therefore not that of the dial: it lies before it by the wait, and by whatever else comes between.
If the next call comes to the dialer sooner after its own time was written down, the two dials are
closer than the times are.

Here one call follows another, with a clock and with underlays that are closed in between or
meanwhile.

## Main definitions

* `Start` — a call of the dialer, with the time that was written down for it.
* `dialing` — the system.
* `LagKept` — the dialer is not called sooner after the time was written down than the last time.
* `Spaced` — what is to hold of the calls of the dialer.

## Main results

* `interval_of_elapsed`, `interval_of_wait` — the interval is kept between the times that are
  written down.
* `Kept.step` — every step keeps the invariant.
* `dials_spaced` — **the dialer is called with the interval in between, if the lag does not
  shrink.**

The source is `dial_policy.go`.
-/

namespace ZitiChannel.DialSpacing

open Transition Redial

/-! ### Calls, one after the other -/

/-- A call of the dialer. -/
structure Start where
  /-- The `lastDialTime` that was written down before it. -/
  recorded : Time
  started : Time
  deriving DecidableEq

/-- A call of `Dial` that has not returned. -/
structure DialCall where
  pc : DialPc
  connectionId : GoString
  isFirst : Bool
  /-- Whether its `cancel` is closed. -/
  cancel : Bool

structure State where
  policy : BackoffDialPolicy
  now : Time
  call : Option DialCall
  /-- The calls of the dialer. -/
  starts : List Start

inductive Event
  | tick (now : Time)
  /-- `Dial` is called; no other call is going on. -/
  | dial (connectionId : GoString) (isFirst cancel : Bool)
  | cancel
  /-- A step of the call. -/
  | step (a : DialAction)
  /-- The call returns. -/
  | ret
  | underlayClosed (lifetime : Duration)

def step (s : State) : Event → Option State
  | .tick now => if s.now ≤ now then some { s with now := now } else none
  | .dial connectionId isFirst cancel =>
      match s.call with
      | none => some { s with call := some ⟨.groupConnectionId, connectionId, isFirst, cancel⟩ }
      | some _ => none
  | .cancel =>
      match s.call with
      | none => none
      | some c => some { s with call := some { c with cancel := true } }
  | .step a =>
      match s.call with
      | none => none
      | some c =>
          match c.pc.next s.policy s.now c.connectionId c.isFirst c.cancel a with
          | none => none
          | some (pc, p) =>
              -- the step to `createWithHeaders` is the call of the dialer
              some { s with
                policy := p
                call := some { c with pc := pc }
                starts :=
                  if pc = .createWithHeaders then s.starts ++ [⟨p.lastDialTime, s.now⟩]
                  else s.starts }
  | .ret =>
      match s.call with
      | some ⟨.ret _, _, _, _⟩ => some { s with call := none }
      | _ => none
  | .underlayClosed lifetime => some { s with policy := s.policy.underlayClosed lifetime s.now }

/-- A new policy, from the given time on. -/
def dialing (config : BackoffConfig) (start : Time) : System State Event where
  init := ⟨.newBackoffDialPolicy config, start, none, []⟩
  step := step

/-- The time between two calls of the dialer is the interval or more. -/
def Spaced (interval : Duration) (starts : List Start) : Prop :=
  starts.IsChain fun x y => interval.toInt ≤ y.started - x.started

/-- When the dialer is called, the interval was over when the time was written down, or no less time
has passed since then than passed before the last call. -/
def LagKept (s : State) : Event → Prop
  | .step .go => (s.call.map DialCall.pc) = some .select → ∀ x ∈ s.starts.getLast?,
      x.started + s.policy.backoff.minDialInterval.toInt ≤ s.policy.lastDialTime ∨
        x.started - x.recorded ≤ s.now - s.policy.lastDialTime
  | _ => True

/-! ### The interval between the times that are written down -/

section

variable {interval : Duration} {t now : ℤ}

theorem toInt_since (hle : t ≤ now) : (since now t).toInt = min (2 ^ 63 - 1) (now - t) := by
  unfold since
  have hmax : max (-2 ^ 63) (min (2 ^ 63 - 1) (now - t)) = min (2 ^ 63 - 1) (now - t) := by omega
  rw [hmax, Int64.toInt_ofInt, show Int64.size = 2 ^ 64 from rfl]
  exact Int.bmod_eq_of_le (by omega) (by omega)

/-- The interval is over. -/
theorem interval_of_elapsed (hle : t ≤ now) (h : ¬ since now t < interval) :
    t + interval.toInt ≤ now := by
  rw [Int64.lt_iff_toInt_lt, toInt_since hle] at h
  omega

/-- The sleep lasts until it is. -/
theorem interval_of_wait (hle : t ≤ now) (h : since now t < interval) :
    now + (interval - since now t).toInt = t + interval.toInt := by
  rw [Int64.lt_iff_toInt_lt, toInt_since hle] at h
  have hlt := interval.toInt_lt
  have helapsed : (since now t).toInt = now - t := by
    rw [toInt_since hle]
    omega
  rw [Int64.toInt_sub, helapsed, Int.bmod_eq_of_le (by omega) (by omega)]
  omega

end

/-! ### The invariant -/

/-- What holds at a point of `Dial`, of the time that is written down and of the last call of the
dialer, `last`. -/
def Place (interval : Duration) (last : Option Start) (p : BackoffDialPolicy) (now : Time) :
    DialPc → Prop
  | .waitInterval deadline => ∀ x ∈ last, x.recorded + interval.toInt ≤ deadline
  | .lastDialTime => ∀ x ∈ last, x.recorded + interval.toInt ≤ now
  | .getBackoffDelay | .waitBackoff _ | .select =>
      p.lastDialTime ≤ now ∧ ∀ x ∈ last, x.recorded + interval.toInt ≤ p.lastDialTime
  | _ => True

/-- The time for the last call of the dialer was written down before the one that is there now. -/
def Clocked (last : Option Start) (p : BackoffDialPolicy) (now : Time) : Prop :=
  ∀ x ∈ last, x.recorded ≤ p.lastDialTime ∧ p.lastDialTime ≤ now

structure Kept (config : BackoffConfig) (s : State) : Prop where
  backoff : s.policy.backoff = config
  clocked : Clocked s.starts.getLast? s.policy s.now
  place : ∀ c ∈ s.call, Place config.minDialInterval s.starts.getLast? s.policy s.now c.pc
  spaced : Spaced config.minDialInterval s.starts

section

variable {interval : Duration} {last : Option Start} {p p' : BackoffDialPolicy} {now now' : Time}
  {pc pc' : DialPc} {a : DialAction} {connectionId : GoString} {isFirst cancel : Bool}

theorem Clocked.later (h : Clocked last p now) (hle : now ≤ now') : Clocked last p now' :=
  fun x hx => ⟨(h x hx).1, (h x hx).2.trans hle⟩

theorem Place.later (h : Place interval last p now pc) (hle : now ≤ now') :
    Place interval last p now' pc := by
  cases pc with
  | lastDialTime => exact fun x hx => (h x hx).trans hle
  | getBackoffDelay => exact ⟨h.1.trans hle, h.2⟩
  | waitBackoff deadline => exact ⟨h.1.trans hle, h.2⟩
  | select => exact ⟨h.1.trans hle, h.2⟩
  | _ => exact h

/-- Only the written time of a policy matters. -/
theorem Place.congr (h : Place interval last p now pc) (hp : p'.lastDialTime = p.lastDialTime) :
    Place interval last p' now pc := by
  cases pc with
  | getBackoffDelay => exact ⟨hp ▸ h.1, hp ▸ h.2⟩
  | waitBackoff deadline => exact ⟨hp ▸ h.1, hp ▸ h.2⟩
  | select => exact ⟨hp ▸ h.1, hp ▸ h.2⟩
  | _ => exact h

theorem resetStaleFailures_lastDialTime (p : BackoffDialPolicy) (now : Time) :
    (p.resetStaleFailures now).backoff = p.backoff ∧
      (p.resetStaleFailures now).lastDialTime = p.lastDialTime := by
  unfold BackoffDialPolicy.resetStaleFailures
  split
  · exact ⟨rfl, rfl⟩
  · split
    · exact ⟨rfl, rfl⟩
    · exact ⟨rfl, rfl⟩

theorem underlayClosed_lastDialTime (p : BackoffDialPolicy) (lifetime : Duration) (now : Time) :
    (p.underlayClosed lifetime now).backoff = p.backoff ∧
      (p.underlayClosed lifetime now).lastDialTime = p.lastDialTime := by
  unfold BackoffDialPolicy.underlayClosed
  split
  · exact ⟨rfl, rfl⟩
  · exact ⟨rfl, rfl⟩

/-- What a step of `Dial` does to the time that is written down: it keeps it, and what holds at the
point it leads to follows, or it writes down the present time, the interval being over. -/
theorem next_keeps (hpos : 0 < p.backoff.minDialInterval)
    (hclocked : Clocked last p now) (hplace : Place p.backoff.minDialInterval last p now pc)
    (h : pc.next p now connectionId isFirst cancel a = some (pc', p')) :
    p'.backoff = p.backoff ∧ Clocked last p' now ∧ Place p.backoff.minDialInterval last p' now pc' ∧
      (pc' = .createWithHeaders → pc = .select ∧ a = .go ∧ p' = p) := by
  revert h
  fun_cases DialPc.next p now connectionId isFirst cancel pc a
  all_goals intro h; cases h
  case case1 => exact ⟨rfl, hclocked, trivial, by simp⟩
  case case2 =>
    obtain ⟨hbackoff, htime⟩ := resetStaleFailures_lastDialTime p now
    refine ⟨hbackoff, ?_, trivial, by simp⟩
    intro x hx
    rw [htime]
    exact hclocked x hx
  case case3 elapsed hwait =>
    -- the sleep ends when the interval is over, counted from the time that is written down
    refine ⟨rfl, hclocked, ?_, by simp⟩
    intro x hx
    obtain ⟨hrecorded, hnow⟩ := hclocked x hx
    rw [interval_of_wait hnow hwait.2]
    exact Int.add_le_add_right hrecorded _
  case case4 elapsed hover =>
    refine ⟨rfl, hclocked, ?_, by simp⟩
    intro x hx
    obtain ⟨hrecorded, hnow⟩ := hclocked x hx
    have helapsed := interval_of_elapsed hnow fun hlt => hover ⟨hpos, hlt⟩
    exact (Int.add_le_add_right hrecorded _).trans helapsed
  case case5 deadline hover => exact ⟨rfl, hclocked, fun x hx => (hplace x hx).trans hover, by simp⟩
  case case9 =>
    -- the present time is written down
    refine ⟨rfl, fun x hx => ⟨?_, le_rfl⟩, ⟨le_rfl, hplace⟩, by simp⟩
    exact (hclocked x hx).1.trans (hclocked x hx).2
  case case10 | case11 | case13 => exact ⟨rfl, hclocked, hplace, by simp⟩
  case case18 => exact ⟨rfl, hclocked, trivial, fun _ => ⟨rfl, rfl, rfl⟩⟩
  all_goals exact ⟨rfl, hclocked, trivial, by simp⟩

end

section

variable {config : BackoffConfig} {start : Time} {s s' : State} {e : Event}

theorem Kept.init : Kept config (dialing config start).init where
  backoff := rfl
  clocked := by
    intro x hx
    cases hx
  place := by
    intro c hc
    cases hc
  spaced := List.isChain_nil

/-- The dialer is called, at a time that keeps the interval to the last call. -/
theorem Kept.create (h : Kept config s) {c : DialCall} (hcall : c ∈ s.call) (hpc : c.pc = .select)
    (hlag : LagKept s (.step .go)) :
    Spaced config.minDialInterval (s.starts ++ [⟨s.policy.lastDialTime, s.now⟩]) := by
  refine List.isChain_append.mpr ⟨h.spaced, List.isChain_singleton _, ?_⟩
  intro x hx y hy
  cases hy
  have hplace := h.place c hcall
  rw [hpc] at hplace
  have hinterval : x.recorded + config.minDialInterval.toInt ≤ s.policy.lastDialTime := hplace.2 x hx
  have hnow : s.policy.lastDialTime ≤ s.now := hplace.1
  have hselect : s.call.map DialCall.pc = some .select := by
    rw [Option.mem_def.mp hcall, Option.map_some, hpc]
  obtain hover | hsame := hlag hselect x hx
  · rw [h.backoff] at hover
    exact le_sub_left_of_add_le (hover.trans hnow)
  · calc config.minDialInterval.toInt ≤ s.policy.lastDialTime - x.recorded :=
          le_sub_left_of_add_le hinterval
      _ ≤ s.now - x.started := by linarith only [hsame]

theorem Kept.step (hpos : 0 < config.minDialInterval) (h : Kept config s) (hlag : LagKept s e)
    (hstep : step s e = some s') : Kept config s' := by
  revert hstep
  fun_cases DialSpacing.step s e
  all_goals intro hstep; cases hstep
  case case1 now hle =>
    exact ⟨h.backoff, h.clocked.later hle, fun c hc => (h.place c hc).later hle, h.spaced⟩
  case case3 connectionId isFirst cancel hnone =>
    refine ⟨h.backoff, h.clocked, ?_, h.spaced⟩
    intro c hc
    cases hc
    exact trivial
  case case6 c hcall =>
    refine ⟨h.backoff, h.clocked, ?_, h.spaced⟩
    intro c' hc'
    cases hc'
    exact h.place c hcall
  case case9 a c hcall pc p hnext =>
    obtain rfl := h.backoff
    obtain ⟨hbackoff, hclocked, hplace, hcreate⟩ := next_keeps hpos h.clocked (h.place c hcall) hnext
    by_cases hpc : pc = .createWithHeaders
    · -- the dialer is called, for the time that is written down
      obtain ⟨hselect, rfl, rfl⟩ := hcreate hpc
      subst hpc
      have hnow := h.place c hcall
      rw [hselect] at hnow
      simp only [if_pos]
      refine ⟨rfl, ?_, ?_, h.create hcall hselect hlag⟩
      · intro x hx
        rw [List.getLast?_concat] at hx
        cases hx
        exact ⟨le_rfl, hnow.1⟩
      · intro c' hc'
        cases hc'
        exact trivial
    · simp only [if_neg hpc]
      refine ⟨hbackoff, hclocked, ?_, h.spaced⟩
      intro c' hc'
      cases hc'
      exact hplace
  case case10 =>
    refine ⟨h.backoff, h.clocked, ?_, h.spaced⟩
    intro c hc
    cases hc
  case case12 lifetime =>
    obtain ⟨hbackoff, htime⟩ := underlayClosed_lastDialTime s.policy lifetime s.now
    refine ⟨hbackoff.trans h.backoff, ?_, fun c hc => (h.place c hc).congr htime, h.spaced⟩
    intro x hx
    rw [htime]
    exact h.clocked x hx

/-! ### The result -/

/-- **The dials are spaced.**  In every run in which the dialer is not called sooner after the time
was written down than it was the last time, unless the interval since the last call was over by
then, the interval lies between any two calls of the dialer that follow each other. -/
theorem dials_spaced (hpos : 0 < config.minDialInterval)
    (hs : (dialing config start).Reachable LagKept s) : Spaced config.minDialInterval s.starts := by
  have hkept : Kept config s :=
    hs.invariant .init fun _ _ _ h hlag hstep => h.step hpos hlag hstep
  exact hkept.spaced

end

instance (s : State) : DecidablePred (LagKept s) := fun e => by
  unfold LagKept
  split <;> infer_instance

/-- One second between dials. -/
def spacedConfig : BackoffConfig := { defaultBackoffConfig with minDialInterval := 1000000000 }

/-- A call of `Dial` that returns an underlay, with what happens while it waits for the interval and
while it backs off. -/
def dialRun (waitInterval waitBackoff : List Event) : List Event :=
  let before : List Event := [.dial [] false false, .step .go, .step .go, .step .go]
  let recorded : List Event := [.step .go, .step (.draw 0)]
  let created : List Event :=
    [.step .go, .step (.created (some ⟨1, [], [], ∅⟩)), .step .go, .ret]
  before ++ waitInterval ++ recorded ++ waitBackoff ++ created

/-- The second call comes at once, and waits for the interval. -/
theorem dials_spaced_twice :
    ∃ s, (dialing spacedConfig 10000000000).Reachable LagKept s ∧
      s.starts.map Start.started = [10000000000, 11000000000] ∧
      Spaced spacedConfig.minDialInterval s.starts := by
  obtain ⟨s, hs, h⟩ := System.reachable_of_replay (dialing spacedConfig 10000000000) LagKept
    (dialRun [] [] ++ dialRun [.tick 11000000000, .step .go] [])
    (fun s => decide (s.starts.map Start.started = [10000000000, 11000000000])) (by decide +kernel)
  exact ⟨s, hs, of_decide_eq_true h, dials_spaced (by decide) hs⟩

/-- The first call backs off for two seconds after its time was written down.  Then a stable
underlay is closed, and the second call finds the interval over and has nothing to wait for: both
call the dialer at the same time. -/
theorem backoff_unspaced :
    ∃ s, (dialing spacedConfig 10000000000).Reachable System.anyEvent s ∧
      s.starts = [⟨10000000000, 12000000000⟩, ⟨12000000000, 12000000000⟩] ∧
      ¬ Spaced spacedConfig.minDialInterval s.starts := by
  obtain ⟨s, hs, h⟩ := System.reachable_of_replay (dialing spacedConfig 10000000000) System.anyEvent
    ([.underlayClosed 0] ++ dialRun [] [.tick 12000000000, .step .go] ++
      [.underlayClosed 30000000000] ++ dialRun [] [])
    (fun s => decide (s.starts = [⟨10000000000, 12000000000⟩, ⟨12000000000, 12000000000⟩]))
    (by decide +kernel)
  have hstarts := of_decide_eq_true h
  refine ⟨s, hs, hstarts, ?_⟩
  rw [hstarts]
  intro hspaced
  have hle := (List.isChain_cons_cons.mp hspaced).1
  exact absurd hle (by decide)

end ZitiChannel.DialSpacing
