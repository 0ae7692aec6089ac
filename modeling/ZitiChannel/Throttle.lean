import ZitiChannel.Redial

/-!
# Dials that come to nothing

The loop of `applyConstraints` has no brake of its own: the dial policy is to slow it down.  There are
three ways in which a dial can come to nothing.  A dial that fails is counted by `Dial` itself, and an
underlay that does not live long by `UnderlayClosed`.  A dialed underlay that `AcceptUnderlay` refuses is
counted by nobody.

What matters is said with everything else left out: the policy, the clock, and who is where in a call.

## Main definitions

* `View`, `View.Step` — calls, with everything else left out.
* `View.Kept` — the invariant.
* `Throttles` — the group's own underlays come back, and nothing resets the count at the wrong time.
* `Throttled` — what a policy is to make of calls.

## Main results

* `View.Step.kept` — every step keeps the invariant.
* `view_step` — every step of the system is one of these steps or none.
* `fruitless_throttles` — **every dial that comes to nothing is counted, and there is a wait between two
  of them in a row.**

The sources are `dial_policy.go` and `impl.go`.
-/

namespace ZitiChannel.Redial

open Transition Concurrent

/-! ### Calls, with everything else left out -/

/-- What matters: the policy, the clock, who is where in a call, and whether the channel is
closed. -/
structure View where
  policy : BackoffDialPolicy
  now : Time
  parts : ℕ → CallPart
  pcs : ℕ → DialPc
  attempts : ℕ → Attempt
  calls : List Call
  closed : Bool

def State.view (s : State) : View where
  policy := s.policy
  now := s.now
  parts g := callPart (s.chan.routines g)
  pcs := s.pcs
  attempts := s.attempts
  calls := s.calls
  closed := s.chan.ch.closed

namespace View

def setPart (x : View) (g : ℕ) (p : CallPart) : View :=
  { x with parts := Function.update x.parts g p }

def setPc (x : View) (g : ℕ) (pc : DialPc) : View := { x with pcs := Function.update x.pcs g pc }

/-- The goroutine is in a call, and its wait has been computed. -/
def Past (x : View) (g : ℕ) : Prop :=
  match x.parts g with
  | .out => False
  | .dialing => (x.pcs g).past = true
  | .accepting _ _ => True

/-- The last call came to nothing. -/
def LastFruitless (x : View) : Prop := ∃ c ∈ x.calls.getLast?, c.Fruitless

/-- The call of a goroutine returns. -/
def returns (x : View) (g : ℕ) (accepted : Bool) : View :=
  { x with
    calls := x.calls ++ [{ x.attempts g with
      after := x.policy.consecutiveFailures
      ended := x.now
      accepted := accepted
      isOpen := !x.closed }] }

section

variable (group : Underlay → Prop)

/-- The steps, if underlays that the dialer returns are of the group, the count of failures does not
wrap, and it is not reset while it matters.  That nobody else is in a call is a condition of those
that begin one or make something of the policy. -/
inductive Step (x : View) : View → Prop
  | tick (now : Time) (h : x.now ≤ now) : Step x { x with now := now }
  | close : Step x { x with closed := true }
  | start (g : ℕ) (hg : x.parts g = .out) : Step x (x.setPart g .dialing)
  | dial (g : ℕ) (a : DialAction) (connectionId : GoString) (isFirst cancel : Bool) (pc : DialPc)
      (p : BackoffDialPolicy) (hg : x.parts g = .dialing) (hother : ∀ b, b ≠ g → x.parts b = .out)
      (hnext : (x.pcs g).next x.policy x.now connectionId isFirst cancel a = some (pc, p))
      (hcancel : cancel = true → x.closed = true) (hgroup : ∀ u, a = .created (some u) → group u)
      (hwrap : x.pcs g = .record none → x.policy.consecutiveFailures ≠ 4294967295) :
      Step x { x.setPc g pc with
        policy := p
        attempts := Function.update x.attempts g
          ((x.attempts g).note x.policy x.now (x.pcs g) a) }
  | dialFailed (g : ℕ) (hg : x.parts g = .dialing) (hother : ∀ b, b ≠ g → x.parts b = .out)
      (hpc : x.pcs g = .ret none) :
      Step x (((x.setPc g .groupConnectionId).returns g false).setPart g .out)
  | dialed (g : ℕ) (u : Underlay) (hg : x.parts g = .dialing) (hpc : x.pcs g = .ret (some u)) :
      Step x ((x.setPc g .groupConnectionId).setPart g (.accepting u false))
  | refuse (g : ℕ) (u : Underlay) (hg : x.parts g = .accepting u false)
      (h : group u → x.closed = true) : Step x (x.setPart g (.accepting u true))
  | accepted (g : ℕ) (u : Underlay) (accepted : Bool)
      (hg : x.parts g = .accepting u !accepted) (hother : ∀ b, b ≠ g → x.parts b = .out) :
      Step x ((x.returns g accepted).setPart g .out)
  | shortLived (lifetime : Duration) (h : lifetime < x.policy.backoff.minStableDuration)
      (hwrap : x.policy.consecutiveFailures ≠ 4294967295) :
      Step x { x with policy := x.policy.underlayClosed lifetime x.now }
  | stable (lifetime : Duration) (h : ¬ lifetime < x.policy.backoff.minStableDuration)
      (hpast : ∀ g, ¬ x.Past g) (hlast : ¬ x.LastFruitless) :
      Step x { x with policy := x.policy.underlayClosed lifetime x.now }

end

/-! ### The invariant -/

/-- Failures are counted, and are not stale. -/
def Armed (x : View) : Prop :=
  x.policy.consecutiveFailures ≠ 0 ∧ x.policy.lastDialSuccess ≤ x.policy.lastNegativeEvent

/-- If the last call came to nothing, the attempt has a wait, and it is over at `t` or later. -/
def Waits (x : View) (a : Attempt) (t : Time) : Prop :=
  ∀ c ∈ x.calls.getLast?, c.Fruitless → 0 < a.delay ∧ c.ended + a.delay.toInt ≤ t

end View

/-- Two calls in a row that came to nothing have a wait between them. -/
def Call.Apart (c c' : Call) : Prop :=
  c.Fruitless → c'.Fruitless → 0 < c'.delay ∧ c.ended + c'.delay.toInt ≤ c'.dialed

/-- Every call that came to nothing was counted, and there is a wait between two of them in a row. -/
structure Throttled (calls : List Call) : Prop where
  counted : ∀ c ∈ calls, c.Fruitless → c.failures < c.after
  apart : calls.IsChain Call.Apart

namespace View

section

variable (group : Underlay → Prop)

/-- What holds of an attempt at a point of `Dial`. -/
def AtPc (x : View) (a : Attempt) : DialPc → Prop
  | .waitBackoff deadline => a.failures ≤ x.policy.consecutiveFailures ∧ x.Waits a deadline
  | .select => a.failures ≤ x.policy.consecutiveFailures ∧ x.Waits a x.now
  | .createWithHeaders | .record none =>
      a.failures ≤ x.policy.consecutiveFailures ∧ x.Waits a a.dialed
  -- it was counted, or the wait was cut short
  | .ret none => x.closed = true ∨ (a.failures < x.policy.consecutiveFailures ∧
      x.policy.lastDialSuccess ≤ x.policy.lastNegativeEvent ∧ x.Waits a a.dialed)
  | .record (some u) | .ret (some u) => group u
  | _ => True

/-- What holds of an attempt where the goroutine is. -/
def Fits (x : View) (a : Attempt) (pc : DialPc) : CallPart → Prop
  | .out => pc = .groupConnectionId
  | .dialing => x.AtPc group a pc
  | .accepting u refused => pc = .groupConnectionId ∧ group u ∧ (refused = true → x.closed = true)

structure Kept (config : BackoffConfig) (x : View) : Prop where
  config : x.policy.backoff = config
  clock : x.policy.lastDialSuccess ≤ x.now ∧ x.policy.lastNegativeEvent ≤ x.now
  ended : ∀ c ∈ x.calls, c.ended ≤ x.now
  fits : ∀ g, x.Fits group (x.attempts g) (x.pcs g) (x.parts g)
  armed : x.LastFruitless → x.Armed ∨ ∃ g, x.Past g
  throttled : Throttled x.calls

end

section

variable {group : Underlay → Prop} {config : BackoffConfig} {x y : View} {g : ℕ} {a : Attempt}
  {pc : DialPc} {part : CallPart}

/-- No call has returned, no failure was forgotten, and the channel was not opened again. -/
structure Later (x y : View) : Prop where
  calls : y.calls = x.calls
  now : x.now ≤ y.now
  failures : x.policy.consecutiveFailures ≤ y.policy.consecutiveFailures
  stale : x.policy.lastDialSuccess ≤ x.policy.lastNegativeEvent →
    y.policy.lastDialSuccess ≤ y.policy.lastNegativeEvent
  closed : x.closed = true → y.closed = true

theorem Waits.later {t t' : Time} (hcalls : y.calls = x.calls) (ht : t ≤ t') (h : x.Waits a t) :
    y.Waits a t' := by
  intro c hc hfruitless
  rw [hcalls] at hc
  exact ⟨(h c hc hfruitless).1, (h c hc hfruitless).2.trans ht⟩

theorem AtPc.later (hxy : Later x y) (h : x.AtPc group a pc) : y.AtPc group a pc := by
  unfold AtPc at h ⊢
  split at h
  · exact ⟨UInt32.le_trans h.1 hxy.failures, h.2.later hxy.calls le_rfl⟩
  · exact ⟨UInt32.le_trans h.1 hxy.failures, h.2.later hxy.calls hxy.now⟩
  · exact ⟨UInt32.le_trans h.1 hxy.failures, h.2.later hxy.calls le_rfl⟩
  · exact ⟨UInt32.le_trans h.1 hxy.failures, h.2.later hxy.calls le_rfl⟩
  · rcases h with hclosed | ⟨hlt, hstale, hwaits⟩
    · exact Or.inl (hxy.closed hclosed)
    · exact Or.inr ⟨UInt32.lt_of_lt_of_le hlt hxy.failures, hxy.stale hstale,
        hwaits.later hxy.calls le_rfl⟩
  · exact h
  · exact h
  · trivial

theorem Fits.later (hxy : Later x y) (h : x.Fits group a pc part) : y.Fits group a pc part := by
  cases part with
  | out => exact h
  | dialing => exact AtPc.later hxy h
  | accepting u refused => exact ⟨h.1, h.2.1, fun hr => hxy.closed (h.2.2 hr)⟩

theorem Later.armed (hxy : Later x y) (h : x.Armed) : y.Armed := by
  refine ⟨fun hzero => h.1 ?_, hxy.stale h.2⟩
  have hle := UInt32.le_iff_toNat_le.mp hxy.failures
  rw [hzero, UInt32.toNat_zero, Nat.le_zero] at hle
  exact UInt32.toNat_inj.mp hle

theorem lt_add_one {n : UInt32} (h : n ≠ 4294967295) : n < n + 1 := by
  have hne : n.toNat ≠ 4294967295 := fun h' => h (UInt32.toNat_inj.mp h')
  have hlt := n.toNat_lt
  rw [UInt32.lt_iff_toNat_lt, UInt32.toNat_add, UInt32.toNat_one]
  omega

theorem ne_zero_of_lt {m n : UInt32} (h : m < n) : n ≠ 0 := by
  rintro rfl
  exact absurd (UInt32.lt_iff_toNat_lt.mp h) (Nat.not_lt_zero _)

/-- Where everybody stays where they are, time goes on and failures add up. -/
theorem Kept.later (h : x.Kept group config) (hxy : Later x y) (hparts : y.parts = x.parts)
    (hpcs : y.pcs = x.pcs) (hattempts : y.attempts = x.attempts)
    (hconfig : y.policy.backoff = x.policy.backoff)
    (hclock : y.policy.lastDialSuccess ≤ y.now ∧ y.policy.lastNegativeEvent ≤ y.now) :
    y.Kept group config where
  config := hconfig.trans h.config
  clock := hclock
  ended c hc := (h.ended c (hxy.calls ▸ hc)).trans hxy.now
  fits g := by
    rw [hparts, hpcs, hattempts]
    exact (h.fits g).later hxy
  armed := by
    rintro ⟨c, hc, hfruitless⟩
    rw [hxy.calls] at hc
    rcases h.armed ⟨c, hc, hfruitless⟩ with harmed | ⟨g, hg⟩
    · exact Or.inl (hxy.armed harmed)
    · refine Or.inr ⟨g, ?_⟩
      rw [Past, hparts, hpcs]
      exact hg
  throttled := hxy.calls ▸ h.throttled

/-- One goroutine moves, and the policy stays as it is. -/
theorem Kept.move (h : x.Kept group config) (g : ℕ) (pc : DialPc) (part : CallPart)
    (hfits : x.Fits group (x.attempts g) pc part)
    (hpast : x.Past g → ((x.setPc g pc).setPart g part).Past g) :
    ((x.setPc g pc).setPart g part).Kept group config where
  config := h.config
  clock := h.clock
  ended := h.ended
  fits b := by
    have hlater : Later x ((x.setPc g pc).setPart g part) :=
      ⟨rfl, le_rfl, UInt32.le_refl _, id, id⟩
    rcases eq_or_ne b g with rfl | hne
    · simpa [setPc, setPart] using hfits.later hlater
    · simpa [setPc, setPart, hne] using (h.fits b).later hlater
  armed hlast := by
    refine (h.armed hlast).imp id ?_
    rintro ⟨b, hb⟩
    rcases eq_or_ne b g with rfl | hne
    · exact ⟨b, hpast hb⟩
    · refine ⟨b, ?_⟩
      simpa [Past, setPc, setPart, hne] using hb
  throttled := h.throttled

/-- The call of a goroutine returns, while nobody else is in one. -/
theorem Kept.returns (h : x.Kept group config) (g : ℕ) (accepted : Bool)
    (hother : ∀ b, b ≠ g → x.parts b = .out)
    (hcall : x.closed = false → accepted = false →
      (x.attempts g).failures < x.policy.consecutiveFailures ∧
        x.policy.lastDialSuccess ≤ x.policy.lastNegativeEvent ∧
        x.Waits (x.attempts g) (x.attempts g).dialed) :
    (((x.setPc g .groupConnectionId).returns g accepted).setPart g .out).Kept group config where
  config := h.config
  clock := h.clock
  ended := by
    intro c hc
    rcases List.mem_append.mp hc with hc | hc
    · exact h.ended c hc
    · rw [List.mem_singleton.mp hc]
      exact le_rfl
  fits b := by
    rcases eq_or_ne b g with rfl | hne
    · simp [View.returns, setPc, setPart, Fits]
    · have hfits := h.fits b
      rw [hother b hne] at hfits
      simpa [View.returns, setPc, setPart, hne, hother b hne, Fits] using hfits
  armed := by
    rintro ⟨c, hc, hopen, hnew⟩
    simp only [View.returns, setPc, setPart, List.getLast?_concat, Option.mem_some_iff] at hc
    subst hc
    obtain ⟨hlt, hstale, -⟩ := hcall (by simpa using hopen) hnew
    exact Or.inl ⟨ne_zero_of_lt hlt, hstale⟩
  throttled := by
    refine ⟨?_, List.isChain_append.mpr ⟨h.throttled.apart, .singleton _, ?_⟩⟩
    · intro c hc hfruitless
      rcases List.mem_append.mp hc with hc | hc
      · exact h.throttled.counted c hc hfruitless
      · obtain rfl := List.mem_singleton.mp hc
        exact (hcall (by simpa [setPc] using hfruitless.1) hfruitless.2).1
    · intro c hc c' hc' hfruitless hfruitless'
      simp only [List.head?_cons, Option.mem_some_iff] at hc'
      subst hc'
      exact (hcall (by simpa [setPc] using hfruitless'.1) hfruitless'.2).2.2 c hc hfruitless

theorem atPc_of_not_past (h : pc.past = false) : x.AtPc group a pc := by
  cases pc with
  | waitBackoff | select | createWithHeaders | record | ret => cases h
  | _ => trivial

/-- Before the wait is computed nothing depends on the failures. -/
theorem Kept.fits_of_not_past (h : x.Kept group config) (hpast : ¬ x.Past g) :
    y.Fits group (x.attempts g) (x.pcs g) (x.parts g) := by
  have hfits := h.fits g
  unfold Past at hpast
  generalize x.parts g = part at hfits hpast
  cases part with
  | out => exact hfits
  | dialing => exact atPc_of_not_past (by simpa using hpast)
  | accepting => exact absurd trivial hpast

section

variable {act : DialAction} {cancel : Bool} {p : BackoffDialPolicy} (hbase : 0 < config.baseDelay)
  (hlt : config.baseDelay < 8589934592) (hmax : 0 < config.maxDelay)

include hbase hlt hmax

/-- What `Dial` makes of an attempt.  If the last call came to nothing, then failures are counted when
the wait is computed. -/
theorem Kept.atPc (h : x.Kept group config)
    (hmoves : (x.pcs g).Moves x.policy x.now cancel act pc p)
    (hpc : x.AtPc group (x.attempts g) (x.pcs g))
    (harmed : x.LastFruitless → (x.pcs g).past = false → x.Armed)
    (hcancel : cancel = true → x.closed = true) (hgroup : ∀ u, act = .created (some u) → group u)
    (hwrap : x.pcs g = .record none → x.policy.consecutiveFailures ≠ 4294967295) :
    ({ x with policy := p } : View).AtPc group
      ((x.attempts g).note x.policy x.now (x.pcs g) act) pc := by
  generalize x.pcs g = pc₀ at hmoves hpc harmed hwrap
  generalize x.attempts g = a at hpc
  cases hmoves with
  | prepare _ _ _ _ _ hpc' _ => exact atPc_of_not_past hpc'
  | cancelled _ _ hc => exact Or.inl (hcancel hc)
  | waits r h0 h1 hpos =>
    refine ⟨UInt32.le_refl _, fun c hc _ => ⟨hpos, ?_⟩⟩
    exact add_le_add_left (h.ended c (List.mem_of_getLast? hc)) _
  | noWait r h0 h1 hnot =>
    refine ⟨UInt32.le_refl _, fun c hc hfruitless => absurd ?_ hnot⟩
    have hcount := (harmed ⟨c, hc, hfruitless⟩ rfl).1
    have hconfig := h.config
    subst hconfig
    exact BackoffDialPolicy.getBackoffDelay_pos hbase hlt hmax hcount h0 h1
  | waited deadline hle => exact ⟨hpc.1, hpc.2.later rfl hle⟩
  | create => exact ⟨hpc.1, hpc.2.later rfl le_rfl⟩
  | created result =>
    cases result with
    | none => exact ⟨hpc.1, hpc.2.later rfl le_rfl⟩
    | some u => exact hgroup u rfl
  | failure =>
    exact Or.inr ⟨UInt32.lt_of_le_of_lt hpc.1 (lt_add_one (hwrap rfl)), h.clock.1,
      hpc.2.later rfl le_rfl⟩
  | success u => exact hpc

/-- A step of `Dial`, while nobody else is in a call. -/
theorem Kept.dial (h : x.Kept group config) (hg : x.parts g = .dialing)
    (hother : ∀ b, b ≠ g → x.parts b = .out)
    (hmoves : (x.pcs g).Moves x.policy x.now cancel act pc p)
    (hcancel : cancel = true → x.closed = true) (hgroup : ∀ u, act = .created (some u) → group u)
    (hwrap : x.pcs g = .record none → x.policy.consecutiveFailures ≠ 4294967295) :
    ({ x.setPc g pc with
      policy := p
      attempts := Function.update x.attempts g
        ((x.attempts g).note x.policy x.now (x.pcs g) act) } : View).Kept group config := by
  have hfits := h.fits g
  rw [hg] at hfits
  have harmed : x.LastFruitless → (x.pcs g).past = false → x.Armed := by
    intro hlast hpast
    refine (h.armed hlast).resolve_right ?_
    rintro ⟨b, hb⟩
    rcases eq_or_ne b g with rfl | hne
    · rw [Past, hg] at hb
      exact absurd hb (by simp [hpast])
    · rw [Past, hother b hne] at hb
      exact hb
  obtain ⟨hconfig, hclock⟩ := hmoves.policy h.clock
  refine ⟨hconfig.trans h.config, hclock, h.ended, fun b => ?_, fun hlast => ?_, h.throttled⟩
  · rcases eq_or_ne b g with rfl | hne
    · have hpc := h.atPc hbase hlt hmax hmoves hfits harmed hcancel hgroup hwrap
      dsimp only [setPc]
      rw [Function.update_self, Function.update_self, hg]
      exact hpc.later ⟨rfl, le_rfl, UInt32.le_refl _, id, id⟩
    · have hfits := h.fits b
      rw [hother b hne] at hfits
      simpa [setPc, hne, hother b hne, Fits] using hfits
  · cases hpast : pc.past with
    | true => exact Or.inr ⟨g, by simpa [Past, setPc, hg] using hpast⟩
    | false =>
      -- the wait is yet to be computed, so that the failures count
      obtain ⟨hpc, hp⟩ := hmoves.prepared hpast
      obtain ⟨hcount, hstale⟩ := harmed hlast hpc
      refine Or.inl ⟨?_, ?_⟩
      · dsimp only
        rw [hp.failures hstale]
        exact hcount
      · dsimp only
        rw [hp.success, hp.negative]
        exact hstale

/-- **Every step keeps the invariant.** -/
theorem Step.kept (h : x.Kept group config) (hstep : x.Step group y) : y.Kept group config := by
  cases hstep with
  | tick now hle =>
    exact h.later ⟨rfl, hle, UInt32.le_refl _, id, id⟩ rfl rfl rfl rfl
      ⟨h.clock.1.trans hle, h.clock.2.trans hle⟩
  | close =>
    exact h.later ⟨rfl, le_rfl, UInt32.le_refl _, id, fun _ => rfl⟩ rfl rfl rfl rfl h.clock
  | start g hg =>
    have hfits := h.fits g
    rw [hg] at hfits
    have hmove := h.move g (x.pcs g) .dialing (by rw [hfits]; trivial)
      fun hpast => by rw [Past, hg] at hpast; exact hpast.elim
    simpa [setPc] using hmove
  | dial g act connectionId isFirst cancel pc p hg hother hnext hcancel hgroup hwrap =>
    exact h.dial hbase hlt hmax hg hother (DialPc.moves_of_next hnext) hcancel hgroup hwrap
  | dialFailed g hg hother hpc =>
    have hfits := h.fits g
    rw [hg, hpc] at hfits
    refine h.returns g false hother fun hopen _ => ?_
    rcases hfits with hclosed | hcounted
    · rw [hopen] at hclosed
      cases hclosed
    · exact hcounted
  | dialed g u hg hpc =>
    have hfits := h.fits g
    rw [hg, hpc] at hfits
    exact h.move g _ _ ⟨rfl, hfits, fun hr => by cases hr⟩ fun _ => by simp [Past, setPart]
  | refuse g u hg hclosed =>
    have hfits := h.fits g
    rw [hg] at hfits
    have hmove := h.move g (x.pcs g) (.accepting u true)
      ⟨hfits.1, hfits.2.1, fun _ => hclosed hfits.2.1⟩ fun _ => by simp [Past, setPart]
    simpa [setPc] using hmove
  | accepted g u accepted hg hother =>
    have hfits := h.fits g
    rw [hg] at hfits
    have hreturns := h.returns g accepted hother fun hopen hnew => by
      have hclosed := hfits.2.2 (by rw [hnew]; rfl)
      rw [hopen] at hclosed
      cases hclosed
    rw [setPc, ← hfits.1, Function.update_eq_self] at hreturns
    exact hreturns
  | shortLived lifetime hlt' hwrap =>
    have hpolicy : x.policy.underlayClosed lifetime x.now =
        { x.policy with
          consecutiveFailures := x.policy.consecutiveFailures + 1
          lastNegativeEvent := x.now } := if_pos hlt'
    rw [hpolicy]
    exact h.later ⟨rfl, le_rfl, UInt32.le_of_lt (lt_add_one hwrap), fun _ => h.clock.1, id⟩ rfl rfl
      rfl rfl ⟨h.clock.1, le_rfl⟩
  | stable lifetime hnot hpast hlast =>
    have hpolicy : x.policy.underlayClosed lifetime x.now =
        { x.policy with consecutiveFailures := 0 } := if_neg hnot
    rw [hpolicy]
    exact ⟨h.config, h.clock, h.ended, fun g => h.fits_of_not_past (hpast g),
      fun hfruitless => absurd hfruitless hlast, h.throttled⟩

end

end

end View

/-! ### The system does these steps -/

/-- The underlays that the dialer returns carry the group's secret; the count of failures does not
wrap; and no underlay that was stable is reported closed after a dial that came to nothing, or in a
dial once its wait has been computed. -/
def Throttles (s : State) : Event → Prop
  | .dial _ (.created (some u)) => u.headers.index groupSecretHeader = s.chan.ch.groupSecret
  | .dial g .go => s.pcs g = .record none → s.policy.consecutiveFailures ≠ 4294967295
  | .underlayClosed _ lifetime =>
      if lifetime < s.policy.backoff.minStableDuration then
        s.policy.consecutiveFailures ≠ 4294967295
      else (∀ g, ¬ s.view.Past g) ∧ ¬ s.view.LastFruitless
  | _ => True

section

variable {setup : Setup} {config : BackoffConfig} {start : Time} {s s' : State} {e : Event}
  {ok : State → Event → Prop} {g : ℕ}

/-- The underlay carries the secret of the group. -/
def OfGroup (setup : Setup) (u : Underlay) : Prop :=
  u.headers.index groupSecretHeader = setup.first.headers.index groupSecretHeader

/-- A channel with a dial policy turns an underlay of its group away only when it is closed. -/
theorem closed_of_not_admits {u : Underlay} (hdial : setup.config.dialPolicy = true)
    (hs : (redialing setup config start).Reachable ok s) (hadmits : ¬ s.chan.ch.Admits u)
    (hu : OfGroup setup u) : s.chan.ch.closed = true := by
  obtain ⟨hsecret, hpolicy, -⟩ := sameSetup (chan_reachable hs)
  rw [← Bool.not_eq_false]
  refine fun hopen => hadmits ⟨?_, hu.trans hsecret.symm, hopen⟩
  simp [ChannelImpl.isMultiUnderlayCapable, hpolicy, Config.impl, hdial]

theorem view_setPart {chan : Concurrent.State} {part : CallPart}
    (hparts : (fun b => callPart (chan.routines b)) =
      Function.update (fun b => callPart (s.chan.routines b)) g part)
    (hclosed : chan.ch.closed = s.chan.ch.closed) :
    ({ s with chan := chan } : State).view = s.view.setPart g part := by
  have hview : ({ s with chan := chan } : State).view =
      { s.view with
        parts := fun b => callPart (chan.routines b)
        closed := chan.ch.closed } := rfl
  rw [hview, hparts, hclosed]
  rfl

/-- One goroutine of the channel has moved. -/
theorem step_setPart {group : Underlay → Prop} {t : State} {chan : Concurrent.State}
    {part : CallPart}
    (hparts : (fun b => callPart (chan.routines b)) =
      Function.update (fun b => callPart (t.chan.routines b)) g part)
    (hclosed : chan.ch.closed = t.chan.ch.closed)
    (h : s.view.Step group (t.view.setPart g part)) :
    s.view.Step group ({ t with chan := chan } : State).view := by
  rw [view_setPart hparts hclosed]
  exact h

theorem view_channel {e : Concurrent.Event} {chan : Concurrent.State}
    (hdial : setup.config.dialPolicy = true)
    (hs : (redialing setup config start).Reachable ok s)
    (hapart : ∀ g a, e = .run g a → involvesPolicy (s.chan.routines g) = false)
    (hchan : (Concurrent.channel setup).step s.chan e = some chan) :
    ({ s with chan := chan } : State).view = s.view ∨
      s.view.Step (OfGroup setup) ({ s with chan := chan } : State).view := by
  rcases channel_step hapart hchan with ⟨hclosed, g, part, hpart, hparts⟩ | ⟨hclosed, hparts⟩
  · rw [view_setPart hparts hclosed]
    generalize hg : callPart (s.chan.routines g) = part₀ at hpart
    cases hpart with
    | same =>
      left
      rw [← hg]
      exact congrArg (fun parts => { s.view with parts := parts })
        (Function.update_eq_self g fun b => callPart (s.chan.routines b))
    | start => exact Or.inr (.start g hg)
    | refuse u hadmits => exact Or.inr (.refuse g u hg (closed_of_not_admits hdial hs hadmits))
  · have hview : ({ s with chan := chan } : State).view =
        { s.view with
          parts := fun b => callPart (chan.routines b)
          closed := chan.ch.closed } := rfl
    rw [hview, hclosed, hparts]
    exact Or.inr .close

/-- **Every step of the system is one of these steps, or none.** -/
theorem view_step (hdial : setup.config.dialPolicy = true)
    (hs : (redialing setup config start).Reachable Throttles s) (hok : Throttles s e)
    (hstep : (redialing setup config start).step s e = some s') :
    s'.view = s.view ∨ s.view.Step (OfGroup setup) s'.view := by
  have hsame := sameSetup (chan_reachable hs)
  cases happens_of_step hstep with
  | tick now hle => exact Or.inr (.tick now hle)
  | dial g a isFirst pc p hg hnext =>
    refine Or.inr (.dial g a _ isFirst _ pc p hg (callPart_of_ne hs (by rw [hg]; simp)) hnext
      (closed_of_closeNotify (chan_reachable hs)) ?_ ?_)
    · rintro u rfl
      exact Eq.trans hok hsame.1
    · intro hpc
      cases a with
      | go => exact hok hpc
      | _ =>
        have hpc' : s.pcs g = .record none := hpc
        rw [hpc'] at hnext
        cases hnext
  | dialFailed g t isFirst counts todo chan hr hpc hchan =>
    obtain ⟨hparts, hclosed⟩ := dialed_step hr hchan
    have hg : callPart (s.chan.routines g) = .dialing := by rw [hr]; rfl
    have hother := callPart_of_ne hs (by rw [hg]; simp)
    exact Or.inr (step_setPart
      (t := ({ s with pcs := Function.update s.pcs g .groupConnectionId } : State).returns g false)
      hparts hclosed (.dialFailed g hg hother hpc))
  | dialed g u t isFirst counts todo chan hr hpc hchan =>
    obtain ⟨hparts, hclosed⟩ := dialed_step hr hchan
    have hg : callPart (s.chan.routines g) = .dialing := by rw [hr]; rfl
    exact Or.inr (step_setPart
      (t := { s with pcs := Function.update s.pcs g .groupConnectionId }) hparts hclosed
      (.dialed g u hg hpc))
  | accepted g u accepted counts todo chan hr hchan =>
    obtain ⟨hparts, hclosed⟩ := accepted_step hr hchan
    have hg : callPart (s.chan.routines g) = .accepting u !accepted := by
      rw [hr]
      cases accepted <;> rfl
    have hother := callPart_of_ne hs (by rw [hg]; simp)
    exact Or.inr (step_setPart (t := s.returns g accepted) hparts hclosed
      (.accepted g u accepted hg hother))
  | underlayClosed g lifetime u chan hr hchan =>
    obtain ⟨hparts, hclosed⟩ := underlayClosed_step hr hchan
    have hview : ∀ p, ({ s with chan := chan, policy := p } : State).view =
        { s.view with policy := p } := by
      intro p
      have hview : ({ s with chan := chan, policy := p } : State).view =
          { s.view with
            policy := p
            parts := fun b => callPart (chan.routines b)
            closed := chan.ch.closed } := rfl
      rw [hview, hparts, hclosed]
      rfl
    have hpolicy : s.chan.ch.dialPolicy = true := hsame.2.1.trans hdial
    rw [if_pos hpolicy, hview]
    simp only [Throttles] at hok
    split at hok
    · next hlt => exact Or.inr (.shortLived lifetime hlt hok)
    · next hnot => exact Or.inr (.stable lifetime hnot hok.1 hok.2)
  | channel e chan hapart hchan => exact view_channel hdial hs hapart hchan

theorem kept_init (hstart : 0 ≤ start) :
    (redialing setup config start).init.view.Kept (OfGroup setup) config where
  config := rfl
  clock := ⟨hstart, hstart⟩
  ended c hc := by cases hc
  fits g := by
    rcases eq_or_ne g 0 with rfl | hne
    · rfl
    · simp [redialing, State.view, Concurrent.channel, hne, callPart, View.Fits]
  armed := by
    rintro ⟨c, hc, -⟩
    cases hc
  throttled := ⟨fun c hc => (by cases hc), .nil⟩

/-- **Dials that come to nothing are throttled.**  In every run in which the dialer returns underlays
of the group only, the count of failures does not wrap, and no stable underlay is reported closed at
the wrong time: every call of `dialUnderlay` that leaves the channel open and without a new underlay
raises the count, and of two such calls in a row the second calls the dialer only after a wait. -/
theorem fruitless_throttles (hdial : setup.config.dialPolicy = true)
    (hbase : 0 < config.baseDelay) (hlt : config.baseDelay < 8589934592)
    (hmax : 0 < config.maxDelay) (hstart : 0 ≤ start)
    (hs : (redialing setup config start).Reachable Throttles s) : Throttled s.calls := by
  have hkept : s.view.Kept (OfGroup setup) config := by
    refine hs.invariant_of_reachable (P := fun s => s.view.Kept (OfGroup setup) config)
      (kept_init hstart) fun s e s' hreach hkept hok hstep => ?_
    rcases view_step hdial hreach hok hstep with hsame | hmove
    · rw [hsame]
      exact hkept
    · exact View.Step.kept hbase hlt hmax hkept hmove
  exact hkept.throttled

end

/-! ### Two runs -/

/-- The channel that wants two underlays is made, and goroutine 3 dials. -/
def beginRun : List Event :=
  (List.replicate 4 (.channel (.run 0 .go)) : List Event) ++
    ([.channel (.run 0 (.start 1 2)), .channel (.run 0 (.spawn 3))] : List Event) ++
    (List.replicate 6 (.channel (.run 3 .go)) : List Event) ++
    ([.channel (.run 3 (.order [⟨defaultUnderlayType, ⟨2, 1⟩⟩]))] : List Event) ++
    (List.replicate 2 (.channel (.run 3 .go)) : List Event)

/-- The loop goes round, and goroutine 3 dials again. -/
def againRun : List Event :=
  (List.replicate 2 (.channel (.run 3 .go)) : List Event) ++
    ([.channel (.run 3 (.order [⟨defaultUnderlayType, ⟨2, 1⟩⟩]))] : List Event) ++
    (List.replicate 2 (.channel (.run 3 .go)) : List Event)

/-- `Dial` up to the wait, and from there on. -/
def dialRun (wait : List Event) (result : Option Underlay) : List Event :=
  (List.replicate 4 (.dial 3 .go) : List Event) ++ ([.dial 3 (.draw 0)] : List Event) ++ wait ++
    ([.dial 3 .go, .dial 3 (.created result), .dial 3 .go, .dialed 3] : List Event)

/-- The dialer fails, and nothing is reported closed. -/
def DialerFails (s : State) : Event → Prop
  | .dial _ (.created (some _)) | .underlayClosed _ _ => False
  | .dial _ .go => s.policy.consecutiveFailures ≠ 4294967295
  | _ => True

instance (s : State) : DecidablePred (DialerFails s) := fun e => by
  unfold DialerFails
  split <;> infer_instance

/-- The dialer fails twice: the second time it is called two seconds later. -/
theorem fruitless_throttles_twice :
    ∃ s, (redialing pairSetup defaultBackoffConfig 1).Reachable Throttles s ∧
      s.calls.map (fun c => (c.failures, c.after, c.delay)) = [(0, 1, 0), (1, 2, 2000000000)] ∧
      (∀ c ∈ s.calls, c.Fruitless) ∧ Throttled s.calls := by
  obtain ⟨s, hs, h⟩ := System.reachable_of_replay (redialing pairSetup defaultBackoffConfig 1)
    DialerFails (beginRun ++ dialRun [] none ++ againRun ++
      dialRun [.tick 2000000001, .dial 3 .go] none)
    (fun s => decide (s.calls.map (fun c => (c.failures, c.after, c.delay)) =
      [(0, 1, 0), (1, 2, 2000000000)] ∧ ∀ c ∈ s.calls, c.Fruitless)) (by decide +kernel)
  have hs' : (redialing pairSetup defaultBackoffConfig 1).Reachable Throttles s := by
    refine System.Steps.mono (fun s e hok => ?_) hs
    cases e with
    | dial g a =>
      cases a with
      | go => exact fun _ => hok
      | created result =>
        cases result with
        | none => trivial
        | some u => exact hok.elim
      | _ => trivial
    | underlayClosed => exact hok.elim
    | _ => trivial
  obtain ⟨hcalls, hfruitless⟩ := of_decide_eq_true h
  exact ⟨s, hs', hcalls, hfruitless,
    fruitless_throttles rfl (by decide) (by decide) (by decide) (by decide) hs'⟩

/-- `Dial` returns an underlay that carries another secret, and it is refused. -/
def refusedRun : List Event :=
  dialRun [] (some ⟨1, [], [], Finmap.singleton groupSecretHeader [8]⟩) ++
    List.replicate 3 (.channel (.run 3 .go)) ++ [.accepted 3]

/-- The peer answers with another secret: the underlay is refused, and the next dial follows at
once. -/
theorem refused_unthrottled :
    ∃ s, (redialing pairSetup defaultBackoffConfig 1).Reachable System.anyEvent s ∧
      s.chan.ch.closed = false ∧ s.calls.length = 2 ∧ (∀ c ∈ s.calls, c.Fruitless ∧
        c.failures = 0 ∧ c.after = 0 ∧ c.delay = 0 ∧ c.ended = 1) ∧ ¬ Throttled s.calls := by
  obtain ⟨s, hs, h⟩ := System.reachable_of_replay (redialing pairSetup defaultBackoffConfig 1)
    System.anyEvent (beginRun ++ refusedRun ++ againRun ++ refusedRun)
    (fun s => decide (s.chan.ch.closed = false ∧ s.calls.length = 2 ∧ ∀ c ∈ s.calls, c.Fruitless ∧
      c.failures = 0 ∧ c.after = 0 ∧ c.delay = 0 ∧ c.ended = 1)) (by decide +kernel)
  obtain ⟨hopen, hlength, hcalls⟩ := of_decide_eq_true h
  refine ⟨s, hs, hopen, hlength, hcalls, fun hthrottled => ?_⟩
  obtain ⟨c, hc⟩ := List.exists_mem_of_length_pos (by omega : 0 < s.calls.length)
  obtain ⟨hfruitless, hbefore, hafter, -⟩ := hcalls c hc
  have hlt := hthrottled.counted c hc hfruitless
  rw [hbefore, hafter] at hlt
  exact absurd hlt (by decide)

end ZitiChannel.Redial
