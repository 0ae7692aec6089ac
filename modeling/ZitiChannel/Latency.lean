import ZitiChannel.Handshake
import ZitiChannel.Lib.Measure
import ZitiChannel.Lib.Transition

/-!
# Latency probes

One end of a channel sends probes at intervals.  Most of them only measure how long it takes until
they are written; every so often one makes the round trip.  Which ones do is decided with a counter
of eight bits.

The other end answers from a goroutine of its own, so that an answer that cannot be sent does not
stop it from reading.  A shared counter bounds how many answers are under way.  `HandleReceive` may
run on every `rxer` at once, and adds to the counter before it looks: what it has added and takes
back again is seen by the others, and can make them drop a request although nothing is under way.

## Main definitions

* `run`, `probes` — the probes of one end.
* `handling` — `LatencyHandler` with any number of `rxer`s.

## Main results

* `probe_schedule` — **which probes make the round trip.**
* `one_response` — **at most one answer is under way, and the counter always comes back.**

The source is `latency/latency.go`.
-/

namespace ZitiChannel

namespace Latency

open Transition

/-! ### The probes -/

/-- The sendables of `latencyProbe`. -/
inductive Probe
  | roundTripLatency
  | sendTimeTracker
  deriving DecidableEq

/-- What happens around one call of `run`. -/
structure Occasion where
  /-- Whether the channel is closed when `run` begins. -/
  closed : Bool
  /-- Whether `Send` returns an error. -/
  failed : Bool
  /-- Whether the channel is closed when `run` looks again, after an error. -/
  closedAfter : Bool

/-- What `run` sends, and the count behind it. -/
def choose (roundTripFreq count : UInt8) : Probe × UInt8 :=
  if count = roundTripFreq then (.roundTripLatency, 0) else (.sendTimeTracker, count)

/-- `run`: what it sends, and the count with which it is called again, if it is. -/
def run (roundTripFreq count : UInt8) (o : Occasion) : Option Probe × Option UInt8 :=
  if o.closed then (none, none)
  else
    let (sendable, count) := choose roundTripFreq count
    if o.failed && o.closedAfter then (some sendable, none)
    else (some sendable, some (count + 1))

/-- The probes of calls of `run`, one after the other. -/
def probes (roundTripFreq : UInt8) : UInt8 → List Occasion → List Probe
  | _, [] => []
  | count, o :: os =>
      match run roundTripFreq count o with
      | (sendable, none) => sendable.toList
      | (sendable, some count) => sendable.toList ++ probes roundTripFreq count os

/-- The count before the `n`-th call. -/
def countAt (roundTripFreq : UInt8) (n : ℕ) : ℕ :=
  if roundTripFreq = 0 then n % 256
  else if n = 0 then 0 else (n - 1) % roundTripFreq.toNat + 1

/-- Which probes make the round trip. -/
def MakesRoundTrip (roundTripFreq : UInt8) (n : ℕ) : Prop :=
  if roundTripFreq = 0 then 256 ∣ n else 0 < n ∧ roundTripFreq.toNat ∣ n

theorem add_one_mod (n : ℕ) {k : ℕ} (hk : 0 < k) :
    (n + 1) % k = if n % k + 1 = k then 0 else n % k + 1 := by
  have hmod := Nat.mod_lt n hk
  have hsplit : (n + 1) % k = (n % k + 1) % k := by rw [Nat.mod_add_mod]
  rw [hsplit]
  split
  · next h => rw [h, Nat.mod_self]
  · next h => exact Nat.mod_eq_of_lt (by omega)

theorem countAt_eq_iff (roundTripFreq : UInt8) (n : ℕ) :
    countAt roundTripFreq n = roundTripFreq.toNat ↔ MakesRoundTrip roundTripFreq n := by
  unfold countAt MakesRoundTrip
  by_cases hzero : roundTripFreq = 0
  · rw [if_pos hzero, if_pos hzero, hzero]
    exact (Nat.dvd_iff_mod_eq_zero ..).symm
  · rw [if_neg hzero, if_neg hzero]
    have hpos : 0 < roundTripFreq.toNat := by
      rw [Nat.pos_iff_ne_zero]
      exact fun h => hzero (UInt8.toNat_inj.mp h)
    cases n with
    | zero => simp only [if_true, lt_irrefl, false_and, iff_false]; omega
    | succ n =>
      rw [if_neg (Nat.succ_ne_zero n), Nat.add_sub_cancel]
      rw [Nat.dvd_iff_mod_eq_zero, add_one_mod n hpos]
      simp

/-- The count goes on as the calls do. -/
theorem countAt_succ (roundTripFreq : UInt8) (n : ℕ) :
    countAt roundTripFreq (n + 1) =
      ((if countAt roundTripFreq n = roundTripFreq.toNat then 0 else countAt roundTripFreq n) + 1) %
        256 := by
  unfold countAt
  have hlt := roundTripFreq.toNat_lt
  by_cases hzero : roundTripFreq = 0
  · simp only [if_pos hzero]
    subst hzero
    have : (0 : UInt8).toNat = 0 := rfl
    rw [this]
    split <;> omega
  · have hpos : 0 < roundTripFreq.toNat := by
      rw [Nat.pos_iff_ne_zero]
      exact fun h => hzero (UInt8.toNat_inj.mp h)
    simp only [if_neg hzero, Nat.succ_ne_zero, if_false, Nat.add_sub_cancel]
    cases n with
    | zero =>
      rw [if_pos rfl, if_neg hpos.ne, Nat.zero_mod]
    | succ n =>
      rw [if_neg (Nat.succ_ne_zero n), Nat.add_sub_cancel]
      have hmod := Nat.mod_lt n hpos
      rw [add_one_mod n hpos, Nat.mod_eq_of_lt (b := 256)]
      split <;> omega

theorem choose_fst {roundTripFreq count : UInt8} {k : ℕ}
    (hcount : count.toNat = countAt roundTripFreq k) :
    (choose roundTripFreq count).1 = .roundTripLatency ↔ MakesRoundTrip roundTripFreq k := by
  rw [← countAt_eq_iff, ← hcount, UInt8.toNat_inj, choose]
  split <;> simp [*]

theorem choose_snd {roundTripFreq count : UInt8} {k : ℕ}
    (hcount : count.toNat = countAt roundTripFreq k) :
    ((choose roundTripFreq count).2 + 1).toNat = countAt roundTripFreq (k + 1) := by
  rw [countAt_succ, ← hcount, UInt8.toNat_add, choose]
  by_cases hfirst : count = roundTripFreq
  · rw [if_pos hfirst, if_pos (congrArg _ hfirst)]
    rfl
  · rw [if_neg hfirst, if_neg (fun h => hfirst (UInt8.toNat_inj.mp h))]
    rfl

/-- What one call adds to the probes. -/
theorem probes_cons (roundTripFreq count : UInt8) (o : Occasion) (os : List Occasion) :
    probes roundTripFreq count (o :: os) = [] ∨
    probes roundTripFreq count (o :: os) = [(choose roundTripFreq count).1] ∨
    probes roundTripFreq count (o :: os) = (choose roundTripFreq count).1 ::
      probes roundTripFreq ((choose roundTripFreq count).2 + 1) os := by
  have hcons : probes roundTripFreq count (o :: os) =
      match run roundTripFreq count o with
      | (sendable, none) => sendable.toList
      | (sendable, some count) => sendable.toList ++ probes roundTripFreq count os := rfl
  rw [hcons, run]
  by_cases hclosed : o.closed = true
  · rw [if_pos hclosed]
    exact .inl rfl
  · rw [if_neg hclosed]
    by_cases hstop : (o.failed && o.closedAfter) = true
    · simp only [hstop, if_true]
      exact .inr (.inl rfl)
    · simp only [hstop, Bool.false_eq_true, if_false]
      exact .inr (.inr rfl)

/-- From the call before which the count is that of the `k`-th. -/
theorem probes_from (roundTripFreq : UInt8) {sendable : Probe} :
    ∀ (os : List Occasion) (count : UInt8) (k : ℕ), count.toNat = countAt roundTripFreq k →
      ∀ n, (probes roundTripFreq count os)[n]? = some sendable →
        (sendable = .roundTripLatency ↔ MakesRoundTrip roundTripFreq (k + n)) := by
  intro os
  induction os with
  | nil => intro count k _ n h; cases h
  | cons o os ih =>
    intro count k hcount n h
    rcases probes_cons roundTripFreq count o os with hp | hp | hp
    · rw [hp] at h
      cases h
    · rw [hp] at h
      cases n with
      | zero =>
        cases h
        exact choose_fst hcount
      | succ n => cases h
    · rw [hp] at h
      cases n with
      | zero =>
        cases h
        exact choose_fst hcount
      | succ n =>
        rw [List.getElem?_cons_succ] at h
        rw [Nat.add_comm n 1, ← Nat.add_assoc]
        exact ih _ (k + 1) (choose_snd hcount) n h

/-- **Which probes make the round trip.**  However many calls of `run` there are, whatever errors
they get and whenever the channel is closed: if the frequency is `f`, the probes that make the round
trip are every `f`-th one, not counting the first.  A frequency of zero stands for `256`, and counts
the first. -/
theorem probe_schedule (roundTripFreq : UInt8) (occasions : List Occasion) (n : ℕ)
    (sendable : Probe) (h : (probes roundTripFreq 0 occasions)[n]? = some sendable) :
    sendable = .roundTripLatency ↔
      if roundTripFreq = 0 then 256 ∣ n else 0 < n ∧ roundTripFreq.toNat ∣ n := by
  have hzero : (0 : UInt8).toNat = countAt roundTripFreq 0 := by
    unfold countAt
    split <;> rfl
  have hfrom := probes_from roundTripFreq occasions 0 0 hzero n h
  rwa [Nat.zero_add] at hfrom

/-- Every third probe, with one that is lost on the way. -/
theorem probe_schedule_third :
    let occasions := (List.replicate 3 (⟨false, false, false⟩ : Occasion)) ++
      [⟨false, true, false⟩, ⟨true, false, false⟩]
    probes 3 0 occasions = [.sendTimeTracker, .sendTimeTracker, .sendTimeTracker,
      .roundTripLatency] ∧ (0 < 3 ∧ (3 : UInt8).toNat ∣ 3) := by
  intro occasions
  exact ⟨by decide, (probe_schedule 3 occasions 3 .roundTripLatency (by decide)).mp rfl⟩

/-! ### The answers -/

/-- The answer of `LatencyHandler` to a request. -/
def response (msg : Message) : Message := (newResult true []).replyTo msg

/-- `LatencyHandler` with the `rxer`s that call it and the goroutines that it starts.  The lists of
requests are a record of what became of them. -/
structure Handler where
  responses : Int32
  /-- The `rxer`s that have counted a request which they do not answer. -/
  refusing : ℕ → Option Message
  /-- The goroutines, with whether their `Send` has returned. -/
  answering : List (Message × Bool)
  /-- The answers that were sent. -/
  sent : List Message
  received : List Message
  dropped : List Message
  /-- The requests whose answer was sent. -/
  answered : List Message
  /-- The requests whose answer `Send` returned an error for. -/
  failed : List Message

/-- What can happen. -/
inductive Event
  /-- An `rxer` calls `HandleReceive`. -/
  | handleReceive (i : ℕ) (msg : Message)
  /-- It takes back what it has added, and returns. -/
  | takeBack (i : ℕ)
  /-- `Send` of a goroutine returns. -/
  | send (k : ℕ) (ok : Bool)
  /-- The goroutine ends. -/
  | finish (k : ℕ)

def step (rxers : ℕ) (s : Handler) : Event → Option Handler
  | .handleReceive i msg =>
      if i < rxers ∧ s.refusing i = none then
        let count := s.responses + 1
        let s : Handler := { s with responses := count, received := s.received ++ [msg] }
        if count < 2 then some { s with answering := s.answering ++ [(msg, false)] }
        else some { s with refusing := Function.update s.refusing i (some msg) }
      else none
  | .takeBack i =>
      match s.refusing i with
      | none => none
      | some msg =>
          some { s with
            responses := s.responses - 1
            refusing := Function.update s.refusing i none
            dropped := s.dropped ++ [msg] }
  | .send k ok =>
      match s.answering[k]? with
      | some (msg, false) =>
          let s : Handler := { s with answering := s.answering.set k (msg, true) }
          if ok then
            some { s with sent := s.sent ++ [response msg], answered := s.answered ++ [msg] }
          else some { s with failed := s.failed ++ [msg] }
      | _ => none
  | .finish k =>
      match s.answering[k]? with
      | some (_, true) =>
          some { s with responses := s.responses - 1, answering := s.answering.eraseIdx k }
      | _ => none

/-- Any number of `rxer`s and one handler. -/
def handling (rxers : ℕ) : System Handler Event where
  init := ⟨0, fun _ => none, [], [], [], [], [], []⟩
  step := step rxers

/-- The requests that are being answered: their `Send` has not returned. -/
def Handler.pending (s : Handler) : List Message :=
  (s.answering.filter fun a => !a.2).map Prod.fst

/-- The requests that were counted and are about to be dropped. -/
def Handler.refused (s : Handler) (rxers : ℕ) : List Message := Family.values rxers s.refusing

/-- What has become of the requests. -/
def Handler.fates (s : Handler) (rxers : ℕ) : List Message :=
  s.answered ++ s.failed ++ s.pending ++ s.dropped ++ s.refused rxers

/-- The invariant of the handler. -/
structure Counted (rxers : ℕ) (s : Handler) : Prop where
  responses : s.responses.toInt = s.answering.length + (s.refused rxers).length
  one : s.answering.length ≤ 1
  beyond : ∀ i, rxers ≤ i → s.refusing i = none
  received : s.received.Perm (s.fates rxers)
  sent : s.sent = s.answered.map response

/-- What a step can be. -/
theorem step_cases {rxers : ℕ} {s s' : Handler} {e : Event} {P : Handler → Prop}
    (h : step rxers s e = some s')
    (answer : ∀ i msg, i < rxers → s.refusing i = none → s.responses + 1 < 2 →
      P { s with
        responses := s.responses + 1, received := s.received ++ [msg]
        answering := s.answering ++ [(msg, false)] })
    (refuse : ∀ i msg, i < rxers → s.refusing i = none → ¬ s.responses + 1 < 2 →
      P { s with
        responses := s.responses + 1, received := s.received ++ [msg]
        refusing := Function.update s.refusing i (some msg) })
    (takeBack : ∀ i msg, s.refusing i = some msg →
      P { s with
        responses := s.responses - 1, refusing := Function.update s.refusing i none
        dropped := s.dropped ++ [msg] })
    (send : ∀ k msg, s.answering[k]? = some (msg, false) →
      P { s with
        answering := s.answering.set k (msg, true)
        sent := s.sent ++ [response msg], answered := s.answered ++ [msg] })
    (fail : ∀ k msg, s.answering[k]? = some (msg, false) →
      P { s with answering := s.answering.set k (msg, true), failed := s.failed ++ [msg] })
    (finish : ∀ k msg, s.answering[k]? = some (msg, true) →
      P { s with responses := s.responses - 1, answering := s.answering.eraseIdx k }) : P s' := by
  cases e with
  | handleReceive i msg =>
    simp only [step] at h
    split at h
    · next hi =>
      split at h
      · next hlt => cases h; exact answer i msg hi.1 hi.2 hlt
      · next hlt => cases h; exact refuse i msg hi.1 hi.2 hlt
    · cases h
  | takeBack i =>
    simp only [step] at h
    split at h
    · cases h
    · next msg hmsg => cases h; exact takeBack i msg hmsg
  | send k ok =>
    simp only [step] at h
    split at h
    · next msg hmsg =>
      cases ok with
      | true => cases h; exact send k msg hmsg
      | false => cases h; exact fail k msg hmsg
    · cases h
  | finish k =>
    simp only [step] at h
    split at h
    · next msg hmsg => cases h; exact finish k msg hmsg
    · cases h

theorem refused_length_le (rxers : ℕ) (s : Handler) : (s.refused rxers).length ≤ rxers := by
  refine (List.length_filterMap_le _ _).trans ?_
  rw [List.length_range]

theorem refused_eq_nil {rxers : ℕ} {s : Handler} (h : ∀ i < rxers, s.refusing i = none) :
    s.refused rxers = [] :=
  List.filterMap_eq_nil_iff.mpr fun i hi => h i (List.mem_range.mp hi)

/-- Adding one does not wrap where there is room. -/
theorem toInt_add_one {x : Int32} (hlow : 0 ≤ x.toInt) (hhigh : x.toInt < 2147483647) :
    (x + 1).toInt = x.toInt + 1 := by
  rw [Int32.toInt_add]
  exact Int.bmod_eq_of_le (by simp; omega) (by simp; omega)

theorem toInt_sub_one {x : Int32} (hlow : 0 < x.toInt) : (x - 1).toInt = x.toInt - 1 := by
  have hhigh := x.toInt_lt
  rw [Int32.toInt_sub]
  exact Int.bmod_eq_of_le (by simp; omega) (by simp; omega)

namespace Counted

variable {rxers : ℕ} {s : Handler}

/-- What a call of `HandleReceive` finds. -/
theorem add_one (hs : Counted rxers s) (hrxers : rxers < 2147483646) :
    (s.responses + 1).toInt = s.responses.toInt + 1 ∧
      (s.responses + 1 < 2 ↔ s.answering.length + (s.refused rxers).length = 0) := by
  have hle := refused_length_le rxers s
  have hone := hs.one
  have hcount := hs.responses
  have hadd : (s.responses + 1).toInt = s.responses.toInt + 1 :=
    toInt_add_one (by omega) (by omega)
  refine ⟨hadd, ?_⟩
  rw [Int32.lt_iff_toInt_lt, hadd, hcount, show (2 : Int32).toInt = 2 from rfl]
  omega

/-- There is only one goroutine to speak of. -/
theorem answering_eq (hs : Counted rxers s) {k : ℕ} {a : Message × Bool}
    (ha : s.answering[k]? = some a) : k = 0 ∧ s.answering = [a] := by
  have hone := hs.one
  obtain ⟨hk, hget⟩ := List.getElem?_eq_some_iff.mp ha
  obtain rfl : k = 0 := by omega
  obtain ⟨b, hb⟩ := List.length_eq_one_iff.mp (show s.answering.length = 1 by omega)
  rw [hb] at ha
  cases ha
  exact ⟨rfl, hb⟩

/-- A call counts a request that it goes on to answer. -/
theorem answer (hs : Counted rxers s) (hrxers : rxers < 2147483646) (msg : Message)
    (hfirst : s.responses + 1 < 2) :
    Counted rxers { s with
      responses := s.responses + 1, received := s.received ++ [msg]
      answering := s.answering ++ [(msg, false)] } := by
  obtain ⟨hadd, hlt⟩ := hs.add_one hrxers
  have hnone := hlt.mp hfirst
  have hcount := hs.responses
  refine ⟨?_, ?_, hs.beyond, ?_, hs.sent⟩
  · show (s.responses + 1).toInt =
      ((s.answering ++ [(msg, false)]).length : ℤ) + (s.refused rxers).length
    rw [hadd, List.length_append, List.length_singleton]
    omega
  · rw [List.length_append, List.length_singleton]
    omega
  · refine List.perm_iff_count.mpr fun m => ?_
    have hperm := hs.received.count_eq m
    simp only [Handler.fates, Handler.pending, Handler.refused, List.count_append,
      List.filter_append, List.map_append] at hperm ⊢
    simp only [List.filter_singleton, Bool.not_false, cond_true, List.map_cons, List.map_nil]
    omega

/-- Only the calls of `rxer`s count requests that they do not answer. -/
theorem beyond_update (hs : Counted rxers s) {i : ℕ} (hi : i < rxers) (held : Option Message)
    (j : ℕ) (hj : rxers ≤ j) : Function.update s.refusing i held j = none := by
  rw [Function.update_of_ne (by omega)]
  exact hs.beyond j hj

/-- A call counts a request that it does not answer. -/
theorem refuse (hs : Counted rxers s) (hrxers : rxers < 2147483646) {i : ℕ} (msg : Message)
    (hi : i < rxers) (hfree : s.refusing i = none) :
    Counted rxers { s with
      responses := s.responses + 1, received := s.received ++ [msg]
      refusing := Function.update s.refusing i (some msg) } := by
  have hput := Family.values_put hi hfree msg
  have hcount := hs.responses
  have hlength := hput.length_eq
  refine ⟨?_, hs.one, hs.beyond_update hi _, ?_, hs.sent⟩
  · rw [(hs.add_one hrxers).1]
    simp only [Handler.refused, List.length_cons] at hcount hlength ⊢
    omega
  · refine List.perm_iff_count.mpr fun m => ?_
    have hperm := hs.received.count_eq m
    have hcounts := hput.count_eq m
    simp only [Handler.fates, Handler.pending, Handler.refused, List.count_append,
      List.count_cons, List.count_nil] at hperm hcounts ⊢
    omega

/-- A call takes back what it has added. -/
theorem takeBack (hs : Counted rxers s) {i : ℕ} {msg : Message} (hmsg : s.refusing i = some msg) :
    Counted rxers { s with
      responses := s.responses - 1, refusing := Function.update s.refusing i none
      dropped := s.dropped ++ [msg] } := by
  have hi : i < rxers := by
    by_contra hge
    rw [hs.beyond i (Nat.not_lt.mp hge)] at hmsg
    cases hmsg
  have htake := Family.values_take hi hmsg
  have hcount := hs.responses
  have hlength := htake.length_eq
  simp only [Handler.refused, List.length_cons] at hcount hlength
  refine ⟨?_, hs.one, hs.beyond_update hi _, ?_, hs.sent⟩
  · rw [toInt_sub_one (by omega)]
    simp only [Handler.refused]
    omega
  · refine List.perm_iff_count.mpr fun m => ?_
    have hperm := hs.received.count_eq m
    have hcounts := htake.count_eq m
    simp only [Handler.fates, Handler.pending, Handler.refused, List.count_append,
      List.count_cons, List.count_nil] at hperm hcounts ⊢
    omega

/-- The `Send` of the goroutine returns: its request is answered, or has failed. -/
theorem returned (hs : Counted rxers s) {k : ℕ} {msg : Message}
    (hmsg : s.answering[k]? = some (msg, false)) {answered failed sent : List Message}
    (hfate : (answered ++ failed).Perm (s.answered ++ s.failed ++ [msg]))
    (hsent : sent = answered.map response) :
    Counted rxers { s with
      answering := s.answering.set k (msg, true)
      answered := answered, failed := failed, sent := sent } := by
  obtain ⟨rfl, hsingle⟩ := hs.answering_eq hmsg
  refine ⟨?_, ?_, hs.beyond, ?_, hsent⟩
  · show s.responses.toInt =
      ((s.answering.set 0 (msg, true)).length : ℤ) + (s.refused rxers).length
    rw [List.length_set]
    exact hs.responses
  · show (s.answering.set 0 (msg, true)).length ≤ 1
    rw [List.length_set]
    exact hs.one
  · refine List.perm_iff_count.mpr fun m => ?_
    have hperm := hs.received.count_eq m
    have hfates := hfate.count_eq m
    simp only [Handler.fates, Handler.pending, Handler.refused, hsingle, List.set_cons_zero,
      List.count_append] at hperm hfates ⊢
    simp only [List.filter_singleton, Bool.not_false, Bool.not_true, cond_true, cond_false,
      List.map_cons, List.map_nil, List.count_nil] at hperm ⊢
    omega

/-- The goroutine ends. -/
theorem finish (hs : Counted rxers s) {k : ℕ} {msg : Message}
    (hmsg : s.answering[k]? = some (msg, true)) :
    Counted rxers { s with responses := s.responses - 1, answering := s.answering.eraseIdx k } := by
  obtain ⟨rfl, hsingle⟩ := hs.answering_eq hmsg
  have hcount := hs.responses
  rw [hsingle, List.length_singleton] at hcount
  refine ⟨?_, ?_, hs.beyond, ?_, hs.sent⟩
  · show (s.responses - 1).toInt =
      ((s.answering.eraseIdx 0).length : ℤ) + (s.refused rxers).length
    rw [toInt_sub_one (by omega), hsingle, List.eraseIdx_cons_zero, List.length_nil]
    omega
  · show (s.answering.eraseIdx 0).length ≤ 1
    rw [hsingle]
    exact Nat.zero_le _
  · have hreceived := hs.received
    simp only [Handler.fates, Handler.pending, Handler.refused, hsingle] at hreceived ⊢
    exact hreceived

end Counted

/-- **Each step keeps the count.** -/
theorem counted_step {rxers : ℕ} (hrxers : rxers < 2147483646) {s s' : Handler} {e : Event}
    (hs : Counted rxers s) (h : step rxers s e = some s') : Counted rxers s' := by
  refine step_cases h ?_ ?_ ?_ ?_ ?_ ?_
  · intro i msg _ _ hfirst; exact hs.answer hrxers msg hfirst
  · intro i msg hi hfree _; exact hs.refuse hrxers msg hi hfree
  · intro i msg hmsg; exact hs.takeBack hmsg
  · intro k msg hmsg
    refine hs.returned hmsg ?_ ?_
    · rw [List.append_assoc, List.append_assoc]
      exact List.perm_append_comm.append_left s.answered
    · show s.sent ++ [response msg] = (s.answered ++ [msg]).map response
      rw [hs.sent, List.map_append]
      rfl
  · intro k msg hmsg
    refine hs.returned hmsg ?_ hs.sent
    rw [List.append_assoc]
  · intro k msg hmsg; exact hs.finish hmsg

/-- **At most one answer is under way.**  With fewer than `2 ^ 31 - 2` `rxer`s that call
`HandleReceive` and goroutines that are started, blocked, fail and end in any interleaving: at most
one goroutine answers; the counter is that goroutine and the calls that have yet to take back what
they added; the requests are, each as often as it was received, those that were answered, those
whose `Send` has failed, the one that is being answered, and those that were dropped or are about to
be; the answers sent are those to the answered ones; and when no call and no goroutine is on, the
next request is answered. -/
theorem one_response (rxers : ℕ) (hrxers : rxers < 2147483646) (s : Handler)
    (hs : (handling rxers).Reachable System.anyEvent s) :
    s.answering.length ≤ 1 ∧
    s.responses.toInt = s.answering.length + (s.refused rxers).length ∧
    s.received.Perm (s.answered ++ s.failed ++ s.pending ++ s.dropped ++ s.refused rxers) ∧
    s.sent = s.answered.map response ∧
    (s.answering = [] → (∀ i < rxers, s.refusing i = none) → ∀ i < rxers, ∀ msg,
      ∃ s', (handling rxers).step s (.handleReceive i msg) = some s' ∧
        s'.answering = [(msg, false)]) := by
  have hcounted : Counted rxers s := by
    refine hs.invariant (P := Counted rxers) ?_ fun s e s' hs _ h => counted_step hrxers hs h
    have hnil : (handling rxers).init.refused rxers = [] := refused_eq_nil fun _ _ => rfl
    refine ⟨?_, Nat.zero_le _, fun _ _ => rfl, ?_, rfl⟩
    · rw [hnil]
      rfl
    · rw [Handler.fates, hnil]
      exact List.Perm.refl _
  refine ⟨hcounted.one, hcounted.responses, hcounted.received, hcounted.sent, ?_⟩
  intro hnone hfree i hi msg
  have hlt : s.responses + 1 < 2 := by
    rw [(hcounted.add_one hrxers).2, hnone, refused_eq_nil hfree]
    rfl
  refine ⟨{ s with
    responses := s.responses + 1, received := s.received ++ [msg]
    answering := s.answering ++ [(msg, false)] }, ?_, by rw [hnone]; rfl⟩
  simp only [handling, step, hi, hfree i hi, hlt, and_self, if_true]

/-- Two `rxer`s.  The second drops its request, and while it takes back what it added the first
drops one too, although the answer is sent and nothing is under way. -/
theorem one_response_dropped :
    ∃ s, (handling 2).Reachable System.anyEvent s ∧ s.answering.length = 0 ∧ s.sent.length = 1 ∧
      s.responses.toInt = 2 := by
  obtain ⟨s, hs, h⟩ := System.reachable_of_replay (handling 2) System.anyEvent
    [.handleReceive 0 (newMessage 3 []), .handleReceive 1 (newMessage 3 []), .send 0 true,
      .finish 0, .handleReceive 0 (newMessage 3 [])]
    (fun s => decide (s.answering.length = 0 ∧ s.sent.length = 1 ∧ (s.refused 2).length = 2))
    (by decide)
  obtain ⟨hnone, hsent, hrefused⟩ := of_decide_eq_true h
  have hcount := (one_response 2 (by decide) s hs).2.1
  rw [hnone, hrefused] at hcount
  exact ⟨s, hs, hnone, hsent, hcount⟩

end Latency

end ZitiChannel
