import Mathlib.Algebra.Order.BigOperators.Group.Finset
import Mathlib.Data.Fintype.Sum
import Mathlib.Tactic.DeriveFintype
import ZitiChannel.Lib.Once
import ZitiChannel.Lib.Transition

/-!
# The two goroutines of an underlay

`startMultiplex` starts two goroutines for an underlay.  `rxer` waits in `underlay.Rx`, and nothing
but an error of the connection gets it out of there; `txer` waits in the message source, for
sendables, the closing of the channel or the close notifier that the two share.  Each closes the
underlay and the notifier when it leaves its loop, and so does whoever closes the channel, or the
underlay for another reason.  Both closings are compare-and-swaps: the connection and the Go channel
of the notifier must not be closed twice.

Whoever leaves first, the other must not be left behind in its loop.  A step is its own if it needs
neither a message nor the peer nor another caller: such steps are always there until both are past
the two closings, and there are only so many of them.  What `closeUnderlay` does behind them is not
part of this: `underlays.Remove` calls listeners and may close the channel, and the swap of the
fallback underlay takes the lock of the channel, so there a goroutine may wait for others.

## Main definitions

* `Serving`, `serving` — the goroutines of an underlay and those that close it.
* `Serving.Own` — the steps that need nobody else.

## Main results

* `serving_ends` — **once anyone has left, both goroutines leave, close and notify; nothing is
  closed twice.**

The sources are `impl.go`, `message_source.go` and `classic_impl.go`.
-/

namespace ZitiChannel

open Transition

/-- A goroutine that may close the underlay.  The first closer is `Close` of the channel. -/
inductive Goroutine (n : ℕ)
  | rxer
  | txer
  | closer (i : Fin n)
  deriving DecidableEq, Fintype

/-- Where a goroutine stands. -/
inductive ServePc
  /-- `rxer` in `underlay.Rx`, `txer` in the message source, a closer before its call. -/
  | looping
  /-- `rxer` in `rx`. -/
  | handling
  /-- `txer` in `tx`, and whether it gets to use the connection. -/
  | sending (writes : Bool)
  /-- In `underlay.Close`. -/
  | closing
  /-- In `notifier.NotifyClosed`. -/
  | notifying
  /-- Past both closings: `rxer` and `txer` before `underlays.Remove`, a closer back from
  `underlay.Close`. -/
  | past
  deriving DecidableEq

/-- Whether the goroutine has left its loop. -/
def ServePc.leaving : ServePc → Bool
  | .closing | .notifying | .past => true
  | _ => false

/-- How far a goroutine is from being past the two closings, by where it stands and what it has done
in them. -/
def ServePc.rank (close notify : OncePc) : ServePc → ℕ
  | .handling | .sending _ => 10
  | .looping => 9
  | .closing => 6 + close.rank
  | .notifying => 3 + notify.rank
  | .past => 0

/-- The goroutines of an underlay. -/
structure Serving (n : ℕ) where
  pcs : Goroutine n → ServePc
  /-- The close notification of the channel. -/
  closeNotify : Bool
  /-- `Close` of the underlay: who swaps `closed` closes the connection. -/
  close : Once (Goroutine n)
  /-- `NotifyClosed`: who swaps `notified` closes the Go channel. -/
  notify : Once (Goroutine n)

namespace Serving

/-- What can happen. -/
inductive Event (n : ℕ)
  | read
  | handled
  | rxError
  | take (writes : Bool)
  | txDone
  | txError
  /-- The message source returns `io.EOF`. -/
  | eof
  | begin (i : Fin n)
  | close (g : Goroutine n)
  | leave (g : Goroutine n)
  | notify (g : Goroutine n)
  | pass (g : Goroutine n)

variable {n : ℕ}

def setPc (s : Serving n) (g : Goroutine n) (pc : ServePc) : Serving n :=
  { s with pcs := Function.update s.pcs g pc }

/-- The goroutine goes from one place to another, under a condition. -/
def move (s : Serving n) (g : Goroutine n) (src dst : ServePc) (cond : Prop) [Decidable cond] :
    Option (Serving n) :=
  if s.pcs g = src ∧ cond then some (s.setPc g dst) else none

/-- Where a goroutine goes from `underlay.Close`: a closer has no notifier. -/
def afterClose : Goroutine n → ServePc
  | .closer _ => .past
  | _ => .notifying

def step (s : Serving n) : Event n → Option (Serving n)
  | .read => s.move .rxer .looping .handling (s.close.runs = 0)
  | .handled => s.move .rxer .handling .looping True
  | .rxError => s.move .rxer .looping .closing True
  | .take writes => s.move .txer .looping (.sending writes) True
  | .txDone =>
      match s.pcs .txer with
      | .sending writes =>
          s.move .txer (.sending writes) .looping (writes = true → s.close.runs = 0)
      | _ => none
  | .txError => s.move .txer (.sending true) .closing True
  | .eof => s.move .txer .looping .closing (s.closeNotify = true ∨ s.notify.runs = 1)
  | .begin i =>
      (s.move (.closer i) .looping .closing True).map fun s' =>
        { s' with closeNotify := s.closeNotify || decide (i.val = 0) }
  | .close g =>
      if s.pcs g = .closing then (s.close.step g).map fun o => { s with close := o } else none
  | .leave g => s.move g .closing (afterClose g) (s.close.pcs g = .passed)
  | .notify g =>
      if s.pcs g = .notifying then (s.notify.step g).map fun o => { s with notify := o } else none
  | .pass g => s.move g .notifying .past (s.notify.pcs g = .passed)

/-- Whether a step needs neither a message nor the peer nor another caller.  A closed connection
returns an error to whoever uses it, and handlers return. -/
def Own (s : Serving n) : Event n → Prop
  | .read | .take _ | .begin _ => False
  | .rxError | .txError => s.close.runs = 1
  | .txDone => s.pcs .txer = .sending false
  | _ => True

end Serving

/-- The goroutines of an underlay as a transition system: both in their loops, nothing closed. -/
def serving (n : ℕ) : System (Serving n) (Serving.Event n) where
  init := ⟨fun _ => .looping, false, .init, .init⟩
  step := Serving.step

namespace Serving

variable {n : ℕ} {s s' : Serving n}

/-! ### What a step does -/

theorem move_eq_some {g : Goroutine n} {src dst : ServePc} {cond : Prop} [Decidable cond]
    (h : s.move g src dst cond = some s') : s.pcs g = src ∧ cond ∧ s' = s.setPc g dst := by
  unfold move at h
  split at h
  · next hcond => cases h; exact ⟨hcond.1, hcond.2, rfl⟩
  · cases h

theorem move_isSome {g : Goroutine n} {src dst : ServePc} {cond : Prop} [Decidable cond]
    (hpc : s.pcs g = src) (hcond : cond) : (s.move g src dst cond).isSome = true := by
  rw [move, if_pos ⟨hpc, hcond⟩]
  rfl

def rankOf (s : Serving n) (g : Goroutine n) : ℕ :=
  (s.pcs g).rank (s.close.pcs g) (s.notify.pcs g)

/-- How far all of them are from being past the two closings. -/
def rank (s : Serving n) : ℕ := ∑ g, s.rankOf g

/-- What a goroutine can be doing in its loop. -/
def Loops : Goroutine n → ServePc → Prop
  | .rxer, pc => pc = .looping ∨ pc = .handling
  | .txer, pc => pc = .looping ∨ ∃ writes, pc = .sending writes
  | .closer _, pc => pc = .looping

/-- What a step can be: a goroutine stays in its loop, or leaves it; it takes a step in the closing
of the underlay, or is done with it; it takes a step in the notification, or is done with it. -/
theorem step_cases {e : Event n} {P : Serving n → Prop} (h : (serving n).step s e = some s')
    (loop : ∀ g dst, (s.pcs g).leaving = false → Loops g dst → P (s.setPc g dst))
    (quit : ∀ g closeNotify, (s.pcs g).leaving = false →
      P { s.setPc g .closing with closeNotify := closeNotify })
    (close : ∀ g o, s.pcs g = .closing → s.close.step g = some o → P { s with close := o })
    (leave : ∀ g, s.pcs g = .closing → s.close.pcs g = .passed → P (s.setPc g (afterClose g)))
    (notify : ∀ g o, s.pcs g = .notifying → s.notify.step g = some o → P { s with notify := o })
    (pass : ∀ g, s.pcs g = .notifying → s.notify.pcs g = .passed → P (s.setPc g .past)) :
    P s' := by
  cases e with
  | read =>
    obtain ⟨hpc, -, rfl⟩ := move_eq_some h
    exact loop _ _ (by rw [hpc]; rfl) (.inr rfl)
  | handled =>
    obtain ⟨hpc, -, rfl⟩ := move_eq_some h
    exact loop _ _ (by rw [hpc]; rfl) (.inl rfl)
  | rxError =>
    obtain ⟨hpc, -, rfl⟩ := move_eq_some h
    exact quit _ s.closeNotify (by rw [hpc]; rfl)
  | take writes =>
    obtain ⟨hpc, -, rfl⟩ := move_eq_some h
    exact loop _ _ (by rw [hpc]; rfl) (.inr ⟨writes, rfl⟩)
  | txDone =>
    simp only [serving, step] at h
    split at h
    · obtain ⟨hpc, -, rfl⟩ := move_eq_some h
      exact loop _ _ (by rw [hpc]; rfl) (.inl rfl)
    · cases h
  | txError =>
    obtain ⟨hpc, -, rfl⟩ := move_eq_some h
    exact quit _ s.closeNotify (by rw [hpc]; rfl)
  | eof =>
    obtain ⟨hpc, -, rfl⟩ := move_eq_some h
    exact quit _ s.closeNotify (by rw [hpc]; rfl)
  | begin i =>
    obtain ⟨s₁, hmove, rfl⟩ := Option.map_eq_some_iff.mp h
    obtain ⟨hpc, -, rfl⟩ := move_eq_some hmove
    exact quit _ _ (by rw [hpc]; rfl)
  | close g =>
    simp only [serving, step] at h
    split at h
    · next hpc =>
      obtain ⟨o, ho, rfl⟩ := Option.map_eq_some_iff.mp h
      exact close g o hpc ho
    · cases h
  | leave g =>
    obtain ⟨hpc, hpassed, rfl⟩ := move_eq_some h
    exact leave g hpc hpassed
  | notify g =>
    simp only [serving, step] at h
    split at h
    · next hpc =>
      obtain ⟨o, ho, rfl⟩ := Option.map_eq_some_iff.mp h
      exact notify g o hpc ho
    · cases h
  | pass g =>
    obtain ⟨hpc, hpassed, rfl⟩ := move_eq_some h
    exact pass g hpc hpassed

/-! ### The order of things -/

/-- Where a goroutine stands agrees with what it has done in the two closings. -/
structure Ordered (s : Serving n) (g : Goroutine n) : Prop where
  loops : (s.pcs g).leaving = false → Loops g (s.pcs g)
  close : s.close.pcs g ≠ .before → (s.pcs g).leaving = true
  closed : s.pcs g = .notifying ∨ s.pcs g = .past → s.close.pcs g = .passed
  notify : s.notify.pcs g ≠ .before → s.pcs g = .notifying ∨ s.pcs g = .past
  notified : s.pcs g = .past → afterClose g = .notifying → s.notify.pcs g = .passed
  idle : s.pcs g = .past → s.notify.pcs g ≠ .acting

theorem Ordered.congr {g : Goroutine n} (h : s.Ordered g) (hpc : s'.pcs g = s.pcs g)
    (hclose : s'.close.pcs g = s.close.pcs g) (hnotify : s'.notify.pcs g = s.notify.pcs g) :
    s'.Ordered g := by
  obtain ⟨h₁, h₂, h₃, h₄, h₅, h₆⟩ := h
  constructor
  · rw [hpc]; exact h₁
  · rw [hpc, hclose]; exact h₂
  · rw [hpc, hclose]; exact h₃
  · rw [hpc, hnotify]; exact h₄
  · rw [hpc, hnotify]; exact h₅
  · rw [hpc, hnotify]; exact h₆

theorem ordered (hs : (serving n).Reachable System.anyEvent s) (i : Goroutine n) : s.Ordered i := by
  refine hs.invariant (P := fun s => s.Ordered i) ?_ ?_
  · refine ⟨fun _ => ?_, fun h => absurd rfl h, fun h => ?_, fun h => absurd rfl h,
      fun h => (by cases h), fun h => (by cases h)⟩
    · cases i with
      | rxer | txer => exact .inl rfl
      | closer i => rfl
    · rcases h with h | h <;> cases h
  intro s e s' ih _ hstep
  have hother : ∀ {g dst}, i ≠ g → (s.setPc g dst).Ordered i := fun hi =>
    ih.congr (Function.update_of_ne hi _ _) rfl rfl
  -- in its loop, a goroutine has not been to either closing
  have hfresh : (s.pcs i).leaving = false → s.close.pcs i = .before ∧ s.notify.pcs i = .before := by
    intro hloop
    constructor
    · by_contra hne
      rw [ih.close hne] at hloop
      cases hloop
    · by_contra hne
      rcases ih.notify hne with h | h <;> rw [h] at hloop <;> cases hloop
  refine step_cases (P := fun s' => s'.Ordered i) hstep ?_ ?_ ?_ ?_ ?_ ?_
  · intro g dst hloop hdst
    rcases eq_or_ne i g with rfl | hi
    · obtain ⟨hclose, hnotify⟩ := hfresh hloop
      have hself : (s.setPc i dst).pcs i = dst := Function.update_self ..
      have hnot : dst ≠ .notifying ∧ dst ≠ .past := by
        cases i with
        | rxer => rcases hdst with rfl | rfl <;> decide
        | txer => rcases hdst with rfl | ⟨w, rfl⟩ <;> simp
        | closer i => rw [show dst = .looping from hdst]; decide
      refine ⟨fun _ => hself.symm ▸ hdst, fun h => absurd hclose h, fun h => ?_,
        fun h => absurd hnotify h, fun h => ?_, fun h => ?_⟩ <;> rw [hself] at h
      · rcases h with h | h
        · exact absurd h hnot.1
        · exact absurd h hnot.2
      · exact absurd h hnot.2
      · exact absurd h hnot.2
    · exact hother hi
  · intro g closeNotify hloop
    rcases eq_or_ne i g with rfl | hi
    · obtain ⟨hclose, hnotify⟩ := hfresh hloop
      have hself : Function.update s.pcs i .closing i = .closing := Function.update_self ..
      refine ⟨fun h => ?_, fun h => absurd hclose h, fun h => ?_, fun h => absurd hnotify h,
        fun h => ?_, fun h => ?_⟩
      · cases (congrArg ServePc.leaving hself).symm.trans h
      · rcases h with h | h <;> cases hself.symm.trans h
      · cases hself.symm.trans h
      · cases hself.symm.trans h
    · exact ih.congr (Function.update_of_ne hi _ _) rfl rfl
  · intro g o hpc ho
    rcases eq_or_ne i g with rfl | hi
    · refine ⟨ih.loops, fun _ => by rw [hpc]; rfl, fun h => ?_, ih.notify, ih.notified, ih.idle⟩
      rw [hpc] at h
      rcases h with h | h <;> cases h
    · exact ih.congr rfl ((Once.rank_step ho).2 i hi) rfl
  · intro g hpc hpassed
    rcases eq_or_ne i g with rfl | hi
    · have hself : (s.setPc i (afterClose i)).pcs i = afterClose i := Function.update_self ..
      have hafter : afterClose i = .notifying ∨ afterClose i = .past := by
        cases i <;> simp [afterClose]
      have hnotify : s.notify.pcs i = .before := by
        by_contra hne
        rcases ih.notify hne with h | h <;> rw [h] at hpc <;> cases hpc
      refine ⟨fun h => ?_, fun _ => ?_, fun _ => hpassed, fun h => absurd hnotify h,
        fun h hn => ?_, fun _ => ?_⟩
      · rw [hself] at h; rcases hafter with ha | ha <;> rw [ha] at h <;> cases h
      · rw [hself]; rcases hafter with ha | ha <;> rw [ha] <;> rfl
      · rw [hself, hn] at h; cases h
      · rw [show (s.setPc i _).notify.pcs i = .before from hnotify]; decide
    · exact hother hi
  · intro g o hpc ho
    rcases eq_or_ne i g with rfl | hi
    · refine ⟨ih.loops, ih.close, ih.closed, fun _ => .inl hpc, fun h => ?_, fun h => ?_⟩
      · cases hpc.symm.trans h
      · cases hpc.symm.trans h
    · exact ih.congr rfl rfl ((Once.rank_step ho).2 i hi)
  · intro g hpc hpassed
    rcases eq_or_ne i g with rfl | hi
    · have hself : (s.setPc i .past).pcs i = .past := Function.update_self ..
      refine ⟨fun h => ?_, fun _ => ?_, fun _ => ih.closed (.inl hpc), fun _ => .inr hself,
        fun _ _ => hpassed, fun _ => ?_⟩
      · rw [hself] at h; cases h
      · rw [hself]; rfl
      · rw [show (s.setPc i _).notify.pcs i = .passed from hpassed]; decide
    · exact hother hi

/-! ### Own steps lead to the end -/

/-- A step of one goroutine that brings it closer brings all of them closer. -/
theorem rank_lt {g : Goroutine n} (hother : ∀ i, i ≠ g → s'.rankOf i = s.rankOf i)
    (hlt : s'.rankOf g < s.rankOf g) : s'.rank < s.rank := by
  refine Finset.sum_lt_sum (fun i _ => ?_) ⟨g, Finset.mem_univ g, hlt⟩
  rcases eq_or_ne i g with rfl | hi
  · exact hlt.le
  · exact (hother i hi).le

/-- A move to a place that is closer. -/
theorem rank_setPc_lt {g : Goroutine n} {dst : ServePc}
    (h : dst.rank (s.close.pcs g) (s.notify.pcs g) < s.rankOf g) :
    (s.setPc g dst).rank < s.rank := by
  refine rank_lt (g := g) (fun i hi => ?_) ?_
  · rw [rankOf, show (s.setPc g dst).pcs i = s.pcs i from Function.update_of_ne hi _ _]
    rfl
  · rw [rankOf, show (s.setPc g dst).pcs g = dst from Function.update_self ..]
    exact h

/-- Leaving the loop is such a move. -/
theorem rank_closing_lt {g : Goroutine n} (h : 9 ≤ s.rankOf g) :
    (s.setPc g .closing).rank < s.rank := by
  refine rank_setPc_lt (lt_of_lt_of_le ?_ h)
  cases s.close.pcs g <;> simp [ServePc.rank, OncePc.rank]

/-- **Own steps come to an end.** -/
theorem rank_lt_of_own {e : Event n} (hown : s.Own e) (h : (serving n).step s e = some s') :
    s'.rank < s.rank := by
  cases e with
  | read | take | begin => cases hown
  | handled =>
    obtain ⟨hpc, -, rfl⟩ := move_eq_some h
    exact rank_setPc_lt (by rw [rankOf, hpc]; exact Nat.lt_succ_self 9)
  | rxError =>
    obtain ⟨hpc, -, rfl⟩ := move_eq_some h
    exact rank_closing_lt (by rw [rankOf, hpc]; exact le_refl 9)
  | txDone =>
    simp only [serving, step] at h
    split at h
    · obtain ⟨hpc, -, rfl⟩ := move_eq_some h
      exact rank_setPc_lt (by rw [rankOf, hpc]; exact Nat.lt_succ_self 9)
    · cases h
  | txError =>
    obtain ⟨hpc, -, rfl⟩ := move_eq_some h
    exact rank_closing_lt (by rw [rankOf, hpc]; exact Nat.le_succ 9)
  | eof =>
    obtain ⟨hpc, -, rfl⟩ := move_eq_some h
    exact rank_closing_lt (by rw [rankOf, hpc]; exact le_refl 9)
  | close g =>
    simp only [serving, step] at h
    split at h
    · next hpc =>
      obtain ⟨o, ho, rfl⟩ := Option.map_eq_some_iff.mp h
      obtain ⟨hlt, hother⟩ := Once.rank_step ho
      refine rank_lt (g := g) (fun i hi => ?_) ?_
      · rw [rankOf, rankOf, hother i hi]
      · rw [rankOf, rankOf, hpc]
        exact Nat.add_lt_add_left hlt 6
    · cases h
  | leave g =>
    obtain ⟨hpc, hpassed, rfl⟩ := move_eq_some h
    refine rank_setPc_lt ?_
    rw [rankOf, hpc, hpassed]
    cases g <;> cases s.notify.pcs _ <;> simp [afterClose, ServePc.rank, OncePc.rank]
  | notify g =>
    simp only [serving, step] at h
    split at h
    · next hpc =>
      obtain ⟨o, ho, rfl⟩ := Option.map_eq_some_iff.mp h
      obtain ⟨hlt, hother⟩ := Once.rank_step ho
      refine rank_lt (g := g) (fun i hi => ?_) ?_
      · rw [rankOf, rankOf, hother i hi]
      · rw [rankOf, rankOf, hpc]
        exact Nat.add_lt_add_left hlt 3
    · cases h
  | pass g =>
    obtain ⟨hpc, -, rfl⟩ := move_eq_some h
    refine rank_setPc_lt ?_
    rw [rankOf, hpc]
    exact Nat.lt_add_right _ (Nat.succ_pos 2)

/-- Nobody comes back to its loop. -/
theorem leaving_step {e : Event n} (h : (serving n).step s e = some s') {g : Goroutine n}
    (hg : (s.pcs g).leaving = true) : (s'.pcs g).leaving = true := by
  have hset : ∀ {i dst}, ((s.pcs i).leaving = true → dst.leaving = true) →
      ((s.setPc i dst).pcs g).leaving = true := by
    intro i dst hdst
    rcases eq_or_ne g i with rfl | hi
    · rw [show (s.setPc g dst).pcs g = dst from Function.update_self ..]
      exact hdst hg
    · rw [show (s.setPc i dst).pcs g = s.pcs g from Function.update_of_ne hi _ _]
      exact hg
  refine step_cases (P := fun s' => (s'.pcs g).leaving = true) h ?_ ?_ ?_ ?_ ?_ ?_
  · intro i dst hloop _; exact hset fun h => by rw [hloop] at h; cases h
  · intro i closeNotify _; exact @hset i .closing fun _ => rfl
  · intro i o _ _; exact hg
  · intro i _ _; exact hset fun _ => by cases i <;> rfl
  · intro i o _ _; exact hg
  · intro i _ _; exact hset fun _ => rfl

/-- A closing that has begun is over when nobody can go on with it. -/
theorem runs_eq_one {o : Once (Goroutine n)} {g : Goroutine n} (hg : o.pcs g = .passed)
    (hstuck : ∀ i, o.pcs i ≠ .acting) : o.runs = 1 := by
  by_contra hruns
  obtain ⟨i, hi⟩ := o.exists_acting (o.flag_of_ne_before (i := g) (by rw [hg]; decide)) hruns
  exact hstuck i hi

/-- **Until both are past the two closings, someone has an own step.** -/
theorem past_of_stuck (hs : (serving n).Reachable System.anyEvent s)
    (hleaving : ∃ g, (s.pcs g).leaving = true)
    (hstuck : ∀ e, s.Own e → (serving n).step s e = none) :
    s.pcs .rxer = .past ∧ s.pcs .txer = .past := by
  have hord := ordered hs
  have hno : ∀ {e}, s.Own e → ((serving n).step s e).isSome = true → False := fun hown h => by
    rw [hstuck _ hown] at h
    cases h
  -- nobody is in either closing
  have hclosing : ∀ g, s.pcs g ≠ .closing := by
    intro g hpc
    by_cases hpassed : s.close.pcs g = .passed
    · exact hno (e := .leave g) trivial (move_isSome hpc hpassed)
    · refine hno (e := .close g) trivial ?_
      simpa [serving, step, hpc] using Once.isSome_step hpassed
  have hnotifying : ∀ g, s.pcs g ≠ .notifying := by
    intro g hpc
    by_cases hpassed : s.notify.pcs g = .passed
    · exact hno (e := .pass g) trivial (move_isSome hpc hpassed)
    · refine hno (e := .notify g) trivial ?_
      simpa [serving, step, hpc] using Once.isSome_step hpassed
  have hpast : ∀ g, (s.pcs g).leaving = true → s.pcs g = .past := by
    intro g hg
    cases hpc : s.pcs g with
    | closing => exact absurd hpc (hclosing g)
    | notifying => exact absurd hpc (hnotifying g)
    | past => rfl
    | looping | handling | sending => rw [hpc] at hg; cases hg
  -- so the connection is closed
  have hclosed : s.close.runs = 1 := by
    obtain ⟨g, hg⟩ := hleaving
    refine runs_eq_one ((hord g).closed (.inr (hpast g hg))) fun i hi => ?_
    have hi' := hpast i ((hord i).close (by rw [hi]; decide))
    rw [(hord i).closed (.inr hi')] at hi
    cases hi
  have hrxer : s.pcs .rxer = .past := by
    by_contra hne
    have hloop : (s.pcs .rxer).leaving = false := by
      rw [← Bool.not_eq_true]
      exact fun h => hne (hpast _ h)
    rcases (hord .rxer).loops hloop with hpc | hpc
    · exact hno (e := .rxError) hclosed (move_isSome hpc trivial)
    · exact hno (e := .handled) trivial (move_isSome hpc trivial)
  -- and so is the Go channel of the notifier
  have hnotified : s.notify.runs = 1 := by
    refine runs_eq_one ((hord .rxer).notified hrxer rfl) fun i hi => ?_
    rcases (hord i).notify (by rw [hi]; decide) with hpc | hpc
    · exact hnotifying i hpc
    · exact (hord i).idle hpc hi
  refine ⟨hrxer, ?_⟩
  by_contra hne
  have hloop : (s.pcs .txer).leaving = false := by
    rw [← Bool.not_eq_true]
    exact fun h => hne (hpast _ h)
  rcases (hord .txer).loops hloop with hpc | ⟨writes, hpc⟩
  · exact hno (e := .eof) trivial (move_isSome hpc (.inr hnotified))
  · cases writes with
    | false =>
      refine hno (e := .txDone) hpc ?_
      simp only [serving, step, hpc]
      exact move_isSome hpc (fun h => by cases h)
    | true => exact hno (e := .txError) hclosed (move_isSome hpc trivial)

end Serving

open Serving in
/-- **Nobody is left behind.**  The connection and the notifier's Go channel are closed at most once
each.  Once anyone has left its loop (a goroutine by an error or by `io.EOF`, a closer by its call),
own steps lead both goroutines out of their loops and past closing and notifying: each such step
brings the goroutines closer to that, and where there is none, both are there. -/
theorem serving_ends {n : ℕ} (s : Serving n) (hs : (serving n).Reachable System.anyEvent s) :
    s.close.runs ≤ 1 ∧ s.notify.runs ≤ 1 ∧
    ((∃ g, (s.pcs g).leaving = true) →
      (∀ e s', s.Own e → (serving n).step s e = some s' →
        s'.rank < s.rank ∧ ∃ g, (s'.pcs g).leaving = true) ∧
      ((∀ e, s.Own e → (serving n).step s e = none) →
        s.pcs .rxer = .past ∧ s.pcs .txer = .past)) := by
  refine ⟨s.close.runs_le_one, s.notify.runs_le_one, fun hleaving =>
    ⟨?_, past_of_stuck hs hleaving⟩⟩
  intro e s' hown hstep
  obtain ⟨g, hg⟩ := hleaving
  exact ⟨rank_lt_of_own hown hstep, g, leaving_step hstep hg⟩

/-- The channel is closed while `rxer` waits for the peer and `txer` writes. -/
theorem serving_ends_closed :
    ∃ s, (serving 1).Reachable System.anyEvent s ∧ s.pcs .rxer = .looping ∧
      s.pcs .txer = .sending true ∧ s.close.runs = 1 ∧
      (∀ e s', s.Own e → (serving 1).step s e = some s' →
        s'.rank < s.rank ∧ ∃ g, (s'.pcs g).leaving = true) ∧
      ((∀ e, s.Own e → (serving 1).step s e = none) →
        s.pcs .rxer = .past ∧ s.pcs .txer = .past) := by
  obtain ⟨s, hs, hp⟩ := System.reachable_of_replay (serving 1) System.anyEvent
    [.read, .take true, .handled, .begin 0, .close (.closer 0), .close (.closer 0)]
    (fun s => s.pcs .rxer = .looping ∧ s.pcs .txer = .sending true ∧ s.close.runs = 1 ∧
      (s.pcs (.closer 0)).leaving = true) (by decide)
  obtain ⟨hrxer, htxer, hruns, hleaving⟩ := of_decide_eq_true hp
  exact ⟨s, hs, hrxer, htxer, hruns, (serving_ends s hs).2.2 ⟨_, hleaving⟩⟩

end ZitiChannel
