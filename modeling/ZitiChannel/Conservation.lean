import ZitiChannel.Multiplex

/-!
# Conservation of sendables

A sendable that a sender accepted may pass through several queues and several `txer`s
before it is done.  At every moment it is in one place: a slot of a queue, the hands of
one `txer`, or done.  Whoever holds it alone may write it and tell its listener, so what
the listener was told and how often it was written follow from where it is.

## Main definitions

* `Place`, `Tied` — where every sendable is, and that queues and `txer`s agree with it.
* `TxPc.accounts` — what a listener was told of a sendable at each point.
* `Location`, `TxState.At` — the slots, hands and the end, as they stand in the state.
* `ErrC` — the error channel of a `sendWaitEnvelope`.

## Main results

* `tied_multiplex` — queues and `txer`s agree on where every sendable is.
* `sendable_conservation` — **an accepted sendable is in exactly one place, is written at
  most once, and its listener sees at most one terminal outcome.**
-/

namespace ZitiChannel

open Transition

/-! ### Where a sendable is -/

/-- Where a sendable is. -/
inductive Place
  /-- Not accepted. -/
  | outside
  | queue (q : ℕ)
  /-- In the hands of a `txer`. -/
  | held (t : ℕ)
  | finished
  deriving DecidableEq

/-- Queues, `txer`s and records agree on where every sendable is. -/
structure Tied (s : TxState) (place : ℕ → Place) : Prop where
  queue : ∀ q x, x ∈ (s.queues q).items ↔ place x = .queue q
  nodup : ∀ q, (s.queues q).items.Nodup
  held : ∀ t x, (s.txers t).sendable = some x ↔ place x = .held t
  finished : ∀ x, s.finished x = true ↔ place x = .finished
  accepted : ∀ x, s.accepted x = true ↔ place x ≠ .outside

section

variable {s : TxState} {place : ℕ → Place} {x : ℕ}

/-- Put a sendable that no queue holds at the end of one. -/
theorem Tied.push (h : Tied s place) {q : ℕ} {queue : Queue ℕ}
    (hpush : (s.queues q).push? x = some queue) (hx : ∀ q, place x ≠ .queue q) :
    (∀ q' y, y ∈ ((s.setQueue q queue).queues q').items ↔
      Function.update place x (.queue q) y = .queue q') ∧
    ∀ q', ((s.setQueue q queue).queues q').items.Nodup := by
  obtain ⟨-, -, hitems⟩ := Queue.push?_eq_some hpush
  have hnot : ∀ q', x ∉ (s.queues q').items := fun q' hmem => hx q' ((h.queue q' x).mp hmem)
  constructor
  · intro q' y
    have hy := h.queue q' y
    rcases eq_or_ne q' q with rfl | hq
    · rcases eq_or_ne y x with rfl | hyx
      · simp [TxState.setQueue, hitems]
      · simp [TxState.setQueue, hitems, hyx, hy]
    · rcases eq_or_ne y x with rfl | hyx
      · simp [TxState.setQueue, hq, hq.symm, hnot q']
      · simp [TxState.setQueue, hq, hyx, hy]
  · intro q'
    rcases eq_or_ne q' q with rfl | hq
    · have hnew : ((s.queues q').items ++ [x]).Nodup :=
        List.nodup_append.mpr ⟨h.nodup q', List.nodup_singleton x, fun a ha b hb => by
          rw [List.mem_singleton] at hb
          rintro rfl
          exact hnot q' (hb ▸ ha)⟩
      simpa [TxState.setQueue, hitems] using hnew
    · simpa [TxState.setQueue, hq] using h.nodup q'

/-- Take the oldest sendable out of a queue, into any place that is not a queue. -/
theorem Tied.pop (h : Tied s place) {q : ℕ} {rest : Queue ℕ} {p : Place}
    (hpop : (s.queues q).pop? = some (x, rest)) (hp : ∀ q, p ≠ .queue q) :
    (∀ q' y, y ∈ ((s.setQueue q rest).queues q').items ↔
      Function.update place x p y = .queue q') ∧
    ∀ q', ((s.setQueue q rest).queues q').items.Nodup := by
  obtain ⟨-, hitems⟩ := Queue.pop?_eq_some hpop
  have hnd := h.nodup q
  rw [hitems, List.nodup_cons] at hnd
  have hplace : place x = .queue q := (h.queue q x).mp (by rw [hitems]; exact List.mem_cons_self)
  constructor
  · intro q' y
    have hy := h.queue q' y
    rcases eq_or_ne q' q with rfl | hq
    · rcases eq_or_ne y x with rfl | hyx
      · simp [TxState.setQueue, hnd.1, hp q']
      · rw [hitems, List.mem_cons] at hy
        simpa [TxState.setQueue, hyx] using hy
    · rcases eq_or_ne y x with rfl | hyx
      · have hnot : y ∉ (s.queues q').items := by
          rw [hy, hplace]
          rintro ⟨⟩
          exact hq rfl
        simp [TxState.setQueue, hq, hnot, hp q']
      · simp [TxState.setQueue, hq, hyx, hy]
  · intro q'
    rcases eq_or_ne q' q with rfl | hq
    · simpa [TxState.setQueue] using hnd.2
    · simpa [TxState.setQueue, hq] using h.nodup q'

/-- Move a sendable into or out of the hands of a `txer`: the others hold what they
held. -/
theorem held_setTxer (h : ∀ t y, (s.txers t).sendable = some y ↔ place y = .held t) {t : ℕ}
    {pc : TxPc} {p : Place} (hbefore : ∀ y, (s.txers t).sendable = some y → y = x)
    (hx : ∀ t', place x = .held t' → t' = t) (hp : ∀ t', p = .held t' → t' = t)
    (hafter : ∀ y, pc.sendable = some y ↔ y = x ∧ p = .held t) (t' y : ℕ) :
    ((s.setTxer t pc).txers t').sendable = some y ↔
      Function.update place x p y = .held t' := by
  have hy := h t' y
  rcases eq_or_ne t' t with rfl | ht
  · rcases eq_or_ne y x with rfl | hyx
    · simp [TxState.setTxer, hafter]
    · have hnot : (s.txers t').sendable ≠ some y := fun hs => hyx (hbefore y hs)
      simp [TxState.setTxer, hafter, hyx, ← hy, hnot]
  · rcases eq_or_ne y x with rfl | hyx
    · have hnot : place y ≠ .held t' := fun hpl => ht (hx t' hpl)
      have hnot' : p ≠ .held t' := fun hpl => ht (hp t' hpl)
      simp [TxState.setTxer, ht, hy, hnot, hnot']
    · simp [TxState.setTxer, ht, hyx, hy]

/-- A `txer` that goes on with what it holds. -/
theorem held_setTxer_same (h : ∀ t y, (s.txers t).sendable = some y ↔ place y = .held t) {t : ℕ}
    {pc : TxPc} (hpc : pc.sendable = (s.txers t).sendable) (t' y : ℕ) :
    ((s.setTxer t pc).txers t').sendable = some y ↔ place y = .held t' := by
  rcases eq_or_ne t' t with rfl | ht
  · simp [TxState.setTxer, hpc, h]
  · simp [TxState.setTxer, ht, h]

/-- A `txer` that gives its sendable away. -/
theorem held_setTxer_none (h : ∀ t y, (s.txers t).sendable = some y ↔ place y = .held t) {t : ℕ}
    {pc : TxPc} {p : Place} (hx : (s.txers t).sendable = some x) (hpc : pc.sendable = none)
    (hp : ∀ t', p ≠ .held t') (t' y : ℕ) :
    ((s.setTxer t pc).txers t').sendable = some y ↔ Function.update place x p y = .held t' := by
  have hplace := (h t x).mp hx
  refine held_setTxer h ?_ ?_ ?_ ?_ t' y
  · intro y hy; rw [hx] at hy; cases hy; rfl
  · intro t' ht'; rw [hplace] at ht'; cases ht'; rfl
  · intro t' ht'; exact absurd ht' (hp t')
  · intro y; simp [hpc, hp t]

/-- A `txer` that takes a sendable nobody holds. -/
theorem held_setTxer_some (h : ∀ t y, (s.txers t).sendable = some y ↔ place y = .held t) {t : ℕ}
    (hnone : (s.txers t).sendable = none) (hx : ∀ t', place x ≠ .held t') (t' y : ℕ) :
    ((s.setTxer t (.check x)).txers t').sendable = some y ↔
      Function.update place x (.held t) y = .held t' := by
  refine held_setTxer h ?_ ?_ ?_ ?_ t' y
  · intro y hy; rw [hnone] at hy; cases hy
  · intro t' ht'; exact absurd ht' (hx t')
  · rintro t' ⟨⟩; rfl
  · intro y; simp [TxPc.sendable, eq_comm]

/-- What a move leaves as it was. -/
theorem update_place_iff (Q : Place → Prop) {p : Place} (hx : Q p ↔ Q (place x)) (y : ℕ) :
    Q (Function.update place x p y) ↔ Q (place y) := by
  rcases eq_or_ne y x with rfl | hyx
  · rwa [Function.update_self]
  · rw [Function.update_of_ne hyx]

/-- Where the sendable of a step is afterwards. -/
def TxEffect.moved (t : ℕ) (place : ℕ → Place) : TxEffect → ℕ → Place
  | .take _ x _ => Function.update place x (.held t)
  | .finish x _ => Function.update place x .finished
  | .requeue q x _ => Function.update place x (.queue q)
  | .hand t' x => Function.update place x (.held t')
  | _ => place

/-- A step of a `txer` moves at most the sendable it holds or takes. -/
theorem Tied.txNext {setup : MuxSetup} {t : ℕ} {a : TxAction} {pc : TxPc} {e : TxEffect}
    (h : Tied s place) (hnext : txNext setup s t (s.txers t) a = some (pc, e)) :
    Tied ((s.setTxer t pc).apply e) (e.moved t place) := by
  have hm := txNext_moves hnext
  cases e with
  | quiet => exact ⟨h.queue, h.nodup, held_setTxer_same h.held hm, h.finished, h.accepted⟩
  | notify x n | addWaiter x | written x | removeWaiter x =>
    exact ⟨h.queue, h.nodup, held_setTxer_same h.held (hm.2.trans hm.1.symm), h.finished,
      h.accepted⟩
  | take q x rest =>
    obtain ⟨hnone, rfl, hpop⟩ := hm
    have hplace : place x = .queue q :=
      (h.queue q x).mp (by rw [(Queue.pop?_eq_some hpop).2]; exact List.mem_cons_self)
    obtain ⟨hqueue, hnodup⟩ := h.pop (p := .held t) hpop (by simp)
    exact ⟨hqueue, hnodup, held_setTxer_some h.held hnone (by simp [hplace]),
      fun y => (h.finished y).trans (update_place_iff (· = .finished) (by simp [hplace]) y).symm,
      fun y => (h.accepted y).trans (update_place_iff (· ≠ .outside) (by simp [hplace]) y).symm⟩
  | finish x n =>
    obtain ⟨hx, hnone⟩ := hm
    have hplace : place x = .held t := (h.held t x).mp hx
    refine ⟨fun q y => (h.queue q y).trans
        (update_place_iff (· = .queue q) (by simp [hplace]) y).symm,
      h.nodup, held_setTxer_none h.held hx hnone (by simp), fun y => ?_,
      fun y => (h.accepted y).trans (update_place_iff (· ≠ .outside) (by simp [hplace]) y).symm⟩
    have hy := h.finished y
    rcases eq_or_ne y x with rfl | hyx
    · simp [TxState.apply, TxEffect.moved]
    · simpa [TxState.apply, TxState.notify, TxState.setTxer, TxEffect.moved, hyx] using hy
  | requeue q x queue =>
    obtain ⟨hx, hnone, hpush⟩ := hm
    have hplace : place x = .held t := (h.held t x).mp hx
    obtain ⟨hqueue, hnodup⟩ := h.push hpush (by simp [hplace])
    exact ⟨hqueue, hnodup, held_setTxer_none h.held hx hnone (by simp),
      fun y => (h.finished y).trans (update_place_iff (· = .finished) (by simp [hplace]) y).symm,
      fun y => (h.accepted y).trans (update_place_iff (· ≠ .outside) (by simp [hplace]) y).symm⟩
  | hand t' x =>
    obtain ⟨hx, hnone, hsource⟩ := hm
    have hplace : place x = .held t := (h.held t x).mp hx
    have hne : t' ≠ t := by rintro rfl; rw [hsource] at hx; cases hx
    refine ⟨fun q y => (h.queue q y).trans
        (update_place_iff (· = .queue q) (by simp [hplace]) y).symm, h.nodup, ?_,
      fun y => (h.finished y).trans (update_place_iff (· = .finished) (by simp [hplace]) y).symm,
      fun y => (h.accepted y).trans (update_place_iff (· ≠ .outside) (by simp [hplace]) y).symm⟩
    -- first the sendable leaves one pair of hands, then it comes into the other
    have hgone := held_setTxer_none (p := .finished) h.held hx hnone (by simp)
    have hidle : ((s.setTxer t pc).txers t').sendable = none := by
      simp [TxState.setTxer, hne, hsource, TxPc.sendable]
    have hthere := held_setTxer_some (x := x) hgone hidle (by simp)
    rwa [Function.update_idem] at hthere

/-! ### What the listener was told -/

/-- A terminal notice: the sendable was written, or it was not. -/
inductive Outcome
  | after
  | err
  deriving DecidableEq

/-- Whether a notice is terminal. -/
def Notice.outcome : Notice → Option Outcome
  | .beforeWrite => none
  | .afterWrite => some .after
  | .err _ => some .err

/-- The terminal notices a listener saw. -/
def terminals (ns : List Notice) : List Outcome := ns.filterMap Notice.outcome

theorem terminals_append (ns : List Notice) (n : Notice) :
    terminals (ns ++ [n]) = terminals ns ++ n.outcome.toList := by
  unfold terminals
  rw [List.filterMap_append]
  cases n <;> rfl

/-- The terminal notices and successful writes of a sendable. -/
def TxState.account (s : TxState) (x : ℕ) : List Outcome × ℕ :=
  (terminals (s.notices x), s.writes x)

/-- The account of the sendable that a `txer` at this point holds. -/
def TxPc.account : TxPc → List Outcome × ℕ
  | .wrote _ => ([], 1)
  | .refused _ => ([.err], 0)
  | _ => ([], 0)

/-- The account of a sendable that `tx` is done with: a tracer, a written sendable, one that
timed out or whose write timeout could not be set, and one that no queue took back. -/
def finals : List (List Outcome × ℕ) := [([], 0), ([.after], 1), ([.err], 0), ([.err, .after], 0)]

/-- The accounts that a sendable can have, by where it is. -/
def TxState.Fits (s : TxState) (account : List Outcome × ℕ) : Place → Prop
  | .outside | .queue _ => account = ([], 0)
  | .held t => account = (s.txers t).account
  | .finished => account ∈ finals

/-- The account of every sendable follows from where it is. -/
def Accounted (s : TxState) (place : ℕ → Place) : Prop := ∀ x, s.Fits (s.account x) (place x)

/-- What a step does to the account of the sendable it is about. -/
def TxEffect.Charges (before after : TxPc) : TxEffect → Prop
  | .quiet | .addWaiter _ | .removeWaiter _ => after.account = before.account
  | .take _ _ _ => after.account = ([], 0)
  | .notify _ n => after.account = (before.account.1 ++ n.outcome.toList, before.account.2)
  | .written _ => after.account = (before.account.1, before.account.2 + 1)
  | .finish _ n => (before.account.1 ++ n.outcome.toList, before.account.2) ∈ finals
  | .requeue _ _ _ | .hand _ _ => before.account = ([], 0)

theorem txNext_charges {setup : MuxSetup} {t : ℕ} {a : TxAction} {pc pc' : TxPc} {e : TxEffect}
    (h : txNext setup s t pc a = some (pc', e)) : e.Charges pc pc' := by
  revert h
  fun_cases txNext setup s t pc a
  all_goals intro h; cases h
  all_goals simp [TxEffect.Charges, TxPc.account, Notice.outcome, finals]

/-- A `txer` matters to no sendable but the one it holds. -/
theorem fits_setTxer {t : ℕ} {pc : TxPc} {account : List Outcome × ℕ} {p : Place}
    (hp : p = .held t → pc.account = (s.txers t).account) :
    (s.setTxer t pc).Fits account p ↔ s.Fits account p := by
  cases p with
  | outside | queue | finished => rfl
  | held t' =>
    rcases eq_or_ne t' t with rfl | ht
    · simp [TxState.Fits, TxState.setTxer, hp rfl]
    · simp [TxState.Fits, TxState.setTxer, ht]

theorem account_notify (y : ℕ) (n : Notice) : (s.notify x n).account y =
    if y = x then ((s.account x).1 ++ n.outcome.toList, (s.account x).2) else s.account y := by
  rcases eq_or_ne y x with rfl | hyx
  · simp [TxState.account, TxState.notify, terminals_append]
  · simp [TxState.account, TxState.notify, hyx]

theorem Accounted.txNext {setup : MuxSetup} {t : ℕ} {a : TxAction} {pc : TxPc} {e : TxEffect}
    (h : Tied s place) (hacc : Accounted s place)
    (hnext : txNext setup s t (s.txers t) a = some (pc, e)) :
    Accounted ((s.setTxer t pc).apply e) (e.moved t place) := by
  have hm := txNext_moves hnext
  have hc := txNext_charges hnext
  -- what `t` does not hold is not affected by where `t` stands
  have hother : ∀ y, place y ≠ .held t → (s.setTxer t pc).Fits (s.account y) (place y) :=
    fun y hy => (fits_setTxer fun hp => absurd hp hy).mpr (hacc y)
  -- the account of what `t` holds
  have hmine : ∀ x, (s.txers t).sendable = some x →
      place x = .held t ∧ s.account x = (s.txers t).account := by
    intro x hx
    have hplace := (h.held t x).mp hx
    have hx' := hacc x
    rw [hplace] at hx'
    exact ⟨hplace, hx'⟩
  have hnot : ∀ x y, (s.txers t).sendable = some x → y ≠ x → place y ≠ .held t := by
    intro x y hx hyx hy
    rw [(h.held t y).mpr hy] at hx
    exact hyx (Option.some.inj hx)
  intro y
  cases e with
  | quiet | addWaiter x | removeWaiter x => exact (fits_setTxer fun _ => hc).mpr (hacc y)
  | take q x rest =>
    obtain ⟨hnone, rfl, hpop⟩ := hm
    rcases eq_or_ne y x with rfl | hyx
    · have hplace : place y = .queue q :=
        (h.queue q y).mp (by rw [(Queue.pop?_eq_some hpop).2]; exact List.mem_cons_self)
      have hy := hacc y
      rw [hplace] at hy
      rw [TxEffect.moved, Function.update_self]
      show s.account y = (Function.update s.txers t (.check y) t).account
      rw [Function.update_self]
      exact hy
    · rw [TxEffect.moved, Function.update_of_ne hyx]
      exact hother y fun hy => by rw [(h.held t y).mpr hy] at hnone; cases hnone
  | notify x n =>
    obtain ⟨hplace, haccount⟩ := hmine x hm.1
    show ((s.setTxer t pc).notify x n).Fits (((s.setTxer t pc).notify x n).account y) (place y)
    rw [account_notify]
    split
    · next hyx =>
      rw [hyx, hplace]
      show ((s.account x).1 ++ n.outcome.toList, (s.account x).2) =
        (Function.update s.txers t pc t).account
      rw [Function.update_self, haccount, hc]
    · next hyx => exact hother y (hnot x y hm.1 hyx)
  | finish x n =>
    obtain ⟨hplace, haccount⟩ := hmine x hm.1
    show (s.setTxer t pc).Fits (((s.setTxer t pc).notify x n).account y)
      (Function.update place x .finished y)
    rw [account_notify]
    split
    · next hyx =>
      rw [hyx, Function.update_self]
      show ((s.account x).1 ++ n.outcome.toList, (s.account x).2) ∈ finals
      rw [haccount]
      exact hc
    · next hyx =>
      rw [Function.update_of_ne hyx]
      exact hother y (hnot x y hm.1 hyx)
  | written x =>
    obtain ⟨hplace, haccount⟩ := hmine x hm.1
    show (s.setTxer t pc).Fits
      (terminals (s.notices y), Function.update s.writes x (s.writes x + 1) y) (place y)
    rcases eq_or_ne y x with rfl | hyx
    · rw [hplace, Function.update_self]
      show _ = (Function.update s.txers t pc t).account
      rw [Function.update_self, hc, ← haccount]
      rfl
    · rw [Function.update_of_ne hyx]
      exact hother y (hnot x y hm.1 hyx)
  | requeue q x queue =>
    obtain ⟨hplace, haccount⟩ := hmine x hm.1
    show (s.setTxer t pc).Fits (s.account y) (Function.update place x (.queue q) y)
    rcases eq_or_ne y x with rfl | hyx
    · rw [Function.update_self]
      exact haccount.trans hc
    · rw [Function.update_of_ne hyx]
      exact hother y (hnot x y hm.1 hyx)
  | hand t' x =>
    obtain ⟨hx, -, hsource⟩ := hm
    obtain ⟨hplace, haccount⟩ := hmine x hx
    have hne : t' ≠ t := by rintro rfl; rw [hsource] at hx; cases hx
    show ((s.setTxer t pc).setTxer t' (.check x)).Fits (s.account y)
      (Function.update place x (.held t') y)
    rcases eq_or_ne y x with rfl | hyx
    · rw [Function.update_self]
      show s.account y =
        (Function.update (Function.update s.txers t pc) t' (TxPc.check y) t').account
      rw [Function.update_self]
      exact haccount.trans hc
    · rw [Function.update_of_ne hyx, fits_setTxer]
      · exact hother y (hnot x y hx hyx)
      · intro _
        simp [TxState.setTxer, hne, hsource, TxPc.account]

/-! ### Every run -/

/-- A sendable that was not accepted is nowhere. -/
theorem Tied.outside (h : Tied s place) (hx : s.accepted x = false) : place x = .outside := by
  by_contra hne
  rw [(h.accepted x).mpr hne] at hx
  cases hx

theorem Tied.accept (h : Tied s place) {p : Place} (hp : p ≠ .outside) (y : ℕ) :
    Function.update s.accepted x true y = true ↔ Function.update place x p y ≠ .outside := by
  rcases eq_or_ne y x with rfl | hyx
  · simp [hp]
  · simp [hyx, h.accepted y]

/-- **Queues and `txer`s agree on where every sendable is**, and its account follows from
where it is. -/
theorem tied_multiplex {setup : MuxSetup} {ok : Multiplex → Multiplex.Action → Prop}
    {s : Multiplex} (hs : (multiplex setup).Reachable ok s) :
    ∃ place, Tied s.tx place ∧ Accounted s.tx place := by
  refine System.Reachable.invariant
    (P := fun s => ∃ place, Tied s.tx place ∧ Accounted s.tx place) ?_ ?_ hs
  · refine ⟨fun _ => .outside, ⟨?_, ?_, ?_, ?_, ?_⟩, fun x => rfl⟩ <;>
      simp [multiplex, TxPc.sendable]
  rintro s act s' ⟨place, h, hacc⟩ - hstep
  refine Multiplex.step_cases (P := fun s => ∃ place, Tied s.tx place ∧ Accounted s.tx place)
    hstep ?_ ?_ ?_ ?_ ?_ ?_ ?_ ?_
  · intro x q queue _ hout hpush
    have hplace := h.outside hout
    obtain ⟨hqueue, hnodup⟩ := h.push hpush (by simp [hplace])
    refine ⟨Function.update place x (.queue q), ⟨hqueue, hnodup,
      fun t y => (h.held t y).trans (update_place_iff (· = .held t) (by simp [hplace]) y).symm,
      fun y => (h.finished y).trans (update_place_iff (· = .finished) (by simp [hplace]) y).symm,
      h.accept (by simp)⟩, fun y => ?_⟩
    have hx := hacc x
    rw [hplace] at hx
    rcases eq_or_ne y x with rfl | hyx
    · rw [Function.update_self]; exact hx
    · rw [Function.update_of_ne hyx]; exact hacc y
  · intro x q t _ hout hsource
    have hplace := h.outside hout
    refine ⟨Function.update place x (.held t), ⟨
      fun q y => (h.queue q y).trans (update_place_iff (· = .queue q) (by simp [hplace]) y).symm,
      h.nodup, held_setTxer_some h.held (by rw [hsource]; rfl) (by simp [hplace]),
      fun y => (h.finished y).trans (update_place_iff (· = .finished) (by simp [hplace]) y).symm,
      h.accept (by simp)⟩, fun y => ?_⟩
    have hx := hacc x
    rw [hplace] at hx
    rcases eq_or_ne y x with rfl | hyx
    · rw [Function.update_self]
      show s.tx.account y = (Function.update s.tx.txers t (.check y) t).account
      rw [Function.update_self]
      exact hx
    · rw [Function.update_of_ne hyx]
      refine (fits_setTxer fun _ => ?_).mpr (hacc y)
      rw [hsource]
      rfl
  · intro x err _
    exact ⟨place, ⟨h.queue, h.nodup, h.held, h.finished, h.accepted⟩, hacc⟩
  · intro t a pc e _ hnext
    exact ⟨_, h.txNext hnext, hacc.txNext h hnext⟩
  · intro r a rx _ _; exact ⟨place, h, hacc⟩
  · intro ms _; exact ⟨place, h, hacc⟩
  · intro _; exact ⟨place, h, hacc⟩
  · intro _ _; exact ⟨place, h, hacc⟩

/-- Where a sendable can be seen to be. -/
inductive Location
  | slot (q i : ℕ)
  | held (t : ℕ)
  | finished

/-- Whether a sendable is at a location. -/
def TxState.At (s : TxState) (x : ℕ) : Location → Prop
  | .slot q i => (s.queues q).items[i]? = some x
  | .held t => (s.txers t).sendable = some x
  | .finished => s.finished x = true

/-- An accepted sendable is at exactly one location. -/
theorem Tied.existsUnique_at (h : Tied s place) (hx : s.accepted x = true) : ∃! l, s.At x l := by
  have hslot : ∀ q i, s.At x (.slot q i) → place x = .queue q := fun q i hi =>
    (h.queue q x).mp (List.mem_of_getElem? hi)
  cases hp : place x with
  | outside => exact absurd hp ((h.accepted x).mp hx)
  | queue q =>
    obtain ⟨i, hi⟩ := List.mem_iff_getElem?.mp ((h.queue q x).mpr hp)
    refine ⟨.slot q i, hi, ?_⟩
    rintro (⟨q', i'⟩ | t | -) hl
    · have hq : q' = q := by
        have := hslot q' i' hl
        rw [hp] at this
        cases this
        rfl
      subst hq
      have hlt : i < (s.queues q').items.length := (List.getElem?_eq_some_iff.mp hi).1
      rw [(List.getElem?_inj hlt (h.nodup q')).mp (hi.trans hl.symm)]
    · rw [(h.held t x).mp hl] at hp; cases hp
    · rw [(h.finished x).mp hl] at hp; cases hp
  | held t =>
    refine ⟨.held t, (h.held t x).mpr hp, ?_⟩
    rintro (⟨q, i⟩ | t' | -) hl
    · rw [hslot q i hl] at hp; cases hp
    · rw [(h.held t' x).mp hl] at hp; cases hp; rfl
    · rw [(h.finished x).mp hl] at hp; cases hp
  | finished =>
    refine ⟨.finished, (h.finished x).mpr hp, ?_⟩
    rintro (⟨q, i⟩ | t | -) hl
    · rw [hslot q i hl] at hp; cases hp
    · rw [(h.held t x).mp hl] at hp; cases hp
    · rfl

theorem TxPc.account_mem (pc : TxPc) : pc.account ∈ ([], 1) :: finals := by
  cases pc <;> simp [TxPc.account, finals]

/-- Wherever a sendable is, it was written at most once, and its listener saw at most one
terminal outcome. -/
theorem Accounted.bounds (hacc : Accounted s place) (x : ℕ) :
    s.writes x ≤ 1 ∧ terminals (s.notices x) ∈ [[], [.after], [.err], [.err, .after]] := by
  have hmem : s.account x ∈ ([], 1) :: finals := by
    have hx := hacc x
    cases hp : place x with
    | outside | queue => rw [hp] at hx; rw [show s.account x = ([], 0) from hx]; simp [finals]
    | held t => rw [hp] at hx; rw [show s.account x = _ from hx]; exact TxPc.account_mem _
    | finished => rw [hp] at hx; exact List.mem_cons_of_mem _ hx
  have hall : ∀ a ∈ ([], 1) :: finals, a.2 ≤ 1 ∧
      a.1 ∈ [[], [Outcome.after], [.err], [.err, .after]] := by decide
  exact hall _ hmem

end

/-! ### The error channel of a `sendWaitEnvelope` -/

/-- The error channel: what is in its one-slot buffer, and whether it is closed. -/
structure ErrC where
  buffered : Bool
  closed : Bool

/-- What happens to the error channel: its listener is told something, or the waiting sender
receives. -/
inductive ErrCEvent
  | notice (n : Notice)
  | receive

/-- What an event does; `none` is a panic, for a send on a closed channel or a second close,
or a `txer` that blocks, for a send on a full buffer. -/
def ErrC.step (c : ErrC) : ErrCEvent → Option ErrC
  | .notice .beforeWrite => some c
  | .notice (.err _) => if c.closed || c.buffered then none else some { c with buffered := true }
  | .notice .afterWrite => if c.closed then none else some { c with closed := true }
  | .receive => some { c with buffered := false }

/-- A run of the error channel. -/
def ErrC.run : ErrC → List ErrCEvent → Option ErrC
  | c, [] => some c
  | c, e :: es => (c.step e).bind fun c => c.run es

/-- The notices among the events. -/
def ErrCEvent.notices : List ErrCEvent → List Notice
  | [] => []
  | .notice n :: es => n :: notices es
  | .receive :: es => notices es

/-- The outcomes that a channel in this state can still take. -/
def ErrC.Takes (c : ErrC) (outcomes : List Outcome) : Prop :=
  outcomes = [] ∨ (c.closed = false ∧ (outcomes = [.after] ∨
    (c.buffered = false ∧ (outcomes = [.err] ∨ outcomes = [.err, .after]))))

/-- A channel that can take the outcomes to come neither panics nor blocks, whenever the
waiting sender receives. -/
theorem ErrC.run_isSome : ∀ (es : List ErrCEvent) (c : ErrC),
    c.Takes (terminals (ErrCEvent.notices es)) → (c.run es).isSome = true := by
  intro es
  induction es with
  | nil => intro c _; rfl
  | cons e es ih =>
    intro c h
    cases e with
    | receive =>
      refine ih _ ?_
      rcases h with h | ⟨hcl, h | ⟨-, h⟩⟩
      · exact Or.inl h
      · exact Or.inr ⟨hcl, Or.inl h⟩
      · exact Or.inr ⟨hcl, Or.inr ⟨rfl, h⟩⟩
    | notice n =>
      cases n with
      | beforeWrite => exact ih c h
      | afterWrite =>
        have hafter : c.closed = false ∧ terminals (ErrCEvent.notices es) = [] := by
          simpa [ErrC.Takes, ErrCEvent.notices, terminals, Notice.outcome] using h
        simp only [ErrC.run, ErrC.step, hafter.1, Bool.false_eq_true, if_false, Option.bind_some]
        exact ih _ (Or.inl hafter.2)
      | err cause =>
        have herr : c.closed = false ∧ c.buffered = false ∧
            (terminals (ErrCEvent.notices es) = [] ∨
              terminals (ErrCEvent.notices es) = [.after]) := by
          simpa [ErrC.Takes, ErrCEvent.notices, terminals, Notice.outcome] using h
        simp only [ErrC.run, ErrC.step, herr.1, herr.2.1, Bool.or_self, Bool.false_eq_true,
          if_false, Option.bind_some]
        refine ih _ ?_
        rcases herr.2.2 with h | h
        · exact Or.inl h
        · exact Or.inr ⟨rfl, Or.inl h⟩

/-- **Sendable conservation.**  With any number of `txer`s on any queues, any interleaving of
sends, dequeues, expiring contexts, writes that succeed or fail and requeues: an accepted
sendable is in exactly one place; `underlay.Tx` returned success for it at most once; its
listener saw at most one terminal outcome; and the error channel of a `sendWaitEnvelope` is
neither closed twice nor sent to after it was closed, and never blocks the `txer`, whenever
the waiting sender receives. -/
theorem sendable_conservation (setup : MuxSetup) (s : Multiplex)
    (hs : (multiplex setup).Reachable System.anyEvent s) (x : ℕ)
    (hx : s.tx.accepted x = true) :
    (∃! l, s.tx.At x l) ∧ s.tx.writes x ≤ 1 ∧
      terminals (s.tx.notices x) ∈ [[], [.after], [.err], [.err, .after]] ∧
      ∀ es, ErrCEvent.notices es = s.tx.notices x →
        (ErrC.run ⟨false, false⟩ es).isSome = true := by
  obtain ⟨place, h, hacc⟩ := tied_multiplex hs
  obtain ⟨hwrites, hterm⟩ := hacc.bounds x
  refine ⟨h.existsUnique_at hx, hwrites, hterm, fun es hes => ErrC.run_isSome es _ ?_⟩
  rw [hes]
  simpa [ErrC.Takes] using hterm

/-- A sendable whose first write fails goes back to a queue, and another `txer` writes it. -/
theorem sendable_conservation_retry :
    let setup : MuxSetup := ⟨fun _ => ⟨some 5, false, none, false⟩, fun t => [t], [1], fun _ => 1,
      false, fun _ => false⟩
    ∃ s, (multiplex setup).Reachable System.anyEvent s ∧ s.tx.accepted 0 = true ∧
      s.tx.notices 0 = [.beforeWrite, .beforeWrite, .afterWrite] ∧ s.tx.txers 0 = .stopped ∧
      s.tx.writes 0 ≤ 1 ∧ ∃! l, s.tx.At 0 l := by
  intro setup
  obtain ⟨s, hs, h⟩ := System.reachable_of_replay (multiplex setup) System.anyEvent
    [.send 0 0, .tx 0 (.take 0), .tx 0 .go, .tx 0 .go, .tx 0 (.underlay (some [])), .tx 0 .go,
      .tx 0 .go, .tx 1 (.take 1), .tx 1 .go, .tx 1 .go, .tx 1 (.underlay none), .tx 1 .go]
    (fun s => decide (s.tx.accepted 0 = true ∧
      s.tx.notices 0 = [.beforeWrite, .beforeWrite, .afterWrite] ∧ s.tx.txers 0 = .stopped))
    (by decide)
  obtain ⟨hacc, hnotices, hstopped⟩ := of_decide_eq_true h
  obtain ⟨hplace, hwrites, -⟩ := sendable_conservation setup s hs 0 hacc
  exact ⟨s, hs, hacc, hnotices, hstopped, hwrites, hplace⟩

end ZitiChannel
