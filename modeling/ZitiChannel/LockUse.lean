import ZitiChannel.LockOrder
import ZitiChannel.MultiListener
import ZitiChannel.Reentry

/-!
# The use of the locks

In `LockOrder` the functions of the source are only what they do with locks.  Here the models in
which they decide as the source does, a channel with its goroutines and a listener with its calls,
are compared with that: a goroutine, or a call, at some point of a function has a rest of its
program ahead of it, and every step leads to a point with what is then left of it.  So every
reachable state of the models is one of `locks`, as far as the locks go.

## Main definitions

* `Routine.ahead`, `ClosePc.ahead`, `Pc.ahead` — what is left of a function at a point of it.
* `OnLocks`, `CallsOnLocks` — a state of a model as one of `locks`.

## Main results

* `channel_onLocks` — **a channel and its goroutines**, if no hook calls `Close`.
* `multiListener_onLocks` — **a listener and its calls.**
-/

/-! ### The goroutines of a channel

What is left of a function at a point of it. -/

namespace ZitiChannel.Concurrent

open Transition
open Locking (Prog Act Runs Reaches only)
open LockOrder (Lock Code)

section

variable (i : ℕ)

def AddPc.ahead : AddPc → List Code
  | .append => [LockOrder.add i]
  | .notify 0 => [LockOrder.underlayAdded i, .loop (LockOrder.otherListener i)]
  | .notify (_ + 1) => [.loop (LockOrder.otherListener i)]

def NewPc.ahead : NewPc → List Code
  | .bind => [LockOrder.bound i]
  | .add pc => pc.ahead i
  | .startMultiplex | .applyConstraints => []

def AcceptPc.ahead : AcceptPc → List Code
  | .lock => [LockOrder.acceptUnderlay i]
  | .check => [.maybe (LockOrder.add i), .unlock (.channel i)]
  | .store => [LockOrder.add i, .unlock (.channel i)]
  | .add pc => pc.ahead i ++ [.unlock (.channel i)]
  | .refuse | .startMultiplex | .unlock _ => [.unlock (.channel i)]

/-- What is left of `closeUnderlay` once `UnderlayRemoved` has returned. -/
def afterRemoved : List Code := [.loop (LockOrder.otherListener i), LockOrder.repair i]

def CloseUnderlayPc.ahead : CloseUnderlayPc → List Code
  | .close | .remove => [LockOrder.closeUnderlay i]
  | .notify 0 => LockOrder.underlayRemoved i :: afterRemoved i
  | .dialPolicy | .respond => LockOrder.respond i :: afterRemoved i
  | .closing | .notify (_ + 1) => afterRemoved i
  | .lock => [LockOrder.repair i]
  | .loadFallback => [.maybe (LockOrder.getAll i), .unlock (.channel i)]
  | .getAll => [LockOrder.getAll i, .unlock (.channel i)]
  | .store _ | .unlock => [.unlock (.channel i)]

/-- What is left of `applyConstraints` at the head of its loop. -/
def atLoop : List Code :=
  [.loop (LockOrder.round i), .maybe (LockOrder.invalidRound i), LockOrder.deferred i]

/-- What is left of `applyConstraints` in the range over the constraints. -/
def inRange : List Code := .loop (LockOrder.dialUnderlay i) :: atLoop i

def ApplyPc.ahead : ApplyPc → List Code
  | .guard | .isClosed => [LockOrder.applyConstraints i]
  | .checkValid =>
      [LockOrder.countsByType i, .choice (LockOrder.close i) (.maybe (LockOrder.inProgress i))]
  | .closing => []
  | .compareAndSwap => [.maybe (LockOrder.inProgress i)]
  | .dialPolicy => [LockOrder.inProgress i]
  | .loop | .getCounts => atLoop i
  | .range _ _ _ => inRange i
  | .isFirst _ _ _ => LockOrder.dialUnderlay i :: inRange i
  | .dial _ _ _ _ => .maybe (LockOrder.acceptUnderlay i) :: inRange i
  | .accept _ pc _ _ => pc.ahead i ++ inRange i
  | .release | .recheck => [LockOrder.deferred i]
  | .desires => [LockOrder.countsByType i]

def Routine.ahead : Routine → List Code
  | .idle => []
  | .newChannel pc => pc.ahead i
  | .acceptUnderlay _ pc => pc.ahead i
  | .rxer _ | .txer _ => [LockOrder.closeUnderlay i]
  | .closeUnderlay _ pc => pc.ahead i
  | .applyConstraints pc => pc.ahead i

def ClosePc.ahead : ClosePc → List Code
  | .lock => [LockOrder.close i]
  | .compareAndSet =>
      [.maybe (.seq (LockOrder.hooks i) (LockOrder.getAll i)), .unlock (.channel i)]
  | .closeNotify | .nextHook _ | .hook _ _ =>
      [LockOrder.hooks i, LockOrder.getAll i, .unlock (.channel i)]
  | .getAll => [LockOrder.getAll i, .unlock (.channel i)]
  | .closeAll _ | .unlock _ => [.unlock (.channel i)]

/-- What a goroutine has ahead of it: the calls of `Close` that it is in, and then its routine. -/
def State.ahead (s : State) (g : ℕ) : List Code :=
  (s.closes g).flatMap (ClosePc.ahead i) ++ (s.routines g).ahead i

end

section

variable {setup : Setup} {s s' : State} {g i : ℕ} {k k' : List Code} {acts : List (Act Lock)}

theorem runs_access (h : Runs k acts k') :
    Runs (LockOrder.access i :: k) (.lock (.underlays i) :: .unlock (.underlays i) :: acts) k' :=
  .critical (.skip (.unlock h))

/-- A listener that is not the channel is told something, and looks at nothing. -/
theorem runs_otherListener (i : ℕ) (k : List Code) :
    Runs (.loop (LockOrder.otherListener i) :: k) [] (.loop (LockOrder.otherListener i) :: k) :=
  .left (.again (.pass (.refl _)))

/-- A step with one access to the collection. -/
theorem reaches_access {holder : Option ℕ}
    (h : Runs k [.lock (.underlays i), .unlock (.underlays i)] k') :
    Reaches (.channel i) g holder holder k k' :=
  .other (by simp) h

theorem AcceptPc.Moves.reaches {u : Underlay} {pc pc' : AcceptPc} {eff : Effect}
    (h : pc.Moves setup s u pc' eff) (hen : eff.enabled s g = true) (i : ℕ) :
    Reaches (.channel i) g s.lock (eff.lockAfter g s.lock) (pc.ahead i) (pc'.ahead i) := by
  cases h with
  | lock =>
    rw [Option.isNone_iff_eq_none.mp hen]
    exact .lock (.critical (.refl _))
  | passes h => exact .quiet (.left (.refl _))
  | reject h => exact .quiet (.pass (.refl _))
  | refuse => exact .quiet (.refl _)
  | store => exact .quiet (.refl _)
  | append => exact reaches_access (.seq (runs_access (.seq (.refl _))))
  | notify l h =>
    cases l with
    | zero => exact reaches_access (runs_access (.refl _))
    | succ l => exact .quiet (runs_otherListener i _)
  | notified l h =>
    cases l with
    | zero => exact absurd h (Nat.not_lt_zero _)
    | succ l => exact .quiet (.pass (.refl _))
  | start rx tx => exact .quiet (.refl _)

theorem AcceptPc.Moves.pushed {u : Underlay} {pc pc' : AcceptPc} {eff : Effect}
    (h : pc.Moves setup s u pc' eff) : eff.pushed = [] := by
  cases h <;> rfl

/-- A step of a goroutine in its routine.  If it calls `Close`, that comes first. -/
theorem Routine.Moves.reaches {r r' : Routine} {eff : Effect} (h : r.Moves setup s r' eff)
    (hen : eff.enabled s g = true) (i : ℕ) :
    Reaches (.channel i) g s.lock (eff.lockAfter g s.lock) (r.ahead i)
      (eff.pushed.flatMap (ClosePc.ahead i) ++ r'.ahead i) := by
  cases h with
  | bound => exact .quiet (.seq (.pass (.right (.refl _))))
  | newAppend => exact reaches_access (.seq (runs_access (.seq (.refl _))))
  | newNotify l h =>
    cases l with
    | zero => exact reaches_access (runs_access (.refl _))
    | succ l => exact .quiet (runs_otherListener i _)
  | newNotified l h =>
    cases l with
    | zero => exact absurd h (Nat.not_lt_zero _)
    | succ l => exact .quiet (.pass (.refl _))
  | newStart rx tx => exact .quiet (.refl _)
  | newReturn b => exact .quiet (.refl _)
  | accept u pc pc' e h =>
    rw [h.pushed]
    exact h.reaches hen i
  | acceptReturn u accepted => exact .unlock (.unlock (.refl _))
  | rxer u => exact .quiet (.refl _)
  | txer u => exact .quiet (.refl _)
  | closeConn u => exact .quiet (.refl _)
  | remove u h => exact reaches_access (.seq (.seq (runs_access (.left (.seq (.refl _))))))
  | notFound u h => exact reaches_access (.seq (.seq (runs_access (.pass (.refl _)))))
  | notifySelf u => exact reaches_access (.seq (runs_access (.refl _)))
  | notify u l h => exact .quiet (runs_otherListener i _)
  | notified u l h => exact .quiet (.pass (.refl _))
  | policyClosed u h => exact .quiet (.refl _)
  | noPolicy u h => exact .quiet (.refl _)
  | lastRemoved u hc h => exact reaches_access (.left (.seq (runs_access (.left (.refl _)))))
  | notLast u hc h => exact reaches_access (.left (.seq (runs_access (.pass (.refl _)))))
  | respond u b hc => exact .quiet (.pass (.refl _))
  | closed u => exact .quiet (.refl _)
  | lock u =>
    rw [Option.isNone_iff_eq_none.mp hen]
    exact .lock (.critical (.refl _))
  | isFallback u h => exact .quiet (.left (.refl _))
  | notFallback u h => exact .quiet (.pass (.refl _))
  | another u lastUnderlay h => exact reaches_access (runs_access (.refl _))
  | noOther u h => exact reaches_access (runs_access (.refl _))
  | store u lastUnderlay => exact .quiet (.refl _)
  | unlock u => exact .unlock (.unlock (.refl _))
  | nothingToApply hc hm => exact .quiet (.pass (.refl _))
  | guard => exact .quiet (.refl _)
  | applyClosed h => exact .quiet (.pass (.refl _))
  | applyOpen h => exact .quiet (.left (.seq (.refl _)))
  | valid h => exact reaches_access (runs_access (.right (.refl _)))
  | invalid h => exact reaches_access (runs_access (.left (.refl _)))
  | applyReturn => exact .quiet (.refl _)
  | inProgress h => exact .quiet (.pass (.refl _))
  | swap h => exact .quiet (.left (.refl _))
  | dials h => exact .quiet (.seq (.seq (.refl _)))
  | neverDials h => exact .quiet (.seq (.seq (.pass (.pass (.refl _)))))
  | loopClosed h => exact .quiet (.pass (.pass (.refl _)))
  | loopOpen h => exact .quiet (.refl _)
  | loopValid entries h hentries =>
    exact reaches_access (.left (.again (.seq (runs_access (.refl _)))))
  | loopInvalid h => exact reaches_access (.pass (.left (.seq (runs_access (.refl _)))))
  | desired counts entry todo allSatisfied h => exact .quiet (.left (.again (.refl _)))
  | satisfied counts entry todo allSatisfied h => exact .quiet (.refl _)
  | allSatisfied counts => exact .quiet (.pass (.pass (.pass (.refl _))))
  | again counts => exact .quiet (.pass (.refl _))
  | isFirst underlayType counts todo => exact reaches_access (.seq (runs_access (.refl _)))
  | dialFailed underlayType isFirst counts todo => exact .quiet (.pass (.refl _))
  | dialed underlayType isFirst u counts todo => exact .quiet (.left (.refl _))
  | dialAccept u pc pc' counts todo e h =>
    rw [h.pushed]
    exact (h.reaches hen i).append (inRange i)
  | dialReturn u accepted counts todo => exact .unlock (.unlock (.refl _))
  | release => exact .quiet (.refl _)
  | recheck hp hc => exact .quiet (.left (.refl _))
  | noRecheck h => exact .quiet (.pass (.refl _))
  | desiresSatisfied h => exact reaches_access (runs_access (.refl _))
  | respawn b h => exact reaches_access (runs_access (.refl _))

/-- A step of `Close`, in a hook that does not call it again. -/
theorem ClosePc.Moves.reaches {pc : ClosePc} {pcs : List ClosePc} {eff : Effect}
    (h : pc.Moves setup s pcs eff) (hen : eff.enabled s g = true) (htame : pc.Tame) (i : ℕ) :
    Reaches (.channel i) g s.lock (eff.lockAfter g s.lock) (pc.ahead i)
      (pcs.flatMap (ClosePc.ahead i)) := by
  cases h with
  | lock =>
    rw [Option.isNone_iff_eq_none.mp hen]
    exact .lock (.critical (.refl _))
  | late h => exact .quiet (.pass (.refl _))
  | first h => exact .quiet (.left (.seq (.refl _)))
  | notify => exact .quiet (.refl _)
  | hook n f hn => exact .quiet (.refl _)
  | noHook n hn => exact .quiet (.pass (.refl _))
  | ret n => exact .quiet (.refl _)
  | reenter n f => exact absurd trivial htame
  | isClosed n f => exact .quiet (.refl _)
  | call n op f m => exact .quiet (.refl _)
  | getAll => exact reaches_access (runs_access (.refl _))
  | closeConn u us => exact .quiet (.refl _)
  | closedAll => exact .quiet (.refl _)
  | unlock first => exact .unlock (.unlock (.refl _))

/-- A state of the channel as one of `locks`, where it is channel `i`. -/
structure OnLocks (i : ℕ) (s : State) (S : Locking.State ℕ Lock) : Prop where
  owner : S.owner = only (.channel i) s.lock
  ahead : ∀ g, S.ahead g = s.ahead i g

variable {S : Locking.State ℕ Lock} {eff : Effect}

theorem OnLocks.idle (h : OnLocks i s S) (hidle : s.idle g = true) : S.ahead g = [] := by
  obtain ⟨hroutine, hcloses⟩ := State.idle_iff.mp hidle
  rw [h.ahead, State.ahead, hroutine, hcloses]
  rfl

/-- The goroutines that an effect starts can be started. -/
theorem steps_spawned (hen : eff.enabled s g = true)
    (hidle : ∀ b, b ≠ g → s.idle b = true → S.ahead b = []) (i : ℕ) :
    ∃ S', LockOrder.locks.Steps System.anyEvent S S' ∧ S'.owner = S.owner ∧
      ∀ b, S'.ahead b = ((eff.spawned b).map (Routine.ahead i)).getD (S.ahead b) := by
  cases eff with
  | startMultiplex u rx tx =>
    simp only [Effect.enabled, Bool.and_eq_true, decide_eq_true_eq] at hen
    obtain ⟨⟨⟨⟨hrx, htx⟩, hne⟩, hidlerx⟩, hidletx⟩ := hen
    have hstart := LockOrder.steps_start (.closeUnderlay i) (hidle rx hrx hidlerx)
    have hstart' := LockOrder.steps_start (t := tx)
      (s := { S with ahead := Function.update S.ahead rx [LockOrder.closeUnderlay i] })
      (.closeUnderlay i) (by simpa [Ne.symm hne] using hidle tx htx hidletx)
    refine ⟨_, hstart.trans hstart', rfl, fun b => ?_⟩
    simp only [Effect.spawned, Function.update_apply]
    split
    · rfl
    · split <;> rfl
  | spawn g' | newReturned g' =>
    simp only [Effect.enabled, Bool.and_eq_true, decide_eq_true_eq] at hen
    refine ⟨_, LockOrder.steps_start (.applyConstraints i) (hidle g' hen.1 hen.2), rfl, fun b => ?_⟩
    simp only [Effect.spawned, Function.update_apply]
    split <;> rfl
  | _ => exact ⟨S, Relation.ReflTransGen.refl, rfl, fun b => rfl⟩

theorem OnLocks.run {r : Routine} (h : OnLocks i s S) (hcloses : s.closes g = [])
    (hmoves : (s.routines g).Moves setup s r eff) (hen : eff.enabled s g = true) :
    ∃ S', LockOrder.locks.Steps System.anyEvent S S' ∧
      OnLocks i ((s.setRoutine g r).apply g eff) S' := by
  have hahead : S.ahead g = (s.routines g).ahead i := by
    rw [h.ahead, State.ahead, hcloses]
    rfl
  have hself := LockOrder.steps_reaches (hmoves.reaches hen i) h.owner hahead
  obtain ⟨S', hspawn, howner, hahead'⟩ := steps_spawned hen
    (S := ⟨_, Function.update S.ahead g _⟩)
    (fun b hne hidle => by simpa [hne] using h.idle hidle) i
  refine ⟨S', hself.trans hspawn, ?_, fun b => ?_⟩
  · rw [howner, State.apply_lock]
    rfl
  · rw [hahead', State.ahead, State.apply_routines, State.apply_closes]
    cases hb : eff.spawned b with
    | some r' =>
      obtain ⟨hne, hidle⟩ := Effect.idle_of_spawned hen hb
      have hnil : (s.setRoutine g r).closes b = [] := (State.idle_iff.mp hidle).2
      simp [hne, hnil]
    | none =>
      rcases eq_or_ne b g with rfl | hne
      · simp [State.setRoutine, hcloses]
      · simp [State.setRoutine, hne, h.ahead, State.ahead]

theorem OnLocks.close {pc : ClosePc} {pcs : List ClosePc} (h : OnLocks i s S)
    (hcloses : s.closes g = [pc]) (htame : pc.Tame) (hmoves : pc.Moves setup s pcs eff)
    (hen : eff.enabled s g = true) :
    ∃ S', LockOrder.locks.Steps System.anyEvent S S' ∧
      OnLocks i ((s.setCloses g pcs).apply g eff) S' := by
  have hahead : S.ahead g = pc.ahead i ++ (s.routines g).ahead i := by
    rw [h.ahead, State.ahead, hcloses]
    simp
  have hself := LockOrder.steps_reaches
    ((hmoves.reaches hen htame i).append ((s.routines g).ahead i)) h.owner hahead
  refine ⟨_, hself, ?_, fun b => ?_⟩
  · rw [State.apply_lock]
    rfl
  · rw [State.ahead, State.closes_setCloses_apply hmoves.pushed, hmoves.frame.routines]
    rcases eq_or_ne b g with rfl | hne
    · simp
    · simp [hne, h.ahead, State.ahead]

/-- An operation that somebody calls in an idle goroutine. -/
theorem OnLocks.start (h : OnLocks i s S) (op : LockOrder.Operation) (hidle : s.idle g = true)
    (hlock : s'.lock = s.lock) (hself : s'.ahead i g = [op.code])
    (hother : ∀ b, b ≠ g → s'.ahead i b = s.ahead i b) :
    ∃ S', LockOrder.locks.Steps System.anyEvent S S' ∧ OnLocks i s' S' := by
  refine ⟨_, LockOrder.steps_start op (h.idle hidle), hlock ▸ h.owner, fun b => ?_⟩
  rcases eq_or_ne b g with rfl | hne
  · simp [hself]
  · simp [hne, hother b hne, h.ahead]

/-- `NewChannel` has registered the channel as a listener. -/
theorem onLocks_init (setup : Setup) (i : ℕ) :
    ∃ S, LockOrder.locks.Reachable System.anyEvent S ∧ OnLocks i (channel setup).init S := by
  have hstart := LockOrder.steps_start (t := 0) (s := LockOrder.locks.init) (.newChannel i) rfl
  have hreaches : Reaches (.channel i) 0 none none [LockOrder.newChannel i] [LockOrder.bound i] :=
    reaches_access (.left (.seq (.again (runs_access (.pass (.refl _))))))
  have hbound := LockOrder.steps_reaches hreaches
    (s := ⟨fun _ => none, Function.update (fun _ => []) 0 [LockOrder.newChannel i]⟩)
    (by simp [only]) (by simp)
  refine ⟨_, hstart.trans hbound, rfl, fun b => ?_⟩
  rcases eq_or_ne b 0 with rfl | hne
  · simp [State.ahead, channel, Routine.ahead, NewPc.ahead]
  · simp [State.ahead, channel, Routine.ahead, hne]

/-- **A channel and its goroutines use the locks as `locks` says**, if no hook calls `Close`: every
reachable state is a reachable state there. -/
theorem channel_onLocks {ok : State → Event → Prop} (hs : (channel setup).Reachable ok s)
    (hhooks : ∀ h ∈ setup.hooks, ¬ h.mayClose) (i : ℕ) :
    ∃ S, LockOrder.locks.Reachable System.anyEvent S ∧ OnLocks i s S := by
  refine hs.invariant_of_reachable (P := fun s =>
    ∃ S, LockOrder.locks.Reachable System.anyEvent S ∧ OnLocks i s S) (onLocks_init setup i) ?_
  rintro s e s' hreach ⟨S, hS, h⟩ - hstep
  have hsteps : ∃ S', LockOrder.locks.Steps System.anyEvent S S' ∧ OnLocks i s' S' := by
    refine step_cases (P := fun s' =>
      ∃ S', LockOrder.locks.Steps System.anyEvent S S' ∧ OnLocks i s' S') hstep ?_ ?_ ?_ ?_
    · intro g a r eff _ hcloses hmoves hen
      exact h.run hcloses hmoves hen
    · intro g a pc rest pcs eff _ hcloses hmoves hen
      obtain ⟨pc', hpc', htame⟩ := (closes_tame hreach hhooks g).resolve_left (by simp [hcloses])
      rw [hcloses] at hpc'
      cases hpc'
      rw [List.append_nil]
      exact h.close hcloses htame hmoves hen
    · intro g u _ hidle
      obtain ⟨-, hcloses⟩ := State.idle_iff.mp hidle
      refine h.start (.acceptUnderlay i) hidle rfl ?_ fun b hne => ?_
      · simp [State.ahead, State.setRoutine, hcloses, Routine.ahead, AcceptPc.ahead,
          LockOrder.Operation.code]
      · simp [State.ahead, State.setRoutine, hne]
    · intro g _ hidle
      obtain ⟨hroutine, -⟩ := State.idle_iff.mp hidle
      refine h.start (.close i) hidle rfl ?_ fun b hne => ?_
      · simp [State.ahead, State.setCloses, hroutine, Routine.ahead, ClosePc.ahead,
          LockOrder.Operation.code]
      · simp [State.ahead, State.setCloses, hne]
  obtain ⟨S', hS', h'⟩ := hsteps
  exact ⟨S', hS.steps hS', h'⟩

end

end ZitiChannel.Concurrent

/-! ### The calls of a listener -/

namespace ZitiChannel

open Transition
open Locking (Prog Act Runs Reaches only)
open LockOrder (Lock Code)

section

variable (i j : ℕ)

/-- What is left of the listener's `AcceptUnderlay` once a lookup has decided, or has only told to
wait for another call. -/
def afterLookup : List Code := [.loop LockOrder.lookup, LockOrder.resolve i j]

/-- What is left of it at a point, if the underlay comes to channel `i` or one that is made for it
is channel `j`. -/
def Pc.ahead : Pc → List Code
  | .idle => [LockOrder.listenerAccept i j]
  | .ungroupedAck | .fallback => [.maybe (LockOrder.newChannel j)]
  | .lookup => [.again LockOrder.lookup, LockOrder.resolve i j]
  | .loadFlag _ => .maybe LockOrder.isClosed :: .unlock .listener :: afterLookup i j
  | .askClosed _ => LockOrder.isClosed :: .unlock .listener :: afterLookup i j
  | .unregistered => .unlock .listener :: afterLookup i j
  | .waiting _ => afterLookup i j
  | .admitting | .acking none => [LockOrder.create j]
  | .acking (some _) => [.maybe (LockOrder.acceptUnderlay i)]
  | .attaching _ => [LockOrder.acceptUnderlay i]
  | .creating =>
      [LockOrder.newChannel j, .seq (.maybe LockOrder.publish) LockOrder.releaseReservation]
  | .publish => [LockOrder.publish, LockOrder.releaseReservation]
  | .publishLoad =>
      [.maybe LockOrder.isClosed, .unlock .listener, LockOrder.releaseReservation]
  | .publishAsk => [LockOrder.isClosed, .unlock .listener, LockOrder.releaseReservation]
  | .factoryFailed | .releasing _ => [LockOrder.releaseReservation]
  | .closing | .rejecting _ | .returned => []

end

section

variable {setup : ListenerSetup} {s : Listener} {t : ℕ} {a : CallAction} {c c' : Call} {e : Effect}

theorem reaches_releaseReservation {holder : Option ℕ} (h : holder = none) :
    Reaches .listener t holder holder [LockOrder.releaseReservation] [] := by
  rw [h]
  exact .critical (.critical (.skip (.unlock (.refl _))))

/-- A step of a call. -/
theorem next_reaches {pc : Pc} (hpc : c.pc = pc) (h : next setup s t c pc a = some (c', e))
    (hfree : e.takesLock = true → s.lock = none) (i j : ℕ) :
    Reaches .listener t s.lock ((s.setCall t c').apply setup t e).lock (pc.ahead i j)
      (c'.pc.ahead i j) := by
  revert h hfree
  fun_cases next setup s t c pc a
  all_goals intro h hfree
  all_goals cases h
  -- before the loop
  · exact .quiet (.right (.seq (.refl _)))
  · exact .quiet (.left (.refl _))
  · exact .quiet (.refl _)
  · exact .quiet (.pass (.refl _))
  · exact .quiet (.pass (.refl _))
  · exact .quiet (.pass (.refl _))
  -- in the loop
  · rw [hfree rfl]
    exact .lock (.again (.critical (.refl _)))
  · rw [hfree rfl]
    exact .lock (.again (.critical (.pass (.refl _))))
  · exact .quiet (.pass (.refl _))
  · exact .quiet (.left (.refl _))
  · exact .quiet (.skip (.refl _))
  · exact .unlock (.skip (.unlock (.pass (.right (.left (.refl _))))))
  · exact .unlock (.unlock (.refl _))
  · exact .unlock (.unlock (.pass (.right (.right (.refl _)))))
  · exact .unlock (.unlock (.pass (.right (.right (.refl _)))))
  · exact .unlock (.unlock (.pass (.left (.skip (.refl _)))))
  · exact .quiet (.left (.refl _))
  · exact .quiet (.pass (.left (.skip (.refl _))))
  -- the admitter and the acknowledgement
  · exact .quiet (.refl _)
  · exact .quiet (.left (.refl _))
  · exact .quiet (.left (.refl _))
  · exact .quiet (.right (.seq (.refl _)))
  · exact .quiet (.pass (.refl _))
  · exact .quiet (.left (.refl _))
  -- a channel takes the underlay, or the `Factory` makes one
  · exact .other (by simp) (.critical (.pass (.unlock (.refl _))))
  · rw [hpc]
    exact .quiet (.refl _)
  · exact .quiet (.pass (.seq (.left (.refl _))))
  · exact .quiet (.pass (.seq (.pass (.refl _))))
  · exact .quiet (.pass (.seq (.pass (.refl _))))
  · exact .quiet (.refl _)
  -- registering it
  · rw [hfree rfl]
    exact .lock (.critical (.refl _))
  · exact .unlock (.pass (.unlock (.refl _)))
  · exact .quiet (.left (.refl _))
  · exact .unlock (.skip (.unlock (.refl _)))
  · exact .unlock (.skip (.unlock (.refl _)))
  -- the end
  · exact reaches_releaseReservation (hfree rfl)
  · exact reaches_releaseReservation (hfree rfl)
  · exact reaches_releaseReservation (hfree rfl)
  · exact .quiet (.refl _)
  · exact .quiet (.refl _)

theorem next_ne_idle {pc : Pc} (hpc : c.pc = pc) (h : next setup s t c pc a = some (c', e)) :
    c'.pc ≠ .idle := by
  revert h
  fun_cases next setup s t c pc a
  all_goals intro h; cases h
  all_goals simp [hpc]

/-- A state of the listener as one of `locks`.  Calls that were not yet made are not there, and
whatever happens to channels outside the calls is left out. -/
structure CallsOnLocks (i j : ℕ) (s : Listener) (S : Locking.State ℕ Lock) : Prop where
  owner : S.owner = only .listener s.lock
  idle : ∀ t, (s.calls t).pc = .idle → S.ahead t = []
  ahead : ∀ t, (s.calls t).pc ≠ .idle → S.ahead t = (s.calls t).pc.ahead i j

variable {i j : ℕ} {S : Locking.State ℕ Lock}

/-- A call that is about to make a step has been made. -/
theorem CallsOnLocks.start (h : CallsOnLocks i j s S) (t : ℕ) :
    ∃ S', LockOrder.locks.Steps System.anyEvent S S' ∧ S'.owner = S.owner ∧
      S'.ahead t = (s.calls t).pc.ahead i j ∧ ∀ u, u ≠ t → S'.ahead u = S.ahead u := by
  by_cases hpc : (s.calls t).pc = .idle
  · refine ⟨_, LockOrder.steps_start (.listenerAccept i j) (h.idle t hpc), rfl, ?_, ?_⟩
    · rw [hpc]
      exact Function.update_self ..
    · exact fun u hne => Function.update_of_ne hne ..
  · exact ⟨S, Relation.ReflTransGen.refl, rfl, h.ahead t hpc, fun u _ => rfl⟩

theorem CallsOnLocks.call (h : CallsOnLocks i j s S) (hc : callStep setup s t a = some (c, e))
    (hfree : e.takesLock = true → s.lock = none) :
    ∃ S', LockOrder.locks.Steps System.anyEvent S S' ∧
      CallsOnLocks i j ((s.setCall t c).apply setup t e) S' := by
  obtain ⟨S₁, hstart, howner, hself, hother⟩ := h.start t
  have hreaches := next_reaches rfl hc hfree i j
  refine ⟨_, hstart.trans (LockOrder.steps_reaches hreaches (howner.trans h.owner) hself), rfl,
    fun u hu => ?_, fun u hu => ?_⟩
  · rw [Listener.apply_calls] at hu
    rcases eq_or_ne u t with rfl | hne
    · rw [Listener.setCall_calls_self] at hu
      exact absurd hu (next_ne_idle rfl hc)
    · rw [Listener.setCall_calls_of_ne hne] at hu
      simpa [hne, hother u hne] using h.idle u hu
  · rw [Listener.apply_calls] at hu ⊢
    rcases eq_or_ne u t with rfl | hne
    · simp
    · rw [Listener.setCall_calls_of_ne hne] at hu ⊢
      simpa [hne, hother u hne] using h.ahead u hu

/-- **A listener and its calls use the locks as `locks` says**: every reachable state is a reachable
state there. -/
theorem multiListener_onLocks {ok : Listener → Listener.Action → Prop}
    (hs : (multiListener setup).Reachable ok s) (i j : ℕ) :
    ∃ S, LockOrder.locks.Reachable System.anyEvent S ∧ CallsOnLocks i j s S := by
  refine multiListener_invariant (P := fun s =>
    ∃ S, LockOrder.locks.Reachable System.anyEvent S ∧ CallsOnLocks i j s S) ?_ ?_ ?_ ?_ ?_ hs
  · refine ⟨_, .init, ?_, fun t _ => rfl, fun t ht => absurd rfl ht⟩
    simp [LockOrder.locks, Locking.system, only, multiListener]
  · rintro s t a c e - ⟨S, hS, h⟩ hc hfree
    obtain ⟨S', hsteps, h'⟩ := h.call hc hfree
    exact ⟨S', hS.steps hsteps, h'⟩
  · rintro s t ch st ⟨S, hS, h⟩ -
    exact ⟨S, hS, h.owner, h.idle, h.ahead⟩
  · rintro s k t ⟨S, hS, h⟩ - - -
    exact ⟨S, hS, h.owner, h.idle, h.ahead⟩
  · rintro s k t - ⟨S, hS, h⟩ - -
    exact ⟨S, hS, h.owner, h.idle, h.ahead⟩

end

end ZitiChannel
