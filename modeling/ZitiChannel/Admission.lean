import ZitiChannel.ListenerSafety

/-!
# Admission

An application may refuse a channel before it is created.  Its admitter is asked by the call that
has reserved the group and not yet acknowledged the hello, outside the lock, while other calls of
the group wait.  A refusal then costs nothing: the reservation is released, the underlay is told and
closed, and the maps are as if the call had done no more than delete the registration of a closed
channel, if it found one.

To speak of the past, the listener is run with a record: what each call did about its reservation,
and for each call the two maps as they would be without it.

## Main definitions

* `Audit`, `auditOf` — what a call does about its reservation.
* `Maps`, `Maps.without` — the two maps, and what a step does to them if one call does nothing but
  delete the registration of a closed channel.
* `audited` — the listener with its record.
* `Admission` — what an admitter may rely on.

## Main results

* `audited_calls` — what a call has done about its reservation follows from its own record.
* `without_channels`, `without_createNotifiers` — the maps with and without a call that publishes
  nothing differ in its reservation at most.
* `admission` — **the admitter is asked once for each creation and for nothing else, and a refusal
  leaves nothing behind.**

The source is `multi_listener.go`.
-/

namespace ZitiChannel

open Transition

/-! ### What a call does about its reservation -/

inductive Audit
  | reserve
  /-- The admitter is asked. -/
  | consult
  | accept
  | refuse (reason : GoString)
  /-- The `Factory` is called. -/
  | factory
  | publish
  | release
  deriving DecidableEq

/-- What a call does by going from one point to another, with a given effect. -/
def auditOf : Pc → Pc → Effect → List Audit
  | .unregistered, .admitting, _ => [.reserve, .consult]
  | .unregistered, .acking none, _ => [.reserve]
  | .admitting, .acking none, _ => [.accept]
  | .admitting, .releasing (.reject reason), _ => [.refuse reason]
  | .acking none, .creating, _ => [.factory]
  | .publishAsk, _, .publish => [.publish]
  | .releasing _, _, _ => [.release]
  | _, _, _ => []

/-- What a call may have done about its reservation, if there is an admitter. -/
def Call.Audited (c : Call) (audits : List Audit) : Prop :=
  match c.pc with
  | .admitting => audits = [.reserve, .consult]
  | .acking none | .releasing .close => audits = [.reserve, .consult, .accept]
  | .creating | .factoryFailed | .publish | .publishLoad | .publishAsk =>
      audits = [.reserve, .consult, .accept, .factory]
  | .releasing .ret =>
      audits = [.reserve, .consult, .accept, .factory] ∨
        audits = [.reserve, .consult, .accept, .factory, .publish]
  | .releasing (.reject reason) => audits = [.reserve, .consult, .refuse reason]
  | .rejecting reason => audits = [.reserve, .consult, .refuse reason, .release]
  | .closing =>
      c.reserved = false ∧ audits = [] ∨
        c.reserved = true ∧ audits = [.reserve, .consult, .accept, .release]
  | .returned =>
      c.reserved = false ∧ audits = [] ∨
      c.reserved = true ∧ (
        c.log = [.ackHello, .close] ∧ audits = [.reserve, .consult, .accept, .release] ∨
        (∃ reason, c.log = [.negativeResult, .close] ∧
          audits = [.reserve, .consult, .refuse reason, .release]) ∨
        c.factory ≠ .notCalled ∧
          (audits = [.reserve, .consult, .accept, .factory, .release] ∨
            audits = [.reserve, .consult, .accept, .factory, .publish, .release]))
  | _ => audits = []

/-! ### The maps without a call -/

/-- The two maps of the listener. -/
structure Maps where
  channels : GoString → Option ℕ
  createNotifiers : GoString → Option ℕ

def Listener.maps (s : Listener) : Maps := ⟨s.channels, s.createNotifiers⟩

/-- Whether a closed channel is registered for an id. -/
def Listener.stale (s : Listener) (id : GoString) : Bool :=
  (s.channels id).any fun reg => (s.registrations reg).closed || (s.registrations reg).isClosed

section

variable (setup : ListenerSetup)

namespace Maps

/-- What an effect of call `u` does to the maps. -/
def apply (m : Maps) (u : ℕ) : Effect → Maps
  | .evict => { m with channels := Function.update m.channels (setup.chId u) none }
  | .publish => { m with channels := Function.update m.channels (setup.chId u) (some u) }
  | .reserve =>
      { m with createNotifiers := Function.update m.createNotifiers (setup.chId u) (some u) }
  | .release => { m with createNotifiers := Function.update m.createNotifiers (setup.chId u) none }
  | .quiet | .lock | .unlock | .channel _ _ => m

/-- The same, if call `t` does nothing but delete the registration of a closed channel. -/
def without (t : ℕ) (m : Maps) (s : Listener) (u : ℕ) (e : Effect) : Maps :=
  if u = t then
    match e with
    | .evict => if s.stale (setup.chId t) then m.apply setup t .evict else m
    | _ => m
  else m.apply setup u e

/-- What `closeRegistration` of a registration does to the maps. -/
def closeRegistration (m : Maps) (reg : ℕ) : Maps :=
  { m with
    channels := if m.channels (setup.chId reg) = some reg then
        Function.update m.channels (setup.chId reg) none
      else m.channels }

end Maps

/-! ### The listener with its record -/

/-- The record: what each call did about its reservation, and the maps as they would be if it had
done nothing but delete the registration of a closed channel. -/
structure Past where
  audits : ℕ → List Audit
  without : ℕ → Maps

namespace Past

/-- What a step of call `u` to `c` adds. -/
def call (past : Past) (s : Listener) (u : ℕ) (c : Call) (e : Effect) : Past where
  audits := Function.update past.audits u
    (past.audits u ++ auditOf (s.calls u).pc c.pc e)
  without t := (past.without t).without setup t s u e

/-- What a close callback adds. -/
def unregister (past : Past) (reg : ℕ) : Past :=
  { past with without := fun t => (past.without t).closeRegistration setup reg }

/-- What a step adds. -/
def note (s : Listener) (act : Listener.Action) (_ : Listener) (past : Past) : Past :=
  match act with
  | .call u a =>
      match callStep setup s u a with
      | some (c, e) => past.call setup s u c e
      | none => past
  | .unregister k =>
      match s.callbacks k with
      | some (.marked reg) => past.unregister setup reg
      | _ => past
  | .channel _ _ | .callback _ _ => past

end Past

/-- The listener with its record. -/
def audited : System (Listener × Past) Listener.Action :=
  (multiListener setup).recording
    ⟨fun _ => [], fun _ => (multiListener setup).init.maps⟩ (Past.note setup)

end

section

variable {setup : ListenerSetup} {s s' : Listener} {past : Past} {t : ℕ} {a : CallAction}
  {c c' : Call} {e : Effect} {pc : Pc}

theorem reachable_of_audited (h : (audited setup).Reachable System.anyEvent (s, past)) :
    (multiListener setup).Reachable System.anyEvent s :=
  System.Reachable.of_recording (fun _ _ _ => trivial) h

/-- Every run of the listener has its record. -/
theorem exists_past (h : (multiListener setup).Reachable System.anyEvent s) :
    ∃ past, (audited setup).Reachable System.anyEvent (s, past) :=
  h.recording fun _ _ _ => trivial

/-- The induction rule of the listener with its record. -/
theorem audited_invariant {P : Listener → Past → Prop}
    (init : P (multiListener setup).init ⟨fun _ => [], fun _ => (multiListener setup).init.maps⟩)
    (call : ∀ s past u a c e, (multiListener setup).Reachable System.anyEvent s → P s past →
      callStep setup s u a = some (c, e) →
      P ((s.setCall u c).apply setup u e) (past.call setup s u c e))
    (channel : ∀ s past reg ch, P s past → P (s.setChannel reg ch) past)
    (mark : ∀ s past k reg, P s past → P (s.mark k reg) past)
    (unregister : ∀ s past k reg, P s past →
      P (s.closeRegistration setup k reg) (past.unregister setup reg))
    (hs : (audited setup).Reachable System.anyEvent (s, past)) : P s past := by
  refine System.Reachable.invariant_of_reachable (P := fun x : Listener × Past => P x.1 x.2)
    init ?_ hs
  rintro ⟨s, past⟩ act ⟨s', past'⟩ hr hP - h
  obtain ⟨hstep, hpast⟩ := System.recording_step h
  dsimp only at hstep hpast hP ⊢
  subst hpast
  refine Listener.step_cases (P := fun s' => P s' (Past.note setup s act s' past)) hstep ?_ ?_ ?_ ?_
  · rintro u a c e rfl hc -
    simpa only [Past.note, hc] using call s past u a c e (reachable_of_audited hr) hP hc
  · rintro reg ch st rfl -
    exact channel s past reg _ hP
  · rintro k reg rfl - -
    exact mark s past k reg hP
  · rintro k reg rfl hk -
    simpa only [Past.note, hk] using unregister s past k reg hP

/-! ### What a call has done -/

theorem next_audited {audits : List Audit} (hadmitter : setup.admitter = true)
    (h : next setup s t c pc a = some (c', e)) (hc : c ∈ pc.states) (haud : c.Audited audits) :
    c'.Audited (audits ++ auditOf pc c'.pc e) := by
  revert h
  fun_cases next setup s t c pc a
  all_goals intro h; cases h
  all_goals simp only [Pc.states, List.mem_cons, List.not_mem_nil, or_false] at hc
  all_goals try (subst hc; simp_all [Call.Audited, auditOf])
  · -- the reservation is released after the `Factory`
    rcases hc with rfl | rfl <;> rcases haud with rfl | rfl <;> simp [Call.Audited, auditOf]
  · -- the underlay is closed
    rcases hc with rfl | rfl | rfl | rfl <;> simp_all [Call.Audited, auditOf]

/-- **What a call has done about its reservation follows from its own record.** -/
theorem audited_calls (hadmitter : setup.admitter = true)
    (hs : (audited setup).Reachable System.anyEvent (s, past)) :
    ∀ t, (s.calls t).Audited (past.audits t) := by
  refine audited_invariant (P := fun s past => ∀ t, (s.calls t).Audited (past.audits t))
    ?init ?call ?channel ?mark ?unregister hs
  case init => intro t; rfl
  case call =>
    intro s past u a c e hr hP hc t
    rw [Listener.apply_calls]
    rcases eq_or_ne t u with rfl | hne
    · simpa [Past.call] using next_audited hadmitter hc (mem_states hr t) (hP t)
    · simpa [Past.call, hne, Listener.setCall_calls_of_ne hne] using hP t
  case channel => intro s past reg ch hP; exact hP
  case mark => intro s past k reg hP; exact hP
  case unregister => intro s past k reg hP; exact hP

/-- Whether a call can stand here only if its underlay is grouped. -/
def Pc.grouped : Pc → Bool
  | .idle | .ungroupedAck | .fallback | .closing | .returned => false
  | _ => true

theorem next_grouped (h : next setup s t c pc a = some (c', e)) :
    c'.pc.grouped = true ∨ auditOf pc c'.pc e ≠ [] →
      setup.isGrouped t = true ∨ pc.grouped = true := by
  revert h
  fun_cases next setup s t c pc a
  all_goals intro h; cases h
  all_goals simp_all [Pc.grouped, auditOf]

/-- Only a grouped underlay gets a reservation. -/
theorem audits_grouped (hs : (audited setup).Reachable System.anyEvent (s, past)) :
    ∀ t, (s.calls t).pc.grouped = true ∨ past.audits t ≠ [] → setup.isGrouped t = true := by
  refine audited_invariant (P := fun s past => ∀ t,
      (s.calls t).pc.grouped = true ∨ past.audits t ≠ [] → setup.isGrouped t = true)
    ?init ?call ?channel ?mark ?unregister hs
  case init => intro t; simp [multiListener, Call.fresh, Pc.grouped]
  case call =>
    intro s past u a c e _ hP hc t
    rw [Listener.apply_calls]
    rcases eq_or_ne t u with rfl | hne
    · have hnext := next_grouped hc
      have ht := hP t
      simp only [Past.call, Function.update_self, Listener.setCall_calls_self]
      rintro (hpc | haud)
      · exact (hnext (Or.inl hpc)).elim id fun h => ht (Or.inl h)
      · by_cases hold : past.audits t = []
        · rw [hold, List.nil_append] at haud
          exact (hnext (Or.inr haud)).elim id fun h => ht (Or.inl h)
        · exact ht (Or.inr hold)
    · simpa [Past.call, hne, Listener.setCall_calls_of_ne hne] using hP t
  case channel => intro s past reg ch hP; exact hP
  case mark => intro s past k reg hP; exact hP
  case unregister => intro s past k reg hP; exact hP

/-! ### The maps with and without a call -/

@[simp] theorem Listener.maps_apply :
    ((s.setCall t c).apply setup t e).maps = s.maps.apply setup t e := by
  cases e <;> rfl

@[simp] theorem Listener.maps_closeRegistration (k reg : ℕ) :
    (s.closeRegistration setup k reg).maps = s.maps.closeRegistration setup reg := rfl

/-- What a call evicts is the registration of a closed channel. -/
theorem stale_of_evict (hs : (multiListener setup).Reachable System.anyEvent s)
    (hc : callStep setup s t a = some (c, .evict)) : s.stale (setup.chId t) = true := by
  obtain ⟨reg, hpc, hclosed⟩ := next_evict hc
  have hentry : s.channels (setup.chId t) = some reg := by
    have h := sees hs t
    rcases hpc with hpc | hpc <;> simpa [hpc, Pc.Sees] using h
  simpa [Listener.stale, hentry] using hclosed

/-- The registrations are those that a call which publishes nothing leaves there. -/
theorem without_channels (hs : (audited setup).Reachable System.anyEvent (s, past)) :
    ∀ t, .publish ∉ past.audits t → (past.without t).channels = s.maps.channels := by
  refine audited_invariant (P := fun s past => ∀ t, .publish ∉ past.audits t →
      (past.without t).channels = s.maps.channels)
    ?init ?call ?channel ?mark ?unregister hs
  case init => intro t _; rfl
  case call =>
    intro s past u a c e hr hP hc t hpub
    rw [Listener.maps_apply]
    rcases eq_or_ne u t with rfl | hne
    · simp only [Past.call, Function.update_self, List.mem_append, not_or] at hpub
      have hu := hP u hpub.1
      cases e with
      | evict => simp [Past.call, Maps.without, Maps.apply, stale_of_evict hr hc, hu]
      | publish =>
        -- a publishing call notes that it publishes
        have hpc : (s.calls u).pc = .publishAsk := next_publish hc
        exact absurd (by simp [auditOf, hpc]) hpub.2
      | quiet | lock | unlock | reserve | release | channel =>
        simpa [Past.call, Maps.without, Maps.apply] using hu
    · have ht := hP t (by simpa [Past.call, hne.symm] using hpub)
      cases e <;> simp [Past.call, Maps.without, hne, Maps.apply, ht]
  case channel => intro s past reg ch hP; exact hP
  case mark => intro s past k reg hP; exact hP
  case unregister =>
    intro s past k reg hP t hpub
    simp only [Past.unregister, Listener.maps_closeRegistration, Maps.closeRegistration]
    rw [hP t hpub]

/-- The reservations without call `t`, of those there are with it. -/
def otherThan (t : ℕ) (entry : Option ℕ) : Option ℕ := if entry = some t then none else entry

/-- The reservations are those that there would be without a call, and its own. -/
theorem without_createNotifiers (hs : (audited setup).Reachable System.anyEvent (s, past)) :
    ∀ t id, (past.without t).createNotifiers id = otherThan t (s.maps.createNotifiers id) := by
  refine audited_invariant (P := fun s past => ∀ t id, (past.without t).createNotifiers id =
      otherThan t (s.maps.createNotifiers id))
    ?init ?call ?channel ?mark ?unregister hs
  case init => intro t id; rfl
  case call =>
    intro s past u a c e hr hP hc t id
    rw [Listener.maps_apply]
    have hid := hP t id
    have hm := next_moves rfl hc
    rcases eq_or_ne u t with rfl | hne
    · have hsame : (past.call setup s u c e).without u = (past.without u).without setup u s u e :=
        rfl
      rw [hsame]
      cases e with
      | evict => simpa [Maps.without, Maps.apply, stale_of_evict hr hc] using hid
      | reserve =>
        -- there was no reservation of this id
        have hfree : s.maps.createNotifiers (setup.chId u) = none := next_reserve hc
        rcases eq_or_ne id (setup.chId u) with rfl | hother
        · simp [Maps.without, Maps.apply, hid, hfree, otherThan]
        · simpa [Maps.without, Maps.apply, hother] using hid
      | release =>
        -- the reservation of this id was the call's own
        have hown : s.maps.createNotifiers (setup.chId u) = some u :=
          (createNotifiers_iff hr (setup.chId u) u).mpr ⟨hm.2.1, rfl⟩
        rcases eq_or_ne id (setup.chId u) with rfl | hother
        · simp [Maps.without, Maps.apply, hid, hown, otherThan]
        · simpa [Maps.without, Maps.apply, hother] using hid
      | quiet | lock | unlock | publish | channel => simpa [Maps.without, Maps.apply] using hid
    · have hsame : (past.call setup s u c e).without t = (past.without t).apply setup u e :=
        if_neg hne
      rw [hsame]
      rcases eq_or_ne id (setup.chId u) with rfl | hother
      · cases e with
        | reserve | release => simp [Maps.apply, otherThan, hne]
        | quiet | lock | unlock | evict | publish | channel => exact hid
      · cases e <;> simpa [Maps.apply, hother] using hid
  case channel => intro s past reg ch hP; exact hP
  case mark => intro s past k reg hP; exact hP
  case unregister => intro s past k reg hP; exact hP

/-- Once a call that published nothing holds no reservation, the maps are those without it. -/
theorem maps_eq_without (hs : (audited setup).Reachable System.anyEvent (s, past))
    (hpub : .publish ∉ past.audits t) (hfree : (s.calls t).pc.holds = false) :
    s.maps = past.without t := by
  have hnone : ∀ id, s.maps.createNotifiers id ≠ some t := fun id h => by
    have hholds := ((createNotifiers_iff (reachable_of_audited hs) id t).mp h).1
    rw [hfree] at hholds
    cases hholds
  have hnotifiers : (past.without t).createNotifiers = s.maps.createNotifiers := by
    funext id
    rw [without_createNotifiers hs t id, otherThan, if_neg (hnone id)]
  have hchannels := without_channels hs t hpub
  cases hw : past.without t
  simp_all [Listener.maps]

/-! ### A refused call returns -/

/-- How many steps at most a call inside a critical section takes to leave it. -/
def Pc.left : Pc → ℕ
  | .loadFlag _ => 3
  | .askClosed _ | .publishLoad => 2
  | .unregistered | .publishAsk => 1
  | _ => 0

/-- A call inside a critical section can go on, without waiting, and is closer to leaving it. -/
theorem next_left (hpc : pc.locked = true) :
    ∃ c' e, next setup s t c pc .go = some (c', e) ∧ e.takesLock = false ∧
      c'.pc.left < pc.left := by
  cases pc with
  | loadFlag | askClosed | publishLoad | publishAsk =>
    simp only [next]
    split <;> exact ⟨_, _, rfl, rfl, by simp [Pc.left]⟩
  | unregistered =>
    simp only [next]
    (repeat' split) <;> exact ⟨_, _, rfl, rfl, by simp [Pc.left]⟩
  | _ => cases hpc

theorem Listener.apply_lock (setup : ListenerSetup) (s : Listener) (t : ℕ) (c : Call)
    (he : e.takesLock = false) :
    ((s.setCall t c).apply setup t e).lock = s.lock ∨
      ((s.setCall t c).apply setup t e).lock = none := by
  cases e <;> simp_all [Effect.takesLock, Listener.apply, Listener.setChannel]

/-- The lock comes free by steps of the call that has it. -/
theorem exists_unlocked (hs : (multiListener setup).Reachable System.anyEvent s) :
    ∃ s', (multiListener setup).Steps System.anyEvent s s' ∧ s'.lock = none ∧
      ∀ t, (s.calls t).pc.locked = false → s'.calls t = s.calls t := by
  cases hlock : s.lock with
  | none => exact ⟨s, Relation.ReflTransGen.refl, hlock, fun _ _ => rfl⟩
  | some u =>
    -- by induction on the steps that the call has left under the lock
    induction hn : (s.calls u).pc.left using Nat.strong_induction_on generalizing s with
    | _ n ih =>
      have hu := (lock_iff hs u).mp hlock
      obtain ⟨c, e, hnext, he, hless⟩ : ∃ c e, callStep setup s u .go = some (c, e) ∧
          e.takesLock = false ∧ c.pc.left < (s.calls u).pc.left := next_left hu
      have hstep : (multiListener setup).step s (.call u .go) =
          some ((s.setCall u c).apply setup u e) := by
        simp [multiListener, Listener.step, hnext, he]
      have hframe : ∀ t, (s.calls t).pc.locked = false →
          ((s.setCall u c).apply setup u e).calls t = s.calls t := fun t ht => by
        rw [Listener.apply_calls, Listener.setCall_calls_of_ne]
        rintro rfl
        rw [hu] at ht
        cases ht
      rcases s.apply_lock setup u c he with hsame | hnone
      · obtain ⟨s', hsteps, hfree, hrest⟩ := ih _ (by simpa [← hn] using hless)
          (hs.step trivial hstep) (hsame.trans hlock) rfl
        refine ⟨s', Relation.ReflTransGen.head ⟨_, trivial, hstep⟩ hsteps, hfree, fun t ht => ?_⟩
        rw [hrest t (by rw [hframe t ht]; exact ht), hframe t ht]
      · exact ⟨_, Relation.ReflTransGen.single ⟨_, trivial, hstep⟩, hnone, hframe⟩

/-- Where a call stands that the admitter refused, and what it did with its underlay. -/
theorem Pc.states_refused (pc : Pc) {reason : GoString} {audits : List Audit} :
    ∀ c ∈ pc.states, c.Audited audits → .refuse reason ∈ audits →
      (pc = .releasing (.reject reason) ∧ c.log = [] ∨ pc = .rejecting reason ∧ c.log = [] ∨
        pc = .returned ∧ c.log = [.negativeResult, .close]) ∧
      c.factory = .notCalled ∧ .publish ∉ audits := by
  fun_cases Pc.states pc
  all_goals simp +contextual [Call.Audited]
  all_goals (rintro (rfl | rfl) <;> simp)

/-- A refused call can always go on until it has told and closed its underlay. -/
theorem refused_returns {reason : GoString} (hadmitter : setup.admitter = true)
    (hs : (audited setup).Reachable System.anyEvent (s, past))
    (href : .refuse reason ∈ past.audits t) :
    ∃ s', (multiListener setup).Steps System.anyEvent s s' ∧ (s'.calls t).pc = .returned ∧
      (s'.calls t).log = [.negativeResult, .close] := by
  have hr := reachable_of_audited hs
  -- the last step, which waits for nothing
  have hlast : ∀ s : Listener, (s.calls t).pc = .rejecting reason → (s.calls t).log = [] →
      ∃ s', (multiListener setup).Steps System.anyEvent s s' ∧ (s'.calls t).pc = .returned ∧
        (s'.calls t).log = [.negativeResult, .close] := fun s hpc hlog => by
    have hstep : (multiListener setup).step s (.call t .go) = some (s.setCall t
        (((s.calls t).note [.negativeResult, .close]).goto .returned)) := by
      simp [multiListener, Listener.step, callStep, hpc, next, Effect.takesLock, Listener.apply]
    exact ⟨_, Relation.ReflTransGen.single ⟨_, trivial, hstep⟩, by simp [hlog]⟩
  obtain ⟨hwhere, -, -⟩ := (s.calls t).pc.states_refused _ (mem_states hr t)
    (audited_calls hadmitter hs t) href
  rcases hwhere with ⟨hpc, hlog⟩ | ⟨hpc, hlog⟩ | ⟨hpc, hlog⟩
  · -- the reservation is released when the lock is free
    obtain ⟨s₁, hsteps, hfree, hsame⟩ := exists_unlocked hr
    have ht : s₁.calls t = s.calls t := hsame t (by simp [hpc, Pc.locked])
    have hrelease : (multiListener setup).step s₁ (.call t .go) = some ((s₁.setCall t
        ((s₁.calls t).closeNotifier.goto (.rejecting reason))).apply setup t .release) := by
      simp [multiListener, Listener.step, callStep, ht, hpc, next, hfree]
    obtain ⟨s', hrest, hdone⟩ := hlast ((s₁.setCall t
      ((s₁.calls t).closeNotifier.goto (.rejecting reason))).apply setup t .release)
      (by simp) (by simp [ht, hlog])
    exact ⟨s', hsteps.trans (.head ⟨_, trivial, hrelease⟩ hrest), hdone⟩
  · exact hlast s hpc hlog
  · exact ⟨s, Relation.ReflTransGen.refl, hpc, hlog⟩

/-! ### Admission -/

/-- What an admitter may rely on, about call `t`. -/
structure Admission (setup : ListenerSetup) (s : Listener) (past : Past) (t : ℕ) : Prop where
  /-- The `Factory` is called after the admitter accepted, under the same reservation. -/
  accepted : ∀ before after, past.audits t = before ++ .factory :: after →
    before = [.reserve, .consult, .accept]
  factory : (s.calls t).factory ≠ .notCalled ↔ .factory ∈ past.audits t
  /-- The admitter is asked exactly once for a reservation. -/
  once : (past.audits t).count .consult = (past.audits t).count .reserve ∧
    (past.audits t).count .reserve ≤ 1
  reserved : (s.calls t).reserved = true ↔ .reserve ∈ past.audits t
  /-- It is not asked for an underlay that is ungrouped or attaches to a channel. -/
  creator : .consult ∈ past.audits t → setup.isGrouped t = true ∧ .toChannel ∉ (s.calls t).log ∧
    .toFallback ∉ (s.calls t).log ∧ ∀ reg, (s.calls t).pc ≠ .acking (some reg)
  /-- A refused underlay is not acknowledged and not handed to the `Factory`. -/
  refused : ∀ reason, .refuse reason ∈ past.audits t → .ackHello ∉ (s.calls t).log ∧
    .toFactory ∉ (s.calls t).log ∧ (s.calls t).factory = .notCalled
  /-- It is told and closed: the call can always go on to its end, and it ends that way. -/
  told : ∀ reason, .refuse reason ∈ past.audits t →
    ((s.calls t).pc = .returned → (s.calls t).log = [.negativeResult, .close]) ∧
    ∃ s', (multiListener setup).Steps System.anyEvent s s' ∧ (s'.calls t).pc = .returned ∧
      (s'.calls t).log = [.negativeResult, .close]
  /-- Nothing is left behind. -/
  free : ∀ reason, .refuse reason ∈ past.audits t → (s.calls t).pc.holds = false →
    s.maps = past.without t

/-- A call did nothing about a reservation, or it made one and asked the admitter, each once. -/
theorem Pc.states_audits (pc : Pc) {audits : List Audit} : ∀ c ∈ pc.states, c.Audited audits →
    c.reserved = false ∧ audits = [] ∨ c.reserved = true ∧
      ∃ tail, audits = .reserve :: .consult :: tail ∧ .reserve ∉ tail ∧ .consult ∉ tail := by
  fun_cases Pc.states pc
  all_goals simp +contextual [Call.Audited]
  all_goals (rintro (rfl | rfl) <;> simp)

theorem Pc.states_once (pc : Pc) {audits : List Audit} (c : Call) (hc : c ∈ pc.states)
    (haud : c.Audited audits) :
    audits.count .consult = audits.count .reserve ∧ audits.count .reserve ≤ 1 := by
  rcases pc.states_audits c hc haud with ⟨-, rfl⟩ | ⟨-, tail, rfl, hreserve, hconsult⟩
  · simp
  · simp [List.count_eq_zero_of_not_mem hreserve, List.count_eq_zero_of_not_mem hconsult]

theorem Pc.states_reserve (pc : Pc) {audits : List Audit} (c : Call) (hc : c ∈ pc.states)
    (haud : c.Audited audits) : c.reserved = true ↔ .reserve ∈ audits := by
  rcases pc.states_audits c hc haud with ⟨hres, rfl⟩ | ⟨hres, tail, rfl, -, -⟩
  · simp [hres]
  · simp [hres]

/-- A call whose underlay the admitter was asked about neither attaches nor falls back. -/
theorem Pc.states_creator (pc : Pc) {audits : List Audit} : ∀ c ∈ pc.states, c.Audited audits →
    .consult ∈ audits →
      .toChannel ∉ c.log ∧ .toFallback ∉ c.log ∧ ∀ reg, pc ≠ .acking (some reg) := by
  fun_cases Pc.states pc
  all_goals simp +contextual [Call.Audited]

/-- The `Factory` was not called, or the audits begin with an acceptance. -/
theorem Pc.states_factory (pc : Pc) {audits : List Audit} : ∀ c ∈ pc.states, c.Audited audits →
    c.factory = .notCalled ∧ .factory ∉ audits ∨ c.factory ≠ .notCalled ∧
      ∃ tail, audits = .reserve :: .consult :: .accept :: .factory :: tail ∧ .factory ∉ tail := by
  fun_cases Pc.states pc
  all_goals simp +contextual [Call.Audited]
  all_goals (rintro (rfl | rfl) <;> simp)

/-- What comes before the call of the `Factory`. -/
theorem before_factory {before after tail : List Audit} (htail : .factory ∉ tail)
    (h : .reserve :: .consult :: .accept :: .factory :: tail = before ++ .factory :: after) :
    before = [.reserve, .consult, .accept] := by
  rcases before with - | ⟨b, - | ⟨b', - | ⟨b'', - | ⟨b₃, before⟩⟩⟩⟩
  · cases h
  · cases h
  · cases h
  · cases h; rfl
  · simp only [List.cons_append, List.cons.injEq] at h
    exact absurd (by rw [h.2.2.2.2]; simp) htail

/-- **Admission.**  For any number of calls, any interleaving of them with each other, with the
lives of channels and with close callbacks, and any answers of the admitter. -/
theorem admission (hadmitter : setup.admitter = true)
    (hs : (audited setup).Reachable System.anyEvent (s, past)) (t : ℕ) :
    Admission setup s past t := by
  have hr := reachable_of_audited hs
  have hc := mem_states hr t
  have haud := audited_calls hadmitter hs t
  have hfactory := (s.calls t).pc.states_factory _ hc haud
  refine ⟨?accepted, ?factory, (s.calls t).pc.states_once _ hc haud,
    (s.calls t).pc.states_reserve _ hc haud, ?creator, ?refused, ?told, ?free⟩
  case accepted =>
    intro before after hsplit
    rcases hfactory with ⟨-, hnot⟩ | ⟨-, tail, haudits, htail⟩
    · exact absurd (by rw [hsplit]; simp) hnot
    · exact before_factory htail (haudits.symm.trans hsplit)
  case factory =>
    rcases hfactory with ⟨hnot, hmem⟩ | ⟨hcalled, tail, haudits, -⟩
    · simp [hnot, hmem]
    · simp [hcalled, haudits]
  case creator =>
    intro hask
    exact ⟨audits_grouped hs t (Or.inr (List.ne_nil_of_mem hask)),
      (s.calls t).pc.states_creator _ hc haud hask⟩
  case refused =>
    intro reason href
    obtain ⟨hwhere, hnot, -⟩ := (s.calls t).pc.states_refused _ hc haud href
    rcases hwhere with ⟨-, hlog⟩ | ⟨-, hlog⟩ | ⟨-, hlog⟩ <;> simp [hlog, hnot]
  case told =>
    intro reason href
    obtain ⟨hwhere, -, -⟩ := (s.calls t).pc.states_refused _ hc haud href
    refine ⟨fun hpc => ?_, refused_returns hadmitter hs href⟩
    rcases hwhere with ⟨hat, -⟩ | ⟨hat, -⟩ | ⟨-, hlog⟩
    · rw [hat] at hpc; cases hpc
    · rw [hat] at hpc; cases hpc
    · exact hlog
  case free =>
    intro reason href hfree
    obtain ⟨-, -, hpub⟩ := (s.calls t).pc.states_refused _ hc haud href
    exact maps_eq_without hs hpub hfree

/-- Three underlays of one group, all of which say they are first, and an admitter. -/
def admitSetup : ListenerSetup where
  underlay t :=
    ⟨t, [], [7], (Headers.putBoolHeader ∅ isGroupedHeader true).putBoolHeader
      isFirstGroupConnection true⟩
  admitter := true

/-- Call 0 creates a channel, which closes; call 1 evicts it and is refused while call 2 waits, and
then call 2 is accepted. -/
def admitRun : List Listener.Action :=
  [.call 0 .go, .call 0 .go, .call 0 .go, .call 0 (.ret none), .call 0 (.ret none),
    .call 0 (.build (regroupChannel 0)), .call 0 (.ret none), .call 0 .go, .call 0 .go, .call 0 .go,
    .call 0 .go, .channel 0 (.call .close), .call 1 .go, .call 1 .go, .call 1 .go, .call 1 .go,
    .call 1 .go, .call 2 .go, .call 2 .go, .call 2 .go, .call 1 (.ret (some [1])), .call 1 .go,
    .call 1 .go, .call 2 .go, .call 2 .go, .call 2 .go, .call 2 (.ret none), .call 2 (.ret none)]

/-- A refused call that evicted a closed channel: at the end only the reservation of the call that
waited is there, as it would be without the refused one. -/
theorem admission_refused : ∃ s past, (audited admitSetup).Reachable System.anyEvent (s, past) ∧
    past.audits 1 = [.reserve, .consult, .refuse [1], .release] ∧
    past.audits 2 = [.reserve, .consult, .accept, .factory] ∧
    s.channels [7] = none ∧ s.createNotifiers [7] = some 2 ∧
    (s.calls 1).pc.holds = false ∧ Admission admitSetup s past 1 ∧
    Admission admitSetup s past 2 := by
  obtain ⟨⟨s, past⟩, hs, h⟩ := System.reachable_of_replay (audited admitSetup) System.anyEvent
    admitRun (fun x => decide (x.2.audits 1 = [.reserve, .consult, .refuse [1], .release] ∧
      x.2.audits 2 = [.reserve, .consult, .accept, .factory] ∧ x.1.channels [7] = none ∧
      x.1.createNotifiers [7] = some 2 ∧ (x.1.calls 1).pc.holds = false)) (by decide +kernel)
  obtain ⟨h₁, h₂, hch, hres, hfree⟩ := of_decide_eq_true h
  exact ⟨s, past, hs, h₁, h₂, hch, hres, hfree, admission rfl hs 1, admission rfl hs 2⟩

end

end ZitiChannel
