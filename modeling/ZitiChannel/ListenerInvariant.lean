import ZitiChannel.MultiListener

/-!
# Invariants of the listener

What ties the two maps and the lock to where the calls stand, in every reachable
state and with no promise about channels or callbacks:

* the lock is held by the call that is inside a critical section (`lock_iff`);
* the reservations are those of the calls that hold one (`createNotifiers_iff`);
* what a call found in the channel map is still there while it has the lock, and
  under a reservation the map holds nothing or the holder's own channel (`sees`);
* each call's own record is one of the few that its position allows (`mem_states`).

## Main definitions

* `Pc.states` — the records a call can have at each point.
* `Pc.Sees` — what a call may rely on about the channel map.
-/

namespace ZitiChannel

open Transition

/-! ### The record of a call -/

/-- The records a call can have at each point: what it did with its underlay, whether
it made a notifier, how often that was closed, and its `Factory`. -/
def Pc.states (pc : Pc) : List Call :=
  match pc with
  | .idle | .lookup | .loadFlag _ | .askClosed _ | .unregistered | .waiting _ =>
      [⟨pc, [], false, 0, .notCalled⟩]
  | .ungroupedAck | .acking (some _) => [⟨pc, [.ackHello], false, 0, .notCalled⟩]
  | .fallback => [⟨pc, [.ackHello, .acked, .toFallback], false, 0, .notCalled⟩]
  | .attaching _ => [⟨pc, [.ackHello, .acked, .toChannel], false, 0, .notCalled⟩]
  | .admitting | .releasing (.reject _) => [⟨pc, [], true, 0, .notCalled⟩]
  | .acking none | .releasing .close => [⟨pc, [.ackHello], true, 0, .notCalled⟩]
  | .creating => [⟨pc, [.ackHello, .acked, .toFactory], true, 0, .running⟩]
  | .factoryFailed => [⟨pc, [.ackHello, .acked, .toFactory], true, 0, .failed⟩]
  | .publish | .publishLoad | .publishAsk =>
      [⟨pc, [.ackHello, .acked, .toFactory, .accepted], true, 0, .ok⟩]
  | .releasing .ret =>
      [⟨pc, [.ackHello, .acked, .toFactory, .accepted], true, 0, .ok⟩,
        ⟨pc, [.ackHello, .acked, .toFactory, .close], true, 0, .failed⟩]
  | .closing =>
      [⟨pc, [], false, 0, .notCalled⟩,
        ⟨pc, [.ackHello], false, 0, .notCalled⟩,
        ⟨pc, [.ackHello], true, 1, .notCalled⟩,
        ⟨pc, [.ackHello, .acked, .toFallback], false, 0, .notCalled⟩]
  | .rejecting _ => [⟨pc, [], true, 1, .notCalled⟩]
  | .returned =>
      [⟨pc, [.close], false, 0, .notCalled⟩,
        ⟨pc, [.ackHello, .close], false, 0, .notCalled⟩,
        ⟨pc, [.ackHello, .close], true, 1, .notCalled⟩,
        ⟨pc, [.negativeResult, .close], true, 1, .notCalled⟩,
        ⟨pc, [.ackHello, .acked, .toFallback, .accepted], false, 0, .notCalled⟩,
        ⟨pc, [.ackHello, .acked, .toFallback, .close], false, 0, .notCalled⟩,
        ⟨pc, [.ackHello, .acked, .toChannel, .accepted], false, 0, .notCalled⟩,
        ⟨pc, [.ackHello, .acked, .toChannel, .close], false, 0, .notCalled⟩,
        ⟨pc, [.ackHello, .acked, .toFactory, .accepted], true, 1, .ok⟩,
        ⟨pc, [.ackHello, .acked, .toFactory, .close], true, 1, .failed⟩]

/-- A channel takes an underlay in without closing it, or closes it. -/
theorem offerEvents_acceptUnderlay (ch : ChannelImpl) (u : Underlay) :
    offerEvents u ch (ch.acceptUnderlay u).1 (ch.acceptUnderlay u).2 = [.accepted] ∨
      offerEvents u ch (ch.acceptUnderlay u).1 (ch.acceptUnderlay u).2 = [.close] := by
  rcases ChannelImpl.acceptUnderlay_cases ch u with ⟨-, h⟩ | ⟨-, why, h⟩
  · left
    rw [h]
    simp [offerEvents, ChannelImpl.admitUnderlay, ChannelImpl.addUnderlay,
      ChannelImpl.startMultiplex]
  · right
    rw [h]
    simp [offerEvents, ChannelImpl.rejectUnderlay, ChannelImpl.closeConn]

section

variable {setup : ListenerSetup} {s s' : Listener} {t : ℕ}

theorem next_mem_states {a : CallAction} {e : Effect} {c c' : Call} {pc : Pc}
    (h : next setup s t c pc a = some (c', e)) (hc : c ∈ pc.states) : c' ∈ c'.pc.states := by
  revert h
  fun_cases next setup s t c pc a
  all_goals intro h; cases h
  all_goals simp only [Pc.states, List.mem_cons, List.not_mem_nil, or_false] at hc
  all_goals try (subst hc; simp [Pc.states]; done)
  · -- a channel was offered the underlay
    next ch _ u ch' err hoffer =>
    have hev := offerEvents_acceptUnderlay ch u
    rw [hoffer] at hev
    subst hc
    rcases hev with hev | hev <;> simp [Pc.states, hev]
  · -- the reservation is released after the `Factory`
    rcases hc with rfl | rfl <;> simp [Pc.states]
  · -- the underlay is closed
    rcases hc with rfl | rfl | rfl | rfl <;> simp [Pc.states]

/-- The record of every call is one that its position allows. -/
theorem mem_states {ok : Listener → Listener.Action → Prop}
    (hs : (multiListener setup).Reachable ok s) :
    ∀ t, s.calls t ∈ (s.calls t).pc.states := by
  refine multiListener_invariant (P := fun s => ∀ t, s.calls t ∈ (s.calls t).pc.states)
    ?init ?call ?channel ?mark ?unregister hs
  case init => intro t; exact List.mem_singleton.mpr rfl
  case call =>
    intro s t a c e _ hP hc _ u
    rcases eq_or_ne u t with rfl | hne
    · simpa [Listener.setCall] using next_mem_states hc (hP u)
    · simpa [Listener.setCall, hne] using hP u
  case channel => intro s t ch st hP _; exact hP
  case mark => intro s k t hP _ _ _; exact hP
  case unregister => intro s k t _ hP _ _; exact hP

/-! ### The lock and the reservations -/

/-- The lock is held by the call that is inside a critical section. -/
theorem lock_iff {ok : Listener → Listener.Action → Prop}
    (hs : (multiListener setup).Reachable ok s) :
    ∀ u, s.lock = some u ↔ (s.calls u).pc.locked = true := by
  refine multiListener_invariant (P := fun s => ∀ u, s.lock = some u ↔ (s.calls u).pc.locked = true)
    ?init ?call ?channel ?mark ?unregister hs
  case init => intro u; simp [multiListener, Call.fresh, Pc.locked]
  case call =>
    intro s t a c e _ hP hc hfree u
    have hm := next_moves rfl hc
    rcases eq_or_ne u t with rfl | hne
    · have hu := hP u
      cases e <;> simp_all [Listener.apply, Listener.setChannel, Effect.Moves]
    · -- another call: it is inside a critical section only if `t` is not
      have hother : s.lock = some t → (s.calls u).pc.locked = false := fun hl => by
        rw [← Bool.not_eq_true, ← hP u, hl, Option.some.injEq]
        exact hne.symm
      have hu : s.lock = none → (s.calls u).pc.locked = false := fun hl => by
        rw [← Bool.not_eq_true, ← hP u, hl]
        simp
      rw [Listener.apply_calls, Listener.setCall_calls_of_ne hne]
      cases e with
      | quiet | evict | release | channel => exact hP u
      | lock => simp [Listener.apply, hu (hfree rfl), hne.symm]
      | unlock | reserve | publish =>
        simp [Listener.apply, hother ((hP t).mpr hm.1)]
  case channel => intro s t ch st hP _; exact hP
  case mark => intro s k t hP _ _ _; exact hP
  case unregister => intro s k t _ hP _ _; exact hP

/-- Two calls are not inside critical sections at once. -/
theorem locked_unique {ok : Listener → Listener.Action → Prop}
    (hs : (multiListener setup).Reachable ok s) {u v : ℕ} (hu : (s.calls u).pc.locked = true)
    (hv : (s.calls v).pc.locked = true) : u = v := by
  have h := (lock_iff hs u).mpr hu
  rwa [(lock_iff hs v).mpr hv, Option.some.injEq, eq_comm] at h

/-- The reservations are those of the calls that hold one. -/
theorem createNotifiers_iff {ok : Listener → Listener.Action → Prop}
    (hs : (multiListener setup).Reachable ok s) :
    ∀ id u, s.createNotifiers id = some u ↔ (s.calls u).pc.holds = true ∧ setup.chId u = id := by
  refine multiListener_invariant (P := fun s => ∀ id u,
      s.createNotifiers id = some u ↔ (s.calls u).pc.holds = true ∧ setup.chId u = id)
    ?init ?call ?channel ?mark ?unregister hs
  case init => intro id u; simp [multiListener, Call.fresh, Pc.holds]
  case call =>
    intro s t a c e _ hP hc hfree id u
    have hm := next_moves rfl hc
    rcases eq_or_ne u t with rfl | hne
    · have hu := hP id u
      rcases eq_or_ne (setup.chId u) id with hid | hid
      · subst hid
        cases e <;> simp_all [Listener.apply, Listener.setChannel, Effect.Moves]
      · cases e <;> simp_all [Listener.apply, Listener.setChannel, hid.symm]
    · rw [Listener.apply_calls, Listener.setCall_calls_of_ne hne, ← hP id u]
      rcases eq_or_ne (setup.chId t) id with hid | hid
      · -- the entry for this id changes only when it is free or belongs to `t`
        subst hid
        cases e with
        | quiet | lock | unlock | evict | publish | channel => rfl
        | reserve => simp [Listener.apply, next_reserve hc, hne.symm]
        | release =>
          have ht := (hP (setup.chId t) t).mpr ⟨hm.2.1, rfl⟩
          simp [Listener.apply, ht, hne.symm]
      · cases e <;> simp [Listener.apply, Listener.setChannel, hid.symm]
  case channel => intro s t ch st hP _; exact hP
  case mark => intro s k t hP _ _ _; exact hP
  case unregister => intro s k t _ hP _ _; exact hP

/-- Two calls do not hold reservations of one id at once. -/
theorem holds_unique {ok : Listener → Listener.Action → Prop}
    (hs : (multiListener setup).Reachable ok s) {u v : ℕ} (hu : (s.calls u).pc.holds = true)
    (hv : (s.calls v).pc.holds = true) (hid : setup.chId u = setup.chId v) : u = v := by
  have h := (createNotifiers_iff hs (setup.chId v) u).mpr ⟨hu, hid⟩
  rwa [(createNotifiers_iff hs _ v).mpr ⟨hv, rfl⟩, Option.some.injEq, eq_comm] at h

/-! ### What a call may rely on about the channel map -/

/-- What call `t` at a given point may rely on about the registration of its id. -/
def Pc.Sees (t : ℕ) (entry : Option ℕ) (pc : Pc) : Prop :=
  match pc with
  | .loadFlag reg | .askClosed reg => entry = some reg
  | .unregistered => entry = none
  | pc => pc.holds = true → entry = none ∨ entry = some t

/-- A deletion disturbs nobody outside a critical section. -/
theorem Pc.sees_none {pc : Pc} (h : pc.locked = false) : pc.Sees t none := by
  cases pc <;> simp_all [Pc.Sees, Pc.locked]

/-- A call that holds neither the lock nor a reservation relies on nothing. -/
theorem Pc.sees_of_free {pc : Pc} {entry : Option ℕ} (h : pc.locked = false)
    (hr : pc.holds = false) : pc.Sees t entry := by
  cases pc <;> simp_all [Pc.Sees, Pc.locked, Pc.holds]

theorem next_sees {a : CallAction} {e : Effect} {c c' : Call} {pc : Pc} (hpc : c.pc = pc)
    (h : next setup s t c pc a = some (c', e)) (hc : pc.Sees t (s.channels (setup.chId t))) :
    c'.pc.Sees t (e.entry t (s.channels (setup.chId t))) := by
  revert h
  fun_cases next setup s t c pc a
  all_goals intro h; cases h
  all_goals simp_all [Pc.Sees, Effect.entry, Pc.holds]

/-- What a call relies on about the channel map is so. -/
theorem sees {ok : Listener → Listener.Action → Prop}
    (hs : (multiListener setup).Reachable ok s) :
    ∀ u, (s.calls u).pc.Sees u (s.channels (setup.chId u)) := by
  refine multiListener_invariant
    (P := fun s => ∀ u, (s.calls u).pc.Sees u (s.channels (setup.chId u)))
    ?init ?call ?channel ?mark ?unregister hs
  case init => intro u; simp [multiListener, Call.fresh, Pc.Sees, Pc.holds]
  case call =>
    intro s t a c e hr hP hc _ u
    have hm := next_moves rfl hc
    rw [Listener.apply_channels, Listener.apply_calls, Listener.setCall_channels]
    rcases eq_or_ne u t with rfl | hne
    · rw [Listener.setCall_calls_self, if_pos rfl]
      exact next_sees rfl hc (hP u)
    · rw [Listener.setCall_calls_of_ne hne]
      split
      · next hid =>
        have hout : (s.calls t).pc.locked = true → (s.calls u).pc.locked = false := fun ht => by
          rw [← Bool.not_eq_true]
          exact fun hu => hne (locked_unique hr hu ht)
        cases e with
        | quiet | lock | unlock | reserve | release | channel => exact hP u
        | evict => exact Pc.sees_none (hout hm.1)
        | publish =>
          -- the publishing call holds the reservation, so this one does not
          refine Pc.sees_of_free (hout hm.1) ?_
          rw [← Bool.not_eq_true]
          exact fun hu => hne (holds_unique hr hu hm.2.2.1 hid)
      · exact hP u
  case channel => intro s t ch st hP _; exact hP
  case mark => intro s k t hP _ _ _; exact hP
  case unregister =>
    intro s k t hr hP _ hl u
    have hu : (s.calls u).pc.locked = false := by
      rw [← Bool.not_eq_true, ← lock_iff hr u, hl]
      simp
    rcases s.closeRegistration_channels setup k t (setup.chId u) with h | ⟨-, h⟩
    · rw [h]; exact hP u
    · rw [h]; exact Pc.sees_none hu

/-- Under a reservation, nothing is registered but the holder's own channel. -/
theorem registered_under_reservation {ok : Listener → Listener.Action → Prop}
    (hs : (multiListener setup).Reachable ok s) (ht : (s.calls t).pc.holds = true) :
    s.channels (setup.chId t) = none ∨ s.channels (setup.chId t) = some t := by
  have h := sees hs t
  cases hpc : (s.calls t).pc <;> simp_all [Pc.Sees, Pc.holds]

/-- A registration stands under the id of the call that made it. -/
theorem registered_chId {ok : Listener → Listener.Action → Prop}
    (hs : (multiListener setup).Reachable ok s) :
    ∀ id r, s.channels id = some r → setup.chId r = id := by
  refine multiListener_invariant (P := fun s => ∀ id r, s.channels id = some r → setup.chId r = id)
    ?init ?call ?channel ?mark ?unregister hs
  case init => intro id r h; simp [multiListener] at h
  case call =>
    intro s t a c e _ hP _ _ id r h
    rw [Listener.apply_channels, Listener.setCall_channels] at h
    split at h
    · next hid =>
      cases e with
      | quiet | lock | unlock | reserve | release | channel => exact hP id r h
      | evict => simp [Effect.entry] at h
      | publish =>
        rw [Effect.entry, Option.some.injEq] at h
        rw [hid, h]
    · exact hP id r h
  case channel => intro s t ch st hP _; exact hP
  case mark => intro s k t hP _ _ _; exact hP
  case unregister =>
    intro s k t _ hP _ _ id r h
    rcases s.closeRegistration_channels setup k t id with hch | ⟨-, hch⟩
    · exact hP id r (hch ▸ h)
    · rw [hch] at h; cases h

end

end ZitiChannel
