import ZitiChannel.ListenerInvariant

/-!
# One live channel per group

The safety results of the listener.  They rest on one more invariant, which uses the
promise that a close callback runs only for a closed channel: an open channel is
still being created, under the reservation of its id, or it is the registered one.

## Main definitions

* `Listener.OpenChannel` — a channel that was built and is open.  One that a `Factory` has built
  before it returned an error does not count: the listener never sees it.
* `Listener.Known` — what a lookup for a group can find.
* `Listener.Awaited` — the time between the acknowledgement of the creating underlay
  and the failure of the `Factory` or the closing of the channel.

## Main results

* `one_channel_per_group` — **reservations, admission, creation and open channels are
  exclusive for each id, and notifiers are closed once.**
* `group_known_after_ack` — **the acknowledgement of a group's first underlay never
  precedes the group being known.**
* `close_callback_own` — **a close callback removes its own registration, for good,
  and no other.**
-/

namespace ZitiChannel

open Transition

/-! ### Channels stay closed -/

namespace ChannelImpl

theorem closed_live {ch : ChannelImpl} (h : ch.closed = true) (st : LifeStep) :
    (ch.live st).closed = true := by
  rcases live_flags ch st with ⟨hc, -⟩ | hc
  · exact hc.trans h
  · rw [hc, close, if_pos h]; exact h

theorem closed_acceptUnderlay (ch : ChannelImpl) (u : Underlay) :
    (ch.acceptUnderlay u).1.closed = ch.closed := by
  rcases acceptUnderlay_cases ch u with ⟨-, h⟩ | ⟨-, why, h⟩
  · rw [h]; rfl
  · rw [h]; rfl

end ChannelImpl

section

variable {setup : ListenerSetup} {s s' : Listener} {t : ℕ} {a : CallAction} {e : Effect}
  {c c' : Call} {pc : Pc}

/-- A registration is evicted only if its flag is set or its channel is closed. -/
theorem next_evict (h : next setup s t c pc a = some (c', .evict)) :
    ∃ reg, (pc = .loadFlag reg ∨ pc = .askClosed reg) ∧
      ((s.registrations reg).closed = true ∨ (s.registrations reg).isClosed = true) := by
  revert h
  fun_cases next setup s t c pc a
  all_goals intro h; cases h
  · next reg hreg => exact ⟨reg, Or.inl rfl, Or.inl hreg⟩
  · next reg hreg => exact ⟨reg, Or.inr rfl, Or.inr hreg⟩

/-- Whether the call is creating a channel that it has not registered yet. -/
def Pc.creates : Pc → Bool
  | .creating | .publish | .publishLoad | .publishAsk => true
  | _ => false

/-- How creation ends. -/
theorem next_creates (h : next setup s t c pc a = some (c', e)) (hpc : c.pc = pc)
    (hcr : pc.creates = true) :
    c'.pc.creates = true ∨ c'.factory = .failed ∨ (s.registrations t).closed = true ∨
      (s.registrations t).isClosed = true ∨ e = .publish := by
  revert h
  fun_cases next setup s t c pc a
  all_goals intro h; cases h
  all_goals simp_all [Pc.creates]

/-! ### Registrations -/

/-- Whether there is a channel and it is open. -/
def Registration.isOpen (reg : Registration) : Bool := reg.ch.any fun ch => !ch.closed

theorem Registration.not_isClosed {reg : Registration} (h : reg.isOpen = true) :
    reg.isClosed = false := by
  unfold isOpen at h
  unfold isClosed
  cases hch : reg.ch with
  | none => rfl
  | some ch => simpa [hch] using h

/-- What a step of call `t` does to registration `r`: the flag stays, a closed channel
stays closed, and a channel is open that was not only if `t` is building it. -/
theorem registrations_call (h : callStep setup s t a = some (c, e)) (r : ℕ) :
    let old := s.registrations r
    let new := ((s.setCall t c).apply setup t e).registrations r
    new.closed = old.closed ∧ (old.isClosed = true → new.isClosed = true) ∧
      (new.isOpen = true →
        old.isOpen = true ∨ (r = t ∧ (s.calls t).pc = .creating ∧ c = s.calls t)) := by
  intro old new
  cases e with
  | quiet | lock | unlock | evict | reserve | publish | release => exact ⟨rfl, id, Or.inl⟩
  | channel reg ch' =>
    rcases eq_or_ne r reg with rfl | hne
    · have hnew : new = { old with ch := some ch' } := Function.update_self ..
      rcases next_channel h with ⟨hpc, -, rfl, hnone, hc⟩ | ⟨-, ch, hch, rfl⟩
      · rw [hnew]
        exact ⟨rfl, fun hcl => by simp [old, Registration.isClosed, hnone] at hcl,
          fun _ => Or.inr ⟨rfl, hpc, hc⟩⟩
      · have hold : old.ch = some ch := hch
        rw [hnew]
        simp only [Registration.isClosed, Registration.isOpen, hold, Option.any_some,
          ChannelImpl.closed_acceptUnderlay]
        exact ⟨trivial, id, Or.inl⟩
    · have hnew : new = old := Function.update_of_ne hne ..
      rw [hnew]
      exact ⟨rfl, id, Or.inl⟩

/-- Once a close callback has begun, the flag of its registration is set. -/
theorem flag_of_callback {ok : Listener → Listener.Action → Prop}
    (hs : (multiListener setup).Reachable ok s) :
    ∀ k r, s.callbacks k = some (.marked r) ∨ s.callbacks k = some (.returned r) →
      (s.registrations r).closed = true := by
  refine multiListener_invariant (P := fun s => ∀ k r,
      s.callbacks k = some (.marked r) ∨ s.callbacks k = some (.returned r) →
      (s.registrations r).closed = true) ?init ?call ?channel ?mark ?unregister hs
  case init => intro k r h; simp [multiListener] at h
  case call =>
    intro s t a c e _ hP hc _ k r h
    rw [(registrations_call hc r).1]
    rw [Listener.apply_callbacks] at h
    exact hP k r h
  case channel =>
    intro s t ch st hP _ k r h
    have hr := hP k r h
    rcases eq_or_ne r t with rfl | hne
    · simpa [Listener.setChannel] using hr
    · simpa [Listener.setChannel, hne] using hr
  case mark =>
    intro s k' t hP _ _ _ k r h
    rcases eq_or_ne r t with rfl | hne
    · simp [Listener.mark]
    · simp only [Listener.mark, Function.update_apply] at h
      split at h
      · rcases h with h | h <;> simp [hne.symm] at h
      · simpa [Listener.mark, hne] using hP k r h
  case unregister =>
    intro s k' t _ hP hk _ k r h
    simp only [Listener.closeRegistration, Function.update_apply] at h
    split at h
    · rcases h with h | h
      · cases h
      · cases h; exact hP k' t (Or.inl hk)
    · exact hP k r h

/-- A closed flag belongs to a closed channel. -/
theorem isClosed_of_flag (hs : (multiListener setup).Reachable Promise s) :
    ∀ r, (s.registrations r).closed = true → (s.registrations r).isClosed = true := by
  refine multiListener_invariant
    (P := fun s => ∀ r, (s.registrations r).closed = true → (s.registrations r).isClosed = true)
    ?init ?call ?channel ?mark ?unregister hs
  case init => intro r h; simp [multiListener] at h
  case call =>
    intro s t a c e _ hP hc _ r h
    obtain ⟨hflag, hcl, -⟩ := registrations_call hc r
    exact hcl (hP r (hflag ▸ h))
  case channel =>
    intro s t ch st hP hch r h
    rcases eq_or_ne r t with rfl | hne
    · have hold := hP r (by simpa [Listener.setChannel] using h)
      simp only [Registration.isClosed, hch, Option.any_some] at hold
      simpa [Listener.setChannel, Registration.isClosed] using ChannelImpl.closed_live hold st
    · simp only [Listener.setChannel, Function.update_of_ne hne] at h ⊢
      exact hP r h
  case mark =>
    intro s k t hP hok _ _ r h
    rcases eq_or_ne r t with rfl | hne
    · have hcl : (s.registrations r).isClosed = true := hok
      simpa [Listener.mark, Registration.isClosed] using hcl
    · simp only [Listener.mark, Function.update_of_ne hne] at h ⊢
      exact hP r h
  case unregister => intro s k t _ hP _ _; exact hP

/-- A channel that was built for a group and is open: the `Factory` has returned it, or
may still do so.  A channel that a `Factory` leaves open although it returns an error does not
count: the listener never sees it. -/
def Listener.OpenChannel (s : Listener) (r : ℕ) : Prop :=
  (s.calls r).factory ≠ .failed ∧ (s.registrations r).isOpen = true

/-- A `Factory` that failed has failed. -/
theorem next_failed (h : next setup s t c pc a = some (c', e)) (hc : c ∈ pc.states)
    (hf : c.factory = .failed) : c'.factory = .failed := by
  revert h
  fun_cases next setup s t c pc a
  all_goals intro h; cases h
  all_goals simp_all [Pc.states]

/-- A step of a call leaves the registration of an open channel alone. -/
theorem registered_kept (hs : (multiListener setup).Reachable Promise s)
    (hc : callStep setup s t a = some (c, e)) {r : ℕ} (hopen : (s.registrations r).isOpen = true)
    (hreg : s.channels (setup.chId r) = some r) :
    ((s.setCall t c).apply setup t e).channels (setup.chId r) = some r := by
  have hclosed := Registration.not_isClosed hopen
  rw [Listener.apply_channels, Listener.setCall_channels]
  split
  · next hid =>
    have hsees := sees hs t
    rw [← hid, hreg] at hsees
    cases e with
    | quiet | lock | unlock | reserve | release | channel => exact hreg
    | evict =>
      -- what is evicted is what was found, and that is closed
      obtain ⟨reg, hpc, hcl⟩ := next_evict hc
      have hfound : r = reg := by
        rcases hpc with hpc | hpc <;> simpa [hpc, Pc.Sees] using hsees
      subst hfound
      rcases hcl with hcl | hcl
      · rw [isClosed_of_flag hs r hcl] at hclosed; cases hclosed
      · rw [hcl] at hclosed; cases hclosed
    | publish =>
      rcases registered_under_reservation hs (next_moves rfl hc).2.2.1 with h | h
      · rw [← hid, hreg] at h; cases h
      · rw [Effect.entry, ← h, ← hid, hreg]
  · exact hreg

/-- **An open channel is being created or is the registered one.** -/
theorem open_channel (hs : (multiListener setup).Reachable Promise s) :
    ∀ r, s.OpenChannel r →
      (s.calls r).pc.creates = true ∨ s.channels (setup.chId r) = some r := by
  refine multiListener_invariant (P := fun s => ∀ r, s.OpenChannel r →
      (s.calls r).pc.creates = true ∨ s.channels (setup.chId r) = some r)
    ?init ?call ?channel ?mark ?unregister hs
  case init => intro r h; simp [Listener.OpenChannel, multiListener, Registration.isOpen] at h
  case call =>
    rintro s t a c e hr hP hc - r ⟨hfac, hopen⟩
    obtain ⟨-, -, hbefore⟩ := registrations_call hc r
    rcases hbefore hopen with hold | ⟨rfl, hpc, rfl⟩
    · rw [Listener.apply_calls] at hfac ⊢
      rcases eq_or_ne r t with rfl | hne
      · rw [Listener.setCall_calls_self] at hfac ⊢
        have hfac' : (s.calls r).factory ≠ .failed :=
          fun hf => hfac (next_failed hc (mem_states hr r) hf)
        rcases hP r ⟨hfac', hold⟩ with hcr | hreg
        · have hclosed := Registration.not_isClosed hold
          rcases next_creates hc rfl hcr with h | h | h | h | rfl
          · exact Or.inl h
          · exact absurd h hfac
          · rw [isClosed_of_flag hr r h] at hclosed; cases hclosed
          · rw [h] at hclosed; cases hclosed
          · right
            rw [Listener.apply_channels, if_pos rfl]
            rfl
        · exact Or.inr (registered_kept hr hc hold hreg)
      · rw [Listener.setCall_calls_of_ne hne] at hfac ⊢
        exact (hP r ⟨hfac, hold⟩).imp_right (registered_kept hr hc hold)
    · left
      rw [Listener.apply_calls, Listener.setCall_calls_self, hpc]
      rfl
  case channel =>
    rintro s t ch st hP hch r ⟨hfac, hopen⟩
    refine hP r ⟨hfac, ?_⟩
    rcases eq_or_ne r t with rfl | hne
    · -- an open channel was open before
      simp only [Listener.setChannel, Function.update_self, Registration.isOpen, Option.any_some,
        Bool.not_eq_true'] at hopen
      simp only [Registration.isOpen, hch, Option.any_some, Bool.not_eq_true']
      rw [← Bool.not_eq_true] at hopen ⊢
      exact fun h => hopen (ChannelImpl.closed_live h st)
    · simpa [Listener.setChannel, hne] using hopen
  case mark =>
    rintro s k t hP - - - r ⟨hfac, hopen⟩
    refine hP r ⟨hfac, ?_⟩
    rcases eq_or_ne r t with rfl | hne
    · simpa [Listener.mark, Registration.isOpen] using hopen
    · simpa [Listener.mark, hne] using hopen
  case unregister =>
    rintro s k t hr hP hk - r h
    refine (hP r h).imp_right fun hreg => ?_
    rcases s.closeRegistration_channels setup k t (setup.chId r) with hch | ⟨hch, -⟩
    · rw [hch]; exact hreg
    · -- what the callback unregisters is its own channel, and that is closed
      obtain rfl : r = t := Option.some.inj (hreg.symm.trans hch)
      have hclosed := isClosed_of_flag hr r (flag_of_callback hr k r (Or.inl hk))
      have hopen : (s.registrations r).isOpen = true := h.2
      rw [Registration.not_isClosed hopen] at hclosed
      cases hclosed

/-! ### One live channel per group -/

theorem Pc.holds_of_creates {pc : Pc} (h : pc.creates = true) : pc.holds = true := by
  cases pc <;> simp_all [Pc.creates, Pc.holds]

/-- Whether the call is inside the admitter or the `Factory`. -/
def Listener.Running (s : Listener) (t : ℕ) : Prop :=
  (s.calls t).pc = .admitting ∨ (s.calls t).pc = .creating

/-- What is exclusive for each group id. -/
structure OneChannelPerGroup (setup : ListenerSetup) (s : Listener) : Prop where
  /-- At most one call holds the reservation of an id. -/
  holder : ∀ t t', (s.calls t).pc.holds = true → (s.calls t').pc.holds = true →
    setup.chId t = setup.chId t' → t = t'
  /-- An id has an entry exactly while a call holds its reservation. -/
  entry : ∀ id, (s.createNotifiers id).isSome = true ↔
    ∃ t, (s.calls t).pc.holds = true ∧ setup.chId t = id
  /-- Neither the admitter nor the `Factory` runs twice at once. -/
  running : ∀ t t', s.Running t → s.Running t' → setup.chId t = setup.chId t' → t = t'
  /-- At most one channel is open. -/
  channel : ∀ r r', s.OpenChannel r → s.OpenChannel r' → setup.chId r = setup.chId r' → r = r'
  /-- The notifier of a reservation is closed when the reservation is released, once. -/
  notifier : ∀ t, (s.calls t).reserved = true →
    (s.calls t).notifierCloses = if (s.calls t).pc.holds then 0 else 1

/-- Notifiers are closed on release, once. -/
theorem Pc.notifierCloses_states (pc : Pc) : ∀ c ∈ pc.states, c.reserved = true →
    c.notifierCloses = if pc.holds then 0 else 1 := by
  fun_cases Pc.states pc
  all_goals simp [Pc.holds]

/-- **One live channel per group id.**  With any number of concurrent calls, any outcomes
of the admitter, the hello acknowledgement and the `Factory`, and any closing of channels
and delay of their callbacks. -/
theorem one_channel_per_group (setup : ListenerSetup) (s : Listener)
    (hs : (multiListener setup).Reachable Promise s) : OneChannelPerGroup setup s where
  holder t t' ht ht' hid := holds_unique hs ht ht' hid
  entry id := by
    rw [Option.isSome_iff_exists]
    exact exists_congr fun t => createNotifiers_iff hs id t
  running t t' ht ht' hid := by
    have hholds : ∀ u, s.Running u → (s.calls u).pc.holds = true := by
      rintro u (hu | hu) <;> rw [hu] <;> rfl
    exact holds_unique hs (hholds t ht) (hholds t' ht') hid
  channel r r' hr hr' hid := by
    -- under the reservation of a creating call only its own channel can be registered
    have hcreator : ∀ u v, (s.calls u).pc.creates = true → setup.chId u = setup.chId v →
        s.channels (setup.chId v) = some v → v = u := by
      intro u v hu huv hv
      have hsees := registered_under_reservation hs (Pc.holds_of_creates hu)
      rw [huv, hv] at hsees
      simpa using hsees
    rcases open_channel hs r hr with h | h <;> rcases open_channel hs r' hr' with h' | h'
    · exact holds_unique hs (Pc.holds_of_creates h) (Pc.holds_of_creates h') hid
    · exact (hcreator r r' h hid h').symm
    · exact hcreator r' r h' hid.symm h
    · rw [hid, h', Option.some.injEq] at h
      exact h.symm
  notifier t ht := (s.calls t).pc.notifierCloses_states _ (mem_states hs t) ht

/-- Three underlays of one group, the first and the last of which say they are first. -/
def regroup : ListenerSetup where
  underlay t :=
    ⟨t, [], [7], (Headers.putBoolHeader ∅ isGroupedHeader true).putBoolHeader
      isFirstGroupConnection (t != 1)⟩
  admitter := false

/-- A channel that its `Factory` makes. -/
def regroupChannel (t : ℕ) : ChannelImpl :=
  (⟨[], true, true, none, ⟨[], none⟩, false, ∅, 0⟩ : Config).impl (regroup.underlay t)

/-- Call 0 creates the channel, which closes; call 2 finds it closed and makes another. -/
def regroupRun : List Listener.Action :=
  [.call 0 .go, .call 0 .go, .call 0 .go, .call 0 (.ret none), .call 0 (.build (regroupChannel 0)),
    .call 0 (.ret none), .call 0 .go, .call 0 .go, .call 0 .go, .call 0 .go,
    .channel 0 (.call .close), .call 2 .go, .call 2 .go, .call 2 .go, .call 2 .go, .call 2 .go,
    .call 2 (.ret none), .call 2 (.build (regroupChannel 2))]

/-- Two channels built for one id: the second is being created while the close callback of
the first has not run. -/
theorem one_channel_per_group_regroup : ∃ s, (multiListener regroup).Reachable Promise s ∧
    (s.registrations 0).isClosed = true ∧ (s.registrations 2).isOpen = true ∧
    s.createNotifiers [7] = some 2 ∧ OneChannelPerGroup regroup s := by
  obtain ⟨s, hs, h⟩ := System.reachable_of_replay (multiListener regroup) Promise regroupRun
    (fun s => decide ((s.registrations 0).isClosed = true ∧ (s.registrations 2).isOpen = true ∧
      s.createNotifiers [7] = some 2)) (by decide)
  obtain ⟨h0, h2, hres⟩ := of_decide_eq_true h
  exact ⟨s, hs, h0, h2, hres, one_channel_per_group regroup s hs⟩

/-! ### The acknowledgement never precedes the group -/

/-- What a lookup for a group finds: an open registered channel, or a reservation. -/
def Listener.Known (s : Listener) (id : GoString) : Prop :=
  (∃ r, s.channels id = some r ∧ (s.registrations r).closed = false ∧
    (s.registrations r).isOpen = true) ∨ (s.createNotifiers id).isSome = true

/-- Call `r` is creating, or has created, the channel of its group: its hello is being or
has been acknowledged, its `Factory` has not failed, and its channel has not closed. -/
def Listener.Awaited (s : Listener) (r : ℕ) : Prop :=
  (s.calls r).reserved = true ∧
    ((s.calls r).pc = .acking none ∨ UnderlayEvent.acked ∈ (s.calls r).log) ∧
    (s.calls r).factory ≠ .failed ∧ (s.registrations r).isClosed = false

/-- After the acknowledgement, a creating call that has not failed holds its reservation
or has a channel. -/
theorem Pc.states_acked (pc : Pc) : ∀ c ∈ pc.states, c.reserved = true →
    (pc = .acking none ∨ UnderlayEvent.acked ∈ c.log) → c.factory ≠ .failed →
    pc.holds = true ∨ c.factory = .ok := by
  fun_cases Pc.states pc
  all_goals simp [Pc.holds]

/-- The `Factory` returns successfully only with a channel. -/
theorem next_ok (h : next setup s t c pc a = some (c', e)) (hok : c'.factory = .ok) :
    c.factory = .ok ∨ (s.registrations t).ch.isSome = true := by
  revert h
  fun_cases next setup s t c pc a
  all_goals intro h; cases h
  all_goals simp_all

/-- A `Factory` that succeeded left a channel. -/
theorem channel_of_ok {ok : Listener → Listener.Action → Prop}
    (hs : (multiListener setup).Reachable ok s) :
    ∀ r, (s.calls r).factory = .ok → (s.registrations r).ch.isSome = true := by
  refine multiListener_invariant
    (P := fun s => ∀ r, (s.calls r).factory = .ok → (s.registrations r).ch.isSome = true)
    ?init ?call ?channel ?mark ?unregister hs
  case init => intro r h; simp [multiListener, Call.fresh] at h
  case call =>
    intro s t a c e _ hP hc _ r h
    have hbefore : (s.registrations r).ch.isSome = true := by
      rw [Listener.apply_calls] at h
      rcases eq_or_ne r t with rfl | hne
      · rw [Listener.setCall_calls_self] at h
        exact (next_ok hc h).elim (hP r) id
      · rw [Listener.setCall_calls_of_ne hne] at h
        exact hP r h
    cases e with
    | quiet | lock | unlock | evict | reserve | publish | release => exact hbefore
    | channel reg ch' =>
      rcases eq_or_ne r reg with rfl | hne
      · simp [Listener.apply, Listener.setChannel]
      · simpa [Listener.apply, Listener.setChannel, hne] using hbefore
  case channel =>
    intro s t ch st hP _ r h
    rcases eq_or_ne r t with rfl | hne
    · simp [Listener.setChannel]
    · simpa [Listener.setChannel, hne] using hP r h
  case mark =>
    intro s k t hP _ _ _ r h
    have hr := hP r h
    rcases eq_or_ne r t with rfl | hne
    · simpa [Listener.mark] using hr
    · simpa [Listener.mark, hne] using hr
  case unregister => intro s k t _ hP _ _; exact hP

/-- A group whose channel is awaited is reserved, or its channel is open and registered. -/
theorem awaited_cases (hs : (multiListener setup).Reachable Promise s) {r : ℕ}
    (hr : s.Awaited r) :
    s.createNotifiers (setup.chId r) = some r ∨
      (s.channels (setup.chId r) = some r ∧ (s.registrations r).isOpen = true) := by
  obtain ⟨hres, hack, hfac, hcl⟩ := hr
  have hholds : (s.calls r).pc.holds = true → s.createNotifiers (setup.chId r) = some r :=
    fun h => (createNotifiers_iff hs _ r).mpr ⟨h, rfl⟩
  rcases (s.calls r).pc.states_acked _ (mem_states hs r) hres hack hfac with h | hok
  · exact Or.inl (hholds h)
  · -- the `Factory` succeeded, so there is a channel, and it is open
    obtain ⟨ch, hch⟩ := Option.isSome_iff_exists.mp (channel_of_ok hs r hok)
    have hopen : (s.registrations r).isOpen = true := by
      simpa [Registration.isOpen, Registration.isClosed, hch] using hcl
    rcases open_channel hs r ⟨hfac, hopen⟩ with h | h
    · exact Or.inl (hholds (Pc.holds_of_creates h))
    · exact Or.inr ⟨h, hopen⟩

/-- **The acknowledgement never precedes the group being known.**  While the channel of a
group is awaited, a lookup for the group finds an open registered channel or a
reservation; and a lookup that found no channel, on arrival or after a wait, goes on to
wait for the creating call, and never to the branch that closes a non-first underlay
unacknowledged. -/
theorem group_known_after_ack (setup : ListenerSetup) (s : Listener)
    (hs : (multiListener setup).Reachable Promise s) (r : ℕ) (hr : s.Awaited r) :
    s.Known (setup.chId r) ∧
      ∀ t a s', setup.chId t = setup.chId r → (s.calls t).pc = .unregistered →
        (multiListener setup).step s (.call t a) = some s' → (s'.calls t).pc = .waiting r := by
  constructor
  · rcases awaited_cases hs hr with h | ⟨h, hopen⟩
    · exact Or.inr (by rw [h]; rfl)
    · refine Or.inl ⟨r, h, ?_, hopen⟩
      rw [← Bool.not_eq_true]
      intro hflag
      have hcl := isClosed_of_flag hs r hflag
      rw [Registration.not_isClosed hopen] at hcl
      cases hcl
  · intro t a s' hid hpc hstep
    have hnone : s.channels (setup.chId r) = none := by
      have h := sees hs t
      rwa [hpc, hid] at h
    have hres : s.createNotifiers (setup.chId t) = some r := by
      rcases awaited_cases hs hr with h | ⟨h, -⟩
      · rw [hid]; exact h
      · rw [hnone] at h; cases h
    cases a with
    | go =>
      simp only [multiListener, Listener.step, callStep, hpc, next, hres] at hstep
      split at hstep
      · cases hstep
      · cases hstep; simp
    | ret | retNil | build | timeout =>
      simp [multiListener, Listener.step, callStep, hpc, next] at hstep

/-- The third underlay arrives while the second channel is being created: it waits. -/
theorem group_known_after_ack_regroup : ∃ s, (multiListener regroup).Reachable Promise s ∧
    s.Awaited 2 ∧ regroup.isFirst 1 = false ∧ (s.calls 1).pc = .unregistered ∧
    s.Known [7] ∧ ∀ s', (multiListener regroup).step s (.call 1 .go) = some s' →
      (s'.calls 1).pc = .waiting 2 := by
  obtain ⟨s, hs, h⟩ := System.reachable_of_replay (multiListener regroup) Promise
    (regroupRun ++ [.call 1 .go, .call 1 .go])
    (fun s => decide ((s.calls 2).reserved = true ∧ UnderlayEvent.acked ∈ (s.calls 2).log ∧
      (s.calls 2).factory ≠ .failed ∧ (s.registrations 2).isClosed = false ∧
      (s.calls 1).pc = .unregistered)) (by decide)
  obtain ⟨hres, hack, hfac, hcl, hpc⟩ := of_decide_eq_true h
  have haw : s.Awaited 2 := ⟨hres, Or.inr hack, hfac, hcl⟩
  obtain ⟨hknown, hwait⟩ := group_known_after_ack regroup s hs 2 haw
  exact ⟨s, hs, haw, by decide, hpc, hknown, fun s' => hwait 1 .go s' rfl hpc⟩

/-! ### Close callbacks -/

/-- A call goes on to ask its new channel only after it saw the flag unset. -/
theorem next_publishAsk (h : next setup s t c pc a = some (c', e)) (hc : c.pc = pc)
    (hpc : c'.pc = .publishAsk) : (s.registrations t).closed = false := by
  revert h
  fun_cases next setup s t c pc a
  all_goals intro h; cases h
  all_goals simp_all

/-- A registration is entered only by a call that saw its flag unset. -/
theorem next_publish (h : next setup s t c pc a = some (c', .publish)) : pc = .publishAsk := by
  revert h
  fun_cases next setup s t c pc a
  all_goals intro h; cases h
  rfl

/-- Once a close callback has returned, its registration is not in the map, and the call
that made it is not about to enter it. -/
theorem returned_callback {ok : Listener → Listener.Action → Prop}
    (hs : (multiListener setup).Reachable ok s) :
    ∀ k r, s.callbacks k = some (.returned r) →
      (∀ id, s.channels id ≠ some r) ∧ (s.calls r).pc ≠ .publishAsk := by
  refine multiListener_invariant (P := fun s => ∀ k r, s.callbacks k = some (.returned r) →
      (∀ id, s.channels id ≠ some r) ∧ (s.calls r).pc ≠ .publishAsk)
    ?init ?call ?channel ?mark ?unregister hs
  case init => intro k r h; simp [multiListener] at h
  case call =>
    intro s t a c e hr hP hc _ k r h
    rw [Listener.apply_callbacks] at h
    obtain ⟨hgone, hask⟩ := hP k r h
    constructor
    · intro id hid
      rw [Listener.apply_channels, Listener.setCall_channels] at hid
      split at hid
      · cases e with
        | quiet | lock | unlock | reserve | release | channel => exact hgone id hid
        | evict => cases hid
        | publish =>
          cases hid
          exact hask (next_publish hc)
      · exact hgone id hid
    · rw [Listener.apply_calls]
      rcases eq_or_ne r t with rfl | hne
      · rw [Listener.setCall_calls_self]
        intro hpc
        have hflag := next_publishAsk hc rfl hpc
        rw [flag_of_callback hr k r (Or.inr h)] at hflag
        cases hflag
      · rw [Listener.setCall_calls_of_ne hne]
        exact hask
  case channel => intro s t ch st hP _; exact hP
  case mark =>
    intro s k' t hP _ hk' _ k r h
    simp only [Listener.mark, Function.update_apply] at h
    split at h
    · cases h
    · exact hP k r h
  case unregister =>
    intro s k' t hr hP hk hl k r h
    -- whatever was gone before is still gone
    have hkept : (∀ id, s.channels id ≠ some r) →
        ∀ id, (s.closeRegistration setup k' t).channels id ≠ some r := by
      intro hgone id hid
      rcases s.closeRegistration_channels setup k' t id with hch | ⟨-, hch⟩
      · exact hgone id (hch ▸ hid)
      · rw [hch] at hid; cases hid
    simp only [Listener.closeRegistration, Function.update_apply] at h
    split at h
    · cases h
      constructor
      · intro id hid
        rcases s.closeRegistration_channels setup k' t id with hch | ⟨-, hch⟩
        · rw [hch] at hid
          have hid' := registered_chId hr id t hid
          subst hid'
          simp [Listener.closeRegistration, hid] at hch
        · rw [hch] at hid; cases hid
      · -- the lock is free, so the call is not in its critical section
        intro hpc
        have hlock := (lock_iff hr t).mpr (by rw [show (s.calls t).pc = .publishAsk from hpc]; rfl)
        rw [hl] at hlock
        cases hlock
    · obtain ⟨hgone, hask⟩ := hP k r h
      exact ⟨hkept hgone, hask⟩

/-- A close callback that has returned has returned. -/
theorem returned_steps {ok : Listener → Listener.Action → Prop} {k r : ℕ}
    (h : s.callbacks k = some (.returned r)) (hrun : (multiListener setup).Steps ok s s') :
    s'.callbacks k = some (.returned r) := by
  refine System.Steps.invariant (P := fun s => s.callbacks k = some (.returned r)) ?_ h hrun
  intro s a s' hk _ hstep
  refine Listener.step_cases (P := fun s => s.callbacks k = some (.returned r)) hstep ?_ ?_ ?_ ?_
  · rintro t a c e - - -
    rw [Listener.apply_callbacks]
    exact hk
  · rintro t ch st - -
    exact hk
  · rintro k' t - hk' -
    have hne : k ≠ k' := by rintro rfl; rw [hk] at hk'; cases hk'
    simpa [Listener.mark, hne] using hk
  · rintro k' t - hk' -
    have hne : k ≠ k' := by rintro rfl; rw [hk] at hk'; cases hk'
    simpa [Listener.closeRegistration, hne] using hk

/-- **Close callbacks and registrations.**  With creation, publication, eviction and
re-creation interleaved in any way with close callbacks that run early or late: once a
close callback has returned, its registration is not in the channel map, then or in any
later state; and the steps of a close callback remove no registration but its own. -/
theorem close_callback_own (setup : ListenerSetup) (s : Listener)
    (hs : (multiListener setup).Reachable System.anyEvent s) :
    (∀ k r s', s.callbacks k = some (.returned r) →
      (multiListener setup).Steps System.anyEvent s s' → ∀ id, s'.channels id ≠ some r) ∧
    (∀ k t s', (multiListener setup).step s (.callback k t) = some s' →
      s'.channels = s.channels) ∧
    (∀ k t s', s.callbacks k = some (.marked t) →
      (multiListener setup).step s (.unregister k) = some s' →
      s'.callbacks k = some (.returned t) ∧
        ∀ id r, s.channels id = some r → r ≠ t → s'.channels id = some r) := by
  refine ⟨?_, ?_, ?_⟩
  · intro k r s' hk hrun
    exact (returned_callback (hs.steps hrun) k r (returned_steps hk hrun)).1
  · intro k t s' hstep
    refine Listener.step_cases (P := fun s' => s'.channels = s.channels) hstep ?_ ?_ ?_ ?_
    · rintro _ _ _ _ h; cases h
    · rintro _ _ _ h; cases h
    · rintro _ _ - - -; rfl
    · rintro _ _ h; cases h
  · intro k t s' hk hstep
    refine Listener.step_cases (P := fun s' => s'.callbacks k = some (.returned t) ∧
      ∀ id r, s.channels id = some r → r ≠ t → s'.channels id = some r) hstep ?_ ?_ ?_ ?_
    · rintro _ _ _ _ h; cases h
    · rintro _ _ _ h; cases h
    · rintro _ _ h; cases h
    · intro k' t' hact hk' _
      cases hact
      rw [hk] at hk'
      cases hk'
      refine ⟨by simp [Listener.closeRegistration], fun id r hid hne => ?_⟩
      rcases s.closeRegistration_channels setup k t id with hch | ⟨hch, -⟩
      · rw [hch]; exact hid
      · rw [hid, Option.some.injEq] at hch
        exact absurd hch hne

/-- The late close callback of the first channel leaves the second registered, and the
first is out for good. -/
theorem close_callback_own_regroup : ∃ s, (multiListener regroup).Reachable System.anyEvent s ∧
    s.callbacks 0 = some (.returned 0) ∧ s.channels [7] = some 2 ∧
    ∀ s', (multiListener regroup).Steps System.anyEvent s s' → ∀ id, s'.channels id ≠ some 0 := by
  obtain ⟨s, hs, h⟩ := System.reachable_of_replay (multiListener regroup) System.anyEvent
    (regroupRun ++ [.call 2 (.ret none), .call 2 .go, .call 2 .go, .call 2 .go, .call 2 .go,
      .callback 0 0, .unregister 0])
    (fun s => decide (s.callbacks 0 = some (.returned 0) ∧ s.channels [7] = some 2)) (by decide)
  obtain ⟨hk, hch⟩ := of_decide_eq_true h
  exact ⟨s, hs, hk, hch, fun s' => (close_callback_own regroup s hs).1 0 0 s' hk⟩

end

end ZitiChannel
