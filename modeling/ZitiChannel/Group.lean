import ZitiChannel.DialerEpochs
import ZitiChannel.LockUse

/-!
# A group at both ends

A channel that dials its underlays and the listener that they arrive at are two systems, joined by
hellos and their answers.  Here they run together: a dial sends a hello, the listener serves it with
a call of its own whenever it gets to it, the dialing end has an underlay once the call has
acknowledged the hello, and may just as well give up while the call is still to come.

A group is to be one channel at either end.  At the dialing end, `DialerEpochs` says that all
underlays have the id of the last epoch.  At the listening end, an id may be registered again after
its channel is gone, but only a first underlay can do that; and an epoch has but one first hello.
So whatever is closed, lost, delayed or left behind, the underlays of a dialing channel end in one
channel of the listener, and no channel of the listener is made twice for one epoch.

## Main definitions

* `Group.Setup`, `Group.State`, `Group.group` — the two ends together.
* `Group.Setup.Ok` — what is promised: the group's ids are used by its hellos only, and a `Factory`
  builds its channel on the underlay that it is given.
* `Group.Kept` — the invariant.

## Main results

* `registered_isFirst` — only a first underlay makes a channel.
* `kept_step` — every step keeps the invariant.
* `group_one_channel` — **a group is one channel at either end.**

The sources are `dial_policy.go`, `classic_dialer.go`, `classic_listener.go` and
`multi_listener.go`.
-/

namespace ZitiChannel

open ByteStream

/-! ### First hellos -/

/-- The dialer's own headers do not say that a hello is the first of its group, and its provider
leaves that to the dial. -/
def ClassicDialer.KeepsFirst (d : ClassicDialer) : Prop :=
  d.headers.index isFirstGroupConnection = [] ∧
    ∀ provider ∈ d.helloHeaderProvider, ∀ h : Headers,
      (provider h).1.index isFirstGroupConnection = h.index isFirstGroupConnection

theorem lookup_dialHeaders_isFirst (underlayType groupId : GoString) (groupSecret : Bytes) :
    (dialHeaders underlayType groupId groupSecret false).lookup isFirstGroupConnection = none := by
  have hne : isFirstGroupConnection ∉ (Finmap.singleton typeHeader underlayType : Headers) := by
    rw [Finmap.mem_singleton]
    decide
  simpa (disch := decide) [dialHeaders, Finmap.lookup_insert_of_ne] using
    Finmap.lookup_eq_none.mpr hne

/-- A hello that is not the first of its group does not say that it is. -/
theorem ClassicDialer.KeepsFirst.hello {d : ClassicDialer} (hd : d.KeepsFirst)
    {underlayType groupId : GoString} {groupSecret : Bytes} {request : Message}
    (h : d.hello (dialHeaders underlayType groupId groupSecret false) = .ok request) :
    request.headers.index isFirstGroupConnection = [] := by
  have hcopy : ((newHello d.identity d.headers).headers.copy
      (dialHeaders underlayType groupId groupSecret false)).index isFirstGroupConnection = [] := by
    rw [Headers.index, Headers.lookup_copy, lookup_dialHeaders_isFirst, Option.none_or]
    show (Finmap.lookup _ (Headers.copy ∅ d.headers)).getD [] = []
    rw [Headers.lookup_copy, Finmap.lookup_empty, Option.or_none]
    exact hd.1
  unfold ClassicDialer.hello at h
  dsimp only at h
  split at h
  · cases h
    exact hcopy
  · next provider hprovider =>
    split at h
    · cases h
    · next edited heq =>
      cases h
      have hkeep := hd.2 provider hprovider ((newHello d.identity d.headers).headers.copy
        (dialHeaders underlayType groupId groupSecret false))
      rw [heq] at hkeep
      exact hkeep.trans hcopy

section

variable {setup : ListenerSetup} {s : Listener} {t : ℕ}

theorem next_holds_isFirst {a : CallAction} {e : Effect} {c c' : Call} {pc : Pc} (hpc : c.pc = pc)
    (h : next setup s t c pc a = some (c', e)) (hholds : c'.pc.holds = true) :
    pc.holds = true ∨ setup.isFirst t = true := by
  revert h hholds
  fun_cases next setup s t c pc a
  all_goals intro h hholds
  all_goals cases h
  all_goals simp_all [Pc.holds]

/-- **Only a first underlay makes a channel.** -/
theorem registered_isFirst {ok : Listener → Listener.Action → Prop}
    (hs : (multiListener setup).Reachable ok s) :
    ∀ r, (s.registrations r).ch ≠ none → setup.isFirst r = true ∧ (s.calls r).pc ≠ .idle := by
  have hkept : (∀ t, (s.calls t).pc.holds = true → setup.isFirst t = true) ∧
      ∀ r, (s.registrations r).ch ≠ none → setup.isFirst r = true ∧ (s.calls r).pc ≠ .idle := by
    refine multiListener_invariant (P := fun s =>
      (∀ t, (s.calls t).pc.holds = true → setup.isFirst t = true) ∧
        ∀ r, (s.registrations r).ch ≠ none → setup.isFirst r = true ∧ (s.calls r).pc ≠ .idle)
      ⟨fun _ h => (by cases h), fun _ h => absurd rfl h⟩ ?_ ?_ ?_ ?_ hs
    · rintro s t a c e - ⟨hholds, hreg⟩ hc -
      have hcalls : (∀ b, ((s.setCall t c).calls b).pc.holds = true → setup.isFirst b = true) ∧
          ∀ r, (s.registrations r).ch ≠ none →
            setup.isFirst r = true ∧ ((s.setCall t c).calls r).pc ≠ .idle := by
        constructor
        · intro b hb
          rcases eq_or_ne b t with rfl | hne
          · rw [Listener.setCall_calls_self] at hb
            exact (next_holds_isFirst rfl hc hb).elim (hholds b) id
          · rw [Listener.setCall_calls_of_ne hne] at hb
            exact hholds b hb
        · intro r hr
          refine ⟨(hreg r hr).1, ?_⟩
          rcases eq_or_ne r t with rfl | hne
          · rw [Listener.setCall_calls_self]
            exact next_ne_idle rfl hc
          · rw [Listener.setCall_calls_of_ne hne]
            exact (hreg r hr).2
      cases e with
      | quiet | lock | unlock | evict | reserve | publish | release => exact hcalls
      | channel reg ch' =>
        refine ⟨hcalls.1, fun r hr => ?_⟩
        rcases eq_or_ne r reg with rfl | hne
        · rcases next_channel hc with ⟨hpc, -, rfl, -⟩ | ⟨-, ch, hch, -⟩
          · refine ⟨hholds r (by rw [hpc]; rfl), ?_⟩
            show ((s.setCall r c).calls r).pc ≠ .idle
            rw [Listener.setCall_calls_self]
            exact next_ne_idle rfl hc
          · exact hcalls.2 r (by rw [hch]; simp)
        · refine hcalls.2 r ?_
          simpa [Listener.apply, Listener.setChannel, hne] using hr
    · rintro s t ch st ⟨hholds, hreg⟩ hch
      refine ⟨hholds, fun r hr => ?_⟩
      rcases eq_or_ne r t with rfl | hne
      · exact hreg r (by rw [hch]; simp)
      · exact hreg r (by simpa [Listener.setChannel, hne] using hr)
    · rintro s k t ⟨hholds, hreg⟩ - - -
      refine ⟨hholds, fun r hr => hreg r ?_⟩
      rcases eq_or_ne r t with rfl | hne
      · simpa [Listener.mark] using hr
      · simpa [Listener.mark, hne] using hr
    · rintro s k t - hP - -
      exact hP
  exact hkept.2

end

namespace Group

open Transition Redial

/-! ### The two ends together -/

/-- A dialing channel, and the listener that its first underlay has led to. -/
structure Setup where
  chan : Concurrent.Setup
  config : BackoffConfig
  start : Time
  dialer : ClassicDialer
  listener : ListenerSetup
  keepsGroup : dialer.KeepsGroup
  keepsFirst : dialer.KeepsFirst
  named : chan.first.connectionId ≠ []
  /-- An underlay has the number of the call that serves its other end. -/
  joined : listener.chId chan.first.ref = chan.first.connectionId

/-- A hello that was sent: which call serves it, in which iteration it was sent, and whether as the
first one. -/
structure Sent where
  call : ℕ
  iteration : UInt32
  isFirst : Bool

structure State where
  dialer : Redial.State × (ℕ → GoString)
  listener : Listener
  /-- The call that serves the hello of a goroutine's dial. -/
  awaits : ℕ → Option ℕ
  sent : List Sent

inductive Event
  /-- A step of the dialing end. -/
  | dialer (e : Redial.Event)
  /-- The dial of goroutine `g` sends a hello, which call `t` is to serve. -/
  | hello (g t : ℕ)
  /-- A step of the listener. -/
  | listener (a : Listener.Action)

/-- Whether a call has come to acknowledging its hello. -/
def State.acked (s : State) (t : ℕ) : Bool := decide (.ackHello ∈ (s.listener.calls t).log)

/-- The dialing end needs its first underlay, and gets another one only from a call that has
acknowledged the hello of this dial. -/
def State.answered (s : State) (first : ℕ) : Redial.Event → Bool
  | .dial g (.created (some u)) => s.acked first && s.awaits g == some u.ref && s.acked u.ref
  | _ => s.acked first

section

variable (setup : Setup)

def step (s : State) : Event → Option State
  | .dialer e =>
      if s.answered setup.chan.first.ref e then
        ((naming setup.chan setup.config setup.start).step s.dialer e).map fun dialer =>
          { s with
            dialer := dialer
            -- a dial begins without a hello
            awaits := match begins s.dialer.1 e with
              | some g => Function.update s.awaits g none
              | none => s.awaits }
      else none
  | .hello g t =>
      match s.dialer.1.chan.routines g, s.dialer.1.pcs g with
      | .applyConstraints (.dial _ isFirst _ _), .createWithHeaders =>
          if s.awaits g = none ∧ t ≠ setup.chan.first.ref ∧ t ∉ s.sent.map (·.call) then
            some { s with
              awaits := Function.update s.awaits g (some t)
              sent := s.sent ++ [⟨t, s.dialer.1.policy.iteration, isFirst⟩] }
          else none
      | _, _ => none
  | .listener a =>
      ((multiListener setup.listener).step s.listener a).map fun listener =>
        { s with listener := listener }

/-- A channel that is being made, and a listener. -/
def group : System State Event where
  init :=
    { dialer := (naming setup.chan setup.config setup.start).init
      listener := (multiListener setup.listener).init
      awaits := fun _ => none
      sent := [] }
  step := step setup

namespace Setup

/-- The id of an epoch of the group. -/
def groupId (iteration : UInt32) : GoString := currentId setup.chan.first.connectionId iteration

/-- Whether a call is for one of the ids of the group. -/
def Ours (t : ℕ) : Prop := ∃ iteration, setup.listener.chId t = setup.groupId iteration

/-- What is promised.  At the dialing end, underlays come from dials with a classic dialer, and the
epochs do not wrap.  In between, the listener finds in a hello what was put there.  At the listening
end, a `Factory` builds its channel on the underlay that it is given, and the ids of the group come
in hellos of the group only. -/
def Ok (s : State) : Event → Prop
  | .dialer e => OwnDialer setup.dialer s.dialer e ∧
      ∀ g, e = .dial g .go → s.dialer.1.policy.iteration ≠ 4294967295
  | .hello g t =>
      ∃ underlayType isFirst counts todo request generatedId newSecret,
        s.dialer.1.chan.routines g =
          .applyConstraints (.dial underlayType isFirst counts todo) ∧
        setup.dialer.hello (dialHeaders underlayType (s.dialer.2 g)
          s.dialer.1.chan.ch.groupSecret isFirst) = .ok request ∧
        setup.listener.underlay t =
          (ClassicListener.acceptHello t generatedId newSecret request.arrived).2
  | .listener a => FactoryPromise setup.listener s.listener a ∧
      ∀ t c, a = .call t c → setup.Ours t →
        t = setup.chan.first.ref ∨ t ∈ s.sent.map (·.call)

/-- An underlay whose other end has the same id. -/
def Good (groupId : GoString) (u : Underlay) : Prop :=
  u.connectionId = groupId ∧ setup.listener.chId u.ref = groupId

end Setup

end

/-! ### Ids and epochs -/

theorem currentId_inj {connectionId : GoString} {i j : UInt32}
    (h : currentId connectionId i = currentId connectionId j) : i = j := by
  have hid : ∀ k : UInt32, currentId connectionId k = epochId connectionId k.toNat := fun k =>
    (groupConnectionId_eq (show k.toNat + false.toNat < 2 ^ 32 from k.toNat_lt) connectionId).2
  rw [hid, hid] at h
  exact UInt32.toNat_inj.mp (epochId_inj h)

section

variable {setup : Setup} {s s' : State}

/-- What the listener finds in a hello of the group. -/
theorem chId_of_hello {underlayType groupId : GoString} {groupSecret : Bytes} {isFirst : Bool}
    {request : Message} {generatedId : GoString} {newSecret : Uuid} {t : ℕ} (hne : groupId ≠ [])
    (hhello : setup.dialer.hello (dialHeaders underlayType groupId groupSecret isFirst) =
      .ok request)
    (hunderlay : setup.listener.underlay t =
      (ClassicListener.acceptHello t generatedId newSecret request.arrived).2) :
    setup.listener.chId t = groupId ∧
      (setup.listener.isFirst t = true → isFirst = true) := by
  obtain ⟨hid, hgrouped⟩ := setup.keepsGroup.hello hhello
    (lookup_dialHeaders_connectionId ..) (lookup_dialHeaders_isGrouped ..)
  constructor
  · have hgrouped : (request.arrived.headers.getBoolHeader isGroupedHeader).1 = true := by
      rw [request.isGrouped_arrived, Headers.getBoolHeader_fst, hgrouped]
      rfl
    rw [ListenerSetup.chId, hunderlay, ClassicListener.acceptHello_connectionId,
      request.index_arrived (by decide), hid]
    simp [hgrouped, hne]
  · intro hfirst
    by_contra hnot
    obtain rfl : isFirst = false := by simpa using hnot
    have hindex : (setup.listener.underlay t).headers.index isFirstGroupConnection = [] := by
      rw [hunderlay]
      refine (ClassicListener.acceptHello_index_of_ne t generatedId newSecret request.arrived
        (by decide)).trans ?_
      rw [request.index_arrived (by decide), setup.keepsFirst.hello hhello]
    rw [ListenerSetup.isFirst, Headers.getBoolHeader_fst, hindex] at hfirst
    cases hfirst

/-! ### The invariant -/

/-- The view of the dialing end. -/
def State.view (s : State) : Naming := s.dialer.1.naming s.dialer.2

structure Kept (setup : Setup) (s : State) : Prop where
  /-- A hello has the id of its epoch, which has begun. -/
  sent : ∀ h ∈ s.sent, setup.listener.chId h.call = setup.groupId h.iteration ∧
    (setup.listener.isFirst h.call = true → h.isFirst = true) ∧ h.iteration ≤ s.view.iteration
  later : ∀ h ∈ s.sent, h.isFirst = true → h.iteration ≠ 0
  /-- An epoch has one first hello. -/
  unique : ∀ h ∈ s.sent, ∀ h' ∈ s.sent, h.isFirst = true → h'.isFirst = true →
    h.iteration = h'.iteration → h.call = h'.call
  /-- The first dial of an epoch waits for the first hello. -/
  firsts : ∀ g groupId, s.view.parts g = .dialing groupId true → s.view.iteration ≠ 0 ∧
    ∀ h ∈ s.sent, h.isFirst = true → h.iteration = s.view.iteration → s.awaits g = some h.call
  awaits : ∀ g groupId isFirst, s.view.parts g = .dialing groupId isFirst →
    ∀ t, s.awaits g = some t → setup.listener.chId t = groupId

/-! ### The dialing end -/

/-- Only who begins a dial comes to be dialing, and only then the iteration may change. -/
theorem naming_begun {Good : GoString → Underlay → Prop} {connectionId : GoString}
    {first : Underlay} {x y : Naming} :
    ∀ {begun : Option ℕ}, x.Step Good connectionId first begun y →
      (begun = none ∧ y.iteration = x.iteration ∧ ∀ g groupId isFirst,
        y.parts g = .dialing groupId isFirst → x.parts g = .dialing groupId isFirst) ∨
      ∃ g isFirst, begun = some g ∧ x.parts g = .starting isFirst ∧
        y.iteration = (groupConnectionId x.iteration connectionId isFirst).1 ∧
        y.parts = Function.update x.parts g
          (.dialing (groupConnectionId x.iteration connectionId isFirst).2 isFirst) := by
  have hother : ∀ {g : ℕ} {part : IdPart}, (∀ groupId isFirst, part ≠ .dialing groupId isFirst) →
      ∀ b groupId isFirst, (x.setPart g part).parts b = .dialing groupId isFirst →
        x.parts b = .dialing groupId isFirst := by
    intro g part hpart b groupId isFirst hb
    rcases eq_or_ne b g with rfl | hne
    · exact absurd ((Function.update_self ..).symm.trans hb) (hpart groupId isFirst)
    · exact (Function.update_of_ne hne _ _).symm.trans hb
  intro begun h
  cases h with
  | same | remove => exact .inl ⟨rfl, rfl, fun _ _ _ h => h⟩
  | choose g isFirst hg => exact .inr ⟨g, isFirst, rfl, hg, rfl, rfl⟩
  | newAppend g => exact .inl ⟨rfl, rfl, hother (by simp)⟩
  | start g => exact .inl ⟨rfl, rfl, hother (by simp)⟩
  | create g => exact .inl ⟨rfl, rfl, hother (by simp)⟩
  | append g => exact .inl ⟨rfl, rfl, hother (by simp)⟩
  | leave g => exact .inl ⟨rfl, rfl, hother (by simp)⟩

/-- The first underlay is a good one. -/
theorem good_first : setup.Good setup.chan.first.connectionId setup.chan.first :=
  ⟨rfl, setup.joined⟩

/-- The answer to a dial is a good one. -/
theorem dials_of_ok {e : Redial.Event} {d : Redial.State × (ℕ → GoString)}
    (hkept : Kept setup s) (hok : setup.Ok s (.dialer e))
    (hanswered : s.answered setup.chan.first.ref e = true)
    (hstep : (naming setup.chan setup.config setup.start).step s.dialer e = some d) :
    Dials setup.Good s.dialer e := by
  cases e with
  | dial g a =>
    cases a with
    | created result =>
      cases result with
      | none => trivial
      | some u =>
        obtain ⟨⟨underlayType, isFirst, ref, commonName, request, response, hhello, hresult⟩, -⟩ :=
          hok
        intro hne
        refine ⟨setup.keepsGroup.dialed_connectionId hhello hresult hne, ?_⟩
        obtain ⟨t, isFirst, counts, todo, pc, p, hr, hnext, -⟩ :=
          dial_step (System.recording_step hstep).1
        have hpart : s.view.parts g = .dialing (s.dialer.2 g) isFirst := by
          show idPart (s.dialer.1.pcs g) (s.dialer.2 g) (s.dialer.1.chan.routines g) = _
          rw [pc_of_created hnext, hr]
          rfl
        simp only [State.answered, Bool.and_eq_true, beq_iff_eq] at hanswered
        exact hkept.awaits g _ _ hpart _ hanswered.1.2
    | _ => trivial
  | channel e =>
    cases e with
    | callAccept => exact hok.1
    | _ => trivial
  | _ => trivial

/-- A dial begins an epoch, or stays in it. -/
theorem iteration_le {iteration : UInt32} (hwrap : iteration ≠ 4294967295)
    (connectionId : GoString) (isFirst : Bool) :
    iteration ≤ (groupConnectionId iteration connectionId isFirst).1 ∧
      (isFirst = true → iteration < (groupConnectionId iteration connectionId isFirst).1) := by
  have hlt : iteration.toNat + isFirst.toNat < 2 ^ 32 := by
    have hne : iteration.toNat ≠ 4294967295 := fun h => hwrap (UInt32.toNat_inj.mp h)
    have := iteration.toNat_lt
    cases isFirst <;> simp only [Bool.toNat_false, Bool.toNat_true] <;> omega
  obtain ⟨hnat, -⟩ := groupConnectionId_eq hlt connectionId
  constructor
  · rw [UInt32.le_iff_toNat_le, hnat]
    omega
  · rintro rfl
    rw [UInt32.lt_iff_toNat_lt, hnat]
    simp

theorem dial_of_begins {d : Redial.State} {e : Redial.Event} {g : ℕ} (h : begins d e = some g) :
    e = .dial g .go := by
  unfold begins at h
  split at h
  · split at h
    · cases h
      rfl
    · cases h
  · cases h

/-- The dialing end keeps the invariant. -/
theorem kept_dialer {e : Redial.Event}
    (hreach : (naming setup.chan setup.config setup.start).Reachable (Dials setup.Good) s.dialer)
    (hkept : Kept setup s) (hok : setup.Ok s (.dialer e))
    (hstep : (group setup).step s (.dialer e) = some s') :
    (naming setup.chan setup.config setup.start).Reachable (Dials setup.Good) s'.dialer ∧
      Kept setup s' := by
  simp only [group, step] at hstep
  split at hstep
  · next hanswered =>
    obtain ⟨d, hd, rfl⟩ := Option.map_eq_some_iff.mp hstep
    have hdials := dials_of_ok hkept hok hanswered hd
    refine ⟨hreach.step hdials hd, ?_⟩
    have hview := kept_of_reachable good_first setup.named hreach
    have hmove := naming_step setup.named hreach hdials hview hd
    rcases naming_begun hmove with ⟨hbegun, hiteration, hparts⟩ |
      ⟨g, isFirst, hbegun, hg, hiteration, hparts⟩
    · simp only [hbegun]
      refine ⟨fun h hh => ?_, hkept.later, hkept.unique, fun g groupId hg => ?_,
        fun g groupId isFirst hg => ?_⟩
      · obtain ⟨hid, hfirst, hle⟩ := hkept.sent h hh
        exact ⟨hid, hfirst, hiteration ▸ hle⟩
      · show d.1.policy.iteration ≠ 0 ∧ ∀ h ∈ s.sent, _ → h.iteration = d.1.policy.iteration → _
        rw [show d.1.policy.iteration = s.view.iteration from hiteration]
        exact hkept.firsts g groupId (hparts g groupId true hg)
      · exact hkept.awaits g groupId isFirst (hparts g groupId isFirst hg)
    · have hwrap := hok.2 g (dial_of_begins hbegun)
      obtain ⟨hle, hlt⟩ := iteration_le hwrap setup.chan.first.connectionId isFirst
      -- nobody else is on the way
      have hself : ∀ b groupId f, (d.1.naming d.2).parts b = .dialing groupId f →
          b = g ∧ f = isFirst := by
        intro b groupId f hb
        rw [hparts] at hb
        rcases eq_or_ne b g with rfl | hne
        · rw [Function.update_self] at hb
          cases hb
          exact ⟨rfl, rfl⟩
        · rw [Function.update_of_ne hne, hview.alone g (by rw [hg]; simp) b hne] at hb
          cases hb
      simp only [hbegun]
      refine ⟨fun h hh => ?_, hkept.later, hkept.unique, fun b groupId hb => ?_,
        fun b groupId f hb t ht => ?_⟩
      · obtain ⟨hid, hfirst, hbefore⟩ := hkept.sent h hh
        exact ⟨hid, hfirst, hiteration ▸ UInt32.le_trans hbefore hle⟩
      · obtain ⟨rfl, rfl⟩ := hself b groupId true hb
        -- the epoch has only just begun
        show d.1.policy.iteration ≠ 0 ∧ ∀ h ∈ s.sent, _ → h.iteration = d.1.policy.iteration → _
        have hnew : s.view.iteration < d.1.policy.iteration :=
          (show d.1.policy.iteration = _ from hiteration) ▸ hlt rfl
        refine ⟨fun h0 => ?_, fun h hh _ heq => ?_⟩
        · rw [h0] at hnew
          exact absurd hnew UInt32.not_lt_zero
        · exact absurd ((hkept.sent h hh).2.2) (UInt32.not_le.mpr (heq ▸ hnew))
      · obtain ⟨rfl, -⟩ := hself b groupId f hb
        simp at ht
  · cases hstep

/-! ### Hellos -/

/-- Sending a hello keeps the invariant. -/
theorem kept_hello {g t : ℕ}
    (hreach : (naming setup.chan setup.config setup.start).Reachable (Dials setup.Good) s.dialer)
    (hkept : Kept setup s) (hok : setup.Ok s (.hello g t))
    (hstep : (group setup).step s (.hello g t) = some s') :
    s'.dialer = s.dialer ∧ s'.listener = s.listener ∧ s.sent ⊆ s'.sent ∧ Kept setup s' := by
  simp only [group, step] at hstep
  split at hstep
  · next underlayType isFirst counts todo hr hpc =>
    split at hstep
    · next hfree =>
      cases hstep
      refine ⟨rfl, rfl, List.subset_append_left .., ?_⟩
      have hview := kept_of_reachable good_first setup.named hreach
      have hpart : s.view.parts g = .dialing (s.dialer.2 g) isFirst := by
        show idPart (s.dialer.1.pcs g) (s.dialer.2 g) (s.dialer.1.chan.routines g) = _
        rw [hpc, hr]
        rfl
      have hid : s.dialer.2 g = setup.groupId s.view.iteration := by
        have hfits := hview.fits g
        rw [show (s.dialer.1.naming s.dialer.2).parts g = _ from hpart] at hfits
        exact hfits
      have hself : ∀ b groupId f, s.view.parts b = .dialing groupId f →
          b = g ∧ groupId = s.dialer.2 g ∧ f = isFirst := by
        intro b groupId f hb
        rcases eq_or_ne b g with rfl | hne
        · rw [hpart] at hb
          cases hb
          exact ⟨rfl, rfl, rfl⟩
        · have hout : s.view.parts b = .out :=
            hview.alone g (by rw [show (s.dialer.1.naming s.dialer.2).parts g = _ from hpart]; simp)
              b hne
          rw [hout] at hb
          cases hb
      obtain ⟨_, _, _, _, request, generatedId, newSecret, hr', hhello, hunderlay⟩ := hok
      rw [hr] at hr'
      cases hr'
      obtain ⟨hch, hflag⟩ := chId_of_hello (hid ▸ currentId_ne_nil setup.named _) hhello hunderlay
      -- the dial has not sent a hello yet, so its epoch has no first one
      have hnone : isFirst = true → ∀ h ∈ s.sent, h.isFirst = true →
          h.iteration ≠ s.view.iteration := by
        rintro rfl h hh hfirst heq
        have hawaits := (hkept.firsts g _ hpart).2 h hh hfirst heq
        rw [hfree.1] at hawaits
        cases hawaits
      have hmem : ∀ {h : Sent}, h ∈ s.sent ++ [⟨t, s.dialer.1.policy.iteration, isFirst⟩] →
          h ∈ s.sent ∨ h = ⟨t, s.view.iteration, isFirst⟩ := fun hh =>
        (List.mem_append.mp hh).imp_right List.mem_singleton.mp
      refine ⟨fun h hh => ?_, fun h hh hfirst => ?_, fun h hh h' hh' hfirst hfirst' heq => ?_,
        fun b groupId hb => ?_, fun b groupId f hb t' ht' => ?_⟩
      · rcases hmem hh with hold | rfl
        · exact hkept.sent h hold
        · exact ⟨hch.trans hid, hflag, UInt32.le_refl _⟩
      · rcases hmem hh with hold | rfl
        · exact hkept.later h hold hfirst
        · obtain rfl : isFirst = true := hfirst
          exact (hkept.firsts g _ hpart).1
      · rcases hmem hh with hold | rfl
        · rcases hmem hh' with hold' | rfl
          · exact hkept.unique h hold h' hold' hfirst hfirst' heq
          · exact absurd heq (hnone hfirst' h hold hfirst)
        · rcases hmem hh' with hold' | rfl
          · exact absurd heq.symm (hnone hfirst h' hold' hfirst')
          · rfl
      · obtain ⟨rfl, -, hfirst⟩ := hself b groupId true hb
        obtain rfl : true = isFirst := hfirst
        refine ⟨(hkept.firsts b _ hpart).1, fun h hh hfirst heq => ?_⟩
        rcases hmem hh with hold | rfl
        · exact absurd heq (hnone rfl h hold hfirst)
        · exact Function.update_self ..
      · obtain ⟨rfl, rfl, -⟩ := hself b groupId f hb
        have ht : Function.update s.awaits b (some t) b = some t' := ht'
        rw [Function.update_self] at ht
        cases ht
        exact hch
    · cases hstep
  · cases hstep

/-! ### Both ends -/

/-- What holds in every state: both ends run by themselves, and what is between them fits. -/
structure Holds (setup : Setup) (s : State) : Prop where
  dialer : (naming setup.chan setup.config setup.start).Reachable (Dials setup.Good) s.dialer
  listener : (multiListener setup.listener).Reachable (FactoryPromise setup.listener) s.listener
  kept : Kept setup s
  /-- The calls for the group's ids serve its hellos. -/
  ours : ∀ t, setup.Ours t → (s.listener.calls t).pc ≠ .idle →
    t = setup.chan.first.ref ∨ ∃ h ∈ s.sent, h.call = t

theorem listener_idle {l l' : Listener} {a : Listener.Action} {t : ℕ}
    (h : (multiListener setup.listener).step l a = some l') (ht : (l'.calls t).pc ≠ .idle) :
    (l.calls t).pc ≠ .idle ∨ ∃ c, a = .call t c := by
  by_contra hnot
  push Not at hnot
  obtain ⟨hidle, hother⟩ := hnot
  refine absurd ht (not_not.mpr ?_)
  refine Listener.step_cases (P := fun l' => (l'.calls t).pc = .idle) h ?_ ?_ ?_ ?_
  · rintro b c call e rfl hc -
    have hne : t ≠ b := fun h => hother c (h ▸ rfl)
    cases e <;> exact (congrArg Call.pc (Listener.setCall_calls_of_ne hne)).trans hidle
  · rintro b ch st rfl hch
    exact hidle
  · rintro k b rfl - -
    exact hidle
  · rintro k b rfl - -
    exact hidle

theorem holds_init : Holds setup (group setup).init := by
  have hparts : ∀ g groupId isFirst,
      (group setup).init.view.parts g ≠ .dialing groupId isFirst := by
    intro g groupId isFirst
    rcases eq_or_ne g 0 with rfl | hne
    · exact IdPart.noConfusion
    · simp [group, State.view, State.naming, viewOf, naming, System.recording, redialing,
        Concurrent.channel, hne, idPart]
  exact ⟨.init, .init,
    ⟨fun _ h => (by cases h), fun _ h => (by cases h), fun _ h => (by cases h),
      fun g groupId h => absurd h (hparts g groupId true),
      fun g groupId isFirst h => absurd h (hparts g groupId isFirst)⟩,
    fun _ _ h => absurd rfl h⟩

/-- **Both ends keep the invariant, whatever they do.** -/
theorem holds_of_reachable (hs : (group setup).Reachable setup.Ok s) : Holds setup s := by
  refine hs.invariant (P := Holds setup) holds_init ?_
  intro s e s' h hok hstep
  cases e with
  | dialer e =>
    obtain ⟨hreach, hkept⟩ := kept_dialer h.dialer h.kept hok hstep
    simp only [group, step] at hstep
    split at hstep
    · obtain ⟨d, hd, rfl⟩ := Option.map_eq_some_iff.mp hstep
      exact ⟨hreach, h.listener, hkept, h.ours⟩
    · cases hstep
  | hello g t =>
    obtain ⟨hd, hl, hsub, hkept⟩ := kept_hello h.dialer h.kept hok hstep
    refine ⟨hd ▸ h.dialer, hl ▸ h.listener, hkept, fun t hours ht => ?_⟩
    rw [hl] at ht
    exact (h.ours t hours ht).imp_right fun ⟨h, hh, hcall⟩ => ⟨h, hsub hh, hcall⟩
  | listener a =>
    obtain ⟨l, hl, rfl⟩ := Option.map_eq_some_iff.mp hstep
    refine ⟨h.dialer, h.listener.step hok.1 hl, ?_, fun t hours ht => ?_⟩
    · exact ⟨h.kept.sent, h.kept.later, h.kept.unique, h.kept.firsts, h.kept.awaits⟩
    · rcases listener_idle hl ht with hbefore | ⟨c, rfl⟩
      · exact h.ours t hours hbefore
      · exact (hok.2 t c rfl hours).imp_right List.mem_map.mp

/-- **An epoch has one channel at the listener.** -/
theorem registered_unique (h : Holds setup s) {r r' : ℕ} (hours : setup.Ours r)
    (hsame : setup.listener.chId r = setup.listener.chId r')
    (hr : (s.listener.registrations r).ch ≠ none)
    (hr' : (s.listener.registrations r').ch ≠ none) : r = r' := by
  obtain ⟨iteration, hid⟩ := hours
  -- the first underlay is of the original epoch, and a first hello of a later one
  have hepoch : ∀ {b}, setup.listener.chId b = setup.groupId iteration →
      (s.listener.registrations b).ch ≠ none →
      (b = setup.chan.first.ref ∧ iteration = 0) ∨
        ∃ h ∈ s.sent, h.call = b ∧ h.isFirst = true ∧ h.iteration = iteration := by
    intro b hb hch
    obtain ⟨hfirst, hbusy⟩ := registered_isFirst h.listener b hch
    rcases h.ours b ⟨iteration, hb⟩ hbusy with rfl | ⟨x, hx, rfl⟩
    · have hzero : setup.groupId 0 = setup.groupId iteration := setup.joined.symm.trans hb
      exact .inl ⟨rfl, (currentId_inj hzero).symm⟩
    · obtain ⟨hxid, hxfirst, -⟩ := h.kept.sent x hx
      exact .inr ⟨x, hx, rfl, hxfirst hfirst, currentId_inj (hxid.symm.trans hb)⟩
  rcases hepoch hid hr with ⟨rfl, hzero⟩ | ⟨x, hx, rfl, hfirst, hiter⟩
  · rcases hepoch (hsame.symm.trans hid) hr' with ⟨rfl, -⟩ | ⟨y, hy, rfl, hfirst', hiter'⟩
    · rfl
    · exact absurd (hiter'.trans hzero) (h.kept.later y hy hfirst')
  · rcases hepoch (hsame.symm.trans hid) hr' with ⟨rfl, hzero⟩ | ⟨y, hy, rfl, hfirst', hiter'⟩
    · exact absurd (hiter.trans hzero) (h.kept.later x hx hfirst)
    · exact h.kept.unique x hx y hy hfirst hfirst' (hiter.trans hiter'.symm)

end

/-! ### A run with two underlays -/

/-- The hellos of a first and a second underlay, and the underlays at the listener. -/
def pairHello (isFirst : Bool) : Message :=
  (newHello (str "dialer") (dialHeaders defaultUnderlayType (str "group") [7] isFirst)).setSequence
    helloSequence

def pairAccepted (t : ℕ) : Message × Underlay :=
  ClassicListener.acceptHello t plainChance.generatedId plainChance.newSecret
    (pairHello (decide (t = 0))).arrived

/-- The listener's answer to the second hello, and the underlay at the dialing end. -/
def pairAnswer : Message :=
  (plainListener.ackHello (pairAccepted 1).2 (pairAccepted 1).1 true []).arrived

def pairDialed : Underlay :=
  ⟨1, str "listener", str "group",
    Finmap.insert typeHeader ((pairHello false).headers.index typeHeader) pairAnswer.headers⟩

/-- A channel that wants two underlays. -/
def pairGroup : Setup where
  chan := { Concurrent.pairSetup with
    first := ⟨0, [], str "group", Finmap.singleton groupSecretHeader [7]⟩ }
  config := defaultBackoffConfig
  start := 1
  dialer := plainDialer
  listener := ⟨fun t => (pairAccepted t).2, false⟩
  keepsGroup := fun _ h => by cases h
  keepsFirst := ⟨rfl, fun _ h => by cases h⟩
  named := by decide
  joined := rfl

/-- What the `Factory` builds. -/
def pairChannel : ChannelImpl :=
  (Config.impl ⟨[], true, true, none, ⟨[], none⟩, false, ∅, 1⟩ (pairAccepted 0).2).live
    (.start (pairAccepted 0).2)

/-- The listener makes a channel for the first underlay; the dialing end dials a second one, which
is at the listener while it is being acknowledged. -/
def pairRun : List Event :=
  let calls (n t : ℕ) : List Event := List.replicate n (.listener (.call t .go))
  let gos (n g : ℕ) : List Event := List.replicate n (.dialer (.channel (.run g .go)))
  let dials (n : ℕ) : List Event := List.replicate n (.dialer (.dial 3 .go))
  List.flatten
    [calls 3 0, [.listener (.call 0 (.ret none)), .listener (.call 0 (.build pairChannel)),
        .listener (.call 0 (.ret none))], calls 4 0,
      gos 4 0, [.dialer (.channel (.run 0 (.start 1 2))), .dialer (.channel (.run 0 (.spawn 3)))],
      gos 6 3, [.dialer (.channel (.run 3 (.order [⟨defaultUnderlayType, ⟨2, 1⟩⟩])))], gos 2 3,
      dials 4, [.dialer (.dial 3 (.draw 0))], dials 1, [.hello 3 1], calls 4 1,
      [.dialer (.dial 3 (.created (some pairDialed)))], dials 1, [.dialer (.dialed 3)], gos 6 3,
      [.dialer (.channel (.run 3 (.start 4 5))), .dialer (.accepted 3),
        .listener (.call 1 (.ret none))], calls 1 1]

/-- The second hello is for a dial that is not the first. -/
def State.asksForSecond (s : State) (g : ℕ) : Bool :=
  match s.dialer.1.chan.routines g with
  | .applyConstraints (.dial underlayType isFirst _ _) =>
      underlayType == defaultUnderlayType && !isFirst && s.dialer.2 g == str "group" &&
        s.dialer.1.chan.ch.groupSecret == [7]
  | _ => false

def PairOk (s : State) : Event → Prop
  | .dialer (.dial _ .go) => s.dialer.1.policy.iteration ≠ 4294967295
  | .dialer (.dial g (.created (some u))) => s.asksForSecond g = true ∧ u = pairDialed
  | .dialer (.channel (.callAccept _ _)) => False
  | .dialer _ => True
  | .hello g t => s.asksForSecond g = true ∧ t = 1
  | .listener (.call t a) =>
      FactoryPromise pairGroup.listener s.listener (.call t a) ∧ (t = 0 ∨ t ∈ s.sent.map (·.call))
  | .listener a => FactoryPromise pairGroup.listener s.listener a

instance (s : State) : DecidablePred (PairOk s) := fun e => by
  unfold PairOk
  split <;> infer_instance

theorem of_asksForSecond {s : State} {g : ℕ} (h : s.asksForSecond g = true) :
    (∃ counts todo, s.dialer.1.chan.routines g =
      .applyConstraints (.dial defaultUnderlayType false counts todo)) ∧
      s.dialer.2 g = str "group" ∧ s.dialer.1.chan.ch.groupSecret = [7] := by
  unfold State.asksForSecond at h
  split at h
  · next underlayType isFirst counts todo hr =>
    simp only [Bool.and_eq_true, beq_iff_eq, Bool.not_eq_true'] at h
    obtain ⟨⟨⟨rfl, rfl⟩, hid⟩, hsecret⟩ := h
    exact ⟨⟨counts, todo, hr⟩, hid, hsecret⟩
  · cases h

theorem pairOk_ok {s : State} {e : Event} (h : PairOk s e) : pairGroup.Ok s e := by
  cases e with
  | dialer e =>
    cases e with
    | dial g a =>
      cases a with
      | go => exact ⟨trivial, fun _ _ => h⟩
      | created result =>
        cases result with
        | none => exact ⟨trivial, fun _ he => (by cases he)⟩
        | some u =>
          obtain ⟨hasks, rfl⟩ := h
          obtain ⟨-, hid, hsecret⟩ := of_asksForSecond hasks
          refine ⟨⟨defaultUnderlayType, false, 1, none, pairHello false, pairAnswer, ?_, rfl⟩,
            fun _ he => (by cases he)⟩
          rw [hid, hsecret]
          rfl
      | _ => exact ⟨trivial, fun _ he => (by cases he)⟩
    | channel e =>
      cases e with
      | callAccept => exact h.elim
      | _ => exact ⟨trivial, fun _ he => (by cases he)⟩
    | _ => exact ⟨trivial, fun _ he => (by cases he)⟩
  | hello g t =>
    obtain ⟨hasks, rfl⟩ := h
    obtain ⟨⟨counts, todo, hr⟩, hid, hsecret⟩ := of_asksForSecond hasks
    refine ⟨defaultUnderlayType, false, counts, todo, pairHello false, _, _, hr, ?_, rfl⟩
    rw [hid, hsecret]
    rfl
  | listener a =>
    cases a with
    | call t a => exact ⟨h.1, fun _ _ he _ => (by cases he; exact h.2)⟩
    | _ => exact ⟨h, fun _ _ he => (by cases he)⟩

/-- **A group is one channel at either end.**  Let a dialing channel and a listener run together, in
any interleaving: dials that succeed, fail or give up while their hello is still on its way, calls
of the listener that take their time, channels and underlays that close at either end, in fewer than
`2 ^ 32` epochs.  The dialer is a classic one whose headers and provider leave the headers of the
group to the dial, nobody else sends hellos with an id of the group, and the `Factory` builds its
channel on the underlay that it is given.  Then no two channels of the listener are ever made for
one id of the group.  And of the underlays that the dialing channel holds, the other ends are in one
and the same channel of the listener, as far as they are in any. -/
theorem group_one_channel (setup : Setup) (s : State)
    (hs : (group setup).Reachable setup.Ok s) :
    (∀ r r', setup.Ours r → setup.listener.chId r = setup.listener.chId r' →
      (s.listener.registrations r).ch ≠ none → (s.listener.registrations r').ch ≠ none → r = r') ∧
    ∀ u ∈ s.dialer.1.chan.ch.underlays, ∀ v ∈ s.dialer.1.chan.ch.underlays, ∀ r r' ch ch',
      (s.listener.registrations r).ch = some ch → (s.listener.registrations r').ch = some ch' →
      setup.listener.underlay u.ref ∈ ch.underlays →
      setup.listener.underlay v.ref ∈ ch'.underlays → r = r' := by
  have h := holds_of_reachable hs
  refine ⟨fun r r' hours hsame hr hr' => registered_unique h hours hsame hr hr', ?_⟩
  intro u hu v hv r r' ch ch' hch hch' hmem hmem'
  have hcurrent := (kept_of_reachable good_first setup.named h.dialer).current
  have hid : ∀ {w b c}, w ∈ s.dialer.1.chan.ch.underlays →
      (s.listener.registrations b).ch = some c → setup.listener.underlay w.ref ∈ c.underlays →
      setup.listener.chId b = setup.groupId s.dialer.1.policy.iteration := fun hw hc hmem =>
    (underlays_chId h.listener hc hmem).symm.trans (hcurrent _ hw).2
  have hr := hid hu hch hmem
  have hr' := hid hv hch' hmem'
  exact registered_unique h ⟨_, hr⟩ (hr.trans hr'.symm) (by rw [hch]; simp) (by rw [hch']; simp)

/-- Both ends have two underlays, and those of the listener are in its one channel. -/
theorem group_one_channel_pair :
    ∃ s, (group pairGroup).Reachable pairGroup.Ok s ∧
      s.dialer.1.chan.ch.underlays.map (·.ref) = [0, 1] ∧
      (s.listener.registrations 0).ch.map (·.underlays) =
        some [(pairAccepted 0).2, (pairAccepted 1).2] ∧
      ∀ r ch, (s.listener.registrations r).ch = some ch → (pairAccepted 1).2 ∈ ch.underlays →
        r = 0 := by
  obtain ⟨s, hs, h⟩ := System.reachable_of_replay (group pairGroup) PairOk pairRun
    (fun s => decide (s.dialer.1.chan.ch.underlays.map (·.ref) = [0, 1] ∧
      (s.listener.registrations 0).ch.map (·.underlays) =
        some [(pairAccepted 0).2, (pairAccepted 1).2])) (by decide +kernel)
  have hs' : (group pairGroup).Reachable pairGroup.Ok s :=
    System.Steps.mono (fun _ _ hok => pairOk_ok hok) hs
  obtain ⟨hrefs, hchannel⟩ := of_decide_eq_true h
  refine ⟨s, hs', hrefs, hchannel, fun r ch hch hmem => ?_⟩
  obtain ⟨ch₀, hch₀, hunderlays⟩ := Option.map_eq_some_iff.mp hchannel
  have hone : ∃ v ∈ s.dialer.1.chan.ch.underlays, v.ref = 1 := by
    rw [← List.mem_map, hrefs]
    simp
  obtain ⟨v, hv, href⟩ := hone
  exact (group_one_channel pairGroup s hs').2 v hv v hv r 0 ch ch₀ hch hch₀
    (by rw [href]; exact hmem)
    (by rw [href, hunderlays]; exact List.mem_cons_of_mem _ (List.mem_singleton.mpr rfl))

end Group

end ZitiChannel
