import ZitiChannel.CloseFinal
import ZitiChannel.ConstraintLoop
import ZitiChannel.UnderlayEvents
import ZitiChannel.Lib.Refinement

/-!
# Two channels that share their connections

A channel at one end and a channel at the other have the two ends of the same connections.  Either
end accepts, dials, loses and closes underlays as it likes, and the other learns of it by its reads
alone: an `rxer` whose connection was closed at the other end gets an error.  Nothing is said
between the channels about which connections they have, or that one of them was closed.

They agree all the same, as soon as they are at rest: as soon as the goroutines of both are idle,
but for those that serve connections which neither end has closed.  Then the underlays of one end
are the other ends of those of the other, and if one channel is closed, so is the other, unless it
was set up to live on without underlays.  This is for channels that are not closed while they are
being made, and for underlays that are offered once.

## Main definitions

* `State.AtRest` — a channel at rest.
* `PeerSetup`, `Peers`, `peers` — two channels and their connections, as a transition system.
* `Peers.AtRest` — both ends at rest.

## Main results

* `watch_rule` — something lasting is reached, or a goroutine is on the way to it.
* `State.AtRest.open_of_mem` — an underlay of a channel at rest is open at both ends.
* `peers_agree` — **two channels at rest have the same connections, and are both closed or both
  open.**

The source is `impl.go`.
-/

namespace ZitiChannel.Concurrent

open Transition

section

variable {setup : Setup} {s s' : State} {g b : ℕ} {eff : Effect} {u v : Underlay} {r r' : Routine}
  {ok : State → Event → Prop} {w : Routine → Bool}

/-! ### What is on the way -/

/-- **Something lasting is reached, or a goroutine is on the way to it.**  `pending_rule` for what
no step undoes, and where a call from outside may start it. -/
theorem watch_rule {A G : State → Prop} (hidle : w .idle = false)
    (init : A (channel setup).init → (channel setup).init.Pending w)
    (keeps : ∀ s e s', (channel setup).step s e = some s' → G s → G s')
    (begins : ∀ s e s', (channel setup).step s e = some s' → A s' → A s ∨ s'.Pending w)
    (moved : ∀ (s : State) g r (eff : Effect), (s.routines g).Moves setup s r eff →
      eff.enabled s g = true → w (s.routines g) = true →
      G ((s.setRoutine g r).apply g eff) ∨ ((s.setRoutine g r).apply g eff).Pending w)
    (hs : (channel setup).Reachable ok s) : A s → G s ∨ s.Pending w := by
  refine hs.invariant (P := fun s => A s → G s ∨ s.Pending w) (fun h => .inr (init h)) ?_
  intro s e s' ih _ hstep hA
  rcases begins s e s' hstep hA with hbefore | hpending
  swap
  · exact .inr hpending
  rcases ih hbefore with hG | ⟨b, hb⟩
  · exact .inl (keeps s e s' hstep hG)
  refine step_cases (P := fun s' => G s' ∨ s'.Pending w) hstep ?_ ?_ ?_ ?_
  · intro g a r eff _ _ hmoves hen
    rcases eq_or_ne b g with rfl | hne
    · exact moved s b r eff hmoves hen hb
    · exact .inr (State.Pending.of_other hidle hen hne hb)
  · intro g a pc rest pcs eff _ _ hmoves _
    have hframe : CloseFrame s ((s.setCloses g (pcs ++ rest)).apply g eff) := hmoves.frame
    exact .inr ⟨b, by rwa [hframe.routines]⟩
  · intro g u _ hg
    have hne : b ≠ g := by
      rintro rfl
      rw [(State.idle_iff.mp hg).1, hidle] at hb
      cases hb
    exact .inr ⟨b, by simpa [State.setRoutine, hne] using hb⟩
  · intro g _ _
    exact .inr ⟨b, hb⟩

/-- Whether `AcceptUnderlay` has neither added nor closed the underlay. -/
def AcceptPc.offers : AcceptPc → Bool
  | .lock | .check | .refuse | .store | .add .append => true
  | _ => false

/-- Whether a goroutine is to add or to close an underlay. -/
def Routine.offers (setup : Setup) (u : Underlay) : Routine → Bool
  | .newChannel .bind | .newChannel (.add .append) => decide (setup.first = u)
  | .acceptUnderlay v pc | .applyConstraints (.accept v pc _ _) => decide (v = u) && pc.offers
  | _ => false

theorem AcceptPc.Moves.offers {pc pc' : AcceptPc} (h : pc.Moves setup s u pc' eff)
    (hpc : pc.offers = true) : pc'.offers = true ∨ eff = .append u ∨ eff = .closeConn u := by
  cases h <;> first | exact .inl rfl | exact .inr (.inl rfl) | exact .inr (.inr rfl) | cases hpc

theorem Routine.Moves.offers (h : r.Moves setup s r' eff) (hr : r.offers setup u = true) :
    r'.offers setup u = true ∨ eff = .append u ∨ eff = .closeConn u := by
  cases h with
  | bound => exact .inl hr
  | newAppend => exact .inr (.inl (by rw [of_decide_eq_true hr]))
  | accept v pc pc' e h | dialAccept v pc pc' counts todo e h =>
    obtain ⟨hv, hpc⟩ := Bool.and_eq_true_iff.mp hr
    obtain rfl := of_decide_eq_true hv
    exact (h.offers hpc).imp_left fun hpc' => by simp [Routine.offers, hpc']
  | acceptReturn | dialReturn => simp [Routine.offers, AcceptPc.offers] at hr
  | _ => cases hr

theorem Routine.Moves.offers_of_offer (h : r.Moves setup s r' (.offer u)) :
    r'.offers setup u = true := by
  cases h with
  | dialed => simp [Routine.offers, AcceptPc.offers]
  | accept _ _ _ _ h | dialAccept _ _ _ _ _ _ h => cases h

/-- **What was offered is added, or closed, or a goroutine is about to do so.** -/
theorem offered_watched (hs : (channel setup).Reachable ok s) (u : Underlay) :
    u ∈ s.offered → (u ∈ s.added ∨ u ∈ s.ch.closeCalls) ∨ s.Pending (Routine.offers setup u) := by
  refine watch_rule (A := fun s => u ∈ s.offered)
    (G := fun s => u ∈ s.added ∨ u ∈ s.ch.closeCalls) rfl ?_ ?_ ?_ ?_ hs
  · intro hu
    refine ⟨0, ?_⟩
    simp [channel, Routine.offers, List.mem_singleton.mp hu]
  · intro s e s' hstep hG
    refine step_keeps (P := fun s => u ∈ s.added ∨ u ∈ s.ch.closeCalls) ?_ ?_ hstep hG
    · intro t g eff h
      refine h.imp (fun hu => ?_) State.mem_closeCalls_apply
      cases eff with
      | append v => exact List.mem_append_left _ hu
      | _ => exact hu
    · intro s s' hch hadded h
      rwa [hch, hadded]
  · intro s e s' hstep
    refine step_cases (P := fun s' => u ∈ s'.offered → u ∈ s.offered ∨
      s'.Pending (Routine.offers setup u)) hstep ?_ ?_ ?_ ?_
    · intro g a r eff _ _ hmoves hen hu
      cases eff with
      | offer v =>
        rcases List.mem_append.mp hu with hu | hu
        · exact .inl hu
        · obtain rfl := List.mem_singleton.mp hu
          exact .inr (State.Pending.of_self hen hmoves.offers_of_offer)
      | _ => exact .inl hu
    · intro g a pc rest pcs eff _ _ hmoves _ hu
      cases hmoves <;> exact .inl hu
    · intro g v _ hg hu
      rcases List.mem_append.mp hu with hu | hu
      · exact .inl hu
      · obtain rfl := List.mem_singleton.mp hu
        exact .inr ⟨g, by simp [State.setRoutine, Routine.offers, AcceptPc.offers]⟩
    · intro g _ _ hu
      exact .inl hu
  · intro s g r eff hmoves hen hw
    rcases hmoves.offers hw with hr | rfl | rfl
    · exact .inr (State.Pending.of_self hen hr)
    · exact .inl (.inl (List.mem_append_right _ (List.mem_singleton_self u)))
    · exact .inl (.inr (List.mem_append_right _ (List.mem_singleton_self u)))

/-- Whether `AcceptUnderlay` has added the underlay and has yet to start its goroutines. -/
def AcceptPc.adds : AcceptPc → Bool
  | .add (.notify _) | .startMultiplex => true
  | _ => false

/-- Whether a goroutine reads from an underlay, or is to start one that does, or is to close it. -/
def Routine.receives (setup : Setup) (u : Underlay) : Routine → Bool
  | .newChannel (.add (.notify _)) | .newChannel .startMultiplex => decide (setup.first = u)
  | .acceptUnderlay v pc | .applyConstraints (.accept v pc _ _) => decide (v = u) && pc.adds
  | .rxer v | .closeUnderlay v .close => decide (v = u)
  | _ => false

theorem AcceptPc.Moves.adds {pc pc' : AcceptPc} (h : pc.Moves setup s u pc' eff)
    (hpc : pc.adds = true) : pc'.adds = true ∨ ∃ rx tx, eff = .startMultiplex u rx tx := by
  cases h with
  | start rx tx => exact .inr ⟨rx, tx, rfl⟩
  | notify | notified => exact .inl rfl
  | _ => cases hpc

theorem Routine.Moves.receives (h : r.Moves setup s r' eff) (hr : r.receives setup u = true) :
    r'.receives setup u = true ∨ eff = .closeConn u ∨ ∃ rx tx, eff = .startMultiplex u rx tx := by
  cases h with
  | newNotify | newNotified => exact .inl hr
  | newStart rx tx => exact .inr (.inr ⟨rx, tx, by rw [of_decide_eq_true hr]⟩)
  | accept v pc pc' e h | dialAccept v pc pc' counts todo e h =>
    obtain ⟨hv, hpc⟩ := Bool.and_eq_true_iff.mp hr
    obtain rfl := of_decide_eq_true hv
    exact (h.adds hpc).imp (fun hpc' => by simp [Routine.receives, hpc']) .inr
  | acceptReturn | dialReturn => simp [Routine.receives, AcceptPc.adds] at hr
  | rxer => exact .inl hr
  | closeConn => exact .inr (.inl (by rw [of_decide_eq_true hr]))
  | _ => cases hr

theorem Routine.Moves.receives_of_append (h : r.Moves setup s r' (.append u)) :
    r'.receives setup u = true := by
  cases h with
  | newAppend => simp [Routine.receives]
  | accept _ _ _ _ h | dialAccept _ _ _ _ _ _ h =>
    cases h
    simp [Routine.receives, AcceptPc.adds]

/-- **What was added is closed, or a goroutine reads from it, or is about to.** -/
theorem added_watched (hs : (channel setup).Reachable ok s) (u : Underlay) :
    u ∈ s.added → u ∈ s.ch.closeCalls ∨ s.Pending (Routine.receives setup u) := by
  refine watch_rule (A := fun s => u ∈ s.added) (G := fun s => u ∈ s.ch.closeCalls) rfl
    (fun h => by cases h) (fun s e s' hstep => mem_closeCalls_step hstep) ?_ ?_ hs
  · intro s e s' hstep
    refine step_cases (P := fun s' => u ∈ s'.added → u ∈ s.added ∨
      s'.Pending (Routine.receives setup u)) hstep ?_ ?_ ?_ ?_
    · intro g a r eff _ _ hmoves hen hu
      cases eff with
      | append v =>
        rcases List.mem_append.mp hu with hu | hu
        · exact .inl hu
        · obtain rfl := List.mem_singleton.mp hu
          exact .inr (State.Pending.of_self hen hmoves.receives_of_append)
      | _ => exact .inl hu
    · intro g a pc rest pcs eff _ _ hmoves _ hu
      rw [hmoves.frame.added] at hu
      exact .inl hu
    · intro g v _ _ hu
      exact .inl hu
    · intro g _ _ hu
      exact .inl hu
  · intro s g r eff hmoves hen hw
    rcases hmoves.receives hw with hr | rfl | ⟨rx, tx, rfl⟩
    · exact .inr (State.Pending.of_self hen hr)
    · exact .inl (List.mem_append_right _ (List.mem_singleton_self u))
    · have hne : rx ≠ tx := by
        simp only [Effect.enabled, Bool.and_eq_true, decide_eq_true_eq] at hen
        exact hen.1.1.2
      have hspawned : (Effect.startMultiplex u rx tx).spawned rx = some (.rxer u) := by
        simp [Effect.spawned, hne]
      exact .inr (State.Pending.of_spawned hspawned (by simp [Routine.receives]))

/-! ### A channel at rest -/

/-- Whether a goroutine is idle, or waits in the loop of an `rxer` or of a `txer`.  An `rxer` gets
an error from its connection if either end was closed; a `txer` is woken only by its own end. -/
def Routine.AtRest (here there : Underlay → Prop) : Routine → Prop
  | .idle => True
  | .rxer u => ¬ here u ∧ ¬ there u
  | .txer u => ¬ here u
  | _ => False

/-- A channel at rest, where `there` says which connections were closed at their other end. -/
def State.AtRest (s : State) (there : Underlay → Prop) : Prop :=
  ∀ g, s.closes g = [] ∧ (s.routines g).AtRest (· ∈ s.ch.closeCalls) there

/-- No underlay is offered twice, and the channel is not closed before `NewChannel` has added the
first one. -/
def Orderly (s : State) : Prop := DistinctOffers s ∧ NotClosedEarly s

instance : DecidablePred Orderly := fun s =>
  inferInstanceAs (Decidable (DistinctOffers s ∧ NotClosedEarly s))

variable {there : Underlay → Prop}

theorem lifelong_of_orderly
    (hs : (channel setup).Reachable ((channel setup).throughout Orderly) s) : Lifelong setup s :=
  lifelong (hs.mono fun _ _ hok s' hstep => (hok s' hstep).1)

namespace State.AtRest

variable (h : s.AtRest there)

include h

theorem not_pending (hw : ∀ r : Routine, w r = true → ¬ r.AtRest (· ∈ s.ch.closeCalls) there) :
    ¬ s.Pending w := by
  rintro ⟨g, hg⟩
  exact hw _ hg (h g).2

theorem not_enforcing (g : ℕ) : (s.routines g).enforcing = false := by
  have hg := (h g).2
  generalize s.routines g = r at hg
  cases r <;> first | rfl | exact hg.elim

/-- An underlay is served by a goroutine in its loop. -/
theorem served_of_mem (hlife : Lifelong setup s) (hu : u ∈ s.ch.underlays) :
    ∃ g, s.routines g = .rxer u ∨ s.routines g = .txer u := by
  obtain ⟨hadded, hremoved⟩ := hlife.mem_underlays.mp hu
  obtain ⟨ph, hph⟩ := hlife.phase u
  have hisAdded : ph.isAdded = true := hph.added.symm.trans (decide_eq_true hadded)
  have hisRemoved : ph.isRemoved = false := hph.removed.symm.trans (decide_eq_false hremoved)
  -- the roles of goroutines at rest
  have hrole : ∀ g, (s.routines g).role setup u = .out ∨ (s.routines g).role setup u = .serving ∧
      (s.routines g = .rxer u ∨ s.routines g = .txer u) := by
    intro g
    have hg := (h g).2
    generalize s.routines g = r at hg ⊢
    cases r with
    | idle => exact .inl rfl
    | rxer v | txer v =>
      by_cases hv : v = u
      · subst hv; exact .inr ⟨if_pos rfl, by simp⟩
      · exact .inl (if_neg hv)
    | _ => exact hg.elim
  cases ph with
  | adding g told =>
    have hg : (s.routines g).role setup u = .adding told := hph.assigns.role_of_handler g _ rfl
    rcases hrole g with hout | ⟨hserving, -⟩
    · rw [hout] at hg; cases hg
    · rw [hserving] at hg; cases hg
  | present =>
    obtain ⟨g, hg⟩ := hph.assigns.serving_of_present rfl
    have hg : (s.routines g).role setup u = .serving := hg
    rcases hrole g with hout | ⟨-, hloop⟩
    · rw [hout] at hg; cases hg
    · exact ⟨g, hloop⟩
  | removing | gone => cases hisRemoved
  | _ => cases hisAdded

/-- **An underlay of a channel at rest is open at both ends.** -/
theorem open_of_mem (hs : (channel setup).Reachable ((channel setup).throughout Orderly) s)
    (hu : u ∈ s.ch.underlays) : u ∉ s.ch.closeCalls ∧ ¬ there u := by
  have hlife := lifelong_of_orderly hs
  have hopen : u ∉ s.ch.closeCalls := by
    obtain ⟨g, hg | hg⟩ := h.served_of_mem hlife hu
    · have hrest := (h g).2
      rw [hg] at hrest
      exact hrest.1
    · have hrest := (h g).2
      rw [hg] at hrest
      exact hrest
  refine ⟨hopen, ?_⟩
  obtain ⟨g, hg⟩ := (added_watched hs u (hlife.mem_underlays.mp hu).1).resolve_left hopen
  have hrest := (h g).2
  generalize s.routines g = r at hg hrest
  cases r with
  | rxer v =>
    obtain rfl := of_decide_eq_true hg
    exact hrest.2
  | idle | txer v => cases hg
  | _ => exact hrest.elim

/-- What was offered to a channel at rest is in its collection, or was closed. -/
theorem mem_or_closed (hs : (channel setup).Reachable ok s) (hu : u ∈ s.offered) :
    u ∈ s.ch.underlays ∨ u ∈ s.ch.closeCalls := by
  rcases offered_watched hs u hu with (hadded | hclosed) | hpending
  · exact (shut hs).added u hadded
  · exact .inr hclosed
  · refine absurd hpending (h.not_pending fun r hr => ?_)
    cases r <;> first | exact id | cases hr

/-- A closed channel at rest has no underlays. -/
theorem eq_nil_of_closed (hs : (channel setup).Reachable ((channel setup).throughout Orderly) s)
    (hclosed : s.ch.closed = true) : s.ch.underlays = [] := by
  have hcalls : ∀ u ∈ s.added, u ∈ s.ch.closeCalls := by
    refine (closed_of_added (hs.mono fun _ _ hok s' hstep => (hok s' hstep).2)).after ⟨hclosed, ?_⟩
    intro g pc hpc
    rw [(h g).1] at hpc
    cases hpc
  refine List.eq_nil_iff_forall_not_mem.mpr fun u hu => ?_
  exact (h.open_of_mem hs hu).1 (hcalls u ((lifelong_of_orderly hs).mem_underlays.mp hu).1)

end State.AtRest

/-- A channel that does not stay open without underlays: it is simple, or a minimum is positive, or
it dials. -/
def Setup.Needs (setup : Setup) : Prop :=
  (setup.config.impl setup.first).isMultiUnderlayCapable = false ∨
    0 < setup.config.minTotalUnderlays ∨ (∃ e ∈ setup.config.constraints.entries, 0 < e.2.min) ∨
    setup.config.dialPolicy = true ∧ ∃ e ∈ setup.config.constraints.entries, 0 < e.2.desired

/-- A channel at rest that needs underlays has some, or is closed. -/
theorem State.AtRest.closed_of_nil (h : s.AtRest there) (hs : (channel setup).Reachable ok s)
    (hret : s.returned = true) (hneeds : setup.Needs) (hnil : s.ch.underlays = []) :
    s.ch.closed = true := by
  have hquiet : s.Quiet := ⟨hret, h.not_enforcing⟩
  have hmin : setup.Enforces → s.ch.closed = true ∨ MinMet setup.config [] := fun henf => by
    rw [← hnil]
    exact (min_watched henf hs hret).resolve_right
      (hquiet.not_pending Routine.enforcing_of_checks)
  rcases hneeds with hsimple | htotal | ⟨e, he, hpos⟩ | ⟨hpolicy, e, he, hpos⟩
  · refine ((empty_watched hsimple hs (added_of_returned hs hret)).resolve_right
      (hquiet.not_pending Routine.enforcing_of_closesEmpty)).resolve_right fun hne => hne hnil
  · refine (hmin (.inr htotal)).resolve_right fun hmet => ?_
    have hle := hmet.2
    rw [total_countsByType] at hle
    simp only [List.length_nil, Nat.cast_zero] at hle
    omega
  · refine (hmin (.inl (Multiset.card_pos_iff_exists_mem.mpr ⟨e, he⟩))).resolve_right
      fun hmet => ?_
    have hle := hmet.1 e he
    rw [count_countsByType] at hle
    simp only [List.countP_nil, Nat.cast_zero] at hle
    omega
  · have hdesired := (desired_watched (.inl (Multiset.card_pos_iff_exists_mem.mpr ⟨e, he⟩)) hpolicy
      hs hret).resolve_right (hquiet.not_pending Routine.enforcing_of_wakes)
    refine hdesired.resolve_right fun hmet => ?_
    have hle := hmet e he
    rw [hnil, count_countsByType] at hle
    simp only [List.countP_nil, Nat.cast_zero] at hle
    omega

end

/-! ### Two ends -/

/-- Two channels, and how the ends of their connections belong together. -/
structure PeerSetup where
  ends : Bool → Setup
  /-- The other end of a connection. -/
  other : Bool → Underlay → Underlay
  other_other : ∀ b u, other (!b) (other b u) = u

structure Peers where
  ends : Bool → State
  /-- The connections that were closed at an end before they were offered to its channel: the
  handshake failed there, or the connection was refused. -/
  dropped : Bool → List Underlay

/-- The underlay that an event offers to a channel. -/
def Event.offers : Event → Option Underlay
  | .callAccept _ u | .run _ (.dialed (some u)) => some u
  | _ => none

namespace Peers

/-- What can happen.  A connection may break at any time, so nothing at one end has to wait for
the other. -/
inductive Event
  | side (b : Bool) (e : Concurrent.Event)
  | drop (b : Bool) (u : Underlay)

def step (p : PeerSetup) (l : Peers) : Event → Option Peers
  | .side b e =>
      if ∃ u ∈ e.offers, u ∈ l.dropped b then none
      else ((channel (p.ends b)).step (l.ends b) e).map fun s =>
        { l with ends := Function.update l.ends b s }
  | .drop b u =>
      if u ∈ (l.ends b).offered then none
      else some { l with dropped := Function.update l.dropped b (u :: l.dropped b) }

end Peers

/-- Two channels and their connections, as a transition system. -/
def peers (p : PeerSetup) : System Peers Peers.Event where
  init := ⟨fun b => (channel (p.ends b)).init, fun _ => []⟩
  step := Peers.step p

namespace Peers

variable {p : PeerSetup} {l : Peers}

/-- A connection was closed at an end. -/
def Shut (l : Peers) (b : Bool) (u : Underlay) : Prop :=
  u ∈ (l.ends b).ch.closeCalls ∨ u ∈ l.dropped b

/-- Both ends are at rest, and no connection is still on its way to one of them. -/
structure AtRest (p : PeerSetup) (l : Peers) : Prop where
  ends : ∀ b, (l.ends b).AtRest fun u => l.Shut (!b) (p.other b u)
  settled : ∀ b, ∀ u ∈ (l.ends b).offered,
    p.other b u ∈ (l.ends !b).offered ∨ p.other b u ∈ l.dropped !b

/-- At both ends, no underlay is offered twice, and the channel is not closed early. -/
abbrev Orderly (p : PeerSetup) : Peers → Event → Prop :=
  (peers p).throughout fun l => ∀ b, Concurrent.Orderly (l.ends b)

/-- **Each end does what a channel does.** -/
theorem refines_channel (p : PeerSetup) (b : Bool) :
    (peers p).Refines (Orderly p) (channel (p.ends b))
      ((channel (p.ends b)).throughout Concurrent.Orderly) fun l => l.ends b where
  init := rfl
  step l e l' _ hok h := by
    have horderly := hok l' h b
    cases e with
    | side c e =>
      simp only [peers, step] at h
      split at h
      · cases h
      · obtain ⟨s', hs', rfl⟩ := Option.map_eq_some_iff.mp h
        rcases eq_or_ne b c with rfl | hb
        · simp only [Function.update_self] at horderly ⊢
          refine System.Steps.single (e := e) (fun s'' hs'' => ?_) hs'
          rw [hs'] at hs''
          cases hs''
          exact horderly
        · simp only [Function.update_of_ne hb]
          exact System.Steps.stutter _
    | drop c u =>
      simp only [peers, step] at h
      split at h
      · cases h
      · cases h
        exact System.Steps.stutter _

/-- The other end of an underlay of a channel at rest is one of the other channel. -/
theorem AtRest.other_mem (h : AtRest p l) (hl : (peers p).Reachable (Orderly p) l) {b : Bool}
    {u : Underlay} (hu : u ∈ (l.ends b).ch.underlays) :
    p.other b u ∈ (l.ends !b).ch.underlays := by
  have hs := (refines_channel p b).reachable hl
  have hopen := ((h.ends b).open_of_mem hs hu).2
  have hoffered : u ∈ (l.ends b).offered := by
    obtain ⟨ph, hph⟩ := (lifelong_of_orderly hs).phase u
    have hadded := ((lifelong_of_orderly hs).mem_underlays.mp hu).1
    have hisAdded : ph.isAdded = true := hph.added.symm.trans (decide_eq_true hadded)
    refine of_decide_eq_true (hph.offered.trans ?_)
    cases ph <;> first | rfl | cases hisAdded
  rcases h.settled b u hoffered with hother | hdropped
  · refine ((h.ends !b).mem_or_closed ((refines_channel p !b).reachable hl) hother).resolve_right
      fun hclosed => hopen (.inl hclosed)
  · exact absurd (.inr hdropped) hopen

end Peers

/-- **Two channels at rest agree.**  Let neither channel be closed before `NewChannel` has added its
first underlay, and no underlay be offered twice.  Whatever else happens, once both ends are at rest
the underlays of one are the other ends of those of the other; a closed channel has none left; and
when one is closed, so is the other if it needs underlays. -/
theorem peers_agree (p : PeerSetup) (l : Peers) (hl : (peers p).Reachable (Peers.Orderly p) l)
    (hnew : ∀ b, (l.ends b).returned = true) (hrest : Peers.AtRest p l) (b : Bool) :
    ((l.ends b).ch.underlays.map (p.other b)).Perm (l.ends !b).ch.underlays ∧
    ((l.ends b).ch.closed = true → (l.ends b).ch.underlays = [] ∧
      ((p.ends !b).Needs → (l.ends !b).ch.closed = true)) := by
  have hs := fun b => (Peers.refines_channel p b).reachable hl
  have hnodup : ∀ b, (l.ends b).ch.underlays.Nodup := fun b => by
    rw [(lifelong_of_orderly (hs b)).underlays]
    exact (lifelong_of_orderly (hs b)).nodup.filter _
  have hinj : Function.Injective (p.other b) := fun u v huv => by
    rw [← p.other_other b u, huv, p.other_other]
  have hperm : ((l.ends b).ch.underlays.map (p.other b)).Perm (l.ends !b).ch.underlays := by
    refine (List.perm_ext_iff_of_nodup ((hnodup b).map hinj) (hnodup !b)).mpr fun v => ?_
    rw [List.mem_map]
    constructor
    · rintro ⟨u, hu, rfl⟩
      exact hrest.other_mem hl hu
    · intro hv
      have hu := hrest.other_mem hl hv
      rw [Bool.not_not] at hu
      refine ⟨_, hu, ?_⟩
      have hback := p.other_other (!b) v
      rwa [Bool.not_not] at hback
  refine ⟨hperm, fun hclosed => ?_⟩
  have hnil := (hrest.ends b).eq_nil_of_closed (hs b) hclosed
  refine ⟨hnil, fun hneeds => ?_⟩
  rw [hnil, List.map_nil] at hperm
  exact (hrest.ends !b).closed_of_nil (hs !b) (hnew !b) hneeds hperm.nil_eq.symm

/-- Two channels that need an underlay and do not dial. -/
def plainPeers : PeerSetup where
  ends _ :=
    { config :=
        { logicalName := [], senders := true, messageSourceProvider := true, underlay := none
          binder := ⟨[], none⟩, dialPolicy := false, constraints := ∅, minTotalUnderlays := 1 }
      first := ⟨0, [], [], Finmap.singleton groupSecretHeader [7]⟩
      validUnderlayTypes := []
      listeners := 0
      peekHandlers := []
      closeHandlers := [] }
  other _ u := u
  other_other _ _ := rfl

/-- Each channel is made and gets a second connection; then one is closed, and the `rxer`s of the
other read this off their connections. -/
def closedRun : List Peers.Event :=
  let u : Underlay := ⟨1, [], [], Finmap.singleton groupSecretHeader [7]⟩
  let gos (n g : ℕ) : List Event := List.replicate n (.run g .go)
  let started : List Event := List.flatten
    [gos 4 0, [.run 0 (.start 1 2), .run 0 (.spawn 3)], gos 7 3,
      [.callAccept 3 u], gos 6 3, [.run 3 (.start 4 5)], gos 1 3]
  let torn (n : ℕ) (applied : List Event) : List Event := List.flatten
    [gos 5 1, [.run 1 (.spawn 6)], gos 4 1, gos n 6, gos 6 2,
      gos 5 4, [.run 4 (.spawn 6)], gos 5 4, applied, gos 7 5]
  List.flatten
    [started.map (.side false), started.map (.side true),
      (.callClose 6 :: List.replicate 9 (.close 6 .go)).map (.side true),
      (torn 2 (gos 2 6)).map (.side true),
      (torn 7 (gos 3 6 ++ List.replicate 7 (.close 6 .go) ++ gos 1 6)).map (.side false)]

def closedPeers : Peers :=
  ((peers plainPeers).replay (Peers.Orderly plainPeers) (peers plainPeers).init closedRun).get
    (by decide +kernel)

theorem closedPeers_idle (b : Bool) (g : ℕ) :
    (closedPeers.ends b).closes g = [] ∧ (closedPeers.ends b).routines g = .idle := by
  cases b <;>
    match g with
    | 0 | 1 | 2 | 3 | 4 | 5 | 6 => exact ⟨rfl, rfl⟩
    | n + 7 => exact ⟨rfl, rfl⟩

theorem peers_agree_closed :
    (peers plainPeers).Reachable (Peers.Orderly plainPeers) closedPeers ∧
      Peers.AtRest plainPeers closedPeers ∧ (closedPeers.ends false).added.map (·.ref) = [0, 1] ∧
      (closedPeers.ends false).ch.closed = true ∧ (closedPeers.ends false).ch.underlays = [] := by
  have hl : (peers plainPeers).Reachable (Peers.Orderly plainPeers) closedPeers :=
    System.reachable_get_replay _ _ closedRun _
  have hfacts : (closedPeers.ends false).offered = (closedPeers.ends true).offered ∧
      (closedPeers.ends false).returned = true ∧ (closedPeers.ends true).returned = true ∧
      (closedPeers.ends true).ch.closed = true ∧
      (closedPeers.ends false).added.map (·.ref) = [0, 1] := by
    decide +kernel
  obtain ⟨hoffered, hnew, hnew', hclosed, hadded⟩ := hfacts
  have hrest : Peers.AtRest plainPeers closedPeers := by
    refine ⟨fun b g => ⟨(closedPeers_idle b g).1, ?_⟩, fun b u hu => .inl ?_⟩
    · rw [(closedPeers_idle b g).2]
      trivial
    · cases b with
      | false => exact hoffered ▸ hu
      | true => exact hoffered.symm ▸ hu
  obtain ⟨hperm, hagree⟩ := peers_agree plainPeers closedPeers hl
    (fun b => by cases b with | false => exact hnew | true => exact hnew') hrest true
  obtain ⟨hnil, hother⟩ := hagree hclosed
  rw [hnil, List.map_nil] at hperm
  exact ⟨hl, hrest, hadded, hother (.inr (.inl (by decide))), hperm.nil_eq.symm⟩

end ZitiChannel.Concurrent
