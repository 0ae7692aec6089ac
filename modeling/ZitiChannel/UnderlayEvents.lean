import ZitiChannel.ChannelSteps
import ZitiChannel.UnderlayLife

/-!
# Underlay events fire exactly once

Every underlay is torn down by two goroutines, and the listeners for underlay events are told
outside of any lock.  Still each listener hears of each underlay once that it was added and then
at most once that it was removed, and the dial policy is told once.

The proof looks at one underlay at a time.  What the goroutines of a channel do for it is the
abstract life of `UnderlayLife`, step by step, and what is to be shown can be read off
the phase of that life.

## Main definitions

* `Routine.role`, `State.life` — the life of an underlay in a state of the channel.
* `DistinctOffers` — the promise that no underlay is offered twice.

## Main results

* `Routine.Moves.lives` — a step of a routine is a step in the life of an underlay, or none.
* `lifelong` — every underlay is in some phase of its life.
* `underlay_events_once` — **every event fires exactly once, and the collection is what was
  added less what was removed.**
-/

namespace ZitiChannel.Concurrent

open Transition

/-! ### The life of an underlay in a channel -/

def AddPc.role : AddPc → Role
  | .append => .offering
  | .notify l => .adding l

def NewPc.role (listeners : ℕ) : NewPc → Role
  | .bind => .offering
  | .add pc => pc.role
  | .startMultiplex => .adding (listeners + 1)
  | .applyConstraints => .out

def AcceptPc.role (listeners : ℕ) : AcceptPc → Role
  | .lock | .check | .store => .offering
  | .add pc => pc.role
  | .startMultiplex => .adding (listeners + 1)
  | .refuse | .unlock _ => .out

def CloseUnderlayPc.role : CloseUnderlayPc → Role
  | .close | .remove => .serving
  | .notify 0 => .removing 0 false
  | .dialPolicy => .removing 1 false
  | .respond | .closing => .removing 1 true
  | .notify (l + 1) => .removing (l + 1) true
  | .lock | .loadFallback | .getAll | .store _ | .unlock => .out

/-- What a routine is doing for the underlay `u`. -/
def Routine.role (setup : Setup) (u : Underlay) : Routine → Role
  | .newChannel pc => if setup.first = u then pc.role setup.listeners else .out
  | .acceptUnderlay v pc | .applyConstraints (.accept v pc _ _) =>
      if v = u then pc.role setup.listeners else .out
  | .rxer v | .txer v => if v = u then .serving else .out
  | .closeUnderlay v pc => if v = u then pc.role else .out
  | _ => .out

namespace Notice

def underlay : Notice → Underlay
  | added _ u | removed _ u | underlayClosed _ u => u

/-- Which listener is told, and what; otherwise it is the dial policy that is told. -/
def listener? : Notice → Option (ℕ × Seen)
  | added l _ => some (l, .added)
  | removed l _ => some (l, .removed)
  | underlayClosed _ _ => none

/-- What a listener learns about `u` from a notice. -/
def seen? (listener : ℕ) (u : Underlay) (n : Notice) : Option Seen :=
  match n.listener? with
  | some (l, what) => if n.underlay = u ∧ l = listener then some what else none
  | none => none

/-- Whether a notice tells the dial policy about `u`. -/
def isPolicyCall (u : Underlay) (n : Notice) : Bool :=
  decide (n.underlay = u) && n.listener?.isNone

end Notice

namespace State

/-- What a listener was told about `u`, in order. -/
def seen (s : State) (listener : ℕ) (u : Underlay) : List Seen :=
  s.notices.filterMap (·.seen? listener u)

/-- How often the dial policy was told about `u`. -/
def policyCalls (s : State) (u : Underlay) : ℕ := s.notices.countP (·.isPolicyCall u)

def life (setup : Setup) (s : State) (u : Underlay) : Life where
  roles g := (s.routines g).role setup u
  offered := decide (u ∈ s.offered)
  added := decide (u ∈ s.added)
  started := decide (u ∈ s.ch.multiplexed)
  removed := decide (u ∈ s.removed)
  seen l := s.seen l u
  policyCalls := s.policyCalls u

@[simp] theorem life_roles {setup : Setup} {s : State} {u : Underlay} {g : ℕ} :
    (s.life setup u).roles g = (s.routines g).role setup u := rfl

end State

/-! ### Effects on a life -/

/-- What a notice adds to the record of the life of `u`. -/
def Notice.record (u : Underlay) (l : Life) (n : Notice) : Life :=
  if n.underlay = u then
    match n.listener? with
    | some (i, what) => l.tell i what
    | none => { l with policyCalls := l.policyCalls + 1 }
  else l

/-- What an effect adds to the record of the life of `u`. -/
def Effect.record (u : Underlay) (l : Life) : Effect → Life
  | .offer v => { l with offered := l.offered || decide (v = u) }
  | .append v => { l with added := l.added || decide (v = u) }
  | .startMultiplex v _ _ => { l with started := l.started || decide (v = u) }
  | .remove v => { l with removed := l.removed || decide (v = u) }
  | .notice n => n.record u l
  | _ => l

/-- The underlay of whose life an effect is part. -/
def Effect.underlay? : Effect → Option Underlay
  | .offer v | .append v | .startMultiplex v _ _ | .remove v => some v
  | .notice n => some n.underlay
  | _ => none

section

variable {setup : Setup} {s s' t : State} {g b : ℕ} {eff : Effect} {u v : Underlay} {r r' : Routine}

theorem State.life_notice (t : State) (n : Notice) :
    { t with notices := t.notices ++ [n] }.life setup u = n.record u (t.life setup u) := by
  by_cases hu : n.underlay = u
  · cases hn : n.listener? with
    | none => simp [Notice.record, hu, hn, life, seen, policyCalls, Notice.seen?, Notice.isPolicyCall]
    | some told =>
      obtain ⟨i, what⟩ := told
      simp only [Notice.record, hu, hn, if_true, life, Life.tell, Life.mk.injEq, true_and]
      refine ⟨funext fun j => ?_, ?_⟩
      · rcases eq_or_ne j i with rfl | hj
        · simp [seen, Notice.seen?, hu, hn]
        · simp [seen, Notice.seen?, hn, hj, Ne.symm hj]
      · simp [policyCalls, Notice.isPolicyCall, hn]
  · have hseen : ∀ j, n.seen? j u = none := fun j => by
      unfold Notice.seen?
      split
      · exact if_neg fun h => hu h.1
      · rfl
    simp [Notice.record, hu, life, seen, policyCalls, hseen, Notice.isPolicyCall]

theorem decide_mem_append (us : List Underlay) (v u : Underlay) :
    decide (u ∈ us ++ [v]) = (decide (u ∈ us) || decide (v = u)) := by
  simp [eq_comm]

/-- An effect makes its record, and starts goroutines. -/
theorem State.life_apply : (t.apply g eff).life setup u =
    { eff.record u (t.life setup u) with
      roles := fun b => ((eff.spawned b).getD (t.routines b)).role setup u } := by
  have hroles : (fun b => ((eff.spawned b).getD (t.routines b)).role setup u) =
      ((t.apply g eff).life setup u).roles := by
    funext b
    exact (congrArg (Routine.role setup u) (State.apply_routines (s := t))).symm
  rw [hroles]
  cases eff with
  | notice n => rw [apply, life_notice]; rfl
  | offer v =>
    exact congrArg (fun b => { (t.apply g (.offer v)).life setup u with offered := b })
      (decide_mem_append t.offered v u)
  | append v =>
    exact congrArg (fun b => { (t.apply g (.append v)).life setup u with added := b })
      (decide_mem_append t.added v u)
  | remove v =>
    exact congrArg (fun b => { (t.apply g (.remove v)).life setup u with removed := b })
      (decide_mem_append t.removed v u)
  | startMultiplex v rx tx =>
    exact congrArg (fun b => { (t.apply g (.startMultiplex v rx tx)).life setup u with started := b })
      (decide_mem_append t.ch.multiplexed v u)
  | _ => rfl

theorem State.life_setRoutine (s : State) (g : ℕ) (r : Routine) :
    (s.setRoutine g r).life setup u = (s.life setup u).setRole g (r.role setup u) := by
  have hroles : ((s.setRoutine g r).life setup u).roles =
      Function.update (s.life setup u).roles g (r.role setup u) := by
    funext b
    rcases eq_or_ne b g with rfl | hb
    · simp [life, setRoutine]
    · simp [life, setRoutine, hb]
  exact congrArg (fun roles => { s.life setup u with roles := roles }) hroles

theorem Effect.record_of_ne {l : Life} (h : eff.underlay? ≠ some u) : eff.record u l = l := by
  cases eff with
  | notice n => exact if_neg fun hu => h (congrArg some hu)
  | offer v | append v | remove v | startMultiplex v _ _ =>
    have hv : v ≠ u := fun hu => h (congrArg some hu)
    simp [record, hv]
  | _ => rfl

theorem Effect.role_of_spawned (h : eff.spawned b = some r) (hne : eff.underlay? ≠ some u) :
    r.role setup u = .out := by
  rcases spawned_cases h with rfl | ⟨v, rx, tx, rfl, rfl | rfl⟩
  · rfl
  · exact if_neg fun hv => hne (congrArg some hv)
  · exact if_neg fun hv => hne (congrArg some hv)

/-- An effect that is not about `u` is nothing in its life. -/
theorem State.life_apply_of_ne (hen : eff.enabled s g = true)
    (hr : r.role setup u = (s.routines g).role setup u) (h : eff.underlay? ≠ some u) :
    ((s.setRoutine g r).apply g eff).life setup u = s.life setup u := by
  have hroles : (fun b => ((eff.spawned b).getD ((s.setRoutine g r).routines b)).role setup u) =
      (s.life setup u).roles := by
    funext b
    cases hb : eff.spawned b with
    | some r' =>
      have hidle := (idle_iff.mp (Effect.idle_of_spawned hen hb).2).1
      rw [Option.getD_some, Effect.role_of_spawned hb h, life_roles, hidle]
      rfl
    | none =>
      rw [Option.getD_none]
      rcases eq_or_ne b g with rfl | hne
      · simpa [setRoutine] using hr
      · simp [setRoutine, hne]
  rw [life_apply, hroles, Effect.record_of_ne h, life_setRoutine]
  rfl

/-- An effect that starts no goroutines only makes its record. -/
theorem State.life_apply_of_spawned (h : ∀ b, eff.spawned b = none) :
    ((s.setRoutine g r).apply g eff).life setup u =
      eff.record u ((s.life setup u).setRole g (r.role setup u)) := by
  have hroles : (fun b => ((eff.spawned b).getD ((s.setRoutine g r).routines b)).role setup u) =
      ((s.life setup u).setRole g (r.role setup u)).roles := by
    rw [← life_setRoutine]
    funext b
    rw [h]
    rfl
  rw [life_apply, hroles, life_setRoutine]
  cases eff with
  | notice n =>
    simp only [Effect.record, Notice.record]
    split
    · split <;> rfl
    · rfl
  | _ => rfl

/-! ### The simulation -/

/-- Nothing happened to `u`, or a step in its life. -/
def State.Lives (setup : Setup) (s s' : State) (u : Underlay) : Prop :=
  s'.life setup u = s.life setup u ∨
    (s.life setup u).Step setup.listeners setup.config.dialPolicy (s'.life setup u)

/-- A move of a routine that is about `v` concerns `u` if it is `v`. -/
theorem State.lives_of_self {a b : Role} (hen : eff.enabled s g = true)
    (hbefore : (s.routines g).role setup u = if v = u then a else .out)
    (hafter : r.role setup u = if v = u then b else .out)
    (heff : ∀ w, eff.underlay? = some w → w = v)
    (hself : v = u → (s.life setup u).roles g = a → r.role setup u = b →
      (s.life setup u).Step setup.listeners setup.config.dialPolicy
        (((s.setRoutine g r).apply g eff).life setup u)) :
    State.Lives setup s ((s.setRoutine g r).apply g eff) u := by
  by_cases hv : v = u
  · rw [if_pos hv] at hbefore hafter
    exact Or.inr (hself hv hbefore hafter)
  · rw [if_neg hv] at hbefore hafter
    exact Or.inl (life_apply_of_ne hen (hafter.trans hbefore.symm) fun hu => hv (heff u hu).symm)

theorem State.lives_offer (hbefore : (s.routines g).role setup u = .out)
    (hafter : r.role setup u = if v = u then .offering else .out)
    (hoffered : v = u → u ∉ s.offered) :
    State.Lives setup s ((s.setRoutine g r).apply g (.offer v)) u := by
  refine lives_of_self rfl (hbefore.trans (ite_self _).symm) hafter (by rintro w ⟨⟩; rfl)
    fun hv hg hr => ?_
  have hnew : (s.life setup u).offered = false := decide_eq_false (hoffered hv)
  rw [life_apply_of_spawned fun _ => rfl, hr]
  simpa [Effect.record, hv] using Life.Step.offer g hg hnew

theorem State.lives_append (hen : (Effect.append v).enabled s g = true)
    (hbefore : (s.routines g).role setup u = if v = u then .offering else .out)
    (hafter : r.role setup u = if v = u then .adding 0 else .out) :
    State.Lives setup s ((s.setRoutine g r).apply g (.append v)) u := by
  refine lives_of_self hen hbefore hafter (by rintro w ⟨⟩; rfl) fun hv hg hr => ?_
  rw [life_apply_of_spawned fun _ => rfl, hr]
  simpa [Effect.record, hv] using Life.Step.append g hg

theorem State.lives_notify {l : ℕ} (hl : l ≤ setup.listeners)
    (hen : (Effect.notice (.added l v)).enabled s g = true)
    (hbefore : (s.routines g).role setup u = if v = u then .adding l else .out)
    (hafter : r.role setup u = if v = u then .adding (l + 1) else .out) :
    State.Lives setup s ((s.setRoutine g r).apply g (.notice (.added l v))) u := by
  refine lives_of_self hen hbefore hafter (by rintro w ⟨⟩; rfl) fun hv hg hr => ?_
  rw [life_apply_of_spawned fun _ => rfl, hr]
  simpa [Effect.record, Notice.record, Notice.underlay, Notice.listener?, hv] using
    Life.Step.tellAdded g l hg hl

theorem State.lives_notified {l : ℕ} (hl : setup.listeners < l)
    (hbefore : (s.routines g).role setup u = if v = u then .adding l else .out)
    (hafter : r.role setup u = if v = u then .adding (setup.listeners + 1) else .out) :
    State.Lives setup s ((s.setRoutine g r).apply g .quiet) u := by
  refine lives_of_self rfl hbefore hafter (by rintro w ⟨⟩) fun hv hg hr => ?_
  rw [life_apply_of_spawned fun _ => rfl, hr]
  exact Life.Step.toldAdded g l hg hl

theorem State.lives_start {rx tx : ℕ} (hen : (Effect.startMultiplex v rx tx).enabled s g = true)
    (hbefore : (s.routines g).role setup u =
      if v = u then .adding (setup.listeners + 1) else .out)
    (hafter : r.role setup u = if v = u then .out else .out) :
    State.Lives setup s ((s.setRoutine g r).apply g (.startMultiplex v rx tx)) u := by
  refine lives_of_self hen hbefore hafter (by rintro w ⟨⟩; rfl) fun hv hg hr => ?_
  subst hv
  have hroles : (fun b => (((Effect.startMultiplex v rx tx).spawned b).getD
      ((s.setRoutine g r).routines b)).role setup v) =
      ((((s.life setup v).setRole g .out).setRole rx .serving).setRole tx .serving).roles := by
    funext b
    simp only [Effect.spawned, Life.setRole, Function.update_apply, setRoutine, life_roles]
    split
    · simp [Routine.role]
    · split
      · simp [Routine.role]
      · simp only [Option.getD_none]
        split
        · exact hr
        · rfl
  rw [life_apply, hroles, life_setRoutine]
  simpa [Effect.record, Life.setRole] using Life.Step.start g rx tx hg

/-- What a step of `AcceptUnderlay` is in the life of `u`, wherever it was called from. -/
theorem AcceptPc.Moves.lives {pc pc' : AcceptPc} (h : pc.Moves setup s v pc' eff)
    (hen : eff.enabled s g = true)
    (hbefore : (s.routines g).role setup u = if v = u then pc.role setup.listeners else .out)
    (hafter : r.role setup u = if v = u then pc'.role setup.listeners else .out) :
    State.Lives setup s ((s.setRoutine g r).apply g eff) u := by
  cases h with
  | lock | passes _ | refuse | store =>
    exact Or.inl (State.life_apply_of_ne hen (hafter.trans hbefore.symm) (by rintro ⟨⟩))
  | reject _ =>
    refine State.lives_of_self hen hbefore hafter (by rintro w ⟨⟩) fun hv hg hr => ?_
    rw [State.life_apply_of_spawned fun _ => rfl, hr]
    exact .refuse g hg
  | append => exact State.lives_append hen hbefore hafter
  | notify l hl => exact State.lives_notify hl hen hbefore hafter
  | notified l hl => exact State.lives_notified hl hbefore hafter
  | start rx tx => exact State.lives_start hen hbefore hafter

/-- What a step of a routine is in the life of `u`. -/
theorem Routine.Moves.lives (h : (s.routines g).Moves setup s r eff) (hen : eff.enabled s g = true)
    (hoffer : eff = .offer u → u ∉ s.offered) (hpolicy : s.ch.dialPolicy = setup.config.dialPolicy)
    (hcoll : u ∈ s.ch.underlays ↔ u ∈ s.added ∧ u ∉ s.removed)
    (hadded : ∀ g, (s.routines g).role setup u = .serving → u ∈ s.added) :
    State.Lives setup s ((s.setRoutine g r).apply g eff) u := by
  generalize hr : s.routines g = r₀ at h
  have hrole : ∀ {ro}, r₀.role setup u = ro → (s.routines g).role setup u = ro :=
    fun h => (congrArg _ hr).trans h
  cases h with
  | newAppend => exact State.lives_append hen (hrole rfl) rfl
  | newNotify l hl => exact State.lives_notify hl hen (hrole rfl) rfl
  | newNotified l hl => exact State.lives_notified hl (hrole rfl) rfl
  | newStart rx tx => exact State.lives_start hen (hrole rfl) rfl
  | accept v pc pc' _ h | dialAccept v pc pc' _ _ _ h => exact h.lives hen (hrole rfl) rfl
  | remove v hv =>
    refine State.lives_of_self hen (hrole rfl) rfl (by rintro w ⟨⟩; rfl) fun hu hg hr => ?_
    have hremoved : (s.life setup u).removed = false := decide_eq_false (hcoll.mp (hu ▸ hv)).2
    rw [State.life_apply_of_spawned fun _ => rfl, hr]
    simpa [Effect.record, hu, CloseUnderlayPc.role] using Life.Step.remove g hg hremoved
  | notFound v hv =>
    refine State.lives_of_self hen (hrole rfl) rfl (by rintro w ⟨⟩) fun hu hg hr => ?_
    have hremoved : (s.life setup u).removed = true := by
      by_contra h
      exact hv (hu ▸ hcoll.mpr ⟨hadded g hg, of_decide_eq_false (Bool.eq_false_iff.mpr h)⟩)
    rw [State.life_apply_of_spawned fun _ => rfl, hr]
    exact .notFound g hg hremoved
  | notifySelf v =>
    refine State.lives_of_self hen (hrole rfl) rfl (by rintro w ⟨⟩; rfl) fun hu hg hr => ?_
    rw [State.life_apply_of_spawned fun _ => rfl, hr]
    simpa [Effect.record, Notice.record, Notice.underlay, Notice.listener?, hu,
      CloseUnderlayPc.role] using Life.Step.tellRemoved g 0 false hg (Nat.zero_le _)
  | notify v l hl =>
    refine State.lives_of_self hen (hrole rfl) rfl (by rintro w ⟨⟩; rfl) fun hu hg hr => ?_
    rw [State.life_apply_of_spawned fun _ => rfl, hr]
    simpa [Effect.record, Notice.record, Notice.underlay, Notice.listener?, hu,
      CloseUnderlayPc.role] using Life.Step.tellRemoved g (l + 1) true hg hl
  | notified v l hl =>
    refine State.lives_of_self hen (hrole rfl) rfl (by rintro w ⟨⟩) fun hu hg hr => ?_
    rw [State.life_apply_of_spawned fun _ => rfl, hr]
    exact .toldRemoved g (l + 1) hg hl
  | policyClosed v hp =>
    refine State.lives_of_self hen (hrole rfl) rfl (by rintro w ⟨⟩; rfl) fun hu hg hr => ?_
    rw [State.life_apply_of_spawned fun _ => rfl, hr, ← hpolicy, hp]
    simp only [Effect.record, Notice.record, Notice.underlay, hu, if_true, Notice.listener?]
    exact .policyClosed g 1 hg
  | noPolicy v hp =>
    refine State.lives_of_self hen (hrole rfl) rfl (by rintro w ⟨⟩) fun hu hg hr => ?_
    rw [State.life_apply_of_spawned fun _ => rfl, hr, ← hpolicy, hp]
    exact .policyClosed g 1 hg
  | dialed t first v counts todo =>
    exact State.lives_offer (hrole rfl) rfl fun hu => hoffer (by rw [hu])
  | newReturn | acceptReturn | dialReturn | unlock =>
    exact Or.inl (State.life_apply_of_ne hen (hrole (ite_self _)).symm (by rintro ⟨⟩))
  | _ => exact Or.inl (State.life_apply_of_ne hen (hrole rfl).symm (by rintro ⟨⟩))

/-- Nothing in a call of `Close` is part of a life. -/
theorem CloseFrame.life (h : CloseFrame s s') : s'.life setup u = s.life setup u := by
  simp only [State.life, State.seen, State.policyCalls, h.routines, h.offered, h.added,
    h.multiplexed, h.removed, h.notices]

end

/-! ### The invariant -/

/-- No underlay is offered twice. -/
def DistinctOffers (s : State) : Prop := s.offered.Nodup

instance : DecidablePred DistinctOffers := fun s => inferInstanceAs (Decidable s.offered.Nodup)

theorem DistinctOffers.not_mem {s s' : State} {u : Underlay} (h : DistinctOffers s')
    (hs' : s'.offered = s.offered ++ [u]) : u ∉ s.offered := by
  intro hu
  rw [DistinctOffers, hs'] at h
  exact (List.nodup_append.mp h).2.2 u hu u (List.mem_singleton_self u) rfl

/-- Every underlay is in some phase of its life, and the collection is what was added less what
was removed. -/
structure Lifelong (setup : Setup) (s : State) : Prop where
  phase : ∀ u, ∃ ph : Phase,
    ph.Describes setup.listeners setup.config.dialPolicy (s.life setup u)
  nodup : s.added.Nodup
  underlays : s.ch.underlays = s.added.filter fun u => decide (u ∉ s.removed)

section

variable {setup : Setup} {s s' : State} {g : ℕ} {eff : Effect} {u : Underlay} {r : Routine}

theorem Lifelong.mem_underlays (h : Lifelong setup s) :
    u ∈ s.ch.underlays ↔ u ∈ s.added ∧ u ∉ s.removed := by
  rw [h.underlays]
  simp

theorem Lifelong.added_of_serving (h : Lifelong setup s)
    (hg : (s.routines g).role setup u = .serving) : u ∈ s.added := by
  obtain ⟨ph, hph⟩ := h.phase u
  have hstarted : ph.isStarted = true := hph.assigns.started_of_serving g hg
  have hadded : ph.isAdded = true := by cases ph <;> first | rfl | cases hstarted
  exact of_decide_eq_true (hph.added.trans hadded)

/-- What is being offered was not added yet. -/
theorem Lifelong.not_added_of_offering (h : Lifelong setup s)
    (hg : (s.routines g).role setup u = .offering) : u ∉ s.added ∧ u ∉ s.removed := by
  obtain ⟨ph, hph⟩ := h.phase u
  obtain rfl := hph.assigns.eq_offered hg
  exact ⟨of_decide_eq_false hph.added, of_decide_eq_false hph.removed⟩

theorem Routine.Moves.offering_of_append (h : (s.routines g).Moves setup s r (.append u)) :
    (s.routines g).role setup u = .offering := by
  generalize s.routines g = r₀ at h
  cases h with
  | newAppend => exact if_pos rfl
  | accept v pc pc' _ h | dialAccept v pc pc' _ _ _ h =>
    cases h
    exact if_pos rfl

/-- An effect that neither adds nor removes an underlay leaves the collection. -/
theorem State.apply_collection (t : State) (g : ℕ) (happend : ∀ u, eff ≠ .append u)
    (hremove : ∀ u, eff ≠ .remove u) :
    (t.apply g eff).ch.underlays = t.ch.underlays ∧ (t.apply g eff).added = t.added ∧
      (t.apply g eff).removed = t.removed := by
  cases eff with
  | append u => exact absurd rfl (happend u)
  | remove u => exact absurd rfl (hremove u)
  | _ => exact ⟨rfl, rfl, rfl⟩

theorem Lifelong.collection_append (h : Lifelong setup s) (hadded : u ∉ s.added)
    (hremoved : u ∉ s.removed) : (s.added ++ [u]).Nodup ∧
      s.ch.underlays ++ [u] = (s.added ++ [u]).filter fun u => decide (u ∉ s.removed) := by
  constructor
  · rw [← List.concat_eq_append]
    exact h.nodup.concat hadded
  · rw [List.filter_append, ← h.underlays]
    simp [hremoved]

theorem Lifelong.collection_remove (h : Lifelong setup s) :
    s.ch.underlays.erase u = s.added.filter fun v => decide (v ∉ s.removed ++ [u]) := by
  have hnodup : s.ch.underlays.Nodup := h.underlays ▸ h.nodup.filter _
  rw [hnodup.erase_eq_filter, h.underlays, List.filter_filter]
  refine List.filter_congr fun v _ => ?_
  grind

theorem Lifelong.run (h : Lifelong setup s) (hmoves : (s.routines g).Moves setup s r eff)
    (hen : eff.enabled s g = true) (hoffer : ∀ u, eff = .offer u → u ∉ s.offered)
    (hpolicy : s.ch.dialPolicy = setup.config.dialPolicy) :
    Lifelong setup ((s.setRoutine g r).apply g eff) := by
  have hphase : ∀ u, ∃ ph : Phase, ph.Describes setup.listeners setup.config.dialPolicy
      (((s.setRoutine g r).apply g eff).life setup u) := fun u => by
    obtain ⟨ph, hph⟩ := h.phase u
    rcases hmoves.lives hen (hoffer u) hpolicy h.mem_underlays fun _ => h.added_of_serving with
      hsame | hstep
    · exact ⟨ph, hsame ▸ hph⟩
    · exact hstep.describes hph
  by_cases happend : ∃ u, eff = .append u
  · obtain ⟨u, rfl⟩ := happend
    obtain ⟨hadded, hremoved⟩ := h.not_added_of_offering hmoves.offering_of_append
    obtain ⟨hnodup, hcoll⟩ := h.collection_append hadded hremoved
    exact ⟨hphase, hnodup, hcoll⟩
  · by_cases hremove : ∃ u, eff = .remove u
    · obtain ⟨u, rfl⟩ := hremove
      exact ⟨hphase, h.nodup, h.collection_remove⟩
    · obtain ⟨hund, hadded, hremoved⟩ := (s.setRoutine g r).apply_collection g
        (fun u hu => happend ⟨u, hu⟩) (fun u hu => hremove ⟨u, hu⟩)
      refine ⟨hphase, ?_, ?_⟩
      · rw [hadded]; exact h.nodup
      · rw [hund, hadded, hremoved]; exact h.underlays

end

theorem lifelong_init (setup : Setup) : Lifelong setup (channel setup).init := by
  refine ⟨fun u => ?_, List.nodup_nil, rfl⟩
  by_cases hu : setup.first = u
  · have hlife : (channel setup).init.life setup u =
        { Life.unborn.setRole 0 .offering with offered := true } := by
      simp only [State.life, Life.setRole, Life.mk.injEq]
      refine ⟨funext fun g => ?_, ?_, rfl, rfl, rfl, rfl, rfl⟩
      · rcases eq_or_ne g 0 with rfl | hg
        · simp [channel, Routine.role, hu, NewPc.role]
        · simp [channel, hg, Routine.role, Life.unborn]
      · simp [channel, hu]
    rw [hlife]
    exact (Life.Step.offer 0 rfl rfl).describes (Phase.describes_unborn _ _)
  · have hlife : (channel setup).init.life setup u = Life.unborn := by
      simp only [State.life, Life.unborn, Life.mk.injEq]
      refine ⟨funext fun g => ?_, ?_, rfl, rfl, rfl, rfl, rfl⟩
      · rcases eq_or_ne g 0 with rfl | hg
        · simp [channel, Routine.role, hu]
        · simp [channel, hg, Routine.role]
      · simp [channel, Ne.symm hu]
    rw [hlife]
    exact ⟨.fresh, Phase.describes_unborn _ _⟩

theorem lifelong {setup : Setup} {s : State}
    (hs : (channel setup).Reachable ((channel setup).throughout DistinctOffers) s) :
    Lifelong setup s := by
  refine hs.invariant_of_reachable (P := Lifelong setup) (lifelong_init setup) ?_
  intro s e s' hreach h hok hstep
  have hdistinct := hok s' hstep
  revert hdistinct
  refine step_cases (P := fun s' => DistinctOffers s' → Lifelong setup s') hstep ?_ ?_ ?_ ?_
  · intro g a r eff he _ hmoves hen hdistinct
    refine h.run hmoves hen ?_ (sameSetup hreach).2.1
    rintro u rfl
    exact hdistinct.not_mem rfl
  · intro g a pc rest pcs eff he _ hmoves hen _
    have hframe : CloseFrame s ((s.setCloses g (pcs ++ rest)).apply g eff) := hmoves.frame
    refine ⟨fun u => ?_, ?_, ?_⟩
    · rw [hframe.life]; exact h.phase u
    · rw [hframe.added]; exact h.nodup
    · rw [hframe.underlays, hframe.added, hframe.removed]; exact h.underlays
  · intro g u he hidle hdistinct
    refine ⟨fun v => ?_, h.nodup, h.underlays⟩
    obtain ⟨ph, hph⟩ := h.phase v
    have hbefore : (s.routines g).role setup v = .out := by rw [(State.idle_iff.mp hidle).1]; rfl
    have hlives : State.Lives setup s
        ((s.setRoutine g (.acceptUnderlay u .lock)).apply g (.offer u)) v :=
      State.lives_offer hbefore rfl fun huv => huv ▸ hdistinct.not_mem rfl
    rcases hlives with hsame | hlife
    · exact ⟨ph, hsame ▸ hph⟩
    · exact hlife.describes hph
  · intro g he hidle _
    exact ⟨h.phase, h.nodup, h.underlays⟩

/-! ### Accepted underlays -/

/-- The underlay whose goroutines a routine has started and about which it has not yet returned. -/
def Routine.accepted? (setup : Setup) : Routine → Option Underlay
  | .newChannel .applyConstraints => some setup.first
  | .acceptUnderlay u (.unlock true) | .applyConstraints (.accept u (.unlock true) _ _) => some u
  | _ => none

/-- The channel has taken in `u`: `AcceptUnderlay` has returned without an error, or it is the first
underlay and `NewChannel` has returned. -/
def State.Accepted (setup : Setup) (s : State) (u : Underlay) : Prop :=
  (u, true) ∈ s.results ∨ setup.first = u ∧ s.returned = true

section

variable {setup : Setup} {s s' : State} {g : ℕ} {eff : Effect} {u : Underlay} {r : Routine}

theorem Routine.Moves.accepted? (h : (s.routines g).Moves setup s r eff)
    (hr : r.accepted? setup = some u) : ∃ rx tx, eff = .startMultiplex u rx tx := by
  generalize s.routines g = r₀ at h
  cases h with
  | newStart rx tx => cases hr; exact ⟨rx, tx, rfl⟩
  | accept v pc pc' _ h | dialAccept v pc pc' _ _ _ h =>
    cases h with
    | start rx tx => cases hr; exact ⟨rx, tx, rfl⟩
    | _ => cases hr
  | _ => cases hr

/-- What is returned as accepted was about to be. -/
theorem Routine.Moves.accepted_before (h : (s.routines g).Moves setup s r eff)
    (heff : eff = .acceptReturned u true ∨ setup.first = u ∧ ∃ b, eff = .newReturned b) :
    (s.routines g).accepted? setup = some u := by
  generalize s.routines g = r₀ at h
  rcases heff with rfl | ⟨rfl, b, rfl⟩
  · cases h with
    | acceptReturn | dialReturn => rfl
    | accept _ _ _ _ h | dialAccept _ _ _ _ _ _ h => cases h
  · cases h with
    | newReturn => rfl
    | accept _ _ _ _ h | dialAccept _ _ _ _ _ _ h => cases h

theorem mem_multiplexed_step {e : Event} (hstep : (channel setup).step s e = some s')
    (h : u ∈ s.ch.multiplexed) : u ∈ s'.ch.multiplexed := by
  refine step_keeps (P := fun s => u ∈ s.ch.multiplexed) (fun t g eff h => ?_)
    (fun _ _ hch _ h => hch ▸ h) hstep h
  cases eff with
  | startMultiplex => exact List.mem_append_left _ h
  | _ => exact h

theorem started_of_accepted? {ok : State → Event → Prop} (hs : (channel setup).Reachable ok s)
    (g : ℕ) (hg : (s.routines g).accepted? setup = some u) : u ∈ s.ch.multiplexed := by
  refine past_rule (W := fun r => r.accepted? setup = some u) (P := fun s _ => u ∈ s.ch.multiplexed)
    ?_ ?_ ?_ hs g hg
  · intro r hr
    unfold Routine.accepted? at hr
    split at hr <;> first | rfl | cases hr
  · intro s g r eff _ _ hmoves hr _
    obtain ⟨rx, tx, rfl⟩ := hmoves.accepted? hr
    exact List.mem_append_right _ (List.mem_singleton_self u)
  · intro s e s' b _ hstep _ h
    exact mem_multiplexed_step hstep h

theorem State.accepted_apply {t : State} (h : (t.apply g eff).Accepted setup u) :
    t.Accepted setup u ∨
      (eff = .acceptReturned u true ∨ setup.first = u ∧ ∃ b, eff = .newReturned b) := by
  cases eff with
  | acceptReturned v accepted =>
    rcases h with h | h
    · rcases List.mem_append.mp h with h | h
      · exact Or.inl (Or.inl h)
      · cases List.mem_singleton.mp h
        exact Or.inr (Or.inl rfl)
    · exact Or.inl (Or.inr h)
  | newReturned b =>
    rcases h with h | ⟨h, -⟩
    · exact Or.inl (Or.inl h)
    · exact Or.inr (Or.inr ⟨h, b, rfl⟩)
  | _ => exact Or.inl h

/-- The goroutines of accepted underlays are started. -/
theorem started_of_accepted {ok : State → Event → Prop} (hs : (channel setup).Reachable ok s) :
    ∀ u, s.Accepted setup u → u ∈ s.ch.multiplexed := by
  refine hs.invariant_of_reachable (P := fun s => ∀ u, s.Accepted setup u → u ∈ s.ch.multiplexed)
    ?_ fun s e s' hreach h _ hstep u hu => ?_
  · rintro u (hu | ⟨-, hu⟩)
    · cases hu
    · cases hu
  refine mem_multiplexed_step hstep ?_
  revert hu
  refine step_cases (P := fun s' => s'.Accepted setup u → u ∈ s.ch.multiplexed) hstep ?_ ?_ ?_ ?_
  · intro g a r eff _ _ hmoves _ hu
    rcases State.accepted_apply hu with hu | heff
    · exact h u hu
    · exact started_of_accepted? hreach g (hmoves.accepted_before heff)
  · intro g a pc rest pcs eff _ _ hmoves _ hu
    have hframe : CloseFrame s ((s.setCloses g (pcs ++ rest)).apply g eff) := hmoves.frame
    rw [State.Accepted, hframe.results, hframe.returned] at hu
    exact h u hu
  · intro g v _ _ hu
    exact h u hu
  · intro g _ _ hu
    exact h u hu

end

/-! ### The events -/

/-- Whether a routine serves `u`, or is still tearing it down. -/
def Routine.serves (u : Underlay) : Routine → Bool
  | .rxer v | .txer v | .closeUnderlay v _ => decide (v = u)
  | _ => false

/-- Whether a goroutine serves an underlay or is removing it. -/
def Role.tearing : Role → Bool
  | .serving | .removing _ _ => true
  | _ => false

section

variable {setup : Setup} {s : State} {g : ℕ} {u : Underlay} {r : Routine} {ph : Phase}

@[simp] theorem Role.tearing_out : Role.out.tearing = false := rfl

@[simp] theorem NewPc.role_tearing (pc : NewPc) (listeners : ℕ) :
    (pc.role listeners).tearing = false := by
  cases pc with
  | add pc => cases pc <;> rfl
  | _ => rfl

@[simp] theorem AcceptPc.role_tearing (pc : AcceptPc) (listeners : ℕ) :
    (pc.role listeners).tearing = false := by
  cases pc with
  | add pc => cases pc <;> rfl
  | _ => rfl

theorem Routine.serves_of_tearing (h : (r.role setup u).tearing = true) : r.serves u = true := by
  revert h
  fun_cases Routine.role setup u r
  all_goals simp [serves]

/-- When nobody serves a started underlay any more, it is gone. -/
theorem Phase.Describes.eq_gone
    (h : ph.Describes setup.listeners setup.config.dialPolicy (s.life setup u))
    (hstarted : ph.isStarted = true) (hdone : ∀ g, (s.routines g).serves u = false) :
    ph = .gone := by
  have hout : ∀ g, ((s.life setup u).roles g).tearing = false := fun g => by
    by_contra hne
    have hserves := Routine.serves_of_tearing (Bool.eq_true_of_not_eq_false hne)
    rw [hdone g] at hserves
    cases hserves
  cases ph with
  | present =>
    obtain ⟨g, hg⟩ := h.assigns.serving_of_present rfl
    have hg' := hout g
    rw [hg] at hg'
    cases hg'
  | removing g i p =>
    have hg' := hout g
    rw [h.assigns.role_of_handler g _ rfl] at hg'
    cases hg'
  | gone => rfl
  | _ => cases hstarted

end

/-- **Underlay events fire exactly once.**  In every state that a channel can be in when no
underlay is offered twice: the collection is what was added less what was removed, in the order
of addition; what a listener was told about an underlay is nothing, that it was added, or that
it was added and then removed; it was told of every accepted underlay, and of the removal once
both goroutines of the underlay are through; and the dial policy, if there is one, is told once
of every removed underlay. -/
theorem underlay_events_once {setup : Setup} {s : State}
    (hs : (channel setup).Reachable ((channel setup).throughout DistinctOffers) s) :
    s.ch.underlays = s.added.filter (fun u => decide (u ∉ s.removed)) ∧ s.added.Nodup ∧
    ∀ u,
      (∀ l ≤ setup.listeners,
        s.seen l u = [] ∨ s.seen l u = [.added] ∨ s.seen l u = [.added, .removed]) ∧
      (s.Accepted setup u → ∀ l ≤ setup.listeners,
        s.seen l u = [.added] ∨ s.seen l u = [.added, .removed]) ∧
      (u ∈ s.ch.multiplexed → (∀ g, (s.routines g).serves u = false) → ∀ l ≤ setup.listeners,
        s.seen l u = [.added, .removed]) ∧
      s.policyCalls u ≤ 1 ∧
      (u ∉ s.removed → s.policyCalls u = 0) ∧
      (u ∈ s.removed → (∀ g, (s.routines g).serves u = false) →
        s.policyCalls u = setup.config.dialPolicy.toNat) := by
  have hlifelong := lifelong hs
  refine ⟨hlifelong.underlays, hlifelong.nodup, fun u => ?_⟩
  obtain ⟨ph, hph⟩ := hlifelong.phase u
  have hseen : ∀ l ≤ setup.listeners, s.seen l u = ph.seen l := hph.seen
  have hcalls : s.policyCalls u = ph.policyCalls setup.config.dialPolicy := hph.policyCalls
  have hstarted : u ∈ s.ch.multiplexed → ph.isStarted = true := fun h =>
    hph.started.symm.trans (decide_eq_true h)
  refine ⟨fun l hl => ?_, fun hacc l hl => ?_, fun hmux hdone l hl => ?_, ?_, fun hu => ?_,
    fun hu hdone => ?_⟩
  · rw [hseen l hl]
    exact ph.seen_cases l
  · rw [hseen l hl]
    exact ph.seen_of_started (hstarted (started_of_accepted hs u hacc)) l
  · rw [hseen l hl, hph.eq_gone (hstarted hmux) hdone]
    rfl
  · rw [hcalls]
    exact ph.policyCalls_le _
  · rw [hcalls]
    have hnot : ph.isRemoved = false := hph.removed.symm.trans (decide_eq_false hu)
    cases ph <;> first | rfl | cases hnot
  · have hremoved : ph.isRemoved = true := hph.removed.symm.trans (decide_eq_true hu)
    have hstart : ph.isStarted = true := by cases ph <;> first | rfl | cases hremoved
    rw [hcalls, hph.eq_gone hstart hdone]
    rfl

/-- A channel that dials, with one more listener and no constraints. -/
def listenedSetup : Setup where
  config :=
    { logicalName := [], senders := true, messageSourceProvider := true, underlay := none
      binder := ⟨[], none⟩, dialPolicy := true, constraints := ∅, minTotalUnderlays := 0 }
  first := ⟨0, [], [], Finmap.singleton groupSecretHeader [7]⟩
  validUnderlayTypes := []
  listeners := 1
  peekHandlers := []
  closeHandlers := []

/-- A second underlay is accepted, and then torn down by both of its goroutines: the one that
finds nothing to remove is through before the other has told anybody. -/
theorem underlay_events_once_both_close :
    let u : Underlay := ⟨1, [], [], Finmap.singleton groupSecretHeader [7]⟩
    ∃ s, (channel listenedSetup).Reachable ((channel listenedSetup).throughout DistinctOffers) s ∧
      s.ch.underlays = [listenedSetup.first] ∧ u ∈ s.removed ∧ s.policyCalls u = 1 ∧
      ∀ l ≤ 1, s.seen l u = [.added] ∨ s.seen l u = [.added, .removed] := by
  intro u
  obtain ⟨s, hs, h⟩ := System.reachable_of_replay (channel listenedSetup)
    ((channel listenedSetup).throughout DistinctOffers)
    [.run 0 .go, .run 0 .go, .run 0 .go, .run 0 .go, .run 0 .go, .run 0 (.start 1 2),
      .run 0 (.spawn 3), .callAccept 4 u, .run 4 .go, .run 4 .go, .run 4 .go, .run 4 .go,
      .run 4 .go, .run 4 .go, .run 4 .go, .run 4 (.start 5 6), .run 4 .go,
      .run 5 .go, .run 5 .go, .run 5 .go, .run 6 .go, .run 6 .go, .run 6 .go, .run 6 .go,
      .run 6 .go, .run 6 .go, .run 6 .go, .run 6 .go, .run 5 .go, .run 5 .go, .run 5 (.spawn 7),
      .run 5 .go, .run 5 .go, .run 5 .go, .run 5 .go, .run 5 .go]
    (fun s => decide ((u, true) ∈ s.results ∧ s.ch.underlays = [listenedSetup.first] ∧
      u ∈ s.removed ∧ s.policyCalls u = 1)) (by decide)
  obtain ⟨hacc, hund, hremoved, hcalls⟩ := of_decide_eq_true h
  exact ⟨s, hs, hund, hremoved, hcalls, ((underlay_events_once hs).2.2 u).2.1 (Or.inl hacc)⟩

end ZitiChannel.Concurrent
