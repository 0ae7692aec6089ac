import ZitiChannel.ConstraintLoop
import ZitiChannel.Fallback

/-!
# Dialing does not overshoot

A pass of `applyConstraints` counts the underlays once and then dials, type by type, where fewer are
there than desired.  The counts grow stale as dials complete and underlays go away.  But only one
goroutine is in a pass at a time, a pass dials at most once for a type, and what it counted for a type
can only have become less when it comes to that type.  So no type gets more underlays than desired,
unless the channel was made with more.

What matters is said with everything else left out: the collection, and who is where in a pass.

## Main definitions

* `DialPart`, `Dialing`, `Dialing.Step` — the collection and who is where in a pass.
* `Dialing.Kept` — the invariant.
* `OwnDials` — the channel gets underlays from its own dials only, and of the type it asked for.

## Main results

* `Dialing.Step.kept` — every step keeps the invariant.
* `channel_dialing` — every step of the channel is one of these steps or none.
* `never_over_dials` — **no type has more underlays than desired, or than the channel was made with.**

The source is `impl.go`.
-/

namespace ZitiChannel.Concurrent

open Transition

/-! ### Counting -/

/-- How many underlays of a type are desired; none, if there is no constraint. -/
def desired (constraints : Constraints) (underlayType : GoString) : Int :=
  (constraints.lookup underlayType).elim 0 (·.desired)

theorem desired_of_mem {constraints : Constraints} {t : GoString} {c : UnderlayConstraint}
    (h : (⟨t, c⟩ : Entry) ∈ constraints.entries) : desired constraints t = c.desired := by
  rw [desired, Finmap.mem_lookup_iff.mpr h]
  rfl

/-- The number of underlays of a type. -/
abbrev countOf (us : List Underlay) (t : GoString) : ℕ := (countsByType us).count t

theorem countOf_erase_le (us : List Underlay) (u : Underlay) (t : GoString) :
    countOf (us.erase u) t ≤ countOf us t := by
  rw [countOf, countOf, count_countsByType, count_countsByType]
  exact List.erase_sublist.countP_le

theorem countOf_append_self (us : List Underlay) (u : Underlay) :
    countOf (us ++ [u]) (getUnderlayType u) = countOf us (getUnderlayType u) + 1 := by
  rw [countOf, countOf, count_countsByType, count_countsByType, List.countP_append]
  simp

theorem countOf_append_of_ne {us : List Underlay} {u : Underlay} {t : GoString}
    (h : getUnderlayType u ≠ t) : countOf (us ++ [u]) t = countOf us t := by
  rw [countOf, countOf, count_countsByType, count_countsByType, List.countP_append]
  simp [h]

/-! ### Passes -/

/-- Where a goroutine is in a pass. -/
inductive DialPart
  | out
  /-- In `NewChannel`, before the first underlay is added. -/
  | new
  /-- With these counts, and these constraints left. -/
  | pass (counts : Tally GoString) (todo : List Entry)
  | dialing (underlayType : GoString) (counts : Tally GoString) (todo : List Entry)
  /-- In `AcceptUnderlay`, with the dialed underlay not yet added. -/
  | adding (u : Underlay) (counts : Tally GoString) (todo : List Entry)

structure Dialing where
  underlays : List Underlay
  parts : ℕ → DialPart

/-- The counts are not below the real numbers, for the constraints that are left. -/
structure Snapshot (constraints : Constraints) (us : List Underlay) (counts : Tally GoString)
    (todo : List Entry) : Prop where
  mem : ∀ e ∈ todo, e ∈ constraints.entries
  once : (todo.map Sigma.fst).Nodup
  le : ∀ e ∈ todo, countOf us e.1 ≤ counts.count e.1

/-- There is room for one more of a type, and the pass does not come to it again. -/
structure Room (constraints : Constraints) (us : List Underlay) (t : GoString)
    (todo : List Entry) : Prop where
  lt : (countOf us t : Int) < desired constraints t
  passed : t ∉ todo.map Sigma.fst

/-- What holds of the collection where a goroutine is in a pass. -/
def DialPart.Fits (constraints : Constraints) (us : List Underlay) : DialPart → Prop
  | .out => True
  | .new => us = []
  | .pass counts todo => Snapshot constraints us counts todo
  | .dialing t counts todo => Snapshot constraints us counts todo ∧ Room constraints us t todo
  | .adding u counts todo =>
      Snapshot constraints us counts todo ∧ Room constraints us (getUnderlayType u) todo

namespace Dialing

def setPart (x : Dialing) (g : ℕ) (p : DialPart) : Dialing :=
  { x with parts := Function.update x.parts g p }

section

variable (constraints : Constraints) (first : Underlay)

/-- The steps.  That nobody else is in a pass is a condition of those that add an underlay. -/
inductive Step (x : Dialing) : Dialing → Prop
  | newAppend (g : ℕ) (hg : x.parts g = .new) (hother : ∀ b, b ≠ g → x.parts b = .out) :
      Step x { x.setPart g .out with underlays := x.underlays ++ [first] }
  | remove (u : Underlay) : Step x { x with underlays := x.underlays.erase u }
  | count (g : ℕ) (entries : List Entry) (h : (entries : Multiset Entry) = constraints.entries) :
      Step x (x.setPart g (.pass (countsByType x.underlays) entries))
  | satisfied (g : ℕ) (counts : Tally GoString) (e : Entry) (todo : List Entry)
      (hg : x.parts g = .pass counts (e :: todo)) : Step x (x.setPart g (.pass counts todo))
  | wanted (g : ℕ) (counts : Tally GoString) (e : Entry) (todo : List Entry)
      (hg : x.parts g = .pass counts (e :: todo)) (h : e.2.desired > counts.count e.1) :
      Step x (x.setPart g (.dialing e.1 counts todo))
  | failed (g : ℕ) (t : GoString) (counts : Tally GoString) (todo : List Entry)
      (hg : x.parts g = .dialing t counts todo) : Step x (x.setPart g (.pass counts todo))
  | dialed (g : ℕ) (u : Underlay) (counts : Tally GoString) (todo : List Entry)
      (hg : x.parts g = .dialing (getUnderlayType u) counts todo) :
      Step x (x.setPart g (.adding u counts todo))
  | refused (g : ℕ) (u : Underlay) (counts : Tally GoString) (todo : List Entry)
      (hg : x.parts g = .adding u counts todo) : Step x (x.setPart g (.pass counts todo))
  | append (g : ℕ) (u : Underlay) (counts : Tally GoString) (todo : List Entry)
      (hg : x.parts g = .adding u counts todo) (hother : ∀ b, b ≠ g → x.parts b = .out) :
      Step x { x.setPart g (.pass counts todo) with underlays := x.underlays ++ [u] }
  | finish (g : ℕ) : Step x (x.setPart g .out)

/-- No type has more underlays than it may, and every pass fits the collection. -/
structure Kept (x : Dialing) : Prop where
  bound : ∀ t, (countOf x.underlays t : Int) ≤ max (desired constraints t) (countOf [first] t)
  fits : ∀ g, (x.parts g).Fits constraints x.underlays

end

end Dialing

section

variable {constraints : Constraints} {us vs : List Underlay} {counts : Tally GoString}
  {todo : List Entry} {first : Underlay}

theorem Snapshot.mono (h : Snapshot constraints us counts todo)
    (hle : ∀ t, countOf vs t ≤ countOf us t) : Snapshot constraints vs counts todo :=
  ⟨h.mem, h.once, fun e he => (hle e.1).trans (h.le e he)⟩

theorem Room.mono {t : GoString} (h : Room constraints us t todo)
    (hle : ∀ t, countOf vs t ≤ countOf us t) : Room constraints vs t todo :=
  ⟨lt_of_le_of_lt (by exact_mod_cast hle t) h.lt, h.passed⟩

/-- What fits a collection fits what is left of it. -/
theorem DialPart.Fits.erase {p : DialPart} (h : p.Fits constraints us) (u : Underlay) :
    p.Fits constraints (us.erase u) := by
  have hle := countOf_erase_le us u
  cases p with
  | out => trivial
  | new =>
    have hempty : us = [] := h
    simp [Fits, hempty]
  | pass => exact Snapshot.mono h hle
  | dialing | adding => exact ⟨h.1.mono hle, h.2.mono hle⟩

theorem Snapshot.tail {e : Entry} (h : Snapshot constraints us counts (e :: todo)) :
    Snapshot constraints us counts todo where
  mem e' he' := h.mem e' (List.mem_cons_of_mem _ he')
  once := (List.nodup_cons.mp h.once).2
  le e' he' := h.le e' (List.mem_cons_of_mem _ he')

/-- Where fewer were counted than desired, there is room. -/
theorem Snapshot.room {e : Entry} (h : Snapshot constraints us counts (e :: todo))
    (hwanted : e.2.desired > counts.count e.1) : Room constraints us e.1 todo where
  lt := by
    have hle := h.le e List.mem_cons_self
    rw [desired_of_mem (h.mem e List.mem_cons_self)]
    omega
  passed := (List.nodup_cons.mp h.once).1

/-- The counts are fresh at the start of a pass. -/
theorem Snapshot.fresh (h : (todo : Multiset Entry) = constraints.entries) :
    Snapshot constraints us (countsByType us) todo where
  mem e he := h ▸ Multiset.mem_coe.mpr he
  once := by
    have hkeys := constraints.nodupKeys
    rw [← h] at hkeys
    exact hkeys
  le _ _ := le_rfl

/-- An underlay of a type that the pass does not come to again leaves its counts right. -/
theorem Snapshot.append {u : Underlay} (h : Snapshot constraints us counts todo)
    (hu : getUnderlayType u ∉ todo.map Sigma.fst) :
    Snapshot constraints (us ++ [u]) counts todo where
  mem := h.mem
  once := h.once
  le e he := by
    rw [countOf_append_of_ne fun hne => hu (hne ▸ List.mem_map_of_mem he)]
    exact h.le e he

namespace Dialing

variable {x y : Dialing} {g : ℕ} {p : DialPart}

theorem Kept.setPart (h : x.Kept constraints first) (hp : p.Fits constraints x.underlays) :
    (x.setPart g p).Kept constraints first where
  bound := h.bound
  fits b := by
    rcases eq_or_ne b g with rfl | hne
    · simpa [Dialing.setPart] using hp
    · simpa [Dialing.setPart, hne] using h.fits b

/-- While nobody else is in a pass, an underlay is added that there is room for. -/
theorem Kept.append {u : Underlay} (h : x.Kept constraints first)
    (hroom : (countOf x.underlays (getUnderlayType u) : Int) <
      max (desired constraints (getUnderlayType u)) (countOf [first] (getUnderlayType u)))
    (hother : ∀ b, b ≠ g → x.parts b = .out) (hp : p.Fits constraints (x.underlays ++ [u])) :
    Kept constraints first { x.setPart g p with underlays := x.underlays ++ [u] } where
  bound t := by
    rcases eq_or_ne (getUnderlayType u) t with rfl | hne
    · dsimp only
      rw [countOf_append_self]
      omega
    · dsimp only
      rw [countOf_append_of_ne hne]
      exact h.bound t
  fits b := by
    rcases eq_or_ne b g with rfl | hne
    · simpa [Dialing.setPart] using hp
    · simp [Dialing.setPart, hne, hother b hne, DialPart.Fits]

/-- **Every step keeps the invariant.** -/
theorem Step.kept (h : x.Kept constraints first) (hstep : x.Step constraints first y) :
    y.Kept constraints first := by
  cases hstep with
  | newAppend g hg hother =>
    have hempty : x.underlays = [] := by
      have hfits := h.fits g
      rwa [hg] at hfits
    refine h.append ?_ hother trivial
    have hone := countOf_append_self [] first
    rw [hempty]
    simp only [List.nil_append] at hone
    rw [hone]
    omega
  | remove u =>
    exact ⟨fun t => le_trans (by exact_mod_cast countOf_erase_le x.underlays u t) (h.bound t),
      fun g => (h.fits g).erase u⟩
  | count g entries hentries => exact h.setPart (Snapshot.fresh hentries)
  | satisfied g counts e todo hg =>
    have hfits := h.fits g
    rw [hg] at hfits
    exact h.setPart (Snapshot.tail hfits)
  | wanted g counts e todo hg hwanted =>
    have hfits := h.fits g
    rw [hg] at hfits
    exact h.setPart ⟨Snapshot.tail hfits, Snapshot.room hfits hwanted⟩
  | failed g t counts todo hg | refused g t counts todo hg =>
    have hfits := h.fits g
    rw [hg] at hfits
    exact h.setPart hfits.1
  | dialed g u counts todo hg =>
    have hfits := h.fits g
    rw [hg] at hfits
    exact h.setPart hfits
  | append g u counts todo hg hother =>
    have hfits := h.fits g
    rw [hg] at hfits
    exact h.append (lt_max_of_lt_left hfits.2.lt) hother (hfits.1.append hfits.2.passed)
  | finish g => exact h.setPart trivial

end Dialing

end

/-! ### The channel does these steps -/

def AcceptPc.dialPart (u : Underlay) (counts : Tally GoString) (todo : List Entry) :
    AcceptPc → DialPart
  | .lock | .check | .store | .add .append => .adding u counts todo
  | _ => .pass counts todo

def Routine.dialPart : Routine → DialPart
  | .newChannel .bind | .newChannel (.add .append) => .new
  | .applyConstraints (.range counts todo _) => .pass counts todo
  | .applyConstraints (.isFirst t counts todo) | .applyConstraints (.dial t _ counts todo) =>
      .dialing t counts todo
  | .applyConstraints (.accept u pc counts todo) => pc.dialPart u counts todo
  | _ => .out

def State.dialing (s : State) : Dialing := ⟨s.ch.underlays, fun g => (s.routines g).dialPart⟩

/-- The type for which a goroutine is in the dial policy. -/
def Routine.dialType : Routine → Option GoString
  | .applyConstraints (.dial t _ _ _) => some t
  | _ => none

/-- Further underlays come from the channel's own dials only, and a dial for a type returns
underlays of that type. -/
def OwnDials (s : State) : Event → Prop
  | .callAccept _ _ => False
  | .run g (.dialed (some u)) => ∀ t ∈ (s.routines g).dialType, getUnderlayType u = t
  | _ => True

instance (s : State) : DecidablePred (OwnDials s) := fun e =>
  match e with
  | .callAccept _ _ => inferInstanceAs (Decidable False)
  | .run g (.dialed (some u)) =>
      inferInstanceAs (Decidable (∀ t ∈ (s.routines g).dialType, getUnderlayType u = t))
  | .run _ (.dialed none) | .run _ .go | .run _ (.start _ _) | .run _ (.spawn _)
  | .run _ (.order _) | .run _ (.answer _) | .close _ _ | .callClose _ =>
      inferInstanceAs (Decidable True)

section

variable {setup : Setup} {s s' : State} {g b : ℕ} {eff : Effect} {r r' : Routine}

theorem afterNew_of_ownDials (hs : (channel setup).Reachable OwnDials s) :
    (channel setup).Reachable AfterNew s := by
  refine System.Steps.mono (fun s e h => ?_) hs
  cases e with
  | callAccept => exact absurd h id
  | _ => trivial

/-- Nobody but the channel calls `AcceptUnderlay`. -/
theorem not_acceptUnderlay (hs : (channel setup).Reachable OwnDials s) :
    ∀ g u pc, s.routines g ≠ .acceptUnderlay u pc := by
  refine hs.invariant (P := fun s => ∀ g u pc, s.routines g ≠ .acceptUnderlay u pc) ?_ ?_
  · intro g u pc
    rcases eq_or_ne g 0 with rfl | hne
    · simp [channel]
    · simp [channel, hne]
  · intro s e s' h hok hstep
    refine step_cases (P := fun s' => ∀ g u pc, s'.routines g ≠ .acceptUnderlay u pc) hstep
      ?_ ?_ ?_ ?_
    · intro g a r eff _ _ hmoves hen
      refine forall_routines (P := fun _ r' => ∀ u pc, r' ≠ .acceptUnderlay u pc) hen ?_ ?_
        fun b _ => h b
      · rintro u pc rfl
        generalize hr : s.routines g = r₀ at hmoves
        cases hmoves with
        | accept _ pc₀ => exact h g u pc₀ hr
      · intro b r' hb
        rcases Effect.spawned_cases hb with rfl | ⟨v, rx, tx, -, rfl | rfl⟩ <;> simp
    · intro g a pc rest pcs eff _ _ hmoves _
      rw [hmoves.frame.routines]
      exact h
    · rintro g u rfl _
      exact absurd hok id
    · intro g _ _
      exact h

/-- The underlay that is offered is the one that was dialed. -/
theorem dialed_of_step {a : Action} {t : GoString} {isFirst : Bool} {u : Underlay}
    {counts : Tally GoString} {todo : List Entry}
    (hstep : (channel setup).step s (.run g a) = some s')
    (hr : s.routines g = .applyConstraints (.dial t isFirst counts todo))
    (hr' : s'.routines g = .applyConstraints (.accept u .lock counts todo)) :
    a = .dialed (some u) := by
  simp only [channel, step, hr, Routine.next] at hstep
  split at hstep
  · cases hstep
  · cases a with
    | dialed result =>
      cases result with
      | none =>
        cases hstep
        simp [State.setRoutine, State.apply] at hr'
      | some v =>
        cases hstep
        simp only [State.setRoutine, State.apply, Function.update_self, Routine.applyConstraints.injEq,
          ApplyPc.accept.injEq] at hr'
        rw [hr'.1]
    | _ => cases hstep

/-- Who is in a pass has set the flag. -/
theorem Routine.dialPart_cases (r : Routine) :
    r.dialPart = .out ∨ r.part = .new ∨ r.flagged = true := by
  unfold dialPart
  split
  · exact Or.inr (Or.inl rfl)
  · exact Or.inr (Or.inl rfl)
  · exact Or.inr (Or.inr rfl)
  · exact Or.inr (Or.inr rfl)
  · exact Or.inr (Or.inr rfl)
  · exact Or.inr (Or.inr rfl)
  · exact Or.inl rfl

/-- While one goroutine has set the flag, nobody else is in a pass. -/
theorem dialPart_of_ne (hs : (channel setup).Reachable OwnDials s)
    (hg : (s.routines g).flagged = true) (hne : b ≠ g) : (s.routines b).dialPart = .out := by
  rcases (s.routines b).dialPart_cases with hout | hnew | hb
  · exact hout
  · have hidle := (new_alone (afterNew_of_ownDials hs) b hnew).2.2 g hne.symm
    rw [hidle] at hg
    cases hg
  · exact absurd ((flagged_unique hs g hg).2 b hb) hne

theorem dialing_run (hen : eff.enabled s g = true) :
    ((s.setRoutine g r).apply g eff).dialing =
      { s.dialing.setPart g r.dialPart with underlays := (s.apply g eff).ch.underlays } := by
  have hch : ((s.setRoutine g r).apply g eff).ch = (s.apply g eff).ch := by cases eff <;> rfl
  have hparts : (fun b => (((s.setRoutine g r).apply g eff).routines b).dialPart) =
      Function.update (fun b => (s.routines b).dialPart) g r.dialPart :=
    map_routines hen rfl (fun _ => rfl) fun _ => rfl
  simp only [State.dialing, Dialing.setPart, hch, hparts]

/-- A step that changes neither where the goroutine is in a pass nor the collection. -/
theorem dialing_same (hen : eff.enabled s g = true) (hpart : r.dialPart = (s.routines g).dialPart)
    (hund : (s.apply g eff).ch.underlays = s.ch.underlays) :
    ((s.setRoutine g r).apply g eff).dialing = s.dialing := by
  rw [dialing_run hen, hund, hpart]
  simp [Dialing.setPart, State.dialing]

/-- **Every step of the channel is a step of the protocol, or none.** -/
theorem channel_dialing {e : Event} (hs : (channel setup).Reachable OwnDials s)
    (hok : OwnDials s e) (hstep : (channel setup).step s e = some s') :
    s'.dialing = s.dialing ∨ s.dialing.Step setup.config.constraints setup.first s'.dialing := by
  have hstep' := hstep
  revert hstep'
  refine step_cases (P := fun s' => (channel setup).step s e = some s' → s'.dialing = s.dialing ∨
    s.dialing.Step setup.config.constraints setup.first s'.dialing) hstep ?_ ?_ ?_ ?_
  · rintro g a r eff rfl _ hmoves hen hstep
    have hmoved : ((s.setRoutine g r).apply g eff).routines g = r := by
      rw [State.apply_routines, Effect.spawned_self hen]
      simp [State.setRoutine]
    generalize hr : s.routines g = r₀ at hmoves
    have hpart : s.dialing.parts g = r₀.dialPart := congrArg Routine.dialPart hr
    cases hmoves with
    | newAppend =>
      have hidle := (new_alone (afterNew_of_ownDials hs) g (by rw [hr]; rfl)).2.2
      rw [dialing_run hen]
      exact Or.inr (.newAppend g hpart fun b hne => congrArg Routine.dialPart (hidle b hne))
    | accept u pc => exact absurd hr (not_acceptUnderlay hs g u pc)
    | remove u h =>
      have hsame : s.dialing.setPart g (Routine.closeUnderlay u (.notify 0)).dialPart = s.dialing := by
        have hout : (Routine.closeUnderlay u (.notify 0)).dialPart = s.dialing.parts g := hpart.symm
        rw [hout]
        simp [Dialing.setPart]
      rw [dialing_run hen, hsame]
      exact Or.inr (.remove u)
    | loopValid entries _ hentries =>
      rw [dialing_run hen]
      exact Or.inr (.count g entries (hentries.trans
        (congrArg Finmap.entries (sameSetup hs).2.2.1)))
    | desired counts entry todo _ h =>
      rw [dialing_run hen]
      exact Or.inr (.wanted g counts entry todo hpart h)
    | satisfied counts entry todo =>
      rw [dialing_run hen]
      exact Or.inr (.satisfied g counts entry todo hpart)
    | allSatisfied counts =>
      rw [dialing_run hen]
      exact Or.inr (.finish g)
    | again counts =>
      rw [dialing_run hen]
      exact Or.inr (.finish g)
    | dialFailed t isFirst counts todo =>
      rw [dialing_run hen]
      exact Or.inr (.failed g t counts todo hpart)
    | dialed t isFirst u counts todo =>
      obtain rfl := dialed_of_step hstep hr hmoved
      have htype : getUnderlayType u = t := hok t (by rw [hr]; rfl)
      rw [dialing_run hen]
      exact Or.inr (.dialed g u counts todo (htype ▸ hpart))
    | dialAccept u pc pc' counts todo _ h =>
      cases h with
      | reject =>
        rw [dialing_run hen]
        exact Or.inr (.refused g u counts todo hpart)
      | append =>
        rw [dialing_run hen]
        exact Or.inr (.append g u counts todo hpart fun b hne =>
          dialPart_of_ne hs (by rw [hr]; rfl) hne)
      | _ => exact Or.inl (dialing_same hen (by rw [hr]; rfl) rfl)
    | _ => exact Or.inl (dialing_same hen (by rw [hr]; rfl) rfl)
  · rintro g a pc rest pcs eff rfl _ hmoves _ _
    have hframe : CloseFrame s ((s.setCloses g (pcs ++ rest)).apply g eff) := hmoves.frame
    left
    simp only [State.dialing, hframe.routines, hframe.underlays]
  · rintro g u rfl _ _
    exact absurd hok id
  · rintro g rfl _ _
    exact Or.inl rfl

/-- The invariant holds in every state of the channel. -/
theorem dialing_kept (hs : (channel setup).Reachable OwnDials s) :
    s.dialing.Kept setup.config.constraints setup.first := by
  refine hs.invariant_of_reachable
    (P := fun s => s.dialing.Kept setup.config.constraints setup.first) ?_ ?_
  · refine ⟨fun t => le_max_of_le_right ?_, fun g => ?_⟩
    · -- no underlay is there
      have hzero : countOf [] t = 0 := by rw [countOf, count_countsByType]; rfl
      have hempty : (channel setup).init.dialing.underlays = [] := rfl
      rw [hempty, hzero]
      exact_mod_cast Nat.zero_le _
    · rcases eq_or_ne g 0 with rfl | hne
      · rfl
      · simp [State.dialing, channel, hne, Routine.dialPart, DialPart.Fits]
  · intro s e s' hr hkept hok hstep
    rcases channel_dialing hr hok hstep with hsame | hmove
    · rw [hsame]
      exact hkept
    · exact hmove.kept hkept

/-- **Constraint filling never over-dials.**  For any interleaving of removals, dial outcomes and
goroutines that enforce constraints, every type has at most as many underlays as are desired, or as
many as the channel was made with if that is more. -/
theorem never_over_dials (hs : (channel setup).Reachable OwnDials s) (t : GoString) :
    ((countsByType s.ch.underlays).count t : Int) ≤
      max (desired setup.config.constraints t) ((countsByType [setup.first]).count t) :=
  (dialing_kept hs).bound t

/-- The channel that wants two underlays has two, after one of them was lost while the flag was set
and another was dialed for it. -/
theorem never_over_dials_in_progress :
    ∃ s, (channel pairSetup).Reachable OwnDials s ∧ s.added.length = 3 ∧ s.removed.length = 1 ∧
      (countsByType s.ch.underlays).count defaultUnderlayType = 2 ∧
      ((countsByType s.ch.underlays).count defaultUnderlayType : Int) ≤
        max (desired pairSetup.config.constraints defaultUnderlayType)
          ((countsByType [pairSetup.first]).count defaultUnderlayType) := by
  obtain ⟨s, hs, h⟩ := System.reachable_of_replay (channel pairSetup) OwnDials pairRun
    (fun s => decide (s.added.length = 3 ∧ s.removed.length = 1 ∧
      (countsByType s.ch.underlays).count defaultUnderlayType = 2)) (by decide +kernel)
  obtain ⟨hadded, hremoved, hcount⟩ := of_decide_eq_true h
  exact ⟨s, hs, hadded, hremoved, hcount, never_over_dials hs defaultUnderlayType⟩

end

end ZitiChannel.Concurrent
