import ZitiChannel.Closing

/-!
# Constraint enforcement loses no wake-up

A goroutine that removes an underlay starts `applyConstraints`, and that gives up when another
one is in progress.  What was removed behind the back of the one in progress is seen by its
loop, or by the look it takes after it has given up the flag.  So whenever something is wrong
with the counts there is a goroutine that will still look: it is on its way from the removal to the
check, or it has the flag.

Four invariants have this form, that something is in order or some goroutine will see to it; they
are proved by one rule.

## Main definitions

* `Routine.checks`, `Routine.wakes`, `Routine.flagged`, `Routine.responds` — the goroutines that will
  see to it.
* `State.Quiet` — no goroutine enforces constraints or closes an underlay.

## Main results

* `pending_rule` — something is in order, or pending.
* `constraints_enforced` — **in a quiet state the channel is closed, or its constraints are met.**
-/

namespace ZitiChannel.Concurrent

open Transition

section

variable {setup : Setup} {s s' t : State} {g b : ℕ} {eff : Effect} {u : Underlay} {r r' : Routine}
  {ok : State → Event → Prop}

/-! ### What is pending -/

/-- Some goroutine is where `w` says. -/
def State.Pending (s : State) (w : Routine → Bool) : Prop := ∃ g, w (s.routines g) = true

/-- What steps other than those of routines leave as it is. -/
structure Calm (s s' : State) : Prop where
  underlays : s'.ch.underlays = s.ch.underlays
  applyInProgress : s'.applyInProgress = s.applyInProgress
  returned : s'.returned = s.returned
  added : s'.added = s.added
  closed : s.ch.closed = true → s'.ch.closed = true

variable {w : Routine → Bool}

theorem State.Pending.of_self (hen : eff.enabled s g = true) (hr : w r = true) :
    ((s.setRoutine g r).apply g eff).Pending w := by
  refine ⟨g, ?_⟩
  rw [apply_routines, Effect.spawned_self hen]
  simpa [setRoutine] using hr

theorem State.Pending.of_spawned (hspawned : eff.spawned b = some r') (hr : w r' = true) :
    (t.apply g eff).Pending w := by
  refine ⟨b, ?_⟩
  rw [apply_routines, hspawned]
  exact hr

/-- A goroutine that is not the one that moves stays where it is. -/
theorem State.Pending.of_other (hidle : w .idle = false) (hen : eff.enabled s g = true) (hne : b ≠ g)
    (hb : w (s.routines b) = true) : ((s.setRoutine g r).apply g eff).Pending w := by
  refine ⟨b, ?_⟩
  rw [apply_routines]
  cases hspawned : eff.spawned b with
  | some r' =>
    rw [(idle_iff.mp (Effect.idle_of_spawned hen hspawned).2).1, hidle] at hb
    cases hb
  | none => simpa [setRoutine, hne] using hb

/-- **Something is in order, or pending.**  Once `A` holds, `G` holds or a goroutine is where `w`
says, if the move that makes `A` true, a move that makes `G` false and a move that leads away from
`w` each provide for it. -/
theorem pending_rule {A G : State → Prop} (hidle : w .idle = false)
    (init : ¬ A (channel setup).init)
    (begins : ∀ s g r eff, (channel setup).Reachable ok s → (s.routines g).Moves setup s r eff →
      eff.enabled s g = true → A ((s.setRoutine g r).apply g eff) →
      A s ∨ G ((s.setRoutine g r).apply g eff) ∨ ((s.setRoutine g r).apply g eff).Pending w)
    (lost : ∀ s g r eff, (channel setup).Reachable ok s → (s.routines g).Moves setup s r eff →
      eff.enabled s g = true → G s →
      G ((s.setRoutine g r).apply g eff) ∨ ((s.setRoutine g r).apply g eff).Pending w)
    (moved : ∀ s g r eff, (channel setup).Reachable ok s → s.closes g = [] →
      (s.routines g).Moves setup s r eff → eff.enabled s g = true → w (s.routines g) = true →
      A ((s.setRoutine g r).apply g eff) →
      G ((s.setRoutine g r).apply g eff) ∨ ((s.setRoutine g r).apply g eff).Pending w)
    (calm : ∀ s s', Calm s s' → (A s' → A s) ∧ (G s → G s'))
    (hs : (channel setup).Reachable ok s) : A s → G s ∨ s.Pending w := by
  refine hs.invariant_of_reachable (P := fun s => A s → G s ∨ s.Pending w)
    (fun h => absurd h init) fun s e s' hreach h _ hstep => ?_
  have hcalm : ∀ {s'}, Calm s s' → (∀ b, w (s.routines b) = true → w (s'.routines b) = true) →
      A s' → G s' ∨ s'.Pending w := by
    intro s' hc hroutines hA
    rcases h ((calm s s' hc).1 hA) with hG | ⟨b, hb⟩
    · exact Or.inl ((calm s s' hc).2 hG)
    · exact Or.inr ⟨b, hroutines b hb⟩
  refine step_cases (P := fun s' => A s' → G s' ∨ s'.Pending w) hstep ?_ ?_ ?_ ?_
  · intro g a r eff _ hcloses hmoves hen hA
    rcases begins s g r eff hreach hmoves hen hA with hbefore | hdone
    · rcases h hbefore with hG | ⟨b, hb⟩
      · exact lost s g r eff hreach hmoves hen hG
      · rcases eq_or_ne b g with rfl | hne
        · exact moved s b r eff hreach hcloses hmoves hen hb hA
        · exact Or.inr (State.Pending.of_other hidle hen hne hb)
    · exact hdone
  · intro g a pc rest pcs eff _ _ hmoves _
    have hframe : CloseFrame s ((s.setCloses g (pcs ++ rest)).apply g eff) := hmoves.frame
    refine hcalm ⟨hframe.underlays, hframe.applyInProgress, hframe.returned, hframe.added,
      fun hclosed => State.closed_apply hclosed⟩ fun b hb => ?_
    rwa [hframe.routines]
  · intro g u _ hg
    refine hcalm ⟨rfl, rfl, rfl, rfl, id⟩ fun b hb => ?_
    have hne : b ≠ g := by
      rintro rfl
      rw [(State.idle_iff.mp hg).1, hidle] at hb
      cases hb
    simpa [State.setRoutine, hne] using hb
  · intro g _ _
    exact hcalm ⟨rfl, rfl, rfl, rfl, id⟩ fun b hb => hb

/-! ### The flag -/

/-- Whether a goroutine has set `applyInProgress` and not reset it. -/
def Routine.flagged : Routine → Bool
  | .applyConstraints .dialPolicy | .applyConstraints .loop | .applyConstraints .getCounts
  | .applyConstraints (.range _ _ _) | .applyConstraints (.isFirst _ _ _)
  | .applyConstraints (.dial _ _ _ _) | .applyConstraints (.accept _ _ _ _)
  | .applyConstraints .release => true
  | _ => false

/-- The flag is reset by a goroutine that has set it, or set when it was not, or left alone. -/
theorem Routine.Moves.flag_cases (h : r.Moves setup s r' eff) :
    (eff = .setApplyInProgress false ∧ r.flagged = true ∧ r'.flagged = false) ∨
    (eff = .setApplyInProgress true ∧ s.applyInProgress = false ∧ r'.flagged = true) ∨
    ((∀ b, eff ≠ .setApplyInProgress b) ∧ r'.flagged = r.flagged) := by
  cases h with
  | release => exact Or.inl ⟨rfl, rfl, rfl⟩
  | swap h => exact Or.inr (Or.inl ⟨rfl, h, rfl⟩)
  | accept _ _ _ _ h | dialAccept _ _ _ _ _ _ h =>
    cases h <;> exact Or.inr (Or.inr ⟨by rintro b ⟨⟩, rfl⟩)
  | _ => exact Or.inr (Or.inr ⟨by rintro b ⟨⟩, rfl⟩)

/-- The flag is reset, or set by a goroutine that will reset it, or left to the one that will. -/
theorem Routine.Moves.flag (h : r.Moves setup s r' eff) :
    eff = .setApplyInProgress false ∨ r'.flagged = true ∨
      ((∀ b, eff ≠ .setApplyInProgress b) ∧ r.flagged = false) := by
  rcases h.flag_cases with ⟨heff, -, -⟩ | ⟨-, -, hr'⟩ | ⟨heff, hsame⟩
  · exact Or.inl heff
  · exact Or.inr (Or.inl hr')
  · cases hr : r.flagged with
    | true => exact Or.inr (Or.inl (hsame.trans hr))
    | false => exact Or.inr (Or.inr ⟨heff, rfl⟩)

/-- When the flag is set, some goroutine has yet to reset it. -/
theorem flag_pending (hs : (channel setup).Reachable ok s) (hflag : s.applyInProgress = true) :
    s.Pending Routine.flagged := by
  refine (pending_rule (A := fun s => s.applyInProgress = true) (G := fun _ => False)
    (w := Routine.flagged) rfl (by simp [channel]) ?_ ?_ ?_ ?_ hs hflag).resolve_left id
  · intro s g r eff _ hmoves hen hA
    rcases hmoves.flag with rfl | hr | ⟨heff, -⟩
    · cases hA
    · exact Or.inr (Or.inr (State.Pending.of_self hen hr))
    · rw [State.applyInProgress_apply heff] at hA
      exact Or.inl hA
  · intro s g r eff _ _ _ hG
    exact hG.elim
  · intro s g r eff _ _ hmoves hen hw hA
    rcases hmoves.flag with rfl | hr | ⟨-, hnot⟩
    · cases hA
    · exact Or.inr (State.Pending.of_self hen hr)
    · rw [hnot] at hw
      cases hw
  · intro s s' hc
    exact ⟨fun hA => hc.applyInProgress ▸ hA, id⟩

/-- A goroutine that has set the flag finds it set, and is the only one. -/
theorem flagged_unique (hs : (channel setup).Reachable ok s) :
    ∀ g, (s.routines g).flagged = true →
      s.applyInProgress = true ∧ ∀ b, (s.routines b).flagged = true → b = g := by
  refine hs.invariant (P := fun s => ∀ g, (s.routines g).flagged = true →
    s.applyInProgress = true ∧ ∀ b, (s.routines b).flagged = true → b = g) ?_ ?_
  · intro g hg
    rcases eq_or_ne g 0 with rfl | hne
    · cases hg
    · simp [channel, hne, Routine.flagged] at hg
  · intro s e s' h _ hstep
    refine step_cases (P := fun s' => ∀ g, (s'.routines g).flagged = true →
      s'.applyInProgress = true ∧ ∀ b, (s'.routines b).flagged = true → b = g) hstep ?_ ?_ ?_ ?_
    · intro g a r eff _ _ hmoves hen
      have hflags : (fun b => (((s.setRoutine g r).apply g eff).routines b).flagged) =
          Function.update (fun b => (s.routines b).flagged) g r.flagged :=
        map_routines hen rfl (fun _ => rfl) fun _ => rfl
      have hflag : ∀ b, (((s.setRoutine g r).apply g eff).routines b).flagged =
          if b = g then r.flagged else (s.routines b).flagged := fun b => by
        rw [← Function.update_apply (fun b => (s.routines b).flagged)]
        exact congrFun hflags b
      simp only [hflag]
      rcases hmoves.flag_cases with ⟨rfl, hg, hr⟩ | ⟨rfl, hfree, hr⟩ | ⟨heff, hr⟩
      · -- it was the only one
        intro b hb
        split at hb
        · rw [hr] at hb
          cases hb
        · next hne => exact absurd ((h g hg).2 b hb) hne
      · -- there was none
        have hnone : ∀ b, (s.routines b).flagged = false := fun b => by
          rw [← Bool.not_eq_true]
          intro hb
          rw [(h b hb).1] at hfree
          cases hfree
        simp only [hnone]
        intro b hb
        refine ⟨rfl, fun c hc => ?_⟩
        split at hb
        · next hbg =>
          split at hc
          · next hcg => exact hcg.trans hbg.symm
          · cases hc
        · cases hb
      · rw [State.applyInProgress_apply heff]
        have hsame : ∀ b, (if b = g then r.flagged else (s.routines b).flagged) =
            (s.routines b).flagged := fun b => by
          split
          · next hbg => rw [hr, hbg]
          · rfl
        simp only [hsame]
        exact h
    · intro g a pc rest pcs eff _ _ hmoves _
      have hframe : CloseFrame s ((s.setCloses g (pcs ++ rest)).apply g eff) := hmoves.frame
      rw [hframe.routines, hframe.applyInProgress]
      exact h
    · intro g u _ hidle
      have hsame : ∀ b, ((s.setRoutine g (.acceptUnderlay u .lock)).routines b).flagged =
          (s.routines b).flagged := congrFun (map_routines_callAccept hidle rfl)
      simp only [hsame]
      exact h
    · intro g _ _
      exact h

/-! ### `Close` has closed the channel -/

/-- Whether a routine waits for a `Close` that it has called. -/
def Routine.awaits : Routine → Bool
  | .closeUnderlay _ .closing | .applyConstraints .closing => true
  | _ => false

theorem Routine.Moves.pushed_of_awaits (h : r.Moves setup s r' eff) (hr : r'.awaits = true) :
    eff.pushed ≠ [] := by
  cases h with
  | lastRemoved | invalid => simp [Effect.pushed]
  | _ => cases hr

/-- A goroutine that has come back from `Close` has found the channel closed, or closed it. -/
theorem closed_of_popped {e : Event} (hs : (channel setup).Reachable ok s)
    (hstep : (channel setup).step s e = some s') (hbefore : s.closes b ≠ [])
    (hafter : s'.closes b = []) : s.ch.closed = true := by
  revert hafter
  refine step_cases (P := fun s' => s'.closes b = [] → s.ch.closed = true) hstep ?_ ?_ ?_ ?_
  · intro g a r eff _ hcloses _ _ hafter
    rw [State.apply_closes] at hafter
    split at hafter
    · next hb => rw [hb] at hbefore; exact absurd hcloses hbefore
    · exact absurd hafter hbefore
  · intro g a pc rest pcs eff _ hcloses hmoves _ hafter
    rw [State.closes_setCloses_apply hmoves.pushed] at hafter
    split at hafter
    · have hnil : pcs = [] := (List.append_eq_nil_iff.mp hafter).1
      subst hnil
      cases hmoves
      exact (close_stacks hs).closed_head hcloses rfl
    · exact absurd hafter hbefore
  · intro g u _ _ hafter
    exact absurd hafter hbefore
  · intro g _ hidle hafter
    rcases eq_or_ne b g with rfl | hne
    · exact absurd (State.idle_iff.mp hidle).2 hbefore
    · exact absurd (by simpa [State.setCloses, hne] using hafter) hbefore

theorem closed_step {e : Event} (hstep : (channel setup).step s e = some s')
    (h : s.ch.closed = true) : s'.ch.closed = true :=
  step_keeps (P := fun s => s.ch.closed = true) (fun _ _ _ h => State.closed_apply h)
    (fun _ _ hch _ h => hch ▸ h) hstep h

theorem closed_of_awaits (hs : (channel setup).Reachable ok s) (g : ℕ)
    (hg : (s.routines g).awaits = true) : s.closes g = [] → s.ch.closed = true := by
  refine past_rule (W := fun r => r.awaits = true)
    (P := fun s g => s.closes g = [] → s.ch.closed = true) ?_ ?_ ?_ hs g hg
  · intro r hr
    unfold Routine.awaits at hr
    split at hr <;> first | rfl | cases hr
  · intro s g r eff _ _ hmoves hr _ hcloses
    rw [State.apply_closes, if_pos rfl] at hcloses
    exact absurd (List.append_eq_nil_iff.mp hcloses).1 (hmoves.pushed_of_awaits hr)
  · intro s e s' b hreach hstep _ h hcloses
    by_cases hbefore : s.closes b = []
    · exact closed_step hstep (h hbefore)
    · exact closed_step hstep (closed_of_popped hreach hstep hbefore hcloses)

/-! ### Removals -/

/-- Whether a goroutine has removed an underlay, and has yet to respond to that. -/
def Routine.responds : Routine → Bool
  | .closeUnderlay _ (.notify 0) | .closeUnderlay _ .dialPolicy | .closeUnderlay _ .respond => true
  | _ => false

theorem Routine.Moves.eq_of_remove (h : r.Moves setup s r' (.remove u)) :
    r' = .closeUnderlay u (.notify 0) := by
  cases h with
  | remove => rfl
  | accept _ _ _ _ h | dialAccept _ _ _ _ _ _ h => cases h

/-- What more underlays cannot break is broken by removals only. -/
theorem Routine.Moves.kept {M : List Underlay → Prop} (mono : ∀ us vs, M us → M (us ++ vs))
    (hremoved : ∀ u, w (.closeUnderlay u (.notify 0)) = true)
    (hmoves : (s.routines g).Moves setup s r eff) (hen : eff.enabled s g = true)
    (h : s.ch.closed = true ∨ M s.ch.underlays) :
    (((s.setRoutine g r).apply g eff).ch.closed = true ∨
      M ((s.setRoutine g r).apply g eff).ch.underlays) ∨
      ((s.setRoutine g r).apply g eff).Pending w := by
  rcases h with hclosed | hM
  · exact Or.inl (Or.inl (hmoves.frame.closed.trans hclosed))
  · by_cases hremove : ∃ u, eff = .remove u
    · obtain ⟨u, rfl⟩ := hremove
      exact Or.inr (State.Pending.of_self hen (hmoves.eq_of_remove ▸ hremoved u))
    · obtain ⟨us, hus⟩ := (s.setRoutine g r).underlays_apply (g := g) fun u hu => hremove ⟨u, hu⟩
      rw [hus]
      exact Or.inl (Or.inr (mono _ us hM))

/-! ### Minimum and desired numbers -/

/-- No type, and not the total, is below its minimum. -/
def MinMet (config : Config) (us : List Underlay) : Prop :=
  (∀ e ∈ config.constraints.entries, e.2.min ≤ (countsByType us).count e.1) ∧
    config.minTotalUnderlays ≤ (countsByType us).total

/-- Every type has the number of underlays that is desired. -/
def DesiredMet (config : Config) (us : List Underlay) : Prop :=
  ∀ e ∈ config.constraints.entries, e.2.desired ≤ (countsByType us).count e.1

theorem count_append_le (us vs : List Underlay) (type : GoString) :
    (countsByType us).count type ≤ (countsByType (us ++ vs)).count type := by
  rw [count_countsByType, count_countsByType, List.countP_append]
  exact Nat.le_add_right _ _

theorem MinMet.append {config : Config} (us vs : List Underlay) (h : MinMet config us) :
    MinMet config (us ++ vs) := by
  refine ⟨fun e he => (h.1 e he).trans (by exact_mod_cast count_append_le us vs e.1), h.2.trans ?_⟩
  rw [total_countsByType, total_countsByType, List.length_append]
  exact_mod_cast Nat.le_add_right _ _

theorem DesiredMet.append {config : Config} (us vs : List Underlay) (h : DesiredMet config us) :
    DesiredMet config (us ++ vs) := fun e he =>
  (h e he).trans (by exact_mod_cast count_append_le us vs e.1)

/-- The rule for what a goroutine looks at that was started when `NewChannel` returned, or is
started when an underlay is removed. -/
theorem watched_rule {M : List Underlay → Prop} (mono : ∀ us vs, M us → M (us ++ vs))
    (hidle : w .idle = false) (hguard : w (.applyConstraints .guard) = true)
    (hremoved : ∀ u, w (.closeUnderlay u (.notify 0)) = true)
    (moved : ∀ s g r eff, (channel setup).Reachable ok s → s.closes g = [] →
      (s.routines g).Moves setup s r eff → eff.enabled s g = true → w (s.routines g) = true →
      (s.ch.closed = true ∨ M s.ch.underlays) ∨ w r = true ∨
        (∃ b, eff.spawned b = some (.applyConstraints .guard)) ∨ ∃ b, b ≠ g ∧ w (s.routines b) = true)
    (hs : (channel setup).Reachable ok s) (hret : s.returned = true) :
    (s.ch.closed = true ∨ M s.ch.underlays) ∨ s.Pending w := by
  refine pending_rule (A := fun s => s.returned = true)
    (G := fun s => s.ch.closed = true ∨ M s.ch.underlays) hidle (by simp [channel])
    ?_ ?_ ?_ ?_ hs hret
  · intro s g r eff _ _ _ hA
    by_cases hnew : ∃ b, eff = .newReturned b
    · obtain ⟨b, rfl⟩ := hnew
      exact Or.inr (Or.inr (State.Pending.of_spawned (if_pos rfl) hguard))
    · rw [State.returned_apply fun b hb => hnew ⟨b, hb⟩] at hA
      exact Or.inl hA
  · intro s g r eff _ hmoves hen hG
    exact hmoves.kept mono hremoved hen hG
  · intro s g r eff hreach hcloses hmoves hen hw _
    rcases moved s g r eff hreach hcloses hmoves hen hw with hG | hr | ⟨b, hb⟩ | ⟨b, hne, hb⟩
    · exact hmoves.kept mono hremoved hen hG
    · exact Or.inr (State.Pending.of_self hen hr)
    · exact Or.inr (State.Pending.of_spawned hb hguard)
    · exact Or.inr (State.Pending.of_other hidle hen hne hb)
  · intro s s' hc
    refine ⟨fun hA => hc.returned ▸ hA, fun hG => ?_⟩
    rw [hc.underlays]
    exact hG.imp hc.closed id

/-- Whether a goroutine will look at the minimum numbers. -/
def Routine.checks : Routine → Bool
  | .applyConstraints .guard | .applyConstraints .isClosed | .applyConstraints .checkValid
  | .applyConstraints .closing => true
  | r => r.responds

/-- Whether a goroutine will look at the desired numbers. -/
def Routine.wakes : Routine → Bool
  | .applyConstraints _ => true
  | r => r.responds

theorem Routine.wakes_of_flagged {r : Routine} (h : r.flagged = true) : r.wakes = true := by
  unfold flagged at h
  split at h <;> first | rfl | cases h

/-- The channel has something to enforce. -/
def Setup.Enforces (setup : Setup) : Prop :=
  0 < setup.config.constraints.entries.card ∨ 0 < setup.config.minTotalUnderlays

theorem Setup.Enforces.capable (h : setup.Enforces) (hs : (channel setup).Reachable ok s) :
    s.ch.isMultiUnderlayCapable = true := by
  rw [(sameSetup hs).capable]
  rcases h with h | h
  · simp [ChannelImpl.isMultiUnderlayCapable, Config.impl, h]
  · simp [ChannelImpl.isMultiUnderlayCapable, Config.impl, h]

theorem Setup.Enforces.not_nothing (h : setup.Enforces) (hs : (channel setup).Reachable ok s)
    (hc : s.ch.constraints.entries.card = 0) : s.ch.minTotalUnderlays ≠ 0 := by
  intro hm
  obtain ⟨-, -, hconstraints, hmin⟩ := sameSetup hs
  rw [hconstraints] at hc
  rw [hmin] at hm
  change setup.config.constraints.entries.card = 0 at hc
  change setup.config.minTotalUnderlays = 0 at hm
  rcases h with h | h
  · omega
  · omega

/-- **Below a minimum, somebody is about to check it.** -/
theorem min_watched (henf : setup.Enforces) (hs : (channel setup).Reachable ok s)
    (hret : s.returned = true) :
    (s.ch.closed = true ∨ MinMet setup.config s.ch.underlays) ∨ s.Pending Routine.checks := by
  refine watched_rule MinMet.append rfl rfl (fun _ => rfl) ?_ hs hret
  intro s g r eff hreach hcloses hmoves hen hw
  have hcap := henf.capable hreach
  generalize hr : s.routines g = r₀ at hmoves hw
  cases hmoves with
  | guard | applyOpen | invalid | notifySelf | policyClosed | noPolicy => exact Or.inr (Or.inl rfl)
  | nothingToApply hc hm => exact absurd hm (henf.not_nothing hreach hc)
  | applyClosed hclosed => exact Or.inl (Or.inl hclosed)
  | applyReturn => exact Or.inl (Or.inl (closed_of_awaits hreach g (by rw [hr]; rfl) hcloses))
  | valid hvalid =>
    obtain ⟨-, -, hconstraints, hmin⟩ := sameSetup hreach
    rw [hconstraints, hmin] at hvalid
    exact Or.inl (Or.inr (countsShowValidState_iff.mp hvalid))
  | respond u b _ => exact Or.inr (Or.inr (Or.inl ⟨b, if_pos rfl⟩))
  | lastRemoved u hc _ | notLast u hc _ => rw [hcap] at hc; cases hc
  | _ => cases hw

/-- **Below a desired number, somebody is about to look**, if there is a dial policy. -/
theorem desired_watched (henf : setup.Enforces) (hpolicy : setup.config.dialPolicy = true)
    (hs : (channel setup).Reachable ok s) (hret : s.returned = true) :
    (s.ch.closed = true ∨ DesiredMet setup.config s.ch.underlays) ∨ s.Pending Routine.wakes := by
  refine watched_rule DesiredMet.append rfl rfl (fun _ => rfl) ?_ hs hret
  intro s g r eff hreach hcloses hmoves hen hw
  have hcap := henf.capable hreach
  obtain ⟨-, hdial, hconstraints, -⟩ := sameSetup hreach
  generalize hr : s.routines g = r₀ at hmoves hw
  cases hmoves with
  | nothingToApply hc hm => exact absurd hm (henf.not_nothing hreach hc)
  | applyClosed hclosed => exact Or.inl (Or.inl hclosed)
  | applyReturn => exact Or.inl (Or.inl (closed_of_awaits hreach g (by rw [hr]; rfl) hcloses))
  | inProgress hflag =>
    -- the goroutine that has the flag will look again
    obtain ⟨b, hb⟩ := flag_pending hreach hflag
    refine Or.inr (Or.inr (Or.inr ⟨b, ?_, Routine.wakes_of_flagged hb⟩))
    rintro rfl
    rw [hr] at hb
    cases hb
  | noRecheck h =>
    rcases h with h | h
    · rw [hdial] at h
      exact absurd (hpolicy.symm.trans h) (by simp)
    · exact Or.inl (Or.inl h)
  | desiresSatisfied h =>
    rw [hconstraints] at h
    exact Or.inl (Or.inr (areConstraintDesiresSatisfied_iff.mp h))
  | respawn b _ => exact Or.inr (Or.inr (Or.inl ⟨b, if_pos rfl⟩))
  | respond u b _ => exact Or.inr (Or.inr (Or.inl ⟨b, if_pos rfl⟩))
  | lastRemoved u hc _ | notLast u hc _ => rw [hcap] at hc; cases hc
  | _ => first | exact Or.inr (Or.inl rfl) | cases hw

/-! ### Simple channels -/

/-- Whether a goroutine has removed an underlay, and has yet to see that one is left or to close the
channel. -/
def Routine.closesEmpty : Routine → Bool
  | .closeUnderlay _ .closing => true
  | r => r.responds

/-- **A simple channel without underlays is closed, or about to be.** -/
theorem empty_watched (hsimple : (setup.config.impl setup.first).isMultiUnderlayCapable = false)
    (hs : (channel setup).Reachable ok s) (hadded : s.added ≠ []) :
    (s.ch.closed = true ∨ s.ch.underlays ≠ []) ∨ s.Pending Routine.closesEmpty := by
  have mono : ∀ us vs : List Underlay, us ≠ [] → us ++ vs ≠ [] := fun us vs hne hnil =>
    hne (List.append_eq_nil_iff.mp hnil).1
  refine pending_rule (A := fun s => s.added ≠ [])
    (G := fun s => s.ch.closed = true ∨ s.ch.underlays ≠ []) rfl (by simp [channel])
    ?_ ?_ ?_ ?_ hs hadded
  · intro s g r eff _ _ _ hA
    by_cases happend : ∃ u, eff = .append u
    · obtain ⟨u, rfl⟩ := happend
      exact Or.inr (Or.inl (Or.inr (List.append_ne_nil_of_right_ne_nil _ (by simp))))
    · rw [State.added_apply fun u hu => happend ⟨u, hu⟩] at hA
      exact Or.inl hA
  · intro s g r eff _ hmoves hen hG
    exact hmoves.kept mono (fun _ => rfl) hen hG
  · intro s g r eff hreach hcloses hmoves hen hw _
    have hsimple' : s.ch.isMultiUnderlayCapable = false := (sameSetup hreach).capable.trans hsimple
    have hcases : (s.ch.closed = true ∨ s.ch.underlays ≠ []) ∨ r.closesEmpty = true := by
      generalize hr : s.routines g = r₀ at hmoves hw
      cases hmoves with
      | notifySelf | policyClosed | noPolicy | lastRemoved => exact Or.inr rfl
      | notLast _ _ hne => exact Or.inl (Or.inr hne)
      | closed => exact Or.inl (Or.inl (closed_of_awaits hreach g (by rw [hr]; rfl) hcloses))
      | respond u b hc => rw [hsimple'] at hc; cases hc
      | _ => cases hw
    rcases hcases with hG | hr
    · exact hmoves.kept mono (fun _ => rfl) hen hG
    · exact Or.inr (State.Pending.of_self hen hr)
  · intro s s' hc
    refine ⟨fun hA => hc.added ▸ hA, fun hG => ?_⟩
    rw [hc.underlays]
    exact hG.imp hc.closed id

/-- Whether `NewChannel` has added the first underlay. -/
def Routine.hasAdded : Routine → Bool
  | .newChannel (.add (.notify _)) | .newChannel .startMultiplex
  | .newChannel .applyConstraints => true
  | _ => false

theorem State.added_ne_nil_apply (h : t.added ≠ []) : (t.apply g eff).added ≠ [] := by
  by_cases happend : ∃ u, eff = .append u
  · obtain ⟨u, rfl⟩ := happend
    exact List.append_ne_nil_of_right_ne_nil _ (by simp)
  · rwa [added_apply fun u hu => happend ⟨u, hu⟩]

theorem added_ne_nil_step {e : Event} (hstep : (channel setup).step s e = some s')
    (h : s.added ≠ []) : s'.added ≠ [] :=
  step_keeps (P := fun s => s.added ≠ []) (fun _ _ _ h => State.added_ne_nil_apply h)
    (fun _ _ _ hadded h => hadded ▸ h) hstep h

theorem added_of_hasAdded (hs : (channel setup).Reachable ok s) (g : ℕ)
    (hg : (s.routines g).hasAdded = true) : s.added ≠ [] := by
  refine past_rule (W := fun r => r.hasAdded = true) (P := fun s _ => s.added ≠ []) ?_ ?_ ?_ hs g hg
  · intro r hr
    unfold Routine.hasAdded at hr
    split at hr <;> first | rfl | cases hr
  · intro s g r eff _ _ hmoves hr h
    generalize s.routines g = r₀ at hmoves h
    cases hmoves with
    | newAppend => exact List.append_ne_nil_of_right_ne_nil _ (by simp)
    | newNotify | newNotified | newStart => exact State.added_ne_nil_apply (h rfl)
    | _ => cases hr
  · intro s e s' b _ hstep _ h
    exact added_ne_nil_step hstep h

/-- When `NewChannel` returns, it has added the first underlay. -/
theorem added_of_returned (hs : (channel setup).Reachable ok s) :
    s.returned = true → s.added ≠ [] := by
  refine hs.invariant_of_reachable (P := fun s => s.returned = true → s.added ≠ [])
    (by simp [channel]) fun s e s' hreach h _ hstep hret => ?_
  refine added_ne_nil_step hstep ?_
  revert hret
  refine step_cases (P := fun s' => s'.returned = true → s.added ≠ []) hstep ?_ ?_ ?_ ?_
  · intro g a r eff _ _ hmoves _ hret
    by_cases hnew : ∃ b, eff = .newReturned b
    · obtain ⟨b, rfl⟩ := hnew
      refine added_of_hasAdded hreach g ?_
      generalize s.routines g = r₀ at hmoves
      cases hmoves with
      | newReturn => rfl
      | accept _ _ _ _ h | dialAccept _ _ _ _ _ _ h => cases h
    · rw [State.returned_apply fun b hb => hnew ⟨b, hb⟩] at hret
      exact h hret
  · intro g a pc rest pcs eff _ _ hmoves _ hret
    exact h (hmoves.frame.returned ▸ hret)
  · intro g u _ _ hret
    exact h hret
  · intro g _ _ hret
    exact h hret

/-! ### Quiet states -/

/-- Whether a goroutine enforces constraints, or closes an underlay. -/
def Routine.enforcing : Routine → Bool
  | .applyConstraints _ | .closeUnderlay _ _ => true
  | _ => false

/-- `NewChannel` has returned, and no goroutine is in `applyConstraints` or in `closeUnderlay`, or
about to start there. -/
def State.Quiet (s : State) : Prop :=
  s.returned = true ∧ ∀ g, (s.routines g).enforcing = false

theorem State.Quiet.not_pending (h : s.Quiet) (hw : ∀ r : Routine, w r = true → r.enforcing = true) :
    ¬ s.Pending w := by
  rintro ⟨g, hg⟩
  have henf := hw _ hg
  rw [h.2 g] at henf
  cases henf

theorem Routine.enforcing_of_checks (r : Routine) (h : r.checks = true) : r.enforcing = true := by
  cases r <;> first | rfl | cases h

theorem Routine.enforcing_of_wakes (r : Routine) (h : r.wakes = true) : r.enforcing = true := by
  cases r <;> first | rfl | cases h

theorem Routine.enforcing_of_closesEmpty (r : Routine) (h : r.closesEmpty = true) :
    r.enforcing = true := by
  cases r <;> first | rfl | cases h

end

/-- **Constraint enforcement loses no wake-up.**  In every state that is reachable by any interleaving
and in which `NewChannel` has returned and no goroutine is in `applyConstraints` or `closeUnderlay`: a
channel with constraints or a minimum total is closed, or every minimum is met, and with a dial policy
every desired number too; and a simple channel is closed or has an underlay. -/
theorem constraints_enforced {setup : Setup} {s : State}
    (hs : (channel setup).Reachable System.anyEvent s) (hquiet : s.Quiet) :
    (0 < setup.config.constraints.entries.card ∨ 0 < setup.config.minTotalUnderlays →
      s.ch.closed = true ∨
        ((∀ e ∈ setup.config.constraints.entries, e.2.min ≤ (countsByType s.ch.underlays).count e.1) ∧
          setup.config.minTotalUnderlays ≤ (countsByType s.ch.underlays).total ∧
          (setup.config.dialPolicy = true → ∀ e ∈ setup.config.constraints.entries,
            e.2.desired ≤ (countsByType s.ch.underlays).count e.1))) ∧
    ((setup.config.impl setup.first).isMultiUnderlayCapable = false →
      s.ch.closed = true ∨ s.ch.underlays ≠ []) := by
  constructor
  · intro henf
    rcases (min_watched henf hs hquiet.1).resolve_right
      (hquiet.not_pending Routine.enforcing_of_checks) with hclosed | ⟨hmin, htotal⟩
    · exact Or.inl hclosed
    · by_cases hclosed : s.ch.closed = true
      · exact Or.inl hclosed
      · refine Or.inr ⟨hmin, htotal, fun hpolicy => ?_⟩
        exact ((desired_watched henf hpolicy hs hquiet.1).resolve_right
          (hquiet.not_pending Routine.enforcing_of_wakes)).resolve_left hclosed
  · intro hsimple
    exact (empty_watched hsimple hs (added_of_returned hs hquiet.1)).resolve_right
      (hquiet.not_pending Routine.enforcing_of_closesEmpty)

/-- A channel that dials until it has two underlays, and needs one. -/
def pairSetup : Setup where
  config :=
    { logicalName := [], senders := true, messageSourceProvider := true, underlay := none
      binder := ⟨[], none⟩, dialPolicy := true
      constraints := Finmap.singleton defaultUnderlayType ⟨2, 1⟩, minTotalUnderlays := 1 }
  first := ⟨0, [], [], Finmap.singleton groupSecretHeader [7]⟩
  validUnderlayTypes := []
  listeners := 0
  peekHandlers := []
  closeHandlers := []

/-- A removal that finds the flag set.  Goroutine 3 has dialed a second underlay and is about to reset
the flag when that underlay is lost; goroutine 6, which the removal starts, finds the flag set and
returns; goroutine 3 looks again and starts goroutine 7, which dials a third. -/
def pairRun : List Event :=
  let u (ref : ℕ) : Underlay := ⟨ref, [], [], Finmap.singleton groupSecretHeader [7]⟩
  let gos (n g : ℕ) : List Event := List.replicate n (.run g .go)
  let order : Action := .order [⟨defaultUnderlayType, ⟨2, 1⟩⟩]
  List.flatten
    [gos 4 0, [.run 0 (.start 1 2), .run 0 (.spawn 3)],
      gos 6 3, [.run 3 order], gos 2 3, [.run 3 (.dialed (some (u 1)))], gos 6 3,
      [.run 3 (.start 4 5)], gos 3 3, [.run 3 order], gos 2 3,
      gos 5 4, [.run 4 (.spawn 6)], gos 4 6, gos 6 4, gos 6 5,
      gos 2 3, [.run 3 (.spawn 7)],
      gos 6 7, [.run 7 order], gos 2 7, [.run 7 (.dialed (some (u 2)))], gos 6 7,
      [.run 7 (.start 8 9)], gos 3 7, [.run 7 order], gos 5 7]

def pairState : State :=
  ((channel pairSetup).replay System.anyEvent (channel pairSetup).init pairRun).get
    (by decide +kernel)

theorem constraints_enforced_in_progress :
    (channel pairSetup).Reachable System.anyEvent pairState ∧ pairState.Quiet ∧
      pairState.ch.closed = false ∧ pairState.removed.map (·.ref) = [1] ∧
      ∀ e ∈ pairSetup.config.constraints.entries,
        e.2.desired ≤ (countsByType pairState.ch.underlays).count e.1 := by
  have hs : (channel pairSetup).Reachable System.anyEvent pairState :=
    System.reachable_get_replay _ _ pairRun _
  have hquiet : pairState.Quiet := by
    refine ⟨rfl, fun g => ?_⟩
    match g with
    | 0 | 1 | 2 | 3 | 4 | 5 | 6 | 7 | 8 | 9 => rfl
    | n + 10 => rfl
  have hopen : pairState.ch.closed = false := rfl
  rcases (constraints_enforced hs hquiet).1 (Or.inl (by decide)) with hclosed | ⟨-, -, hdesired⟩
  · rw [hopen] at hclosed
    cases hclosed
  · exact ⟨hs, hquiet, hopen, rfl, hdesired rfl⟩

end ZitiChannel.Concurrent
