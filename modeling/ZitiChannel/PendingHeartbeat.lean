import ZitiChannel.Heartbeat

/-!
# The heartbeat that waits for an answer

When `pulse` handles the event for a received heartbeat, it stores its time.  The next `Tx` loads
the time, gives the answer to its message, and stores zero.  These are steps of their own: another
`Tx` may load the same time meanwhile, which does no harm, and `pulse` may store the time of the
next heartbeat, which is then cleared by a `Tx` that has answered another one.  Zero stands for no
heartbeat, and a heartbeat whose time is zero clears what is there too.

## Main definitions

* `TxPc.loaded` — the heartbeat that a `Tx` has loaded.
* `State.Given` — an outgoing message was given the answer to a heartbeat.
* `Undisturbed` — what `pulse` stores does not get in the way of a `Tx`.
* `Touches` — what a step does to the heartbeat that waits.
* `State.Clearable`, `Answered` — the invariant.

## Main results

* `touches_of_step` — case analysis on a step.
* `Answered.step` — every step keeps the invariant.
* `pending_answered` — **the heartbeat that waits is not dropped without an answer, if `pulse` does
  not get in the way.**

The source is `heartbeater.go`.
-/

namespace ZitiChannel.Heartbeater

open Transition ByteStream

variable {ι : Type} [DecidableEq ι]

/-- The heartbeat that a `Tx` has loaded and not cleared yet. -/
def TxPc.loaded : TxPc → Option Int64
  | .putResponse _ _ unrespondedHeartbeat | .storeUnresponded _ _ unrespondedHeartbeat =>
      some unrespondedHeartbeat
  | _ => none

/-- An outgoing message was given the answer to a heartbeat. -/
def State.Given (s : State ι) (ts : Int64) : Prop :=
  ∃ m ∈ s.given, m.headers.lookup heartbeatResponseHeader = some (putUint64 ts.toUInt64)

/-- When `pulse` stores a heartbeat, it does not take the place of an unanswered one by zero, and no
`Tx` is about to clear it, having loaded another one. -/
def Undisturbed (s : State ι) : Event ι → Prop
  | .pulseStep =>
      match s.pulse with
      | .handle (.rx ts) =>
          (ts = 0 → s.unrespondedHeartbeat = 0 ∨ s.Given s.unrespondedHeartbeat) ∧
            ∀ i, ∀ loaded ∈ (s.txers i).loaded, ts = loaded ∨ ts = 0 ∨ s.Given ts
      | _ => True
  | _ => True

/-- What a step does to the heartbeat that waits for an answer, and to those that have loaded it. -/
inductive Touches (s : State ι) : Event ι → State ι → Prop
  | load (i : ι) (m : Message) (now : Int64) (s' : State ι)
      (htxers : s'.txers = Function.update s.txers i (.putResponse m now s.unrespondedHeartbeat))
      (hunresponded : s'.unrespondedHeartbeat = s.unrespondedHeartbeat) (hgiven : s'.given = s.given) :
      Touches s (.txStep i) s'
  | put (i : ι) (m : Message) (now ts : Int64) (s' : State ι) (hpc : s.txers i = .putResponse m now ts)
      (htxers : s'.txers = Function.update s.txers i
        (.storeUnresponded (putTime heartbeatResponseHeader ts m) now ts))
      (hunresponded : s'.unrespondedHeartbeat = s.unrespondedHeartbeat)
      (hgiven : s'.given = s.given ++ [putTime heartbeatResponseHeader ts m]) :
      Touches s (.txStep i) s'
  | clear (i : ι) (m : Message) (now ts : Int64) (s' : State ι)
      (hpc : s.txers i = .storeUnresponded m now ts)
      (htxers : s'.txers = Function.update s.txers i (.queueRespTx m now))
      (hunresponded : s'.unrespondedHeartbeat = 0) (hgiven : s'.given = s.given) :
      Touches s (.txStep i) s'
  | receive (ts : Int64) (s' : State ι) (hpc : s.pulse = .handle (.rx ts)) (htxers : s'.txers = s.txers)
      (hunresponded : s'.unrespondedHeartbeat = ts) (hgiven : s'.given = s.given) :
      Touches s .pulseStep s'
  | other (e : Event ι) (s' : State ι)
      (htxers : ∀ i, (s'.txers i).loaded = none ∨ s'.txers i = s.txers i)
      (hunresponded : s'.unrespondedHeartbeat = s.unrespondedHeartbeat) (hgiven : s'.given = s.given) :
      Touches s e s'

section

variable {s s' : State ι} {e : Event ι} {heartbeatInterval checkInterval : Duration}

theorem loaded_setTx {i : ι} {pc : TxPc} (h : pc.loaded = none) (j : ι) :
    ((s.setTx i pc).txers j).loaded = none ∨ (s.setTx i pc).txers j = s.txers j := by
  by_cases hj : j = i
  · subst hj
    exact .inl (by simpa [State.setTx] using h)
  · exact .inr (by simp [State.setTx, hj])

theorem touches_of_txStep {i : ι} (h : s.txStep i = some s') : Touches s (.txStep i) s' := by
  revert h
  fun_cases State.txStep s i
  all_goals intro h; cases h
  case case8 m now hpc =>
    obtain ⟨q, hq⟩ := queueEvent_eq (s := s) (.tx now)
    rw [hq]
    exact .other _ _ (loaded_setTx rfl) rfl rfl
  case case9 m now hpc hne => exact .load i m now _ rfl rfl rfl
  case case11 m now ts hpc m' => exact .put i m now ts _ hpc rfl rfl rfl
  case case12 m now ts hpc => exact .clear i m now ts _ hpc rfl rfl rfl
  case case13 m now hpc =>
    obtain ⟨q, hq⟩ := queueEvent_eq (s := s) (.respTx now)
    rw [hq]
    exact .other _ _ (loaded_setTx rfl) rfl rfl
  all_goals exact .other _ _ (loaded_setTx rfl) rfl rfl

theorem Touches.of_eq (htxers : s'.txers = s.txers)
    (hunresponded : s'.unrespondedHeartbeat = s.unrespondedHeartbeat) (hgiven : s'.given = s.given) :
    Touches s e s' :=
  .other e s' (fun i => .inr (congrFun htxers i)) hunresponded hgiven

theorem touches_of_rxStep {i : ι} (h : s.rxStep i = some s') : Touches s (.rxStep i) s' := by
  revert h
  fun_cases State.rxStep s i
  all_goals intro h; cases h
  case case2 | case4 =>
    next event _ =>
    obtain ⟨q, hq⟩ := queueEvent_eq (s := s) event
    rw [hq]
    exact .of_eq rfl rfl rfl
  all_goals exact .of_eq rfl rfl rfl

theorem touches_of_pulseStep (h : s.pulseStep = some s') : Touches s .pulseStep s' := by
  revert h
  fun_cases State.pulseStep s
  all_goals intro h; cases h
  case case14 ts hpc => exact .receive ts _ hpc rfl rfl rfl
  all_goals exact .of_eq rfl rfl rfl

theorem touches_of_step (h : step s e = some s') : Touches s e s' := by
  cases e with
  | txStep i => exact touches_of_txStep h
  | rxStep i => exact touches_of_rxStep h
  | pulseStep => exact touches_of_pulseStep h
  | tx i m now =>
    simp only [step] at h
    split at h
    · split at h <;> cases h <;> exact .other _ _ (loaded_setTx rfl) rfl rfl
    · split at h <;> cases h <;> exact .other _ _ (loaded_setTx rfl) rfl rfl
    · cases h
  | timer =>
    simp only [step] at h
    split at h
    · cases h
    · next timers _ =>
      obtain ⟨q, hq⟩ := queueEvent_eq (s := { s with timers := timers }) .handleUnresponded
      rw [hq] at h
      cases h
      exact .of_eq rfl rfl rfl
  | updateStep =>
    simp only [step] at h
    split at h <;> cases h
    · exact .of_eq rfl rfl rfl
    · exact .of_eq rfl rfl rfl
  | close =>
    cases h
    exact .of_eq rfl rfl rfl
  | rx i m | tick now | event | reconfig | updateIntervals sendInterval checkInterval =>
    simp only [step] at h
    split at h <;> cases h
    exact .of_eq rfl rfl rfl

/-- One who has loaded `ts` and answers it may clear what is there now. -/
def State.Clearable (s : State ι) (ts : Int64) : Prop :=
  s.unrespondedHeartbeat = ts ∨ s.unrespondedHeartbeat = 0 ∨ s.Given s.unrespondedHeartbeat

/-- What holds of a `Tx` that has loaded a heartbeat. -/
def State.Holds (s : State ι) : TxPc → Prop
  | .putResponse _ _ ts => s.Clearable ts
  | .storeUnresponded _ _ ts => s.Clearable ts ∧ s.Given ts
  | _ => True

def Answered (s : State ι) : Prop := ∀ i, s.Holds (s.txers i)

section

omit [DecidableEq ι]

theorem State.Given.mono {ts : Int64} (h : s.Given ts) (hgiven : s.given ⊆ s'.given) : s'.Given ts := by
  obtain ⟨m, hm, hlookup⟩ := h
  exact ⟨m, hgiven hm, hlookup⟩

theorem State.Clearable.mono {ts : Int64} (h : s.Clearable ts) (hgiven : s.given ⊆ s'.given)
    (hunresponded : s'.unrespondedHeartbeat = s.unrespondedHeartbeat) : s'.Clearable ts := by
  obtain hsame | hzero | hanswered := h
  · exact .inl (hunresponded.trans hsame)
  · exact .inr (.inl (hunresponded.trans hzero))
  · rw [← hunresponded] at hanswered
    exact .inr (.inr (hanswered.mono hgiven))

theorem State.Holds.mono {pc : TxPc} (h : s.Holds pc) (hgiven : s.given ⊆ s'.given)
    (hclearable : ∀ ts ∈ pc.loaded, s.Clearable ts → s'.Clearable ts) : s'.Holds pc := by
  cases pc with
  | putResponse m now ts => exact hclearable ts rfl h
  | storeUnresponded m now ts => exact ⟨hclearable ts rfl h.1, h.2.mono hgiven⟩
  | _ => exact trivial

theorem State.holds_of_loaded {pc : TxPc} (h : pc.loaded = none) : s.Holds pc := by
  cases pc with
  | putResponse m now ts => cases h
  | storeUnresponded m now ts => cases h
  | _ => exact trivial

/-- A message that is given an answer carries it. -/
theorem given_putTime {ts : Int64} {m : Message}
    (h : s'.given = s.given ++ [putTime heartbeatResponseHeader ts m]) : s'.Given ts := by
  refine ⟨putTime heartbeatResponseHeader ts m, ?_, ?_⟩
  · rw [h]
    exact List.mem_append_right _ List.mem_cons_self
  · exact Finmap.lookup_insert _

end

/-- A `Tx` moves. -/
theorem answered_update {i : ι} {pc : TxPc} (htxers : s'.txers = Function.update s.txers i pc)
    (hpc : s'.Holds pc) (h : ∀ j, s'.Holds (s.txers j)) : Answered s' := by
  intro j
  rw [htxers]
  by_cases hj : j = i
  · subst hj
    rw [Function.update_self]
    exact hpc
  · rw [Function.update_of_ne hj]
    exact h j

theorem Answered.step (h : Answered s) (hok : Undisturbed s e) (htouches : Touches s e s') :
    Answered s' := by
  cases htouches with
  | load i m now s' htxers hunresponded hgiven =>
    have hsub : s.given ⊆ s'.given := hgiven ▸ List.Subset.refl _
    exact answered_update htxers (.inl hunresponded) fun j =>
      (h j).mono hsub fun ts _ hts => hts.mono hsub hunresponded
  | put i m now ts s' hpc htxers hunresponded hgiven =>
    have hsub : s.given ⊆ s'.given := hgiven ▸ List.subset_append_left _ _
    have hclearable : s.Clearable ts := by
      have hi := h i
      rw [hpc] at hi
      exact hi
    refine answered_update htxers ⟨hclearable.mono hsub hunresponded, given_putTime hgiven⟩ fun j =>
      (h j).mono hsub fun ts _ hts => hts.mono hsub hunresponded
  | clear i m now ts s' hpc htxers hunresponded hgiven =>
    exact answered_update htxers trivial fun j =>
      (h j).mono (hgiven ▸ List.Subset.refl _) fun ts _ _ => .inr (.inl hunresponded)
  | receive ts s' hpc htxers hunresponded hgiven =>
    have hsub : s.given ⊆ s'.given := hgiven ▸ List.Subset.refl _
    intro j
    rw [htxers]
    refine (h j).mono hsub fun loaded hloaded _ => ?_
    -- by the assumption on the run
    simp only [Undisturbed, hpc] at hok
    rw [State.Clearable, hunresponded]
    obtain hsame | hzero | hanswered := hok.2 j loaded hloaded
    · exact .inl hsame
    · exact .inr (.inl hzero)
    · exact .inr (.inr (hanswered.mono hsub))
  | other e s' htxers hunresponded hgiven =>
    have hsub : s.given ⊆ s'.given := hgiven ▸ List.Subset.refl _
    intro j
    obtain hnone | hsame := htxers j
    · exact State.holds_of_loaded hnone
    · rw [hsame]
      exact (h j).mono hsub fun ts _ hts => hts.mono hsub hunresponded

/-- **A heartbeat that waits for an answer is not dropped.**  In every run in which `pulse` does not
replace an unanswered heartbeat by zero, and stores no heartbeat that a `Tx` is about to clear in
place of another: whenever the heartbeat that waits is cleared, an outgoing message was given the
answer to it. -/
theorem pending_answered
    (hs : (heartbeating ι heartbeatInterval checkInterval).Reachable Undisturbed s)
    (hok : Undisturbed s e) (hstep : step s e = some s') (hpending : s.unrespondedHeartbeat ≠ 0)
    (hcleared : s'.unrespondedHeartbeat = 0) : s'.Given s.unrespondedHeartbeat := by
  have hanswered : Answered s :=
    hs.invariant (fun _ => trivial) fun _ _ _ h hok hstep => h.step hok (touches_of_step hstep)
  cases touches_of_step hstep with
  | clear i m now ts _ hpc htxers hunresponded hgiven =>
    have hi := hanswered i
    rw [hpc] at hi
    obtain ⟨hclearable, hts⟩ := hi
    have hsub : s.given ⊆ s'.given := hgiven ▸ List.Subset.refl _
    obtain hsame | hzero | hgiven' := hclearable
    · rw [hsame]
      exact hts.mono hsub
    · exact absurd hzero hpending
    · exact hgiven'.mono hsub
  | receive ts _ hpc htxers hunresponded hgiven =>
    simp only [Undisturbed, hpc] at hok
    obtain hzero | hgiven' := hok.1 (hunresponded.symm.trans hcleared)
    · exact absurd hzero hpending
    · exact hgiven'.mono (hgiven ▸ List.Subset.refl _)
  | load i m now _ htxers hunresponded hgiven => exact absurd (hunresponded.symm.trans hcleared) hpending
  | put i m now ts _ hpc htxers hunresponded hgiven =>
    exact absurd (hunresponded.symm.trans hcleared) hpending
  | other _ _ htxers hunresponded hgiven => exact absurd (hunresponded.symm.trans hcleared) hpending

end

instance (s : State ι) (ts : Int64) : Decidable (s.Given ts) :=
  inferInstanceAs (Decidable (∃ m ∈ s.given, _))

instance (pc : TxPc) (P : Int64 → Prop) [DecidablePred P] : Decidable (∀ ts ∈ pc.loaded, P ts) :=
  Option.decidableForallMem pc.loaded

instance [Fintype ι] (s : State ι) : DecidablePred (Undisturbed s) := fun e => by
  unfold Undisturbed
  split
  · split <;> infer_instance
  · infer_instance

/-- A message with a heartbeat arrives, and `pulse` receives the event. -/
def rxRun (m : Message) : List (Event Unit) := [.rx () m, .rxStep (), .rxStep (), .event]

def heartbeatMessage (ts : Int64) : Message :=
  putTime heartbeatHeader ts (newMessage contentTypeHeartbeat [])

/-- The first heartbeat is received and stored. -/
def storedRun : List (Event Unit) :=
  [.pulseStep, .pulseStep] ++ rxRun (heartbeatMessage 1) ++ [.pulseStep]

/-- `Tx` is called, and loads it. -/
def loadRun : List (Event Unit) := [.tx () (newMessage 2 []) 1, .txStep (), .txStep (), .txStep ()]

/-- `pulse` goes round. -/
def againRun : List (Event Unit) := [.pulseStep, .pulseStep, .pulseStep]

/-- A heartbeat is received, answered and cleared. -/
theorem pending_answered_one :
    ∃ s s', (heartbeating Unit 10 1).Reachable Undisturbed s ∧ step s (.txStep ()) = some s' ∧
      s.unrespondedHeartbeat = 1 ∧ s'.unrespondedHeartbeat = 0 ∧ s'.Given 1 := by
  obtain ⟨s, hs, h⟩ := System.reachable_of_replay (heartbeating Unit 10 1) Undisturbed
    (storedRun ++ loadRun ++ [.txStep ()])
    (fun s => decide (s.unrespondedHeartbeat = 1) &&
      (step s (.txStep ())).any fun s' : State Unit => decide (s'.unrespondedHeartbeat = 0))
    (by decide +kernel)
  rw [Bool.and_eq_true, Option.any_eq_true] at h
  obtain ⟨hpending, s', hstep, hcleared⟩ := h
  have hone : s.unrespondedHeartbeat = 1 := of_decide_eq_true hpending
  have hzero : s'.unrespondedHeartbeat = 0 := of_decide_eq_true hcleared
  have hgiven := pending_answered (e := .txStep ()) hs trivial hstep (by rw [hone]; decide) hzero
  rw [hone] at hgiven
  exact ⟨s, s', hs, hstep, hone, hzero, hgiven⟩

/-- The step clears the heartbeat `ts`, and no message was given the answer to it. -/
def drops (e : Event Unit) (ts : Int64) (s : State Unit) : Bool :=
  decide (s.unrespondedHeartbeat = ts) && (step s e).any fun s' : State Unit =>
    decide (s'.unrespondedHeartbeat = 0 ∧ ¬ s'.Given ts)

theorem step_of_drops {e : Event Unit} {ts : Int64} {s : State Unit} (h : drops e ts s = true) :
    ∃ s', step s e = some s' ∧ s.unrespondedHeartbeat = ts ∧ s'.unrespondedHeartbeat = 0 ∧
      ¬ s'.Given ts := by
  rw [drops, Bool.and_eq_true, Option.any_eq_true] at h
  obtain ⟨hpending, s', hstep, hcleared⟩ := h
  exact ⟨s', hstep, of_decide_eq_true hpending, of_decide_eq_true hcleared⟩

/-- Between the two steps of `Tx`, `pulse` stores the second heartbeat: it is cleared, and no
message was given the answer to it. -/
theorem heartbeat_dropped :
    ∃ s s', (heartbeating Unit 10 1).Reachable System.anyEvent s ∧ step s (.txStep ()) = some s' ∧
      s.unrespondedHeartbeat = 2 ∧ s'.unrespondedHeartbeat = 0 ∧ ¬ s'.Given 2 := by
  obtain ⟨s, hs, h⟩ := System.reachable_of_replay (heartbeating Unit 10 1) System.anyEvent
    (storedRun ++ loadRun ++ againRun ++ rxRun (heartbeatMessage 2) ++ [.pulseStep, .txStep ()])
    (drops (.txStep ()) 2) (by decide +kernel)
  obtain ⟨s', hdrop⟩ := step_of_drops h
  exact ⟨s, s', hs, hdrop⟩

/-- The zero that a heartbeat of the wrong length is taken for replaces the first one. -/
theorem heartbeat_replaced :
    ∃ s s', (heartbeating Unit 10 1).Reachable System.anyEvent s ∧ step s .pulseStep = some s' ∧
      s.unrespondedHeartbeat = 1 ∧ s'.unrespondedHeartbeat = 0 ∧ ¬ s'.Given 1 := by
  obtain ⟨s, hs, h⟩ := System.reachable_of_replay (heartbeating Unit 10 1) System.anyEvent
    (storedRun ++ againRun ++ rxRun shortHeartbeat) (drops .pulseStep 1) (by decide +kernel)
  obtain ⟨s', hdrop⟩ := step_of_drops h
  exact ⟨s, s', hs, hdrop⟩

end ZitiChannel.Heartbeater
