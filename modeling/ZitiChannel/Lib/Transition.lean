import Mathlib.Logic.Relation

/-!
# Guarded transition systems

A system is an initial state and an executable step function: `step s e` is
`some s'` when the event `e` can happen in `s`, and `none` when it cannot.  What
the environment promises is kept apart from what the system does: a predicate
`ok s e` says which events the environment may cause in which states, and
reachability is always reachability under such a promise.  One model thus serves
results with different assumptions.

## Main definitions

* `System`, `System.Steps ok s s'`, `System.Reachable ok s` — systems, runs under
  the promise `ok`, and the states those runs visit.
* `System.replay` — a concrete run, for evaluation.
* `System.recording` — a system that keeps a record of its past.

## Main results

* `System.Reachable.invariant` — an invariant that holds initially and that every
  allowed step keeps holds in every reachable state.
* `System.reachable_of_replay` — a successful replay ends in a reachable state.
-/

namespace Transition

/-- A transition system: an initial state and a partial step function. -/
structure System (S E : Type*) where
  init : S
  /-- What an event does, if it can happen. -/
  step : S → E → Option S

namespace System

variable {S E : Type*} (sys : System S E)

/-- One step, by some event that the environment may cause. -/
def Step (ok : S → E → Prop) (s s' : S) : Prop := ∃ e, ok s e ∧ sys.step s e = some s'

/-- Any number of steps. -/
def Steps (ok : S → E → Prop) : S → S → Prop := Relation.ReflTransGen (sys.Step ok)

/-- The states that runs from the initial state visit. -/
def Reachable (ok : S → E → Prop) (s : S) : Prop := sys.Steps ok sys.init s

/-- The environment that promises nothing. -/
def anyEvent : S → E → Prop := fun _ _ => True

/-- The environment under which every state of the run satisfies `D`. -/
def throughout (D : S → Prop) : S → E → Prop := fun s e => ∀ s', sys.step s e = some s' → D s'

instance (s : S) (e : E) : Decidable (anyEvent s e) := inferInstanceAs (Decidable True)

instance (D : S → Prop) [DecidablePred D] (s : S) (e : E) : Decidable (sys.throughout D s e) :=
  inferInstanceAs (Decidable (∀ s' ∈ sys.step s e, D s'))

/-- Run `es` from `s`; `none` when an event is not allowed or cannot happen. -/
def replay (ok : S → E → Prop) [∀ s e, Decidable (ok s e)] : S → List E → Option S
  | s, [] => some s
  | s, e :: es =>
      if ok s e then
        match sys.step s e with
        | none => none
        | some s' => replay ok s' es
      else none

variable {sys} {ok : S → E → Prop}

theorem Reachable.init : sys.Reachable ok sys.init := Relation.ReflTransGen.refl

theorem Reachable.step {s s' : S} {e : E} (hs : sys.Reachable ok s) (hok : ok s e)
    (h : sys.step s e = some s') : sys.Reachable ok s' :=
  Relation.ReflTransGen.tail hs ⟨e, hok, h⟩

theorem Reachable.steps {s s' : S} (hs : sys.Reachable ok s) (h : sys.Steps ok s s') :
    sys.Reachable ok s' :=
  Relation.ReflTransGen.trans hs h

/-- What an invariant of single steps says about runs that start anywhere. -/
theorem Steps.invariant {P : S → Prop}
    (hstep : ∀ s e s', P s → ok s e → sys.step s e = some s' → P s') {s s' : S} (hs : P s)
    (h : sys.Steps ok s s') : P s' := by
  induction h with
  | refl => exact hs
  | tail _ hlast ih =>
    obtain ⟨e, hok, he⟩ := hlast
    exact hstep _ e _ ih hok he

/-- **The invariant rule.** -/
theorem Reachable.invariant {P : S → Prop} (hinit : P sys.init)
    (hstep : ∀ s e s', P s → ok s e → sys.step s e = some s' → P s') {s : S}
    (h : sys.Reachable ok s) : P s :=
  Steps.invariant hstep hinit h

/-- The invariant rule when the step may also use that the state is reachable:
an invariant proved earlier need not be proved again. -/
theorem Reachable.invariant_of_reachable {P : S → Prop} (hinit : P sys.init)
    (hstep : ∀ s e s', sys.Reachable ok s → P s → ok s e → sys.step s e = some s' → P s') {s : S}
    (h : sys.Reachable ok s) : P s := by
  have key : sys.Reachable ok s ∧ P s := by
    refine Reachable.invariant (P := fun s => sys.Reachable ok s ∧ P s) ⟨.init, hinit⟩ ?_ h
    rintro s e s' ⟨hr, hP⟩ hok he
    exact ⟨hr.step hok he, hstep s e s' hr hP hok he⟩
  exact key.2

/-- Promising less allows at least as much. -/
theorem Steps.mono {ok' : S → E → Prop} (hle : ∀ s e, ok s e → ok' s e) {s s' : S}
    (h : sys.Steps ok s s') : sys.Steps ok' s s' := by
  refine Relation.ReflTransGen.mono ?_ _ _ h
  rintro a b ⟨e, hok, he⟩
  exact ⟨e, hle a e hok, he⟩

theorem Reachable.throughout {D : S → Prop} (hinit : D sys.init) {s : S}
    (h : sys.Reachable (sys.throughout D) s) : D s :=
  h.invariant hinit fun _ _ s' _ hok he => hok s' he

theorem Steps.throughout {D : S → Prop} (hD : ∀ s, D s) {s s' : S} (h : sys.Steps ok s s') :
    sys.Steps (sys.throughout D) s s' :=
  h.mono fun _ _ _ s' _ => hD s'

/-- A successful replay is a run. -/
theorem steps_of_replay_eq (sys : System S E) (ok : S → E → Prop) [∀ s e, Decidable (ok s e)]
    {s' : S} :
    ∀ (es : List E) (s : S), sys.replay ok s es = some s' → sys.Steps ok s s' := by
  intro es
  induction es with
  | nil =>
    rintro s ⟨⟩
    exact Relation.ReflTransGen.refl
  | cons e es ih =>
    intro s h
    rw [replay] at h
    split at h
    · next hok =>
      cases he : sys.step s e with
      | none => rw [he] at h; cases h
      | some s₁ =>
        rw [he] at h
        exact Relation.ReflTransGen.head ⟨e, hok, he⟩ (ih s₁ h)
    · cases h

theorem steps_of_replay (sys : System S E) (ok : S → E → Prop) [∀ s e, Decidable (ok s e)]
    (p : S → Bool) (es : List E) (s : S) (h : (sys.replay ok s es).any p = true) :
    ∃ s', sys.Steps ok s s' ∧ p s' = true := by
  obtain ⟨s', hs', hp⟩ := (Option.any_eq_true p _).mp h
  exact ⟨s', steps_of_replay_eq sys ok es s hs', hp⟩

/-- A successful replay from the initial state ends in a reachable state. -/
theorem reachable_of_replay (sys : System S E) (ok : S → E → Prop) [∀ s e, Decidable (ok s e)]
    (es : List E) (p : S → Bool)
    (h : (sys.replay ok sys.init es).any p = true) : ∃ s, sys.Reachable ok s ∧ p s = true :=
  steps_of_replay sys ok p es sys.init h

/-- The state in which a successful replay ends. -/
theorem reachable_get_replay (sys : System S E) (ok : S → E → Prop) [∀ s e, Decidable (ok s e)]
    (es : List E) (h : (sys.replay ok sys.init es).isSome = true) :
    sys.Reachable ok ((sys.replay ok sys.init es).get h) :=
  steps_of_replay_eq sys ok es sys.init (Option.some_get h).symm

/-- A successful replay with a state in the middle. -/
theorem steps_of_replay₂ (sys : System S E) (ok : S → E → Prop) [∀ s e, Decidable (ok s e)]
    (es es' : List E) (p q : S → Bool)
    (h : (sys.replay ok sys.init es).any (fun s => p s && (sys.replay ok s es').any q) = true) :
    ∃ s s', sys.Reachable ok s ∧ p s = true ∧ sys.Steps ok s s' ∧ q s' = true := by
  obtain ⟨s, hs, hboth⟩ := reachable_of_replay sys ok es _ h
  obtain ⟨hp, hrun⟩ := Bool.and_eq_true_iff.mp hboth
  obtain ⟨s', hsteps, hq⟩ := steps_of_replay sys ok q es' s hrun
  exact ⟨s, s', hs, hp, hsteps, hq⟩

/-! ### Recording what happens -/

/-- The system together with a record of its past: `note` says what a step adds to the record. -/
def recording {H : Type*} (sys : System S E) (start : H) (note : S → E → S → H → H) :
    System (S × H) E where
  init := (sys.init, start)
  step s e := (sys.step s.1 e).map fun s' => (s', note s.1 e s' s.2)

section

variable {H : Type*} {start : H} {note : S → E → S → H → H}

theorem recording_step {s s' : S × H} {e : E}
    (h : (sys.recording start note).step s e = some s') :
    sys.step s.1 e = some s'.1 ∧ s'.2 = note s.1 e s'.1 s.2 := by
  obtain ⟨t, ht, rfl⟩ := Option.map_eq_some_iff.mp h
  exact ⟨ht, rfl⟩

variable {okH : S × H → E → Prop}

/-- What a recorded system does, the system does. -/
theorem Reachable.of_recording {s : S × H} (hle : ∀ s e, okH s e → ok s.1 e)
    (h : (sys.recording start note).Reachable okH s) : sys.Reachable ok s.1 :=
  h.invariant (P := fun s => sys.Reachable ok s.1) .init
    fun s e _ hr hok hstep => hr.step (hle s e hok) (recording_step hstep).1

/-- Recording stands in the way of nothing. -/
theorem Reachable.recording {s : S} (hle : ∀ s e, ok s.1 e → okH s e) (h : sys.Reachable ok s) :
    ∃ past, (sys.recording start note).Reachable okH (s, past) := by
  refine h.invariant (P := fun s => ∃ past, (sys.recording start note).Reachable okH (s, past))
    ⟨start, .init⟩ ?_
  rintro s e s' ⟨past, hr⟩ hok hstep
  refine ⟨note s e s' past, hr.step (hle (s, past) e hok) ?_⟩
  simp [System.recording, hstep]

end

end System

end Transition
