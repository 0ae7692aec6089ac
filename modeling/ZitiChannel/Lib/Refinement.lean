import ZitiChannel.Lib.Transition

/-!
# Refinement of transition systems

One system refines another along a mapping of its states if every step it can take is a run of the
other.  The run may be empty, so a step that the other system does not see stutters, and it may
be longer than one step.  What holds in every reachable state of the abstract system then holds of
every reachable state of the concrete one, through the mapping.

A system that is a part of another is refined by it along the projection.

## Main definitions

* `System.Refines` — a mapping under which steps are runs.

## Main results

* `Refines.reachable`, `Refines.steps` — reachable states and runs are mapped to such.
* `Refines.invariant` — invariants go back along the mapping.
-/

namespace Transition.System

variable {S E A F : Type*}

/-- Every step of `conc` between reachable states is a run of `abs`, under a mapping of states. -/
structure Refines (conc : System S E) (okC : S → E → Prop) (abs : System A F)
    (okA : A → F → Prop) (f : S → A) : Prop where
  init : f conc.init = abs.init
  step : ∀ s e s', conc.Reachable okC s → okC s e → conc.step s e = some s' →
    abs.Steps okA (f s) (f s')

section

variable {abs : System A F} {okA : A → F → Prop}

/-- A step of the abstract system, as a run. -/
theorem Steps.single {a a' : A} {e : F} (hok : okA a e) (h : abs.step a e = some a') :
    abs.Steps okA a a' :=
  Relation.ReflTransGen.single ⟨e, hok, h⟩

/-- A step that the abstract system does not see. -/
theorem Steps.stutter (a : A) : abs.Steps okA a a := Relation.ReflTransGen.refl

end

namespace Refines

variable {conc : System S E} {okC : S → E → Prop} {abs : System A F} {okA : A → F → Prop}
  {f : S → A}

theorem reachable (h : conc.Refines okC abs okA f) {s : S} (hs : conc.Reachable okC s) :
    abs.Reachable okA (f s) := by
  refine hs.invariant_of_reachable (P := fun s => abs.Reachable okA (f s)) ?_ ?_
  · show abs.Steps okA abs.init (f conc.init)
    rw [h.init]
    exact Steps.stutter _
  · intro s e s' hr ih hok hstep
    exact ih.steps (h.step s e s' hr hok hstep)

theorem steps (h : conc.Refines okC abs okA f) {s s' : S} (hs : conc.Reachable okC s)
    (hrun : conc.Steps okC s s') : abs.Steps okA (f s) (f s') := by
  induction hrun with
  | refl => exact Steps.stutter _
  | @tail b c hrun hlast ih =>
    obtain ⟨e, hok, he⟩ := hlast
    exact Relation.ReflTransGen.trans ih (h.step b e c (hs.steps hrun) hok he)

/-- **Invariants go back along a refinement.** -/
theorem invariant (h : conc.Refines okC abs okA f) {P : A → Prop}
    (hP : ∀ a, abs.Reachable okA a → P a) {s : S} (hs : conc.Reachable okC s) : P (f s) :=
  hP (f s) (h.reachable hs)

end Refines

end Transition.System
