import Mathlib.Data.Nat.Notation
import Mathlib.Logic.Function.Basic
import Mathlib.Tactic.Common

/-!
# The life of one underlay

What a channel's goroutines do for one underlay, with everything else left out.  It is
offered; it is added and the listeners are told one after the other; two goroutines are
started to serve it; one of them removes it and tells the listeners, the dial policy in between;
the other finds nothing to remove.

## Main definitions

* `Role`, `Life`, `Life.Step` — what goroutines are doing for the underlay, what has been
  recorded of it, and how this changes.
* `Phase`, `Phase.Describes` — where the underlay is in its life, and what follows from it.

## Main results

* `Life.Step.describes` — every step leads from a phase to a phase.
-/

namespace ZitiChannel.Concurrent

/-- What a listener is told. -/
inductive Seen
  | added
  | removed
  deriving DecidableEq

/-- What a goroutine is doing for the underlay. -/
inductive Role
  | out
  /-- Offering it to the channel. -/
  | offering
  /-- It is added, and so many listeners have been told. -/
  | adding (told : ℕ)
  /-- Serving it, or about to remove it. -/
  | serving
  /-- It is removed, and so many listeners have been told; and whether the dial policy was. -/
  | removing (told : ℕ) (policyTold : Bool)
  deriving DecidableEq

/-- Whether the goroutine is the one on which the next step in the life of the underlay depends. -/
def Role.active : Role → Bool
  | .out | .serving => false
  | _ => true

structure Life where
  roles : ℕ → Role
  offered : Bool
  added : Bool
  /-- Whether the goroutines that serve it were started. -/
  started : Bool
  removed : Bool
  /-- What each listener was told. -/
  seen : ℕ → List Seen
  /-- How often the dial policy was told. -/
  policyCalls : ℕ

namespace Life

/-- The life of an underlay that nobody has offered. -/
def unborn : Life := ⟨fun _ => .out, false, false, false, false, fun _ => [], 0⟩

def setRole (l : Life) (g : ℕ) (r : Role) : Life := { l with roles := Function.update l.roles g r }

def tell (l : Life) (listener : ℕ) (what : Seen) : Life :=
  { l with seen := Function.update l.seen listener (l.seen listener ++ [what]) }

/-- The steps, with the listeners numbered up to `listeners` and with or without a dial policy. -/
inductive Step (listeners : ℕ) (policy : Bool) (l : Life) : Life → Prop
  | offer (g : ℕ) (hg : l.roles g = .out) (h : l.offered = false) :
      Step listeners policy l { l.setRole g .offering with offered := true }
  | refuse (g : ℕ) (hg : l.roles g = .offering) : Step listeners policy l (l.setRole g .out)
  | append (g : ℕ) (hg : l.roles g = .offering) :
      Step listeners policy l { l.setRole g (.adding 0) with added := true }
  | tellAdded (g i : ℕ) (hg : l.roles g = .adding i) (hi : i ≤ listeners) :
      Step listeners policy l ((l.setRole g (.adding (i + 1))).tell i .added)
  | toldAdded (g i : ℕ) (hg : l.roles g = .adding i) (hi : listeners < i) :
      Step listeners policy l (l.setRole g (.adding (listeners + 1)))
  | start (g rx tx : ℕ) (hg : l.roles g = .adding (listeners + 1)) :
      Step listeners policy l
        { ((l.setRole g .out).setRole rx .serving).setRole tx .serving with started := true }
  | remove (g : ℕ) (hg : l.roles g = .serving) (h : l.removed = false) :
      Step listeners policy l { l.setRole g (.removing 0 false) with removed := true }
  | notFound (g : ℕ) (hg : l.roles g = .serving) (h : l.removed = true) :
      Step listeners policy l (l.setRole g .out)
  | tellRemoved (g i : ℕ) (policyTold : Bool) (hg : l.roles g = .removing i policyTold)
      (hi : i ≤ listeners) :
      Step listeners policy l ((l.setRole g (.removing (i + 1) policyTold)).tell i .removed)
  | policyClosed (g i : ℕ) (hg : l.roles g = .removing i false) :
      Step listeners policy l
        { l.setRole g (.removing i true) with policyCalls := l.policyCalls + policy.toNat }
  | toldRemoved (g i : ℕ) (hg : l.roles g = .removing i true) (hi : listeners < i) :
      Step listeners policy l (l.setRole g .out)

end Life

/-- Where the underlay is in its life, with the goroutine on which the next step depends. -/
inductive Phase
  | fresh
  | offered (g : ℕ)
  | refused
  | adding (g told : ℕ)
  | present
  | removing (g told : ℕ) (policyTold : Bool)
  | gone

namespace Phase

def isOffered : Phase → Bool
  | .fresh => false
  | _ => true

def isAdded : Phase → Bool
  | .adding _ _ | .present | .removing _ _ _ | .gone => true
  | _ => false

def isStarted : Phase → Bool
  | .present | .removing _ _ _ | .gone => true
  | _ => false

def isRemoved : Phase → Bool
  | .removing _ _ _ | .gone => true
  | _ => false

/-- What a listener has been told. -/
def seen (listener : ℕ) : Phase → List Seen
  | .fresh | .offered _ | .refused => []
  | .adding _ told => if listener < told then [.added] else []
  | .present => [.added]
  | .removing _ told _ => .added :: if listener < told then [.removed] else []
  | .gone => [.added, .removed]

def policyCalls (policy : Bool) : Phase → ℕ
  | .removing _ _ true | .gone => policy.toNat
  | _ => 0

/-- The goroutine on which the next step depends, and what it is doing. -/
def handler : Phase → Option (ℕ × Role)
  | .offered g => some (g, .offering)
  | .adding g told => some (g, .adding told)
  | .removing g told policyTold => some (g, .removing told policyTold)
  | _ => none

/-- What goroutines are doing in a phase: one of them has the next step, and those that serve
the underlay are started when it is present, and at least one is left until it is removed. -/
structure Assigns (ph : Phase) (roles : ℕ → Role) : Prop where
  handler_of_active : ∀ g, (roles g).active = true → ph.handler = some (g, roles g)
  role_of_handler : ∀ g r, ph.handler = some (g, r) → roles g = r
  started_of_serving : ∀ g, roles g = .serving → ph.isStarted = true
  serving_of_present : ph = .present → ∃ g, roles g = .serving

/-- What a phase says about the life of the underlay. -/
structure Describes (listeners : ℕ) (policy : Bool) (ph : Phase) (l : Life) : Prop where
  assigns : ph.Assigns l.roles
  offered : l.offered = ph.isOffered
  added : l.added = ph.isAdded
  started : l.started = ph.isStarted
  removed : l.removed = ph.isRemoved
  seen : ∀ i ≤ listeners, l.seen i = ph.seen i
  policyCalls : l.policyCalls = ph.policyCalls policy

variable {ph ph' : Phase} {roles : ℕ → Role} {g : ℕ} {r : Role}

/-- The goroutine with the next step goes on, and with it the phase. -/
theorem Assigns.move (h : ph.Assigns roles)
    (hhandler : ph.handler = none ∨ ∃ r, ph.handler = some (g, r))
    (hnew : ph'.handler = if r.active then some (g, r) else none) (hserving : r ≠ .serving)
    (hstarted : ph.isStarted = true → ph'.isStarted = true) (hpresent : ph' ≠ .present) :
    ph'.Assigns (Function.update roles g r) where
  handler_of_active b hb := by
    rcases eq_or_ne b g with rfl | hne
    · rw [Function.update_self] at hb ⊢
      rw [hnew, if_pos hb]
    · rw [Function.update_of_ne hne] at hb
      -- nobody else has the next step
      have hother := h.handler_of_active b hb
      rcases hhandler with hnone | ⟨r', hg⟩
      · rw [hnone] at hother; cases hother
      · rw [hg] at hother; cases hother; exact absurd rfl hne
  role_of_handler b r' hb := by
    rw [hnew] at hb
    split at hb
    · cases hb; exact Function.update_self ..
    · cases hb
  started_of_serving b hb := by
    rcases eq_or_ne b g with rfl | hne
    · rw [Function.update_self] at hb
      exact absurd hb hserving
    · rw [Function.update_of_ne hne] at hb
      exact hstarted (h.started_of_serving b hb)
  serving_of_present hph := absurd hph hpresent

/-- When the listeners have been told, the goroutines that serve the underlay are started. -/
theorem Assigns.start {rx tx i : ℕ} (h : (adding g i).Assigns roles) :
    present.Assigns (Function.update (Function.update (Function.update roles g .out) rx .serving) tx
      .serving) where
  handler_of_active b hb := by
    simp only [Function.update_apply] at hb
    split at hb
    · cases hb
    · split at hb
      · cases hb
      · split at hb
        · cases hb
        · next hne =>
          have hhandler := Option.some.inj (h.handler_of_active b hb)
          exact absurd (congrArg Prod.fst hhandler).symm hne
  role_of_handler b r hb := by cases hb
  started_of_serving _ _ := rfl
  serving_of_present _ := ⟨tx, Function.update_self ..⟩

/-- A goroutine that serves the underlay gives up, when that is not the only one to do. -/
theorem Assigns.leave (h : ph.Assigns roles) (hg : roles g = .serving) (hph : ph ≠ .present) :
    ph.Assigns (Function.update roles g .out) where
  handler_of_active b hb := by
    rcases eq_or_ne b g with rfl | hne
    · rw [Function.update_self] at hb; cases hb
    · rw [Function.update_of_ne hne] at hb ⊢
      exact h.handler_of_active b hb
  role_of_handler b r hb := by
    have hne : b ≠ g := by
      rintro rfl
      have hr := h.role_of_handler b r hb
      rw [hg] at hr
      subst hr
      cases ph <;> cases hb
    rw [Function.update_of_ne hne]
    exact h.role_of_handler b r hb
  started_of_serving b hb := by
    rcases eq_or_ne b g with rfl | hne
    · rw [Function.update_self] at hb; cases hb
    · rw [Function.update_of_ne hne] at hb
      exact h.started_of_serving b hb
  serving_of_present hpresent := absurd hpresent hph

theorem describes_unborn (listeners : ℕ) (policy : Bool) :
    fresh.Describes listeners policy Life.unborn := by
  refine ⟨⟨?_, ?_, ?_, ?_⟩, rfl, rfl, rfl, rfl, fun _ _ => rfl, rfl⟩
  · intro g hg; cases hg
  · intro g r hr; cases hr
  · intro g hg; cases hg
  · intro hph; cases hph

theorem eq_fresh (h : ph.isOffered = false) : ph = .fresh := by
  cases ph <;> simp_all [isOffered]

theorem eq_present (hs : ph.isStarted = true) (hr : ph.isRemoved = false) : ph = .present := by
  cases ph <;> simp_all [isStarted, isRemoved]

theorem Assigns.handler_eq (h : ph.Assigns roles) (hg : roles g = r) (hr : r.active = true) :
    ph.handler = some (g, r) := by
  subst hg
  exact h.handler_of_active g hr

theorem Assigns.eq_offered (h : ph.Assigns roles) (hg : roles g = .offering) : ph = .offered g := by
  have hhandler := h.handler_eq hg rfl
  cases ph <;> cases hhandler
  rfl

theorem Assigns.eq_adding (h : ph.Assigns roles) {i : ℕ} (hg : roles g = .adding i) :
    ph = .adding g i := by
  have hhandler := h.handler_eq hg rfl
  cases ph <;> cases hhandler
  rfl

theorem Assigns.eq_removing (h : ph.Assigns roles) {i : ℕ} {p : Bool}
    (hg : roles g = .removing i p) : ph = .removing g i p := by
  have hhandler := h.handler_eq hg rfl
  cases ph <;> cases hhandler
  rfl

theorem seen_cases (ph : Phase) (l : ℕ) :
    ph.seen l = [] ∨ ph.seen l = [.added] ∨ ph.seen l = [.added, .removed] := by
  unfold seen
  grind

theorem seen_of_started (h : ph.isStarted = true) (l : ℕ) :
    ph.seen l = [.added] ∨ ph.seen l = [.added, .removed] := by
  cases ph with
  | present => exact Or.inl rfl
  | removing g told policyTold => unfold seen; grind
  | gone => exact Or.inr rfl
  | _ => cases h

theorem policyCalls_le (ph : Phase) (policy : Bool) : ph.policyCalls policy ≤ 1 := by
  unfold policyCalls
  split
  · exact Bool.toNat_le policy
  · exact Bool.toNat_le policy
  · exact Nat.zero_le 1

end Phase

namespace Life

variable {listeners : ℕ} {policy : Bool} {l l' : Life}

theorem tell_seen (l : Life) (i j : ℕ) (what : Seen) :
    (l.tell i what).seen j = if j = i then l.seen j ++ [what] else l.seen j := by
  simp only [tell, Function.update_apply]
  split
  · next h => rw [h]
  · rfl

/-- **Every step leads from a phase to a phase.** -/
theorem Step.describes (h : l.Step listeners policy l') {ph : Phase}
    (hd : ph.Describes listeners policy l) : ∃ ph' : Phase, ph'.Describes listeners policy l' := by
  obtain ⟨hassigns, hoffered, hadded, hstarted, hremoved, hseen, hpolicy⟩ := hd
  cases h with
  | offer g hg h =>
    obtain rfl := Phase.eq_fresh (hoffered.symm.trans h)
    refine ⟨.offered g, ?_, rfl, hadded, hstarted, hremoved, hseen, hpolicy⟩
    exact hassigns.move (Or.inl rfl) rfl (by simp) (fun h => h) (by simp)
  | refuse g hg =>
    obtain rfl := hassigns.eq_offered hg
    refine ⟨.refused, ?_, hoffered, hadded, hstarted, hremoved, hseen, hpolicy⟩
    exact hassigns.move (Or.inr ⟨_, rfl⟩) rfl (by simp) (fun h => h) (by simp)
  | append g hg =>
    obtain rfl := hassigns.eq_offered hg
    refine ⟨.adding g 0, ?_, hoffered, rfl, hstarted, hremoved, ?_, hpolicy⟩
    · exact hassigns.move (Or.inr ⟨_, rfl⟩) rfl (by simp) (fun h => h) (by simp)
    · intro i hi
      rw [Phase.seen, if_neg (Nat.not_lt_zero i)]
      exact hseen i hi
  | tellAdded g i hg hi =>
    obtain rfl := hassigns.eq_adding hg
    refine ⟨.adding g (i + 1), ?_, hoffered, hadded, hstarted, hremoved, ?_, hpolicy⟩
    · exact hassigns.move (Or.inr ⟨_, rfl⟩) rfl (by simp) (fun h => h) (by simp)
    · intro j hj
      have hbefore : l.seen j = if j < i then [.added] else [] := hseen j hj
      rw [tell_seen]
      change (if j = i then l.seen j ++ [Seen.added] else l.seen j) =
        if j < i + 1 then [.added] else []
      rw [hbefore]
      grind
  | toldAdded g i hg hi =>
    obtain rfl := hassigns.eq_adding hg
    refine ⟨.adding g (listeners + 1), ?_, hoffered, hadded, hstarted, hremoved, ?_, hpolicy⟩
    · exact hassigns.move (Or.inr ⟨_, rfl⟩) rfl (by simp) (fun h => h) (by simp)
    · intro j hj
      have hbefore : l.seen j = if j < i then [.added] else [] := hseen j hj
      change l.seen j = if j < listeners + 1 then [.added] else []
      rw [hbefore, if_pos (by omega), if_pos (by omega)]
  | start g rx tx hg =>
    obtain rfl := hassigns.eq_adding hg
    refine ⟨.present, hassigns.start, hoffered, hadded, rfl, hremoved, fun j hj => ?_, hpolicy⟩
    have hbefore : l.seen j = if j < listeners + 1 then [.added] else [] := hseen j hj
    exact hbefore.trans (if_pos (by omega))
  | remove g hg h =>
    obtain rfl := Phase.eq_present (hassigns.started_of_serving g hg) (hremoved.symm.trans h)
    refine ⟨.removing g 0 false, ?_, hoffered, hadded, hstarted, rfl, ?_, hpolicy⟩
    · exact hassigns.move (Or.inl rfl) rfl (by simp) (fun h => h) (by simp)
    · intro j hj
      exact hseen j hj
  | notFound g hg h =>
    refine ⟨ph, hassigns.leave hg ?_, hoffered, hadded, hstarted, hremoved, hseen, hpolicy⟩
    rintro rfl
    rw [h] at hremoved
    cases hremoved
  | tellRemoved g i p hg hi =>
    obtain rfl := hassigns.eq_removing hg
    refine ⟨.removing g (i + 1) p, ?_, hoffered, hadded, hstarted, hremoved, ?_, ?_⟩
    · exact hassigns.move (Or.inr ⟨_, rfl⟩) rfl (by simp) (fun h => h) (by simp)
    · intro j hj
      have hbefore : l.seen j = .added :: if j < i then [.removed] else [] := hseen j hj
      rw [tell_seen]
      change (if j = i then l.seen j ++ [Seen.removed] else l.seen j) =
        .added :: if j < i + 1 then [.removed] else []
      rw [hbefore]
      grind
    · cases p <;> exact hpolicy
  | policyClosed g i hg =>
    obtain rfl := hassigns.eq_removing hg
    refine ⟨.removing g i true, ?_, hoffered, hadded, hstarted, hremoved, hseen, ?_⟩
    · exact hassigns.move (Or.inr ⟨_, rfl⟩) rfl (by simp) (fun h => h) (by simp)
    · change l.policyCalls + policy.toNat = policy.toNat
      rw [hpolicy]
      exact Nat.zero_add _
  | toldRemoved g i hg hi =>
    obtain rfl := hassigns.eq_removing hg
    refine ⟨.gone, ?_, hoffered, hadded, hstarted, hremoved, ?_, hpolicy⟩
    · exact hassigns.move (Or.inr ⟨_, rfl⟩) rfl (by simp) (fun h => h) (by simp)
    · intro j hj
      have hbefore : l.seen j = .added :: if j < i then [.removed] else [] := hseen j hj
      exact hbefore.trans (by rw [if_pos (by omega)]; rfl)

end Life

end ZitiChannel.Concurrent
