import ZitiChannel.ChannelSteps

/-!
# The fallback underlay

A channel answers questions about its connection from one of its underlays, the fallback.
`AcceptUnderlay` makes the new underlay the fallback and then adds it.  `closeUnderlay` removes its
underlay from the collection and only then takes the channel's lock to replace the fallback, if that
was the one: by the last of the collection, which another goroutine may be removing meanwhile.  It
runs twice for every underlay.

What this comes to is said with everything else left out: a goroutine has one of a few parts in it
(`Part`), and there are a few steps (`Repair.Step`).

## Main definitions

* `Part`, `Repair`, `Repair.Step` — the fallback, the collection and who is doing what about them.
* `Repair.Kept` — the invariant.
* `watched` — the channel, with a record of the goroutines that have removed an underlay and not yet
  released the lock.

## Main results

* `Repair.Step.kept` — every step keeps the invariant.
* `watched_repair` — every step of the channel is one of these steps or none.
* `fallback_live` — **the fallback is in the collection, or about to be added to it.**

The sources are `impl.go` and `underlays.go`.
-/

namespace ZitiChannel.Concurrent

open Transition

/-! ### The fallback and the collection -/

/-- What a goroutine is doing about the fallback. -/
inductive Part
  | none
  /-- In `NewChannel`, before the first underlay is added. -/
  | new
  /-- In `closeUnderlay`: `Remove` has returned or is telling listeners. -/
  | removed (u : Underlay)
  /-- In `closeUnderlay`, with the lock. -/
  | loading (u : Underlay)
  /-- The fallback was its own underlay. -/
  | choosing (u : Underlay)
  /-- It has chosen another. -/
  | storing (u lastUnderlay : Underlay)
  /-- In `AcceptUnderlay`: the underlay is the fallback and not yet added. -/
  | adding (u : Underlay)
  deriving DecidableEq

namespace Part

/-- Whether the goroutine has the channel's lock, as far as the part tells. -/
def locked : Part → Bool
  | .loading _ | .choosing _ | .storing _ _ | .adding _ => true
  | _ => false

/-- The underlay that a goroutine is closing, if it may still replace the fallback. -/
def closing : Part → Option Underlay
  | .removed u | .loading u | .choosing u | .storing u _ => some u
  | _ => Option.none

end Part

structure Repair where
  underlays : List Underlay
  fallback : Underlay
  parts : ℕ → Part
  /-- The goroutines that have removed an underlay, until they release the lock. -/
  removals : List (ℕ × Underlay)

namespace Repair

def setPart (x : Repair) (g : ℕ) (p : Part) : Repair :=
  { x with parts := Function.update x.parts g p }

/-- The steps.  That only one goroutine has the lock is a condition of those that need it. -/
inductive Step (x : Repair) : Repair → Prop
  | newAppend (g : ℕ) (hg : x.parts g = .new) (hother : ∀ b, b ≠ g → x.parts b = .none) :
      Step x { x.setPart g .none with underlays := x.underlays ++ [x.fallback] }
  | remove (g : ℕ) (u : Underlay) (hg : x.parts g = .none) (h : u ∈ x.underlays) :
      Step x { x.setPart g (.removed u) with
        underlays := x.underlays.erase u
        removals := (g, u) :: x.removals }
  | notFound (g : ℕ) (u : Underlay) (hg : x.parts g = .none) : Step x (x.setPart g (.removed u))
  | lock (g : ℕ) (u : Underlay) (hg : x.parts g = .removed u)
      (hfree : ∀ b, (x.parts b).locked = false) : Step x (x.setPart g (.loading u))
  | isFallback (g : ℕ) (u : Underlay) (hg : x.parts g = .loading u) :
      Step x (x.setPart g (.choosing u))
  | notFallback (g : ℕ) (u : Underlay) (hg : x.parts g = .loading u) (h : x.fallback ≠ u) :
      Step x (x.setPart g .none)
  | another (g : ℕ) (u v : Underlay) (hg : x.parts g = .choosing u) (h : v ∈ x.underlays) :
      Step x (x.setPart g (.storing u v))
  | noOther (g : ℕ) (u : Underlay) (hg : x.parts g = .choosing u) (h : x.underlays = []) :
      Step x (x.setPart g .none)
  | store (g : ℕ) (u v : Underlay) (hg : x.parts g = .storing u v)
      (hother : ∀ b, b ≠ g → (x.parts b).locked = false) :
      Step x { x.setPart g .none with fallback := v }
  | unlock (g : ℕ) (hg : x.parts g = .none) :
      Step x { x with removals := x.removals.filter (·.1 ≠ g) }
  | acceptStore (g : ℕ) (u : Underlay) (hg : x.parts g = .none)
      (hother : ∀ b, (x.parts b).locked = false) :
      Step x { x.setPart g (.adding u) with fallback := u }
  | acceptAppend (g : ℕ) (u : Underlay) (hg : x.parts g = .adding u)
      (hother : ∀ b, b ≠ g → (x.parts b).locked = false) :
      Step x { x.setPart g .none with underlays := x.underlays ++ [u] }

/-- The fallback is in the collection unless that is empty, somebody who removed the fallback has
still to replace it, or it is about to be added. -/
structure Kept (x : Repair) : Prop where
  live : x.underlays = [] ∨ x.fallback ∈ x.underlays ∨
    (∃ g, (g, x.fallback) ∈ x.removals ∧ (x.parts g).closing = some x.fallback) ∨
    ∃ g, x.parts g = .adding x.fallback
  /-- What is chosen is in the collection, or somebody who removed it has still to take the lock. -/
  chosen : ∀ g u v, x.parts g = .storing u v → x.underlays = [] ∨ v ∈ x.underlays ∨
    ∃ b, (b, v) ∈ x.removals ∧ x.parts b = .removed v
  adding : ∀ g u, x.parts g = .adding u → x.fallback = u

section

variable {x y : Repair} {g b : ℕ} {p q : Part}

/-- What holds of a goroutine's part after a change is so of the new part, or was before. -/
theorem setPart_parts (h : (x.setPart g p).parts b = q) :
    b = g ∧ p = q ∨ b ≠ g ∧ x.parts b = q := by
  rcases eq_or_ne b g with rfl | hne
  · exact Or.inl ⟨rfl, by simpa [setPart] using h⟩
  · exact Or.inr ⟨hne, by simpa [setPart, hne] using h⟩

theorem setPart_parts_of_ne (h : b ≠ g) : (x.setPart g p).parts b = x.parts b :=
  Function.update_of_ne h ..

@[simp] theorem setPart_parts_self : (x.setPart g p).parts g = p := Function.update_self ..

/-- A goroutine goes on without touching the fallback or the collection.  It may give up replacing
the fallback only if there is nothing to replace it by, take the lock only if that is free, and choose
only from the collection. -/
theorem Kept.move (h : x.Kept)
    (hclosing : (x.parts g).closing = some x.fallback →
      p.closing = some x.fallback ∨ x.underlays = [])
    (hadding : ∀ u, x.parts g ≠ .adding u) (hadding' : ∀ u, p ≠ .adding u)
    (hlock : ∀ v, x.parts g = .removed v → ∀ b, (x.parts b).locked = false)
    (hchosen : ∀ u v, p = .storing u v → v ∈ x.underlays) : (x.setPart g p).Kept where
  live := by
    rcases h.live with hempty | hmem | ⟨b, hb, hbc⟩ | ⟨b, hb⟩
    · exact Or.inl hempty
    · exact Or.inr (Or.inl hmem)
    · rcases eq_or_ne b g with rfl | hne
      · rcases hclosing hbc with hp | hempty
        · exact Or.inr (Or.inr (Or.inl ⟨b, hb, by rw [setPart_parts_self]; exact hp⟩))
        · exact Or.inl hempty
      · exact Or.inr (Or.inr (Or.inl ⟨b, hb, by rw [setPart_parts_of_ne hne]; exact hbc⟩))
    · have hne : b ≠ g := fun hbg => hadding _ (hbg ▸ hb)
      exact Or.inr (Or.inr (Or.inr ⟨b, by rw [setPart_parts_of_ne hne]; exact hb⟩))
  chosen b u v hb := by
    rcases setPart_parts hb with ⟨rfl, hp⟩ | ⟨-, hb⟩
    · exact Or.inr (Or.inl (hchosen u v hp))
    · rcases h.chosen b u v hb with hempty | hmem | ⟨c, hc, hcr⟩
      · exact Or.inl hempty
      · exact Or.inr (Or.inl hmem)
      · -- `b` has the lock, so the goroutine that removed `v` cannot be the one that moves
        have hne : c ≠ g := fun hcg => by
          have hfree := hlock v (hcg ▸ hcr) b
          rw [hb] at hfree
          cases hfree
        exact Or.inr (Or.inr ⟨c, hc, by rw [setPart_parts_of_ne hne]; exact hcr⟩)
  adding b u hb := by
    rcases setPart_parts hb with ⟨-, hp⟩ | ⟨-, hb⟩
    · exact absurd hp (hadding' u)
    · exact h.adding b u hb

/-- Nobody else is choosing or adding while a goroutine has the lock. -/
theorem not_storing {u v : Underlay} (h : (x.parts b).locked = false) :
    x.parts b ≠ .storing u v := by
  intro hb
  rw [hb] at h
  cases h

theorem not_adding {u : Underlay} (h : (x.parts b).locked = false) : x.parts b ≠ .adding u := by
  intro hb
  rw [hb] at h
  cases h

/-- A removal: of another underlay than the fallback or the chosen one, or the goroutine that removes
it has still to take the lock. -/
theorem Kept.remove (h : x.Kept) {u : Underlay} (hg : x.parts g = .none) :
    Kept { x.setPart g (.removed u) with
      underlays := x.underlays.erase u
      removals := (g, u) :: x.removals } where
  live := by
    rcases h.live with hempty | hmem | ⟨b, hb, hbc⟩ | ⟨b, hb⟩
    · exact Or.inl (by simp [hempty])
    · rcases eq_or_ne x.fallback u with rfl | hne
      · exact Or.inr (Or.inr (Or.inl ⟨g, List.mem_cons_self, by simp [setPart, Part.closing]⟩))
      · exact Or.inr (Or.inl ((List.mem_erase_of_ne hne).mpr hmem))
    · have hne : b ≠ g := by rintro rfl; rw [hg] at hbc; cases hbc
      refine Or.inr (Or.inr (Or.inl ⟨b, List.mem_cons_of_mem _ hb, ?_⟩))
      exact (congrArg Part.closing (setPart_parts_of_ne hne)).trans hbc
    · have hne : b ≠ g := by rintro rfl; rw [hg] at hb; cases hb
      exact Or.inr (Or.inr (Or.inr ⟨b, (setPart_parts_of_ne hne).trans hb⟩))
  chosen b v w hb := by
    rcases setPart_parts hb with ⟨-, hp⟩ | ⟨-, hb⟩
    · cases hp
    · rcases h.chosen b v w hb with hempty | hmem | ⟨c, hc, hcr⟩
      · exact Or.inl (by simp [hempty])
      · rcases eq_or_ne w u with rfl | hne
        · exact Or.inr (Or.inr ⟨g, List.mem_cons_self, setPart_parts_self⟩)
        · exact Or.inr (Or.inl ((List.mem_erase_of_ne hne).mpr hmem))
      · have hne : c ≠ g := by rintro rfl; rw [hg] at hcr; cases hcr
        exact Or.inr (Or.inr ⟨c, List.mem_cons_of_mem _ hc, (setPart_parts_of_ne hne).trans hcr⟩)
  adding b v hb := by
    rcases setPart_parts hb with ⟨-, hp⟩ | ⟨-, hb⟩
    · cases hp
    · exact h.adding b v hb

/-- What was chosen becomes the fallback. -/
theorem Kept.store (h : x.Kept) {u v : Underlay} (hg : x.parts g = .storing u v)
    (hother : ∀ b, b ≠ g → (x.parts b).locked = false) :
    Kept { x.setPart g .none with fallback := v } where
  live := by
    rcases h.chosen g u v hg with hempty | hmem | ⟨c, hc, hcr⟩
    · exact Or.inl hempty
    · exact Or.inr (Or.inl hmem)
    · have hne : c ≠ g := by rintro rfl; rw [hg] at hcr; cases hcr
      refine Or.inr (Or.inr (Or.inl ⟨c, hc, ?_⟩))
      exact (congrArg Part.closing (setPart_parts_of_ne hne)).trans (by rw [hcr]; rfl)
  chosen b w w' hb := by
    rcases setPart_parts hb with ⟨-, hp⟩ | ⟨hne, hb⟩
    · cases hp
    · exact absurd hb (not_storing (hother b hne))
  adding b w hb := by
    rcases setPart_parts hb with ⟨-, hp⟩ | ⟨hne, hb⟩
    · cases hp
    · exact absurd hb (not_adding (hother b hne))

/-- The goroutine that has the lock, or `NewChannel`, adds the fallback. -/
theorem Kept.append (hother : ∀ b, b ≠ g → (x.parts b).locked = false) :
    Kept { x.setPart g .none with underlays := x.underlays ++ [x.fallback] } where
  live := Or.inr (Or.inl (List.mem_append_right _ (List.mem_singleton_self _)))
  chosen b w w' hb := by
    rcases setPart_parts hb with ⟨-, hp⟩ | ⟨hne, hb⟩
    · cases hp
    · exact absurd hb (not_storing (hother b hne))
  adding b w hb := by
    rcases setPart_parts hb with ⟨-, hp⟩ | ⟨hne, hb⟩
    · cases hp
    · exact absurd hb (not_adding (hother b hne))

/-- **Every step keeps the invariant.** -/
theorem Step.kept (h : x.Kept) (hstep : x.Step y) : y.Kept := by
  cases hstep with
  | newAppend g hg hother => exact Kept.append fun b hb => by rw [hother b hb]; rfl
  | remove g u hg _ => exact h.remove hg
  | notFound g u hg =>
    refine h.move ?_ ?_ ?_ ?_ ?_ <;> simp [hg, Part.closing]
  | lock g u hg hfree =>
    refine h.move (fun hc => Or.inl (by rw [hg] at hc; exact hc)) ?_ ?_ (fun _ _ => hfree) ?_ <;>
      simp [hg]
  | isFallback g u hg =>
    refine h.move (fun hc => Or.inl (by rw [hg] at hc; exact hc)) ?_ ?_ ?_ ?_ <;> simp [hg]
  | notFallback g u hg hne =>
    refine h.move ?_ ?_ ?_ ?_ ?_ <;> simp [hg, Part.closing, hne.symm]
  | another g u v hg hmem =>
    refine h.move (fun hc => Or.inl (by rw [hg] at hc; exact hc)) ?_ ?_ ?_ ?_
    · simp [hg]
    · simp
    · simp [hg]
    · rintro u' v' ⟨rfl, rfl⟩; exact hmem
  | noOther g u hg hempty =>
    refine h.move (fun _ => Or.inr hempty) ?_ ?_ ?_ ?_ <;> simp [hg]
  | store g u v hg hother => exact h.store hg hother
  | unlock g hg =>
    refine ⟨?_, ?_, h.adding⟩
    · rcases h.live with hempty | hmem | ⟨b, hb, hbc⟩ | hadd
      · exact Or.inl hempty
      · exact Or.inr (Or.inl hmem)
      · have hne : b ≠ g := by rintro rfl; rw [hg] at hbc; cases hbc
        exact Or.inr (Or.inr (Or.inl ⟨b, List.mem_filter.mpr ⟨hb, by simpa using hne⟩, hbc⟩))
      · exact Or.inr (Or.inr (Or.inr hadd))
    · intro b u v hb
      rcases h.chosen b u v hb with hempty | hmem | ⟨c, hc, hcr⟩
      · exact Or.inl hempty
      · exact Or.inr (Or.inl hmem)
      · have hne : c ≠ g := by rintro rfl; rw [hg] at hcr; cases hcr
        exact Or.inr (Or.inr ⟨c, List.mem_filter.mpr ⟨hc, by simpa using hne⟩, hcr⟩)
  | acceptStore g u hg hother =>
    refine ⟨Or.inr (Or.inr (Or.inr ⟨g, setPart_parts_self⟩)), ?_, ?_⟩
    · intro b v w hb
      rcases setPart_parts hb with ⟨-, hp⟩ | ⟨-, hb⟩
      · cases hp
      · exact absurd hb (not_storing (hother b))
    · intro b v hb
      rcases setPart_parts hb with ⟨-, hp⟩ | ⟨-, hb⟩
      · cases hp; rfl
      · exact absurd hb (not_adding (hother b))
  | acceptAppend g u hg hother =>
    obtain rfl := h.adding g u hg
    exact Kept.append hother

end

end Repair

/-! ### The channel with a record of removals -/

def AcceptPc.part (u : Underlay) : AcceptPc → Part
  | .add .append => .adding u
  | _ => .none

def CloseUnderlayPc.part (u : Underlay) : CloseUnderlayPc → Part
  | .notify _ | .dialPolicy | .respond | .closing | .lock => .removed u
  | .loadFallback => .loading u
  | .getAll => .choosing u
  | .store lastUnderlay => .storing u lastUnderlay
  | .close | .remove | .unlock => .none

def Routine.part : Routine → Part
  | .newChannel .bind | .newChannel (.add .append) => .new
  | .acceptUnderlay u pc | .applyConstraints (.accept u pc _ _) => pc.part u
  | .closeUnderlay u pc => pc.part u
  | _ => .none

/-- A goroutine that removes an underlay in `closeUnderlay` is noted, until it releases the lock. -/
def noteRemoval (s : State) (e : Event) (_ : State) (removals : List (ℕ × Underlay)) :
    List (ℕ × Underlay) :=
  match e with
  | .run g _ =>
      match s.routines g with
      | .closeUnderlay u .remove =>
          if u ∈ s.ch.underlays then (g, u) :: removals else removals
      | .closeUnderlay _ .unlock => removals.filter (·.1 ≠ g)
      | _ => removals
  | _ => removals

/-- The channel with a record of the goroutines that have removed an underlay and not yet released the
lock. -/
def watched (setup : Setup) : System (State × List (ℕ × Underlay)) Event :=
  (channel setup).recording [] noteRemoval

/-- `AcceptUnderlay` is not called before `NewChannel` has returned. -/
def AfterNew (s : State) : Event → Prop
  | .callAccept _ _ => s.returned = true
  | _ => True

instance (s : State) : DecidablePred (AfterNew s) := fun e =>
  match e with
  | .callAccept _ _ => inferInstanceAs (Decidable (s.returned = true))
  | .run _ _ | .close _ _ | .callClose _ => inferInstanceAs (Decidable True)

/-- The fallback, the collection and who is doing what about them. -/
def State.repair (s : State) (removals : List (ℕ × Underlay)) : Repair :=
  ⟨s.ch.underlays, s.ch.fallbackUnderlay, fun g => (s.routines g).part, removals⟩

section

variable {setup : Setup} {s s' : State} {g b : ℕ} {eff : Effect} {r r' : Routine}
  {removals removals' : List (ℕ × Underlay)}

theorem AcceptPc.part_locked {u : Underlay} {pc : AcceptPc} (h : (pc.part u).locked = true) :
    pc.locked = true := by
  unfold part at h
  split at h
  · rfl
  · cases h

theorem Routine.part_locked (h : r.part.locked = true) : r.locked = true := by
  unfold part at h
  split at h
  · cases h
  · cases h
  · exact AcceptPc.part_locked h
  · exact AcceptPc.part_locked h
  · next u pc => cases pc <;> first | rfl | cases h
  · cases h

/-- While one goroutine has the lock, the others have no part that needs it. -/
theorem part_locked_of_ne {ok : State → Event → Prop} (hs : (channel setup).Reachable ok s)
    (hg : (s.routines g).locked = true) (hne : b ≠ g) : (s.routines b).part.locked = false := by
  rw [← Bool.not_eq_true]
  intro hb
  refine hne ((lock_owned hs).unique ?_ ?_)
  · simp [State.held, Routine.part_locked hb]
  · simp [State.held, hg]

/-- While the lock is free, nobody has a part that needs it. -/
theorem part_locked_of_free {ok : State → Event → Prop} (hs : (channel setup).Reachable ok s)
    (hfree : s.lock = none) (b : ℕ) : (s.routines b).part.locked = false := by
  rw [← Bool.not_eq_true]
  intro hb
  have hheld := lock_owned hs b
  simp [State.held, Routine.part_locked hb, hfree] at hheld

theorem AcceptPc.part_ne_new {u : Underlay} (pc : AcceptPc) : pc.part u ≠ .new := by
  unfold part
  split <;> simp

theorem Routine.Moves.bind_of_new (h : r.Moves setup s r' eff) (hnew : r'.part = .new) :
    r = .newChannel .bind ∧ eff = .quiet := by
  cases h with
  | bound => exact ⟨rfl, rfl⟩
  | accept _ _ pc' | dialAccept _ _ pc' => exact absurd hnew pc'.part_ne_new
  | _ => cases hnew

/-- Before `NewChannel` has added the first underlay, nothing else happens. -/
theorem new_alone (hs : (channel setup).Reachable AfterNew s) :
    ∀ g, (s.routines g).part = .new → s.ch.fallbackUnderlay = setup.first ∧ s.returned = false ∧
      ∀ b, b ≠ g → s.routines b = .idle := by
  refine hs.invariant (P := fun s => ∀ g, (s.routines g).part = .new →
    s.ch.fallbackUnderlay = setup.first ∧ s.returned = false ∧
      ∀ b, b ≠ g → s.routines b = .idle) ?_ ?_
  · intro g hg
    obtain rfl : g = 0 := by
      by_contra hne
      simp [channel, hne, Routine.part] at hg
    exact ⟨rfl, rfl, fun b hb => by simp [channel, hb]⟩
  · intro s e s' h hok hstep
    refine step_cases (P := fun s' => ∀ g, (s'.routines g).part = .new →
      s'.ch.fallbackUnderlay = setup.first ∧ s'.returned = false ∧
        ∀ b, b ≠ g → s'.routines b = .idle) hstep ?_ ?_ ?_ ?_
    · intro g a r eff _ _ hmoves hen
      refine forall_routines (P := fun g' r' => r'.part = .new →
        ((s.setRoutine g r).apply g eff).ch.fallbackUnderlay = setup.first ∧
        ((s.setRoutine g r).apply g eff).returned = false ∧
          ∀ b, b ≠ g' → ((s.setRoutine g r).apply g eff).routines b = .idle) hen ?_ ?_ ?_
      · -- the binder returns
        intro hnew
        obtain ⟨hr, rfl⟩ := hmoves.bind_of_new hnew
        obtain ⟨hfb, hret, hidle⟩ := h g (by rw [hr]; rfl)
        exact ⟨hfb, hret, fun b hb => (Function.update_of_ne hb ..).trans (hidle b hb)⟩
      · intro b r' hb hnew
        rcases Effect.spawned_cases hb with rfl | ⟨v, rx, tx, -, rfl | rfl⟩ <;> cases hnew
      · -- the others are idle, and so do not move
        intro g' hne hnew
        have hidle := (h g' hnew).2.2 g hne.symm
        rw [hidle] at hmoves
        cases hmoves
    · intro g a pc rest pcs eff _ _ hmoves _ g' hg'
      have hfb : ((s.setCloses g (pcs ++ rest)).apply g eff).ch.fallbackUnderlay =
          s.ch.fallbackUnderlay := by cases hmoves <;> rfl
      have hframe : CloseFrame s ((s.setCloses g (pcs ++ rest)).apply g eff) := hmoves.frame
      rw [hframe.routines] at hg' ⊢
      rw [hfb, hframe.returned]
      exact h g' hg'
    · rintro g u rfl hidle g' hg'
      rcases eq_or_ne g' g with rfl | hne
      · simp [State.setRoutine, Routine.part, AcceptPc.part] at hg'
      · -- `AcceptUnderlay` is called after `NewChannel` has returned
        have hnew : (s.routines g').part = .new := by simpa [State.setRoutine, hne] using hg'
        have hret : s.returned = true := hok
        rw [(h g' hnew).2.1] at hret
        cases hret
    · intro g _ _ g' hg'
      exact h g' hg'

/-! ### The channel does these steps -/

/-- What a step of a goroutine does about the fallback. -/
theorem repair_run (removals : List (ℕ × Underlay)) (hen : eff.enabled s g = true) :
    ((s.setRoutine g r).apply g eff).repair removals' =
      { (s.repair removals).setPart g r.part with
        underlays := (s.apply g eff).ch.underlays
        fallback := (s.apply g eff).ch.fallbackUnderlay
        removals := removals' } := by
  have hch : ((s.setRoutine g r).apply g eff).ch = (s.apply g eff).ch := by cases eff <;> rfl
  have hparts : (fun b => (((s.setRoutine g r).apply g eff).routines b).part) =
      Function.update (fun b => (s.routines b).part) g r.part :=
    map_routines hen rfl (fun _ => rfl) fun _ => rfl
  simp only [State.repair, Repair.setPart, hch, hparts]

/-- A step that changes neither the part of the goroutine, nor the collection, nor the fallback. -/
theorem repair_same (hen : eff.enabled s g = true) (hpart : r.part = (s.routines g).part)
    (hund : (s.apply g eff).ch.underlays = s.ch.underlays)
    (hfb : (s.apply g eff).ch.fallbackUnderlay = s.ch.fallbackUnderlay) :
    ((s.setRoutine g r).apply g eff).repair removals = s.repair removals := by
  rw [repair_run removals hen, hund, hfb, hpart]
  simp [Repair.setPart, State.repair]

theorem Routine.part_of_accepting {u : Underlay} {pc : AcceptPc} (h : r.accepting = some (u, pc)) :
    r.part = pc.part u := by
  unfold accepting at h
  split at h <;> cases h <;> rfl

/-- A step of `AcceptUnderlay`. -/
theorem repair_accept {ok : State → Event → Prop} {u : Underlay} {pc pc' : AcceptPc}
    (hs : (channel setup).Reachable ok s) (hr : (s.routines g).accepting = some (u, pc))
    (hr' : r.accepting = some (u, pc')) (h : pc.Moves setup s u pc' eff)
    (hen : eff.enabled s g = true) :
    ((s.setRoutine g r).apply g eff).repair removals = s.repair removals ∨
      (s.repair removals).Step (((s.setRoutine g r).apply g eff).repair removals) := by
  have hpart := Routine.part_of_accepting hr
  have hpart' := Routine.part_of_accepting hr'
  cases h with
  | store =>
    have hother : ∀ b, ((s.repair removals).parts b).locked = false := fun b => by
      rcases eq_or_ne b g with rfl | hne
      · exact congrArg Part.locked hpart
      · exact part_locked_of_ne hs (Routine.locked_of_accepting hr) hne
    rw [repair_run removals hen, hpart']
    exact Or.inr (.acceptStore g u hpart hother)
  | append =>
    rw [repair_run removals hen, hpart']
    exact Or.inr (.acceptAppend g u hpart fun b hne =>
      part_locked_of_ne hs (Routine.locked_of_accepting hr) hne)
  | _ => exact Or.inl (repair_same hen (hpart'.trans hpart.symm) rfl rfl)

/-- **Every step of the channel is a step of the protocol, or none.** -/
theorem watched_repair {e : Event} (removals : List (ℕ × Underlay))
    (hs : (channel setup).Reachable AfterNew s) (hstep : (channel setup).step s e = some s') :
    s'.repair (noteRemoval s e s' removals) = s.repair removals ∨
      (s.repair removals).Step (s'.repair (noteRemoval s e s' removals)) := by
  refine step_cases (P := fun s' => s'.repair (noteRemoval s e s' removals) = s.repair removals ∨
    (s.repair removals).Step (s'.repair (noteRemoval s e s' removals))) hstep ?_ ?_ ?_ ?_
  · rintro g a r eff rfl _ hmoves hen
    generalize hr : s.routines g = r₀ at hmoves
    have hpart : (s.repair removals).parts g = r₀.part := congrArg Routine.part hr
    cases hmoves with
    | accept u pc pc' _ h =>
      simp only [noteRemoval, hr]
      exact repair_accept hs (by rw [hr]; rfl) rfl h hen
    | dialAccept u pc pc' _ _ _ h =>
      simp only [noteRemoval, hr]
      exact repair_accept hs (by rw [hr]; rfl) rfl h hen
    | newAppend =>
      obtain ⟨hfb, -, hidle⟩ := new_alone hs g (by rw [hr]; rfl)
      have hother : ∀ b, b ≠ g → (s.repair removals).parts b = .none :=
        fun b hne => congrArg Routine.part (hidle b hne)
      simp only [noteRemoval, hr]
      rw [repair_run removals hen]
      exact Or.inr (hfb ▸ .newAppend g hpart hother)
    | remove u h =>
      simp only [noteRemoval, hr, if_pos h]
      rw [repair_run removals hen]
      exact Or.inr (.remove g u hpart h)
    | notFound u h =>
      simp only [noteRemoval, hr, if_neg h]
      rw [repair_run removals hen]
      exact Or.inr (.notFound g u hpart)
    | lock u =>
      simp only [noteRemoval, hr]
      rw [repair_run removals hen]
      exact Or.inr (.lock g u hpart (part_locked_of_free hs (by simpa [Effect.enabled] using hen)))
    | isFallback u h =>
      simp only [noteRemoval, hr]
      rw [repair_run removals hen]
      exact Or.inr (.isFallback g u hpart)
    | notFallback u h =>
      simp only [noteRemoval, hr]
      rw [repair_run removals hen]
      exact Or.inr (.notFallback g u hpart h)
    | another u v h =>
      simp only [noteRemoval, hr]
      rw [repair_run removals hen]
      exact Or.inr (.another g u v hpart (List.mem_of_getLast? h))
    | noOther u h =>
      simp only [noteRemoval, hr]
      rw [repair_run removals hen]
      exact Or.inr (.noOther g u hpart h)
    | store u v =>
      simp only [noteRemoval, hr]
      rw [repair_run removals hen]
      exact Or.inr (.store g u v hpart fun b hne => part_locked_of_ne hs (by rw [hr]; rfl) hne)
    | unlock u =>
      have hsame : (s.repair removals).setPart g Routine.idle.part = s.repair removals := by
        have hidle : Routine.idle.part = (s.repair removals).parts g := hpart.symm
        rw [hidle]
        simp [Repair.setPart]
      simp only [noteRemoval, hr]
      rw [repair_run removals hen, hsame]
      exact Or.inr (.unlock g hpart)
    | _ =>
      simp only [noteRemoval, hr]
      exact Or.inl (repair_same hen (by rw [hr]; rfl) rfl rfl)
  · rintro g a pc rest pcs eff rfl _ hmoves _
    left
    have hframe : CloseFrame s ((s.setCloses g (pcs ++ rest)).apply g eff) := hmoves.frame
    have hfb : ((s.setCloses g (pcs ++ rest)).apply g eff).ch.fallbackUnderlay =
        s.ch.fallbackUnderlay := by cases hmoves <;> rfl
    simp only [State.repair, noteRemoval, hframe.routines, hframe.underlays, hfb]
  · rintro g u rfl hidle
    have hparts : (fun b => ((s.setRoutine g (.acceptUnderlay u .lock)).routines b).part) =
        fun b => (s.routines b).part := map_routines_callAccept hidle rfl
    exact Or.inl (congrArg (Repair.mk s.ch.underlays s.ch.fallbackUnderlay · removals) hparts)
  · rintro g rfl _
    exact Or.inl rfl

/-- The invariant holds in every state of the channel. -/
theorem watched_kept
    (hs : (watched setup).Reachable (fun x => AfterNew x.1) (s, removals)) :
    (s.repair removals).Kept := by
  refine System.Reachable.invariant_of_reachable
    (P := fun x : State × List (ℕ × Underlay) => (x.1.repair x.2).Kept) ?_ ?_ hs
  · -- only `NewChannel` is running
    have hparts : ∀ b, ((channel setup).init.routines b).part = .new ∨
        ((channel setup).init.routines b).part = .none := fun b => by
      rcases eq_or_ne b 0 with rfl | hne
      · exact Or.inl rfl
      · exact Or.inr (by simp [channel, hne, Routine.part])
    refine ⟨Or.inl rfl, fun b u v hb => ?_, fun b u hb => ?_⟩
    · rcases hparts b with h | h <;> cases h.symm.trans hb
    · rcases hparts b with h | h <;> cases h.symm.trans hb
  · rintro ⟨s, removals⟩ e ⟨s', removals'⟩ hr hkept - h
    obtain ⟨hstep, hnote⟩ := System.recording_step h
    dsimp only at hstep hnote hkept ⊢
    subst hnote
    have hreach : (channel setup).Reachable AfterNew s :=
      System.Reachable.of_recording (fun _ _ h => h) hr
    rcases watched_repair removals hreach hstep with hsame | hmove
    · rw [hsame]
      exact hkept
    · exact hmove.kept hkept

theorem Routine.accepting_of_adding {u : Underlay} (h : r.part = .adding u) :
    r.accepting = some (u, .add .append) := by
  unfold part at h
  split at h
  · cases h
  · cases h
  · next v pc =>
    unfold AcceptPc.part at h
    split at h <;> cases h
    rfl
  · next v pc _ _ =>
    unfold AcceptPc.part at h
    split at h <;> cases h
    rfl
  · next v pc => cases pc <;> cases h
  · cases h

end

/-! ### The fallback is live -/

/-- `channelImpl.Underlay`, from which `Headers`, `Certificates` and `Label` are answered. -/
def State.underlay (s : State) : Underlay := s.ch.fallbackUnderlay

/-- **The fallback is in the collection, or about to be added to it.**  For any interleaving of
`AcceptUnderlay` calls after `NewChannel` has returned and of everything else that goroutines do: if
nobody is between removing an underlay and releasing the lock and there are underlays, the fallback is
one of them, or the underlay of a call of `AcceptUnderlay` that has the lock and adds it next. -/
theorem fallback_live {setup : Setup} {s : State}
    (hs : (watched setup).Reachable (fun x => AfterNew x.1) (s, []))
    (hne : s.ch.underlays ≠ []) :
    s.underlay ∈ s.ch.underlays ∨
      ∃ g, s.lock = some g ∧ (s.routines g).accepting = some (s.underlay, .add .append) := by
  rcases (watched_kept hs).live with hempty | hmem | ⟨g, hg, -⟩ | ⟨g, hg⟩
  · exact absurd hempty hne
  · exact Or.inl hmem
  · cases hg
  · have hacc := Routine.accepting_of_adding hg
    have hreach : (channel setup).Reachable AfterNew s :=
      System.Reachable.of_recording (fun _ _ h => h) hs
    have hlocked : (s.routines g).locked = true := Routine.locked_of_accepting hacc
    exact Or.inr ⟨g, (lock_owned hreach).lock_eq (by simp [State.held, hlocked]), hacc⟩

/-- A channel that takes in underlays and asks for none. -/
def fallbackSetup : Setup where
  config :=
    { logicalName := [], senders := true, messageSourceProvider := true, underlay := none
      binder := ⟨[], none⟩, dialPolicy := true, constraints := ∅, minTotalUnderlays := 0 }
  first := ⟨0, [], [], Finmap.singleton groupSecretHeader [7]⟩
  validUnderlayTypes := []
  listeners := 0
  peekHandlers := []
  closeHandlers := []

/-- An underlay that the channel takes in. -/
def fallbackUnderlay (ref : ℕ) : Underlay := ⟨ref, [], [], Finmap.singleton groupSecretHeader [7]⟩

/-- Two underlays are accepted and lost.  Goroutine 7, closing the second, chooses the first of them
while goroutine 5 removes that; goroutine 5 then finds it as fallback and replaces it. -/
def fallbackRun : List Event :=
  let gos (n g : ℕ) : List Event := List.replicate n (.run g .go)
  List.flatten
    [gos 4 0, [.run 0 (.start 1 2), .run 0 (.spawn 3)],
      [.callAccept 4 (fallbackUnderlay 1)], gos 6 4, [.run 4 (.start 5 6)], gos 1 4,
      [.callAccept 4 (fallbackUnderlay 2)], gos 6 4, [.run 4 (.start 7 8)], gos 1 4,
      gos 5 7, [.run 7 (.spawn 9)], gos 4 7, gos 3 5, gos 2 7,
      gos 2 5, [.run 5 (.spawn 10)], gos 6 5]

/-- Both goroutines are through, and the fallback is the one underlay that is left. -/
theorem fallback_live_chosen_removed :
    ∃ s, (watched fallbackSetup).Reachable (fun x => AfterNew x.1) (s, []) ∧
      s.ch.underlays = [fallbackSetup.first] ∧ s.removed = [fallbackUnderlay 2, fallbackUnderlay 1] ∧
      s.underlay ∈ s.ch.underlays := by
  obtain ⟨⟨s, removals⟩, hs, h⟩ := System.reachable_of_replay (watched fallbackSetup)
    (fun x => AfterNew x.1) fallbackRun (fun x => decide (x.2 = [] ∧ x.1.lock = none ∧
      x.1.ch.underlays = [fallbackSetup.first] ∧
      x.1.removed = [fallbackUnderlay 2, fallbackUnderlay 1])) (by decide +kernel)
  obtain ⟨hdone, hlock, hund, hremoved⟩ := of_decide_eq_true h
  dsimp only at hdone hlock hund hremoved
  subst hdone
  refine ⟨s, hs, hund, hremoved, ?_⟩
  rcases fallback_live hs (by rw [hund]; simp) with hmem | ⟨g, hg, -⟩
  · exact hmem
  · rw [hlock] at hg
    cases hg

/-- A call of `AcceptUnderlay` has stored its underlay as fallback and not yet added it: the fallback
is not in the collection, though that is not empty and nothing was ever removed. -/
theorem fallback_live_adding :
    ∃ s, (watched fallbackSetup).Reachable (fun x => AfterNew x.1) (s, []) ∧ s.returned = true ∧
      s.ch.underlays ≠ [] ∧ s.underlay ∉ s.ch.underlays := by
  obtain ⟨⟨s, removals⟩, hs, h⟩ := System.reachable_of_replay (watched fallbackSetup)
    (fun x => AfterNew x.1)
    [.run 0 .go, .run 0 .go, .run 0 .go, .run 0 .go, .run 0 (.start 1 2), .run 0 (.spawn 3),
      .callAccept 4 (fallbackUnderlay 1), .run 4 .go, .run 4 .go, .run 4 .go]
    (fun x => decide (x.2 = [] ∧ x.1.returned = true ∧ x.1.ch.underlays ≠ [] ∧
      x.1.underlay ∉ x.1.ch.underlays)) (by decide +kernel)
  obtain ⟨hdone, hreturned, hne, hnot⟩ := of_decide_eq_true h
  dsimp only at hdone hreturned hne hnot
  subst hdone
  exact ⟨s, hs, hreturned, hne, hnot⟩

end ZitiChannel.Concurrent
