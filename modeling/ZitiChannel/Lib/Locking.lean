import Mathlib.Data.Set.Basic
import Mathlib.Logic.Function.Basic
import ZitiChannel.Lib.Transition

/-!
# Lock orders

Threads take and release locks.  Of what a thread does only this is kept: a program is made of
locking and unlocking, and which way it goes at a branch, or how often it goes round a loop, is
left open.  Whatever holds in all runs of such programs holds for the threads they were read off.

A program follows an order on the locks if it takes a lock only while all locks that it holds come
before it, and gives back what it took, the last one first.  If no infinite chain of locks goes
upwards in the order, threads that follow it are never stuck on each other.

## Main definitions

* `Prog`, `advance` — programs, and what a thread does next.
* `Runs k acts k'` — a thread goes from `k` to `k'`, and does `acts` to locks on the way.
* `State`, `Event`, `system` — any number of threads, each running one program after another.
* `Prog.Follows` — a program follows the order.
* `Reaches l t before after k k'` — what a thread can do while the others do nothing.
* `State.Deadlocked s T` — the threads in `T` wait for each other.

## Main results

* `Prog.Follows.critical`, `Prog.Follows.maybe`, `Prog.Follows.loop` — programs that follow the order.
* `not_deadlocked` — programs that follow the order never deadlock.
-/

namespace Locking

open Transition

/-- What a thread does with locks. -/
inductive Prog (ℓ : Type*)
  | skip
  | lock (l : ℓ)
  | unlock (l : ℓ)
  | seq (p q : Prog ℓ)
  | choice (p q : Prog ℓ)
  /-- Once, or several times. -/
  | again (p : Prog ℓ)
  deriving DecidableEq

inductive Act (ℓ : Type*)
  | lock (l : ℓ)
  | unlock (l : ℓ)
  deriving DecidableEq

namespace Prog

variable {ℓ : Type*}

/-- Do `p` with the lock held. -/
def critical (l : ℓ) (p : Prog ℓ) : Prog ℓ := .seq (.lock l) (.seq p (.unlock l))

/-- Do `p` or nothing. -/
def maybe (p : Prog ℓ) : Prog ℓ := .choice p .skip

/-- Do `p` any number of times. -/
def loop (p : Prog ℓ) : Prog ℓ := .maybe (.again p)

end Prog

/-! ### Threads -/

section

variable {ℓ : Type*}

/-- What a thread with the programs `k` ahead of it does next.  At a branch it goes the first way
if `b` says so. -/
def advance (b : Bool) : List (Prog ℓ) → Option (Option (Act ℓ) × List (Prog ℓ))
  | [] => none
  | .skip :: k => some (none, k)
  | .lock l :: k => some (some (.lock l), k)
  | .unlock l :: k => some (some (.unlock l), k)
  | .seq p q :: k => some (none, p :: q :: k)
  | .choice p q :: k => some (none, (bif b then p else q) :: k)
  | .again p :: k => some (none, p :: .loop p :: k)

/-- What a thread may do, one step after another. -/
inductive Runs : List (Prog ℓ) → List (Act ℓ) → List (Prog ℓ) → Prop
  | refl (k : List (Prog ℓ)) : Runs k [] k
  | quiet {k k' k'' : List (Prog ℓ)} {acts : List (Act ℓ)} (b : Bool)
      (ha : advance b k = some (none, k')) (h : Runs k' acts k'') : Runs k acts k''
  | act {k k' k'' : List (Prog ℓ)} {a : Act ℓ} {acts : List (Act ℓ)} (b : Bool)
      (ha : advance b k = some (some a, k')) (h : Runs k' acts k'') : Runs k (a :: acts) k''

namespace Runs

variable {k k' : List (Prog ℓ)} {acts : List (Act ℓ)} {p q : Prog ℓ} {l : ℓ}

theorem skip (h : Runs k acts k') : Runs (.skip :: k) acts k' := quiet true rfl h

theorem lock (h : Runs k acts k') : Runs (.lock l :: k) (.lock l :: acts) k' := act true rfl h

theorem unlock (h : Runs k acts k') : Runs (.unlock l :: k) (.unlock l :: acts) k' :=
  act true rfl h

theorem seq (h : Runs (p :: q :: k) acts k') : Runs (.seq p q :: k) acts k' := quiet true rfl h

theorem left (h : Runs (p :: k) acts k') : Runs (.choice p q :: k) acts k' := quiet true rfl h

theorem right (h : Runs (q :: k) acts k') : Runs (.choice p q :: k) acts k' := quiet false rfl h

/-- Not doing what need not be done. -/
theorem pass (h : Runs k acts k') : Runs (.maybe p :: k) acts k' := right h.skip

theorem again (h : Runs (p :: .loop p :: k) acts k') : Runs (.again p :: k) acts k' :=
  quiet true rfl h

theorem critical (h : Runs (p :: .unlock l :: k) acts k') :
    Runs (.critical l p :: k) (.lock l :: acts) k' :=
  seq (lock (seq h))

/-- What comes later makes no difference. -/
theorem append (h : Runs k acts k') (m : List (Prog ℓ)) : Runs (k ++ m) acts (k' ++ m) := by
  have hadvance : ∀ {k k' : List (Prog ℓ)} {a : Option (Act ℓ)} {b : Bool},
      advance b k = some (a, k') → advance b (k ++ m) = some (a, k' ++ m) := by
    intro k k' a b ha
    revert ha
    fun_cases advance b k
    all_goals rintro ⟨⟩
    all_goals rfl
  induction h with
  | refl k => exact .refl _
  | quiet b ha h ih => exact .quiet b (hadvance ha) ih
  | act b ha h ih => exact .act b (hadvance ha) ih

end Runs

end

/-! ### The system -/

section

variable {ℓ τ ο : Type*}

structure State (τ ℓ : Type*) where
  /-- The thread that holds a lock. -/
  owner : ℓ → Option τ
  /-- What the threads still have to do. -/
  ahead : τ → List (Prog ℓ)

namespace State

/-- The thread is about to take the lock. -/
def Waits (s : State τ ℓ) (t : τ) (l : ℓ) : Prop := ∃ k, s.ahead t = .lock l :: k

/-- The threads in `T` wait for each other: for a lock that one of them holds. -/
def Deadlocked (s : State τ ℓ) (T : Set τ) : Prop :=
  T.Nonempty ∧ ∀ t ∈ T, ∃ l, s.Waits t l ∧ ∃ u ∈ T, s.owner l = some u

end State

inductive Event (τ ο : Type*)
  /-- A thread that has nothing to do starts an operation. -/
  | start (t : τ) (op : ο)
  | step (t : τ) (b : Bool)

variable [DecidableEq ℓ]

/-- Who holds which lock after thread `t` did `a`, if it can. -/
def own (owner : ℓ → Option τ) (t : τ) : Option (Act ℓ) → Option (ℓ → Option τ)
  | none => some owner
  | some (.lock l) =>
      if (owner l).isNone then some (Function.update owner l (some t)) else none
  | some (.unlock l) => some (Function.update owner l none)

/-- Who holds which lock after thread `t` did `acts`, if it can without waiting. -/
def ownAll (owner : ℓ → Option τ) (t : τ) : List (Act ℓ) → Option (ℓ → Option τ)
  | [] => some owner
  | a :: acts => (own owner t (some a)).bind fun owner' => ownAll owner' t acts

/-- Any number of threads that run operations with the given programs. -/
def system [DecidableEq τ] (code : ο → Prog ℓ) : System (State τ ℓ) (Event τ ο) where
  init := ⟨fun _ => none, fun _ => []⟩
  step s
    | .start t op =>
        if (s.ahead t).isEmpty then some { s with ahead := Function.update s.ahead t [code op] }
        else none
    | .step t b =>
        match advance b (s.ahead t) with
        | none => none
        | some (a, k) =>
            match own s.owner t a with
            | none => none
            | some owner => some ⟨owner, Function.update s.ahead t k⟩

section

variable [DecidableEq τ] {code : ο → Prog ℓ}

/-- A thread does what it may, and no other thread comes in between. -/
theorem Runs.steps {t : τ} {k k' : List (Prog ℓ)} {acts : List (Act ℓ)} (h : Runs k acts k') :
    ∀ {s : State τ ℓ} {owner : ℓ → Option τ}, s.ahead t = k → ownAll s.owner t acts = some owner →
      (system code).Steps System.anyEvent s ⟨owner, Function.update s.ahead t k'⟩ := by
  induction h with
  | refl k =>
    rintro s owner rfl ⟨⟩
    rw [Function.update_eq_self]
    exact Relation.ReflTransGen.refl
  | @quiet k k₁ k₂ acts b ha h ih =>
    intro s owner hk hown
    have hstep : (system code).step s (.step t b) =
        some ⟨s.owner, Function.update s.ahead t k₁⟩ := by
      simp only [system, hk, ha, own]
    have hrest := ih (s := ⟨s.owner, Function.update s.ahead t k₁⟩) (by simp) hown
    rw [Function.update_idem] at hrest
    exact Relation.ReflTransGen.head ⟨_, trivial, hstep⟩ hrest
  | @act k k₁ k₂ a acts b ha h ih =>
    intro s owner hk hown
    obtain ⟨owner₁, hown₁, hown₂⟩ := Option.bind_eq_some_iff.mp hown
    have hstep : (system code).step s (.step t b) =
        some ⟨owner₁, Function.update s.ahead t k₁⟩ := by
      simp only [system, hk, ha, hown₁]
    have hrest := ih (s := ⟨owner₁, Function.update s.ahead t k₁⟩) (by simp) hown₂
    rw [Function.update_idem] at hrest
    exact Relation.ReflTransGen.head ⟨_, trivial, hstep⟩ hrest

theorem steps_start {s : State τ ℓ} {t : τ} (op : ο) (ht : s.ahead t = []) :
    (system code).Steps System.anyEvent s
      { s with ahead := Function.update s.ahead t [code op] } :=
  Relation.ReflTransGen.single ⟨.start t op, trivial, by simp [system, ht]⟩

end

end

/-! ### When one lock is held at most -/

section

variable {ℓ τ ο : Type*} [DecidableEq ℓ]

/-- All locks but `l` are free. -/
def only (l : ℓ) (holder : Option τ) : ℓ → Option τ := Function.update (fun _ => none) l holder

/-- If all other locks are free, thread `t` can get from `k` to `k'` without waiting, and then they
are free again.  The holder of `l` changes as given. -/
def Reaches (l : ℓ) (t : τ) (before after : Option τ) (k k' : List (Prog ℓ)) : Prop :=
  ∃ acts, Runs k acts k' ∧ ownAll (only l before) t acts = some (only l after)

namespace Reaches

variable {l m : ℓ} {t : τ} {before after : Option τ} {k k' : List (Prog ℓ)}

theorem quiet (h : Runs k [] k') : Reaches l t before before k k' := ⟨[], h, rfl⟩

theorem lock (h : Runs k [.lock l] k') : Reaches l t none (some t) k k' :=
  ⟨_, h, by simp [ownAll, own, only]⟩

theorem unlock (h : Runs k [.unlock l] k') : Reaches l t before none k k' :=
  ⟨_, h, by simp [ownAll, own, only]⟩

theorem critical (h : Runs k [.lock l, .unlock l] k') : Reaches l t none none k k' :=
  ⟨_, h, by simp [ownAll, own, only]⟩

/-- Taking another lock for a moment. -/
theorem other (hne : m ≠ l) (h : Runs k [.lock m, .unlock m] k') :
    Reaches l t before before k k' := by
  have hm : only l before m = none := by simp [only, hne]
  have hback : Function.update (only l before) m none = only l before := by
    rw [← hm, Function.update_eq_self]
  exact ⟨_, h, by simp [ownAll, own, hm, hback]⟩

theorem append (h : Reaches l t before after k k') (n : List (Prog ℓ)) :
    Reaches l t before after (k ++ n) (k' ++ n) := by
  obtain ⟨acts, hruns, hown⟩ := h
  exact ⟨acts, hruns.append n, hown⟩

theorem steps [DecidableEq τ] {code : ο → Prog ℓ} {s : State τ ℓ}
    (h : Reaches l t before after k k') (howner : s.owner = only l before)
    (hahead : s.ahead t = k) :
    (system code).Steps System.anyEvent s ⟨only l after, Function.update s.ahead t k'⟩ := by
  obtain ⟨acts, hruns, hown⟩ := h
  exact hruns.steps hahead (howner ▸ hown)

end Reaches

end

/-! ### Following an order -/

section

variable {ℓ : Type*}

/-- Started with the locks `held`, the last taken first, the program takes only locks that come
after all it holds, gives back the last one first, and ends with the locks `held'`. -/
inductive Prog.Follows (order : ℓ → ℓ → Prop) : List ℓ → Prog ℓ → List ℓ → Prop
  | skip {held : List ℓ} : Follows order held .skip held
  | lock {held : List ℓ} {l : ℓ} (h : ∀ m ∈ held, order m l) :
      Follows order held (.lock l) (l :: held)
  | unlock {held : List ℓ} {l : ℓ} : Follows order (l :: held) (.unlock l) held
  | seq {held held' held'' : List ℓ} {p q : Prog ℓ} (hp : Follows order held p held')
      (hq : Follows order held' q held'') : Follows order held (.seq p q) held''
  | choice {held held' : List ℓ} {p q : Prog ℓ} (hp : Follows order held p held')
      (hq : Follows order held q held') : Follows order held (.choice p q) held'
  | again {held : List ℓ} {p : Prog ℓ} (hp : Follows order held p held) :
      Follows order held (.again p) held

variable {order : ℓ → ℓ → Prop} {held held' : List ℓ}

namespace Prog.Follows

variable {p : Prog ℓ}

theorem critical {l : ℓ} (h : ∀ m ∈ held, order m l)
    (hp : Follows order (l :: held) p (l :: held)) : Follows order held (.critical l p) held :=
  .seq (.lock h) (.seq hp .unlock)

theorem maybe (hp : Follows order held p held) : Follows order held p.maybe held :=
  .choice hp .skip

theorem loop (hp : Follows order held p held) : Follows order held p.loop held :=
  .maybe (.again hp)

end Prog.Follows

/-- All that is ahead follows the order, and in the end no lock is held. -/
def Orderly (order : ℓ → ℓ → Prop) : List ℓ → List (Prog ℓ) → Prop
  | held, [] => held = []
  | held, p :: k => ∃ held', p.Follows order held held' ∧ Orderly order held' k

/-- What a thread that follows the order may do with locks. -/
def Allowed (order : ℓ → ℓ → Prop) (held : List ℓ) : Option (Act ℓ) → List ℓ → Prop
  | none, held' => held' = held
  | some (.lock l), held' => (∀ m ∈ held, order m l) ∧ held' = l :: held
  | some (.unlock l), held' => held = l :: held'

theorem Orderly.advance {k k' : List (Prog ℓ)} {b : Bool} {a : Option (Act ℓ)}
    (h : Orderly order held k) (ha : advance b k = some (a, k')) :
    ∃ held', Allowed order held a held' ∧ Orderly order held' k' := by
  revert ha h
  fun_cases Locking.advance b k
  all_goals rintro h ⟨⟩
  all_goals obtain ⟨held', hp, hk⟩ := h
  all_goals cases hp
  · exact ⟨held, rfl, hk⟩
  · next hl => exact ⟨_, ⟨hl, rfl⟩, hk⟩
  · exact ⟨held', rfl, hk⟩
  · next hp hq => exact ⟨held, rfl, _, hp, _, hq, hk⟩
  · next hp hq =>
    refine ⟨held, rfl, held', ?_, hk⟩
    cases b
    · exact hq
    · exact hp
  · next hp => exact ⟨held, rfl, held, hp, held, .loop hp, hk⟩

end

/-! ### Deadlocks -/

section

variable {ℓ τ ο : Type*} {order : ℓ → ℓ → Prop} {held held' : List ℓ} {s : State τ ℓ}

/-- The thread holds the locks `held`, and goes on in order. -/
structure Keeps (order : ℓ → ℓ → Prop) (s : State τ ℓ) (t : τ) (held : List ℓ) : Prop where
  nodup : held.Nodup
  owner : ∀ l, s.owner l = some t ↔ l ∈ held
  orderly : Orderly order held (s.ahead t)

/-- A thread that waits for a lock holds only locks that come before it. -/
theorem Keeps.before {t : τ} {l m : ℓ} (h : Keeps order s t held) (hwait : s.Waits t l)
    (hm : s.owner m = some t) : order m l := by
  obtain ⟨k, hk⟩ := hwait
  have horderly := h.orderly
  rw [hk] at horderly
  obtain ⟨held', hfollows, -⟩ := horderly
  cases hfollows with
  | lock hl => exact hl m ((h.owner m).mp hm)

variable [DecidableEq ℓ]

/-- What `own` does to the thread itself. -/
theorem own_self {owner owner' : ℓ → Option τ} {t : τ} {a : Option (Act ℓ)}
    (h : own owner t a = some owner') (hnodup : held.Nodup)
    (howner : ∀ l, owner l = some t ↔ l ∈ held) (ha : Allowed order held a held') :
    held'.Nodup ∧ ∀ l, owner' l = some t ↔ l ∈ held' := by
  revert h ha
  fun_cases own owner t a
  all_goals rintro ⟨⟩ ha
  · cases ha
    exact ⟨hnodup, howner⟩
  · next l hfree =>
    obtain ⟨-, rfl⟩ := ha
    have hl : l ∉ held := by
      rw [← howner l, Option.isNone_iff_eq_none.mp hfree]
      simp
    refine ⟨List.nodup_cons.mpr ⟨hl, hnodup⟩, fun m => ?_⟩
    by_cases hm : m = l
    · simp [hm]
    · simp [hm, howner m]
  · next l =>
    cases ha
    obtain ⟨hl, hnodup'⟩ := List.nodup_cons.mp hnodup
    refine ⟨hnodup', fun m => ?_⟩
    by_cases hm : m = l
    · simp [hm, hl]
    · simp [hm, howner m]

/-- What `own` does to the other threads: nothing. -/
theorem own_other {owner owner' : ℓ → Option τ} {t u : τ} {a : Option (Act ℓ)}
    (h : own owner t a = some owner') (howner : ∀ l, owner l = some t ↔ l ∈ held)
    (ha : Allowed order held a held') (hne : u ≠ t) (l : ℓ) :
    owner' l = some u ↔ owner l = some u := by
  revert h ha
  fun_cases own owner t a
  all_goals rintro ⟨⟩ ha
  · rfl
  · next m hfree =>
    by_cases hl : l = m
    · simp [hl, Option.isNone_iff_eq_none.mp hfree, Ne.symm hne]
    · simp [hl]
  · next m =>
    by_cases hl : l = m
    · have hm : owner m = some t := (howner m).mpr (by simp [show held = m :: held' from ha])
      simp [hl, hm, Ne.symm hne]
    · simp [hl]

variable [DecidableEq τ] {code : ο → Prog ℓ} {ok : State τ ℓ → Event τ ο → Prop}

/-- In all runs of programs that follow the order, all threads keep to it. -/
theorem keeps_of_reachable (hcode : ∀ op, (code op).Follows order [] [])
    (hs : (system code).Reachable ok s) (t : τ) : ∃ held, Keeps order s t held := by
  refine hs.invariant (P := fun s => ∀ t, ∃ held, Keeps order s t held) ?_ ?_ t
  · exact fun t => ⟨[], List.nodup_nil, by simp [system], rfl⟩
  rintro s (⟨t, op⟩ | ⟨t, b⟩) s' hP - hstep u
  all_goals simp only [system] at hstep
  · split at hstep
    · next hidle =>
      cases hstep
      obtain ⟨held, hnodup, howner, horderly⟩ := hP u
      by_cases hu : u = t
      · -- a thread with nothing to do holds nothing
        rw [hu, List.isEmpty_iff.mp hidle] at horderly
        cases show held = [] from horderly
        exact ⟨[], hnodup, howner, by simpa [hu] using ⟨[], hcode op, rfl⟩⟩
      · exact ⟨held, hnodup, howner, by simpa [hu] using horderly⟩
    · cases hstep
  · split at hstep
    · cases hstep
    · next a k hadvance =>
      split at hstep
      · cases hstep
      · next owner' hown =>
        cases hstep
        obtain ⟨held, hnodup, howner, horderly⟩ := hP t
        obtain ⟨held', hallowed, horderly'⟩ := horderly.advance hadvance
        by_cases hu : u = t
        · obtain ⟨hnodup', howner'⟩ := own_self hown hnodup howner hallowed
          cases hu
          exact ⟨held', hnodup', howner', by simpa using horderly'⟩
        · obtain ⟨heldu, hnodupu, howneru, horderlyu⟩ := hP u
          refine ⟨heldu, hnodupu, fun l => ?_, by simpa [hu] using horderlyu⟩
          exact (own_other hown howner hallowed hu l).trans (howneru l)

/-- **No deadlock.**  Threads whose programs follow an order without infinite ascents never wait
for each other. -/
theorem not_deadlocked (hcode : ∀ op, (code op).Follows order [] [])
    (horder : WellFounded (flip order)) (hs : (system code).Reachable ok s) (T : Set τ) :
    ¬ s.Deadlocked T := by
  rintro ⟨⟨t, ht⟩, hwaits⟩
  obtain ⟨l, hl, -⟩ := hwaits t ht
  -- the owner of the lock that a thread waits for waits for a later one
  induction l using horder.induction generalizing t with
  | h l ih =>
    obtain ⟨l', hl', u, hu, howner⟩ := hwaits t ht
    obtain ⟨m, hm, -⟩ := hwaits u hu
    have hsame : l' = l := by
      obtain ⟨k, hk⟩ := hl
      obtain ⟨k', hk'⟩ := hl'
      have heq := hk.symm.trans hk'
      cases heq
      rfl
    obtain ⟨held, hkeeps⟩ := keeps_of_reachable hcode hs u
    exact ih m (hkeeps.before hm (hsame ▸ howner)) u hu hm

end

end Locking
