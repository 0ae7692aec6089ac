import ZitiChannel.Fallback
import ZitiChannel.Redial

/-!
# Epochs at the dialing end

A channel that has lost all its underlays begins a new epoch with its next dial: it asks for another
connection id, and the listener makes another channel for it.  An underlay of the old epoch that
turned up in the channel afterwards would lead to the old channel of the listener, and the messages
of one channel would come out of two.

Whether a dial is a first one is decided before `Dial` is called, and `Dial` may take long.  What
saves the day is that one goroutine at a time is in `dialUnderlay`, and that it hands its underlay
over before it looks again.

What matters is said with everything else left out: the collection, the iteration of the policy, and
who is where on the way to an underlay.  It does not matter what makes an underlay a good answer to
a dial, as long as it depends on nothing but the id that was asked for.

## Main definitions

* `IdPart`, `Naming`, `Naming.Step` — the collection, the iteration, and who is where.
* `Naming.Kept` — the invariant.
* `naming` — the channel with its policy, and the id that each goroutine has asked for.
* `Dials` — further underlays come from dials only, and are good answers.
* `OwnDialer` — further underlays come from dials only, and from a classic dialer.

## Main results

* `Naming.Step.kept` — every step keeps the invariant.
* `naming_step`, `kept_of_reachable` — the system does these steps, so its runs keep the invariant.
* `ClassicDialer.KeepsGroup.dialed_connectionId` — what a classic dialer returns has the id that it
  was asked for, whatever the peer answers.
* `dialer_epochs_never_mix` — **all underlays of a dialing channel have the id of the last epoch
  that it has begun.**

The sources are `impl.go`, `dial_policy.go` and `classic_dialer.go`.
-/

namespace ZitiChannel

open ByteStream

/-- The dialer's end of an underlay has the connection id of the hello, if the hello asks for
one. -/
theorem ClassicDialer.KeepsGroup.dialed_connectionId {d : ClassicDialer} (hd : d.KeepsGroup)
    {underlayType groupId : GoString} {groupSecret : Bytes} {isFirst : Bool} {ref : ℕ}
    {commonName : Option GoString} {request response : Message} {u : Underlay}
    (hhello : d.hello (dialHeaders underlayType groupId groupSecret isFirst) = .ok request)
    (hresult : ClassicDialer.acceptResult ref commonName request response = .ok u)
    (hne : groupId ≠ []) : u.connectionId = groupId := by
  have hid := (hd.hello hhello (lookup_dialHeaders_connectionId ..)
    (lookup_dialHeaders_isGrouped ..)).1
  rw [(ClassicDialer.acceptResult_ok hresult).1, hid, if_neg hne]

namespace Redial

open Transition Concurrent

/-! ### Who is where -/

/-- Where a goroutine is on the way to an underlay. -/
inductive IdPart
  | out
  /-- In `NewChannel`, before the first underlay is in the collection. -/
  | new
  /-- Before the id is chosen. -/
  | starting (isFirst : Bool)
  | dialing (groupId : GoString) (isFirst : Bool)
  /-- With an underlay that is not in the collection yet. -/
  | holding (u : Underlay)

structure Naming where
  underlays : List Underlay
  iteration : UInt32
  parts : ℕ → IdPart

/-- The id of the current epoch. -/
def currentId (connectionId : GoString) (iteration : UInt32) : GoString :=
  (groupConnectionId iteration connectionId false).2

theorem groupConnectionId_current (iteration : UInt32) (connectionId : GoString) (isFirst : Bool) :
    (groupConnectionId iteration connectionId isFirst).2 =
      currentId connectionId (groupConnectionId iteration connectionId isFirst).1 := by
  unfold currentId groupConnectionId
  cases isFirst
  · by_cases h : iteration = 0 <;> simp [h]
  · by_cases h : iteration + 1 = 0 <;> simp [h]

theorem groupConnectionId_false (iteration : UInt32) (connectionId : GoString) :
    (groupConnectionId iteration connectionId false).1 = iteration := by
  unfold groupConnectionId
  by_cases h : iteration = 0 <;> simp [h]

namespace Naming

variable (Good : GoString → Underlay → Prop) (connectionId : GoString) (first : Underlay)

def setPart (x : Naming) (g : ℕ) (part : IdPart) : Naming :=
  { x with parts := Function.update x.parts g part }

/-- Nobody else is on the way to an underlay. -/
def Alone (x : Naming) (g : ℕ) : Prop := ∀ b, b ≠ g → x.parts b = .out

/-- What can happen, and who begins a dial with it. -/
inductive Step (x : Naming) : Option ℕ → Naming → Prop
  | same : Step x none x
  | remove (u : Underlay) : Step x none { x with underlays := x.underlays.erase u }
  | newAppend (g : ℕ) (hg : x.parts g = .new) :
      Step x none { x.setPart g .out with underlays := x.underlays ++ [first] }
  | start (g : ℕ) (halone : x.Alone g) :
      Step x none (x.setPart g (.starting (decide (x.underlays.length = 0))))
  | choose (g : ℕ) (isFirst : Bool) (hg : x.parts g = .starting isFirst) :
      Step x (some g)
        { x.setPart g (.dialing (groupConnectionId x.iteration connectionId isFirst).2 isFirst) with
          iteration := (groupConnectionId x.iteration connectionId isFirst).1 }
  | create (g : ℕ) (groupId : GoString) (isFirst : Bool) (u : Underlay)
      (hg : x.parts g = .dialing groupId isFirst) (hu : Good groupId u) :
      Step x none (x.setPart g (.holding u))
  | append (g : ℕ) (u : Underlay) (hg : x.parts g = .holding u) :
      Step x none { x.setPart g .out with underlays := x.underlays ++ [u] }
  | leave (g : ℕ) : Step x none (x.setPart g .out)

/-- What holds of a goroutine on its way. -/
def Fits (x : Naming) : IdPart → Prop
  | .out | .starting false => True
  | .new => x.iteration = 0 ∧ x.underlays = []
  | .starting true => x.underlays = []
  | .dialing groupId _ => groupId = currentId connectionId x.iteration
  | .holding u => Good (currentId connectionId x.iteration) u

structure Kept (x : Naming) : Prop where
  current : ∀ u ∈ x.underlays, Good (currentId connectionId x.iteration) u
  fits : ∀ g, x.Fits Good connectionId (x.parts g)
  alone : ∀ g, x.parts g ≠ .out → x.Alone g

variable {Good connectionId first} {x y : Naming}

theorem Step.of_eq (h : y = x) : x.Step Good connectionId first none y := by
  rw [h]
  exact .same

/-- One goroutine moves on, and what the others need stays. -/
theorem Kept.setPart (h : x.Kept Good connectionId) (g : ℕ) {part : IdPart}
    (hfits : x.Fits Good connectionId part) (halone : part = .out ∨ x.Alone g) :
    (x.setPart g part).Kept Good connectionId where
  current := h.current
  fits b := by
    rcases eq_or_ne b g with rfl | hb
    · rw [show (x.setPart b part).parts b = part from Function.update_self ..]
      exact hfits
    · rw [show (x.setPart g part).parts b = x.parts b from Function.update_of_ne hb _ _]
      exact h.fits b
  alone b hb c hc := by
    simp only [Naming.setPart] at hb ⊢
    rcases eq_or_ne b g with rfl | hbg
    · rw [Function.update_of_ne hc]
      rw [Function.update_self] at hb
      exact halone.resolve_left hb c hc
    · rw [Function.update_of_ne hbg] at hb
      rcases eq_or_ne c g with rfl | hcg
      · rcases halone with hout | halone
        · rw [Function.update_self]
          exact hout
        · exact absurd (halone b hbg) hb
      · rw [Function.update_of_ne hcg]
        exact h.alone b hb c hc

/-- Whoever is on the way when the collection or the iteration change is on the way alone. -/
theorem Kept.of_alone {g : ℕ} (halone : x.Alone g) {part : IdPart}
    {us : List Underlay} {iteration : UInt32}
    (hcurrent : ∀ u ∈ us, Good (currentId connectionId iteration) u)
    (hfits : (⟨us, iteration, x.parts⟩ : Naming).Fits Good connectionId part) :
    ({ x.setPart g part with underlays := us, iteration := iteration } : Naming).Kept
      Good connectionId where
  current := hcurrent
  fits b := by
    rcases eq_or_ne b g with rfl | hb
    · rw [show ({ x.setPart b part with underlays := us, iteration := iteration } : Naming).parts
        b = part from Function.update_self ..]
      cases part with
      | starting isFirst => cases isFirst <;> exact hfits
      | _ => exact hfits
    · rw [show ({ x.setPart g part with underlays := us, iteration := iteration } : Naming).parts
        b = .out from (Function.update_of_ne hb _ _).trans (halone b hb)]
      trivial
  alone b hb := by
    have halone' : (x.setPart g part).Alone b := by
      intro c hc
      rcases eq_or_ne b g with rfl | hbg
      · exact (Function.update_of_ne hc _ _).trans (halone c hc)
      · exact absurd ((Function.update_of_ne hbg _ _).trans (halone b hbg)) hb
    exact halone'

/-- **Every step keeps the invariant.** -/
theorem Step.kept (hfirst : Good connectionId first) (h : x.Kept Good connectionId)
    {begins : Option ℕ} (hstep : x.Step Good connectionId first begins y) :
    y.Kept Good connectionId := by
  have hon : ∀ {g : ℕ} {part : IdPart}, x.parts g = part → part ≠ .out → x.Alone g :=
    fun hg hne => h.alone _ (hg ▸ hne)
  cases hstep with
  | same => exact h
  | remove u =>
    refine ⟨fun v hv => h.current v (List.mem_of_mem_erase hv), fun g => ?_, h.alone⟩
    have hg := h.fits g
    show Fits Good connectionId _ (x.parts g)
    cases hpart : x.parts g with
    | out | dialing | holding => rw [hpart] at hg; exact hg
    | new => rw [hpart] at hg; exact ⟨hg.1, by simp [hg.2]⟩
    | starting isFirst =>
      rw [hpart] at hg
      cases isFirst with
      | false => trivial
      | true => exact (congrArg (·.erase u) hg).trans rfl
  | newAppend g hg =>
    have hfits := h.fits g
    rw [hg] at hfits
    obtain ⟨hiteration, hnone⟩ := hfits
    refine .of_alone (hon hg (by simp)) (fun u hu => ?_) trivial
    rw [hnone, List.nil_append, List.mem_singleton] at hu
    show Good (currentId connectionId x.iteration) u
    rw [hu, hiteration]
    exact hfirst
  | start g halone =>
    refine h.setPart g ?_ (.inr halone)
    by_cases hnone : x.underlays.length = 0
    · rw [decide_eq_true hnone]
      exact List.length_eq_zero_iff.mp hnone
    · rw [decide_eq_false hnone]
      trivial
  | choose g isFirst hg =>
    refine .of_alone (hon hg (by simp)) ?_ (groupConnectionId_current ..)
    have hfits := h.fits g
    rw [hg] at hfits
    cases isFirst with
    | false => rw [groupConnectionId_false]; exact h.current
    | true =>
      intro u hu
      have hu : u ∈ x.underlays := hu
      rw [show x.underlays = [] from hfits] at hu
      cases hu
  | create g groupId isFirst u hg hu =>
    have hfits := h.fits g
    rw [hg] at hfits
    have hgood : Good (currentId connectionId x.iteration) u :=
      (show groupId = currentId connectionId x.iteration from hfits) ▸ hu
    exact h.setPart g hgood (.inr (hon hg (by simp)))
  | append g u hg =>
    have hfits := h.fits g
    rw [hg] at hfits
    refine .of_alone (hon hg (by simp)) (fun v hv => ?_) trivial
    rcases List.mem_append.mp hv with hv | hv
    · exact h.current v hv
    · rw [List.mem_singleton.mp hv]
      exact hfits
  | leave g => exact h.setPart g trivial (.inl rfl)

end Naming

/-! ### The system does these steps -/

/-- The id that a goroutine asks for is noted. -/
def noteId (s : State) (e : Event) (_ : State) (ids : ℕ → GoString) : ℕ → GoString :=
  match e with
  | .dial g .go =>
      match s.chan.routines g, s.pcs g with
      | .applyConstraints (.dial _ isFirst _ _), .groupConnectionId =>
          Function.update ids g
            (groupConnectionId s.policy.iteration s.chan.ch.channelId isFirst).2
      | _, _ => ids
  | _ => ids

/-- Who begins a dial with this event. -/
def begins (s : State) : Event → Option ℕ
  | .dial g .go =>
      match s.pcs g with
      | .groupConnectionId => some g
      | _ => none
  | _ => none

/-- A channel with its policy, and the id that each goroutine has asked for last. -/
def naming (setup : Setup) (config : BackoffConfig) (start : Time) :
    System (State × (ℕ → GoString)) Event :=
  (redialing setup config start).recording (fun _ => []) noteId

/-- Further underlays come from the channel's own dials, and these are made with a classic dialer:
the hello has the headers of the dial, and the peer answers as it pleases. -/
def OwnDialer (d : ClassicDialer) (s : State × (ℕ → GoString)) : Event → Prop
  | .channel (.callAccept _ _) => False
  | .dial g (.created (some u)) =>
      ∃ underlayType isFirst ref commonName request response,
        d.hello (dialHeaders underlayType (s.2 g) s.1.chan.ch.groupSecret isFirst) = .ok request ∧
        ClassicDialer.acceptResult ref commonName request response = .ok u
  | _ => True

/-- Further underlays come from the channel's own dials, and one that was asked for by an id is a
good one for that id. -/
def Dials (Good : GoString → Underlay → Prop) (s : State × (ℕ → GoString)) : Event → Prop
  | .channel (.callAccept _ _) => False
  | .dial g (.created (some u)) => s.2 g ≠ [] → Good (s.2 g) u
  | _ => True

/-- Where a goroutine is, by its routine, its point in `Dial` and the id that it has asked for. -/
def idPart (pc : DialPc) (groupId : GoString) : Routine → IdPart
  | .newChannel .bind | .newChannel (.add .append) => .new
  | .applyConstraints (.dial _ isFirst _ _) =>
      match pc with
      | .groupConnectionId => .starting isFirst
      | .record (some u) | .ret (some u) => .holding u
      | _ => .dialing groupId isFirst
  | .applyConstraints (.accept u pc _ _) =>
      match pc with
      | .lock | .check | .store | .add .append => .holding u
      | _ => .out
  | _ => .out

def viewOf (c : Concurrent.State) (iteration : UInt32) (pcs : ℕ → DialPc) (ids : ℕ → GoString) :
    Naming where
  underlays := c.ch.underlays
  iteration := iteration
  parts g := idPart (pcs g) (ids g) (c.routines g)

def State.naming (s : State) (ids : ℕ → GoString) : Naming :=
  viewOf s.chan s.policy.iteration s.pcs ids

/-- Nobody but the channel calls `AcceptUnderlay`. -/
def NoCalls (_ : Concurrent.State) : Concurrent.Event → Prop
  | .callAccept _ _ => False
  | _ => True

section

variable {setup : Setup} {config : BackoffConfig} {start : Time} {c c' : Concurrent.State}
  {s s' : State} {g b : ℕ} {Good : GoString → Underlay → Prop}

theorem afterNew_of_noCalls (hs : (Concurrent.channel setup).Reachable NoCalls c) :
    (Concurrent.channel setup).Reachable AfterNew c := by
  refine System.Steps.mono (fun s e h => ?_) hs
  cases e with
  | callAccept => exact absurd h id
  | _ => trivial

theorem not_calling (hs : (Concurrent.channel setup).Reachable NoCalls c) :
    ∀ g u pc, c.routines g ≠ .acceptUnderlay u pc := by
  refine hs.invariant (P := fun c => ∀ g u pc, c.routines g ≠ .acceptUnderlay u pc) ?_ ?_
  · intro g u pc
    rcases eq_or_ne g 0 with rfl | hne
    · simp [Concurrent.channel]
    · simp [Concurrent.channel, hne]
  intro c e c' h hok hstep
  refine step_cases (P := fun c => ∀ g u pc, c.routines g ≠ .acceptUnderlay u pc) hstep ?_ ?_ ?_ ?_
  · intro g a r eff _ _ hmoves hen
    refine forall_routines (P := fun _ r' => ∀ u pc, r' ≠ .acceptUnderlay u pc) hen ?_ ?_
      fun b _ => h b
    · rintro u pc rfl
      generalize hr : c.routines g = r₀ at hmoves
      cases hmoves with
      | accept _ pc₀ => exact h g u pc₀ hr
    · intro b r' hb
      rcases Effect.spawned_cases hb with rfl | ⟨v, rx, tx, -, rfl | rfl⟩ <;> simp
  · intro g a pc rest pcs eff _ _ hmoves _
    rw [hmoves.frame.routines]
    exact h
  · intro g u he _
    rw [he] at hok
    exact hok.elim
  · intro g _ _
    exact h

/-- The channel has the connection id of the underlay that it was made with. -/
theorem channelId_eq {ok : Concurrent.State → Concurrent.Event → Prop}
    (hs : (Concurrent.channel setup).Reachable ok c) :
    c.ch.channelId = setup.first.connectionId := by
  refine hs.invariant (P := fun c => c.ch.channelId = setup.first.connectionId) rfl ?_
  intro c e c' h _ hstep
  refine step_keeps (P := fun c => c.ch.channelId = setup.first.connectionId) (fun t g eff h => ?_)
    (fun _ _ hch _ h => hch ▸ h) hstep h
  cases eff <;> exact h

/-- Whoever is on the way to an underlay is in `NewChannel` or in a pass of `applyConstraints`. -/
theorem idPart_cases (pc : DialPc) (groupId : GoString) (r : Routine) :
    idPart pc groupId r = .out ∨ r.part = .new ∨ r.flagged = true := by
  unfold idPart
  split
  · exact .inr (.inl rfl)
  · exact .inr (.inl rfl)
  · exact .inr (.inr rfl)
  · exact .inr (.inr rfl)
  · exact .inl rfl

/-- While one goroutine is in a pass, nobody else is on the way to an underlay. -/
theorem idPart_of_ne (hs : (Concurrent.channel setup).Reachable NoCalls c)
    (hg : (c.routines g).flagged = true) (hne : b ≠ g) (pc : DialPc) (groupId : GoString) :
    idPart pc groupId (c.routines b) = .out := by
  rcases idPart_cases pc groupId (c.routines b) with hout | hnew | hb
  · exact hout
  · have hidle := (new_alone (afterNew_of_noCalls hs) b hnew).2.2 g hne.symm
    rw [hidle] at hg
    cases hg
  · exact absurd ((flagged_unique hs g hg).2 b hb) hne

/-! #### Steps of the channel -/

section

variable {iteration : UInt32} {pcs : ℕ → DialPc} {ids : ℕ → GoString} {r : Routine}
  {eff : Concurrent.Effect}

/-- A step of a routine moves its own goroutine, and no other. -/
theorem viewOf_run (hen : eff.enabled c g = true) :
    viewOf ((c.setRoutine g r).apply g eff) iteration pcs ids =
      { (viewOf c iteration pcs ids).setPart g (idPart (pcs g) (ids g) r) with
        underlays := (c.apply g eff).ch.underlays } := by
  have hch : ((c.setRoutine g r).apply g eff).ch = (c.apply g eff).ch := by cases eff <;> rfl
  have hparts : (fun b => idPart (pcs b) (ids b) (((c.setRoutine g r).apply g eff).routines b)) =
      Function.update (fun b => idPart (pcs b) (ids b) (c.routines b)) g
        (idPart (pcs g) (ids g) r) := by
    funext b
    refine forall_routines (P := fun b r' => idPart (pcs b) (ids b) r' = Function.update
      (fun b => idPart (pcs b) (ids b) (c.routines b)) g (idPart (pcs g) (ids g) r) b)
      hen ?_ ?_ ?_ b
    · rw [Function.update_self]
    · intro b r' hb
      obtain ⟨hne, hidle⟩ := Effect.idle_of_spawned hen hb
      rw [Function.update_of_ne hne, (State.idle_iff.mp hidle).1]
      rcases Effect.spawned_cases hb with rfl | ⟨v, rx, tx, -, rfl | rfl⟩ <;> rfl
    · intro b hne
      rw [Function.update_of_ne hne]
  simp only [viewOf, Naming.setPart, hch, hparts]

theorem viewOf_same (hen : eff.enabled c g = true)
    (hpart : idPart (pcs g) (ids g) r = idPart (pcs g) (ids g) (c.routines g))
    (hund : (c.apply g eff).ch.underlays = c.ch.underlays) :
    viewOf ((c.setRoutine g r).apply g eff) iteration pcs ids = viewOf c iteration pcs ids := by
  rw [viewOf_run hen, hund, hpart]
  simp [Naming.setPart, viewOf]

/-- A step of the channel in which the policy takes no part. -/
theorem viewOf_channel {e : Concurrent.Event}
    (hs : (Concurrent.channel setup).Reachable NoCalls c) (hok : NoCalls c e)
    (hpcs : ∀ g, callPart (c.routines g) ≠ .dialing → pcs g = .groupConnectionId)
    (hapart : ∀ g a, e = .run g a → involvesPolicy (c.routines g) = false)
    (hstep : (Concurrent.channel setup).step c e = some c') :
    (viewOf c iteration pcs ids).Step Good setup.first.connectionId setup.first none
      (viewOf c' iteration pcs ids) := by
  refine step_cases (P := fun c' => (viewOf c iteration pcs ids).Step Good setup.first.connectionId
    setup.first none (viewOf c' iteration pcs ids)) hstep ?_ ?_ ?_ ?_
  · intro g a r eff he _ hmoves hen
    have hout := hapart g a he
    generalize hr : c.routines g = r₀ at hmoves
    have hpart : (viewOf c iteration pcs ids).parts g = idPart (pcs g) (ids g) r₀ :=
      congrArg (idPart (pcs g) (ids g)) hr
    rw [hr] at hout
    cases hmoves with
    | newAppend =>
      rw [viewOf_run hen]
      exact .newAppend g hpart
    | accept u pc => exact absurd hr (not_calling hs g u pc)
    | remove u h =>
      rw [viewOf_run hen]
      have hsame : (viewOf c iteration pcs ids).setPart g
          (idPart (pcs g) (ids g) (.closeUnderlay u (.notify 0))) = viewOf c iteration pcs ids := by
        rw [show idPart (pcs g) (ids g) (.closeUnderlay u (.notify 0)) =
          (viewOf c iteration pcs ids).parts g from hpart.symm]
        simp [Naming.setPart]
      rw [hsame]
      exact .remove u
    | isFirst t counts todo =>
      have hpc : pcs g = .groupConnectionId := hpcs g (by rw [hr]; simp [callPart])
      rw [viewOf_run hen]
      have hstart : idPart (pcs g) (ids g)
          (.applyConstraints (.dial t (decide (c.ch.underlays.length = 0)) counts todo)) =
          .starting (decide (c.ch.underlays.length = 0)) := by rw [hpc]; rfl
      rw [hstart]
      exact .start g fun b hb => idPart_of_ne hs (by rw [hr]; rfl) hb _ _
    | dialFailed | dialed | dialReturn => cases hout
    | dialAccept u pc pc' counts todo _ h =>
      cases h with
      | reject =>
        rw [viewOf_run hen]
        exact .leave g
      | append =>
        rw [viewOf_run hen]
        exact .append g u hpart
      | _ => exact .of_eq (viewOf_same hen (by rw [hr]; rfl) rfl)
    | _ => exact .of_eq (viewOf_same hen (by rw [hr]; rfl) rfl)
  · intro g a pc rest pcs eff _ _ hmoves _
    have hframe : CloseFrame c ((c.setCloses g (pcs ++ rest)).apply g eff) := hmoves.frame
    refine .of_eq ?_
    simp only [viewOf, hframe.routines, hframe.underlays]
  · intro g u he _
    rw [he] at hok
    exact hok.elim
  · intro g _ _
    exact .of_eq rfl

/-! #### Steps of `Dial` -/

/-- A goroutine moves on in `Dial`. -/
theorem viewOf_dial (c : Concurrent.State) (iteration iteration' : UInt32) (pcs : ℕ → DialPc)
    (ids : ℕ → GoString) (g : ℕ) (pc : DialPc) (groupId : GoString) :
    viewOf c iteration' (Function.update pcs g pc) (Function.update ids g groupId) =
      { (viewOf c iteration pcs ids).setPart g (idPart pc groupId (c.routines g)) with
        iteration := iteration' } := by
  have hparts : (fun b => idPart (Function.update pcs g pc b) (Function.update ids g groupId b)
      (c.routines b)) = Function.update (fun b => idPart (pcs b) (ids b) (c.routines b)) g
        (idPart pc groupId (c.routines g)) := by
    funext b
    rcases eq_or_ne b g with rfl | hb
    · simp only [Function.update_self]
    · simp only [Function.update_of_ne hb]
  simp only [viewOf, Naming.setPart, hparts]

theorem setPart_self {x : Naming} {part : IdPart} (h : x.parts g = part) :
    x.setPart g part = x := by
  rw [← h]
  simp [Naming.setPart]

theorem iteration_resetStaleFailures (p : BackoffDialPolicy) (now : Time) :
    (p.resetStaleFailures now).iteration = p.iteration := by
  unfold BackoffDialPolicy.resetStaleFailures
  split
  · rfl
  · split <;> rfl

theorem iteration_underlayClosed (p : BackoffDialPolicy) (lifetime : Duration) (now : Time) :
    (p.underlayClosed lifetime now).iteration = p.iteration := by
  unfold BackoffDialPolicy.underlayClosed
  split <;> rfl

/-- A goroutine leaves `Dial`. -/
theorem viewOf_left (hen : eff.enabled c g = true) (pc : DialPc) :
    viewOf ((c.setRoutine g r).apply g eff) iteration (Function.update pcs g pc) ids =
      { (viewOf c iteration pcs ids).setPart g (idPart pc (ids g) r) with
        underlays := (c.apply g eff).ch.underlays } := by
  have hdial := viewOf_dial c iteration iteration pcs ids g pc (ids g)
  rw [Function.update_eq_self] at hdial
  rw [viewOf_run hen, hdial, Function.update_self]
  simp [Naming.setPart, viewOf]

/-- A step of a routine, with what it does. -/
theorem run_eq {r₀ : Routine} {a : Action} (hr : c.routines g = r₀)
    (hnext : r₀.next setup c a = some (r, eff))
    (h : (Concurrent.channel setup).step c (.run g a) = some c') :
    eff.enabled c g = true ∧ c' = (c.setRoutine g r).apply g eff := by
  simp only [Concurrent.channel, Concurrent.step, hr, hnext] at h
  split at h
  · cases h
  · split at h
    · next hen => cases h; exact ⟨hen, rfl⟩
    · cases h

end

theorem dial_step {a : DialAction}
    (h : (redialing setup config start).step s (.dial g a) = some s') :
    ∃ t isFirst counts todo pc p,
      s.chan.routines g = .applyConstraints (.dial t isFirst counts todo) ∧
      (s.pcs g).next s.policy s.now s.chan.ch.channelId isFirst s.chan.ch.closeNotify a =
        some (pc, p) ∧
      s'.chan = s.chan ∧ s'.policy = p ∧ s'.pcs = Function.update s.pcs g pc := by
  simp only [redialing, step] at h
  split at h
  · next t isFirst counts todo hr =>
    split at h
    · next pc p hnext => cases h; exact ⟨t, isFirst, counts, todo, pc, p, hr, hnext, rfl, rfl, rfl⟩
    · cases h
  · cases h

/-- A step of `Dial`: the id is chosen, or an underlay is there, or nothing changes. -/
theorem naming_dial {a : DialAction} {ids : ℕ → GoString}
    (hid : s.chan.ch.channelId = setup.first.connectionId)
    (hcreated : ∀ u, a = .created (some u) → Good (ids g) u)
    (h : (redialing setup config start).step s (.dial g a) = some s') :
    (s.naming ids).Step Good setup.first.connectionId setup.first (begins s (.dial g a))
      (s'.naming (noteId s (.dial g a) s' ids)) := by
  obtain ⟨t, isFirst, counts, todo, pc, p, hr, hnext, hchan, hpolicy, hpcs⟩ := dial_step h
  have hafter : s'.naming (noteId s (.dial g a) s' ids) =
      viewOf s.chan p.iteration (Function.update s.pcs g pc) (noteId s (.dial g a) s' ids) := by
    rw [State.naming, hchan, hpolicy, hpcs]
  rw [hafter]
  have hpart : ∀ {pc₀}, s.pcs g = pc₀ → (s.naming ids).parts g =
      idPart pc₀ (ids g) (.applyConstraints (.dial t isFirst counts todo)) := by
    intro pc₀ hpc
    rw [← hr, ← hpc]
    rfl
  generalize hpc₀ : s.pcs g = pc₀ at hnext
  have hpart := hpart hpc₀
  -- once the id is chosen, it stays what it is
  have hids : pc₀ ≠ .groupConnectionId → noteId s (.dial g a) s' ids = ids := by
    intro hne
    unfold noteId
    split
    · next he =>
      cases he
      split
      · next hpc => exact absurd (hpc₀.symm.trans hpc) hne
      · rfl
    · rfl
  have hview : ∀ pc' iteration, pc₀ ≠ .groupConnectionId → iteration = s.policy.iteration →
      viewOf s.chan iteration (Function.update s.pcs g pc') (noteId s (.dial g a) s' ids) =
        (s.naming ids).setPart g
          (idPart pc' (ids g) (.applyConstraints (.dial t isFirst counts todo))) := by
    intro pc' iteration hne hiteration
    have hdial := viewOf_dial s.chan s.policy.iteration iteration s.pcs ids g pc' (ids g)
    rw [Function.update_eq_self, hr] at hdial
    rw [hids hne, hdial, hiteration]
    rfl
  have hbegins : pc₀ ≠ .groupConnectionId → begins s (.dial g a) = none := by
    intro hne
    unfold begins
    split
    · next he =>
      cases he
      split
      · next hpc => exact absurd (hpc₀.symm.trans hpc) hne
      · rfl
    · rfl
  -- nothing that shows happens between the choice of the id and the return of the dialer
  have hquiet : ∀ pc' iteration, pc₀ ≠ .groupConnectionId → iteration = s.policy.iteration →
      idPart pc' (ids g) (.applyConstraints (.dial t isFirst counts todo)) =
        idPart pc₀ (ids g) (.applyConstraints (.dial t isFirst counts todo)) →
      (s.naming ids).Step Good setup.first.connectionId setup.first (begins s (.dial g a))
        (viewOf s.chan iteration (Function.update s.pcs g pc') (noteId s (.dial g a) s' ids)) := by
    intro pc' iteration hne hiteration hsame
    rw [hbegins hne, hview pc' iteration hne hiteration, hsame]
    exact .of_eq (setPart_self hpart)
  revert hnext
  fun_cases DialPc.next s.policy s.now s.chan.ch.channelId isFirst s.chan.ch.closeNotify pc₀ a
  all_goals intro hnext
  all_goals cases hnext
  case case1 =>
    have hnote : noteId s (.dial g .go) s' ids = Function.update ids g
        (groupConnectionId s.policy.iteration s.chan.ch.channelId isFirst).2 := by
      simp only [noteId, hr, hpc₀]
    have hbegin : begins s (.dial g .go) = some g := by simp only [begins, hpc₀]
    rw [hnote, hid, hbegin]
    rw [viewOf_dial s.chan s.policy.iteration, hr]
    exact .choose g isFirst hpart
  case case2 => exact hquiet _ _ (by simp) (iteration_resetStaleFailures ..) rfl
  case case19 result =>
    cases result with
    | none => exact hquiet _ _ (by simp) rfl rfl
    | some u =>
      rw [hview _ _ (by simp) rfl, hbegins (by simp)]
      exact .create g (ids g) isFirst u hpart (hcreated u rfl)
  all_goals exact hquiet _ _ (by simp) rfl rfl

/-! #### The whole system -/

/-- Outside of `Dial`, a goroutine is before its first step there. -/
theorem pc_of_not_dialing {ok : State → Event → Prop}
    (hs : (redialing setup config start).Reachable ok s) :
    ∀ g, callPart (s.chan.routines g) ≠ .dialing → s.pcs g = .groupConnectionId := by
  refine hs.invariant (P := fun s => ∀ g, callPart (s.chan.routines g) ≠ .dialing →
    s.pcs g = .groupConnectionId) (fun _ _ => rfl) ?_
  intro s e s' ih _ hstep b hb
  cases happens_of_step hstep with
  | tick => exact ih b hb
  | dial g a isFirst pc p hg hnext =>
    have hbg : b ≠ g := fun h => hb (h ▸ hg)
    exact (Function.update_of_ne hbg _ _).trans (ih b hb)
  | dialFailed g t isFirst counts todo chan hr hpc hchan =>
    rcases eq_or_ne b g with rfl | hbg
    · exact Function.update_self ..
    · refine (Function.update_of_ne hbg _ _).trans (ih b ?_)
      have hparts := congrFun (dialed_step hr hchan).1 b
      rw [Function.update_of_ne hbg] at hparts
      exact hparts ▸ hb
  | dialed g u t isFirst counts todo chan hr hpc hchan =>
    rcases eq_or_ne b g with rfl | hbg
    · exact Function.update_self ..
    · refine (Function.update_of_ne hbg _ _).trans (ih b ?_)
      have hparts := congrFun (dialed_step hr hchan).1 b
      rw [Function.update_of_ne hbg] at hparts
      exact hparts ▸ hb
  | accepted g u accepted counts todo chan hr hchan =>
    refine ih b ?_
    have hparts := congrFun (accepted_step hr hchan).1 b
    rcases eq_or_ne b g with rfl | hbg
    · rw [hr]
      simp [callPart]
    · rw [Function.update_of_ne hbg] at hparts
      exact hparts ▸ hb
  | underlayClosed g lifetime u chan hr hchan =>
    exact ih b (congrFun (underlayClosed_step hr hchan).1 b ▸ hb)
  | channel e chan hapart hchan =>
    refine ih b ?_
    rcases channel_step hapart hchan with ⟨-, g, part, hpart, hparts⟩ | ⟨-, hparts⟩
    · have hparts := congrFun hparts b
      rcases eq_or_ne b g with rfl | hbg
      · rw [Function.update_self] at hparts
        intro hdialing
        -- from `Dial`, a goroutine goes on with the policy only
        rw [hdialing] at hpart
        cases hpart
        exact hb hparts
      · rw [Function.update_of_ne hbg] at hparts
        exact hparts ▸ hb
    · exact congrFun hparts b ▸ hb

theorem reachable_noCalls {s : State × (ℕ → GoString)}
    (hs : (naming setup config start).Reachable (Dials Good) s) :
    (Concurrent.channel setup).Reachable NoCalls s.1.chan := by
  refine hs.invariant (P := fun s => (Concurrent.channel setup).Reachable NoCalls s.1.chan) .init ?_
  intro s e s' hreach hok hstep
  obtain ⟨hstep, -⟩ := System.recording_step hstep
  generalize s'.1 = t at hstep ⊢
  cases happens_of_step hstep with
  | tick | dial => exact hreach
  | dialFailed g t isFirst counts todo chan _ _ hchan =>
    exact hreach.step (e := .run g (.dialed none)) trivial hchan
  | dialed g u t isFirst counts todo chan _ _ hchan =>
    exact hreach.step (e := .run g (.dialed (some u))) trivial hchan
  | accepted g u accepted counts todo chan _ hchan =>
    exact hreach.step (e := .run g .go) trivial hchan
  | underlayClosed g lifetime u chan _ hchan =>
    exact hreach.step (e := .run g .go) trivial hchan
  | channel e chan _ hchan =>
    refine hreach.step ?_ hchan
    cases e with
    | callAccept => exact hok
    | _ => trivial

theorem currentId_ne_nil {connectionId : GoString} (h : connectionId ≠ []) (iteration : UInt32) :
    currentId connectionId iteration ≠ [] := by
  unfold currentId groupConnectionId
  by_cases h0 : iteration = 0 <;> simp [h0, h]

theorem pc_of_created {p : BackoffDialPolicy} {now : Time} {connectionId : GoString}
    {isFirst cancel : Bool} {pc : DialPc} {result : Option Underlay}
    {next : DialPc × BackoffDialPolicy}
    (h : pc.next p now connectionId isFirst cancel (.created result) = some next) :
    pc = .createWithHeaders := by
  generalize ha : DialAction.created result = a at h
  revert h ha
  fun_cases DialPc.next p now connectionId isFirst cancel pc a
  all_goals intro ha h
  all_goals first | rfl | (cases h; done) | cases ha

/-- **Every step of the system is one of these steps, or none.** -/
theorem naming_step {s s' : State × (ℕ → GoString)} {e : Event}
    (hne : setup.first.connectionId ≠ [])
    (hs : (naming setup config start).Reachable (Dials Good) s) (hok : Dials Good s e)
    (hkept : (s.1.naming s.2).Kept Good setup.first.connectionId)
    (hstep : (naming setup config start).step s e = some s') :
    (s.1.naming s.2).Step Good setup.first.connectionId setup.first (begins s.1 e)
      (s'.1.naming s'.2) := by
  have hchan := reachable_noCalls hs
  have hred : (redialing setup config start).Reachable System.anyEvent s.1 :=
    System.Reachable.of_recording (fun _ _ _ => trivial) hs
  obtain ⟨hstep, hids⟩ := System.recording_step hstep
  rw [hids]
  obtain ⟨s, ids⟩ := s
  generalize s'.1 = t at hstep ⊢
  cases e with
  | dial g a =>
    refine naming_dial (channelId_eq hchan) (fun u hu => ?_) hstep
    subst hu
    refine hok ?_
    -- the id that was asked for is not empty
    obtain ⟨t, isFirst, counts, todo, pc, p, hr, hnext, -⟩ := dial_step hstep
    have hfits := hkept.fits g
    have hpart : (s.naming ids).parts g = .dialing (ids g) isFirst := by
      show idPart (s.pcs g) (ids g) (s.chan.routines g) = _
      rw [pc_of_created hnext, hr]
      rfl
    rw [hpart] at hfits
    exact ne_of_eq_of_ne hfits (currentId_ne_nil hne _)
  | tick now =>
    cases happens_of_step hstep
    exact .same
  | dialed g =>
    cases happens_of_step hstep with
    | dialFailed g t isFirst counts todo chan hr hpc hrun =>
      obtain ⟨hen, rfl⟩ := run_eq hr rfl hrun
      show Naming.Step _ _ _ _ _ (viewOf _ s.policy.iteration (Function.update s.pcs g _) ids)
      rw [viewOf_left hen]
      exact .leave g
    | dialed g u t isFirst counts todo chan hr hpc hrun =>
      obtain ⟨hen, rfl⟩ := run_eq hr rfl hrun
      refine .of_eq ?_
      show viewOf _ s.policy.iteration (Function.update s.pcs g _) ids = _
      have hpart : (s.naming ids).parts g = .holding u := by
        show idPart (s.pcs g) (ids g) (s.chan.routines g) = _
        rw [hr, hpc]
        rfl
      exact (viewOf_left hen _).trans (setPart_self hpart)
  | accepted g =>
    cases happens_of_step hstep with
    | accepted g u accepted counts todo chan hr hrun =>
      obtain ⟨hen, rfl⟩ := run_eq hr rfl hrun
      exact .of_eq (viewOf_same hen (by rw [hr]; rfl) rfl)
  | underlayClosed g lifetime =>
    cases happens_of_step hstep with
    | underlayClosed g lifetime u chan hr hrun =>
      refine .of_eq ?_
      have hiteration : (if s.chan.ch.dialPolicy then s.policy.underlayClosed lifetime s.now
          else s.policy).iteration = s.policy.iteration := by
        split
        · exact iteration_underlayClosed ..
        · rfl
      show viewOf chan (if s.chan.ch.dialPolicy then s.policy.underlayClosed lifetime s.now
          else s.policy).iteration s.pcs ids = _
      rw [hiteration]
      by_cases hpolicy : s.chan.ch.dialPolicy = true
      all_goals
        obtain ⟨hen, rfl⟩ := run_eq hr
          (by simp only [Routine.next, CloseUnderlayPc.next, hpolicy]; rfl) hrun
        exact viewOf_same hen (by rw [hr]; rfl) rfl
  | channel e =>
    cases happens_of_step hstep with
    | channel e chan hapart hrun =>
      refine viewOf_channel hchan ?_ (pc_of_not_dialing hred) hapart hrun
      cases e with
      | callAccept => exact hok
      | _ => trivial

theorem naming_init : ((redialing setup config start).init.naming fun _ => []).Kept
    Good setup.first.connectionId := by
  have hout : ∀ g, g ≠ 0 →
      ((redialing setup config start).init.naming fun _ => []).parts g = .out := by
    intro g hg
    simp [State.naming, viewOf, redialing, Concurrent.channel, hg, idPart]
  refine ⟨fun u hu => (by cases hu), fun g => ?_, fun g hg b hb => hout b ?_⟩
  · rcases eq_or_ne g 0 with rfl | hne
    · exact ⟨rfl, rfl⟩
    · rw [hout g hne]
      trivial
  · rintro rfl
    exact hg (hout g hb.symm)

/-- **The invariant holds along every run.** -/
theorem kept_of_reachable {s : State × (ℕ → GoString)}
    (hfirst : Good setup.first.connectionId setup.first) (hne : setup.first.connectionId ≠ [])
    (hs : (naming setup config start).Reachable (Dials Good) s) :
    (s.1.naming s.2).Kept Good setup.first.connectionId := by
  refine hs.invariant_of_reachable
    (P := fun s => (s.1.naming s.2).Kept Good setup.first.connectionId) naming_init ?_
  intro s e s' hreach hkept hok hstep
  exact (naming_step hne hreach hok hkept hstep).kept hfirst hkept

end

end Redial

namespace Redial

open Concurrent

/-- A channel that wants one underlay, and outlives its loss. -/
def survivorSetup : Setup :=
  { pairSetup with
    config := { pairSetup.config with
      constraints := Finmap.singleton defaultUnderlayType ⟨1, 0⟩
      minTotalUnderlays := 0 }
    first := ⟨0, [], str "group", Finmap.singleton groupSecretHeader [7]⟩ }

/-- The hello of the dial after the loss, the listener's answer, and the underlay. -/
def survivorHello : Message :=
  (newHello (str "dialer") (dialHeaders defaultUnderlayType (str "group-1") [7] true)).setSequence
    helloSequence

def survivorAnswer : Message :=
  let (request, impl) := ClassicListener.acceptHello 1 plainChance.generatedId
    plainChance.newSecret survivorHello.arrived
  (plainListener.ackHello impl request true []).arrived

def survivorUnderlay : Underlay :=
  ⟨1, str "listener", str "group-1",
    Finmap.insert typeHeader (survivorHello.headers.index typeHeader) survivorAnswer.headers⟩

/-- The first underlay is lost, and goroutine 4 dials. -/
def survivorRun : List Event :=
  let gos (n g : ℕ) : List Event := List.replicate n (.channel (.run g .go))
  let dials (n : ℕ) : List Event := List.replicate n (.dial 4 .go)
  List.flatten
    [gos 4 0, [.channel (.run 0 (.start 1 2)), .channel (.run 0 (.spawn 3))],
      gos 4 1, [.underlayClosed 1 0, .channel (.run 1 (.spawn 4))],
      gos 6 4, [.channel (.run 4 (.order [⟨defaultUnderlayType, ⟨1, 0⟩⟩]))], gos 2 4,
      dials 4, [.dial 4 (.draw 0), .tick 2000000001], dials 2,
      [.dial 4 (.created (some survivorUnderlay))], dials 1, [.dialed 4], gos 6 4,
      [.channel (.run 4 (.start 5 6)), .accepted 4]]

/-- The dialer is asked for the next epoch, and the listener answers. -/
def SurvivorDials (s : State × (ℕ → GoString)) : Event → Prop
  | .channel (.callAccept _ _) => False
  | .dial g (.created (some u)) =>
      s.2 g = str "group-1" ∧ s.1.chan.ch.groupSecret = [7] ∧ u = survivorUnderlay
  | _ => True

instance (s : State × (ℕ → GoString)) : DecidablePred (SurvivorDials s)
  | .channel (.callAccept _ _) => instDecidableFalse
  | .dial _ (.created (some _)) => inferInstanceAs (Decidable (_ ∧ _ ∧ _))
  | .channel (.run _ _) | .channel (.close _ _) | .channel (.callClose _)
  | .dial _ .go | .dial _ .cancel | .dial _ (.draw _) | .dial _ (.created none)
  | .tick _ | .dialed _ | .accepted _ | .underlayClosed _ _ => instDecidableTrue

end Redial

open Redial Transition in
/-- **A dialing channel does not mix epochs.**  Let the first underlay have a connection id, and all
others come from the channel's own dials, with a classic dialer that keeps the headers of the group.
For any interleaving of removals, dials that succeed, fail or are cut short, and goroutines that
enforce constraints, and whatever the peers answer: all underlays that a channel holds have the
connection id of the epoch that its policy is in, so they lead to one channel of the listener. -/
theorem dialer_epochs_never_mix (setup : Concurrent.Setup) (config : BackoffConfig) (start : Time)
    (d : ClassicDialer) (hd : d.KeepsGroup) (hne : setup.first.connectionId ≠ [])
    (s : State × (ℕ → GoString))
    (hs : (naming setup config start).Reachable (OwnDialer d) s) :
    ∀ u ∈ s.1.chan.ch.underlays,
      u.connectionId =
        (groupConnectionId s.1.policy.iteration setup.first.connectionId false).2 := by
  have hdials : (naming setup config start).Reachable
      (Dials fun groupId u => u.connectionId = groupId) s := by
    refine System.Steps.mono (fun s e hok => ?_) hs
    cases e with
    | dial g a =>
      cases a with
      | created result =>
        cases result with
        | none => trivial
        | some u =>
          obtain ⟨underlayType, isFirst, ref, commonName, request, response, hhello, hresult⟩ := hok
          exact hd.dialed_connectionId hhello hresult
      | _ => trivial
    | channel e =>
      cases e with
      | callAccept => exact hok
      | _ => trivial
    | _ => trivial
  exact (kept_of_reachable rfl hne hdials).current

open Redial Transition in
/-- After the loss of its only underlay a channel is in the next epoch. -/
theorem dialer_epochs_never_mix_survivor :
    ∃ s, (naming survivorSetup defaultBackoffConfig 1).Reachable (OwnDialer plainDialer) s ∧
      s.1.chan.ch.underlays = [survivorUnderlay] ∧
      ∀ u ∈ s.1.chan.ch.underlays,
        u.connectionId = (groupConnectionId s.1.policy.iteration (str "group") false).2 := by
  obtain ⟨s, hs, h⟩ := System.reachable_of_replay (naming survivorSetup defaultBackoffConfig 1)
    SurvivorDials survivorRun
    (fun s => decide (s.1.chan.ch.underlays = [survivorUnderlay])) (by decide +kernel)
  have hs' : (naming survivorSetup defaultBackoffConfig 1).Reachable (OwnDialer plainDialer) s := by
    refine System.Steps.mono (fun s e hok => ?_) hs
    cases e with
    | dial g a =>
      cases a with
      | created result =>
        cases result with
        | none => trivial
        | some u =>
          obtain ⟨hid, hsecret, rfl⟩ := hok
          refine ⟨defaultUnderlayType, true, 1, none, survivorHello, survivorAnswer, ?_, rfl⟩
          rw [hid, hsecret]
          rfl
      | _ => trivial
    | channel e =>
      cases e with
      | callAccept => exact hok
      | _ => trivial
    | _ => trivial
  exact ⟨s, hs', of_decide_eq_true h, dialer_epochs_never_mix survivorSetup defaultBackoffConfig 1
    plainDialer (fun _ h => by cases h) (by decide) s hs'⟩

end ZitiChannel
