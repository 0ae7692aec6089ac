import ZitiChannel.Message

/-!
# A channel and its underlays

A channel multiplexes messages over a collection of underlays.  It starts with
one; whether it may take more is decided by its configuration, and who may join
by a secret that the first underlay brought along.  This file models the part of
the channel that the lock guards: construction, `acceptUnderlay`, `close`, and the
two critical sections of `closeUnderlay`.

What the channel calls on an underlay and the goroutines it starts leave a trace
in the state (`closeCalls`, `multiplexed`), so that results can speak of them.

## Main definitions

* `Config`, `newChannel` — construction, with a bind handler that may already use
  the channel.
* `ChannelImpl.acceptUnderlay`, `ChannelImpl.close`, `ChannelImpl.removeUnderlay`,
  `ChannelImpl.repairFallback`.
* `LifeStep`, `life` — everything that happens to a channel, in order.

## Main results

* `ChannelImpl.acceptUnderlay_cases` — an offered underlay is admitted or closed.
* `groupSecret_gate` — **only the holders of the group secret join a channel.**

The source is `impl.go`, with `underlays.go`.
-/

namespace ZitiChannel

open ByteStream

/-! ### Underlays -/

/-- An underlay as the channel sees it. -/
structure Underlay where
  /-- Its identity: which connection this is. -/
  ref : ℕ
  /-- The identity token of the peer. -/
  id : GoString
  /-- The id of the group, or of the connection. -/
  connectionId : GoString
  headers : Headers
  deriving DecidableEq

/-- How many underlays of a type are wanted and needed. -/
structure UnderlayConstraint where
  /-- How many the channel tries to keep open. -/
  desired : Int
  /-- How many it closes without. -/
  min : Int
  deriving DecidableEq, Repr

/-- What is called on a channel.  The three parts of `closeUnderlay` are separate
calls: other calls may come between them. -/
inductive ChannelCall
  | acceptUnderlay (u : Underlay)
  /-- `closeUnderlay` closes the connection. -/
  | shut (u : Underlay)
  /-- `closeUnderlay` takes the underlay out of the collection. -/
  | remove (u : Underlay)
  /-- `closeUnderlay` replaces the fallback underlay. -/
  | repair (u : Underlay)
  | close
  deriving DecidableEq

/-! ### The channel -/

/-- The state of a channel. -/
structure ChannelImpl where
  /-- The identity token of the first underlay's peer. -/
  ownerId : GoString
  /-- The connection id of the first underlay. -/
  channelId : GoString
  /-- The secret the first underlay brought along; empty if it brought none. -/
  groupSecret : Bytes
  dialPolicy : Bool
  constraints : Finmap fun _ : GoString => UnderlayConstraint
  minTotalUnderlays : Int
  closed : Bool
  /-- Whether the close-notification channel, which the senders share, is closed. -/
  closeNotify : Bool
  /-- The underlay asked for headers, certificates and the label. -/
  fallbackUnderlay : Underlay
  underlays : List Underlay
  /-- The underlays whose goroutines were started. -/
  multiplexed : List Underlay
  closeCalls : List Underlay
  deriving DecidableEq

namespace ChannelImpl

/-- Whether the channel can grow beyond its first underlay. -/
def isMultiUnderlayCapable (ch : ChannelImpl) : Bool :=
  ch.dialPolicy || decide (0 < ch.constraints.entries.card) || decide (0 < ch.minTotalUnderlays)

def startMultiplex (ch : ChannelImpl) (u : Underlay) : ChannelImpl :=
  { ch with multiplexed := ch.multiplexed ++ [u] }

def addUnderlay (ch : ChannelImpl) (u : Underlay) : ChannelImpl :=
  { ch with underlays := ch.underlays ++ [u] }

/-- Call `Close` on an underlay. -/
def closeConn (ch : ChannelImpl) (u : Underlay) : ChannelImpl :=
  { ch with closeCalls := ch.closeCalls ++ [u] }

/-- Turn an offered underlay away: close it and report why. -/
def rejectUnderlay (ch : ChannelImpl) (u : Underlay) (why : String) :
    ChannelImpl × Option GoString :=
  (ch.closeConn u, some (str "new underlay for '" ++ ch.channelId ++ str "' not accepted: " ++ str why))

def admitUnderlay (ch : ChannelImpl) (u : Underlay) : ChannelImpl :=
  ({ ch with fallbackUnderlay := u }.addUnderlay u).startMultiplex u

/-- Offer the channel another underlay. -/
def acceptUnderlay (ch : ChannelImpl) (u : Underlay) : ChannelImpl × Option GoString :=
  if !ch.isMultiUnderlayCapable then
    ch.rejectUnderlay u "channel does not accept additional underlays"
  else if u.headers.index groupSecretHeader ≠ ch.groupSecret then
    ch.rejectUnderlay u "incorrect group secret"
  else if ch.closed then ch.rejectUnderlay u "channel is closed"
  else (ch.admitUnderlay u, none)

/-- Take an underlay out of the collection: its first occurrence. -/
def removeUnderlay (ch : ChannelImpl) (u : Underlay) : ChannelImpl :=
  { ch with underlays := ch.underlays.erase u }

/-- Replace the fallback underlay, if it is the one that went away and there is
another: by the last of the collection. -/
def repairFallback (ch : ChannelImpl) (u : Underlay) : ChannelImpl :=
  if ch.fallbackUnderlay = u then
    match ch.underlays.getLast? with
    | some lastUnderlay => { ch with fallbackUnderlay := lastUnderlay }
    | none => ch
  else ch

/-- Close the channel.  Only the first call does anything. -/
def close (ch : ChannelImpl) : ChannelImpl :=
  if ch.closed then ch
  else
    { ch with
      closed := true
      closeNotify := true
      closeCalls := ch.closeCalls ++ ch.underlays }

def call (ch : ChannelImpl) : ChannelCall → ChannelImpl
  | .acceptUnderlay u => (ch.acceptUnderlay u).1
  | .shut u => ch.closeConn u
  | .remove u => ch.removeUnderlay u
  | .repair u => ch.repairFallback u
  | .close => ch.close

/-- A sequence of calls. -/
def calls (ch : ChannelImpl) (cs : List ChannelCall) : ChannelImpl := cs.foldl call ch

end ChannelImpl

/-! ### Construction -/

/-- A bind handler: what it calls on the channel, and the error it returns. -/
structure Binder where
  calls : List ChannelCall
  err : Option GoString

/-- What a channel is made from. -/
structure Config where
  /-- The name used in error texts. -/
  logicalName : GoString
  senders : Bool
  messageSourceProvider : Bool
  underlay : Option Underlay
  binder : Binder
  dialPolicy : Bool
  constraints : Finmap fun _ : GoString => UnderlayConstraint
  minTotalUnderlays : Int

/-- The channel of a configuration, before anything is called on it. -/
def Config.impl (config : Config) (u : Underlay) : ChannelImpl where
  ownerId := u.id
  channelId := u.connectionId
  groupSecret := u.headers.index groupSecretHeader
  dialPolicy := config.dialPolicy
  constraints := config.constraints
  minTotalUnderlays := config.minTotalUnderlays
  closed := false
  closeNotify := false
  fallbackUnderlay := u
  underlays := []
  multiplexed := []
  closeCalls := []

def newChannel (config : Config) : Except GoString ChannelImpl :=
  if !config.senders then
    .error (str "no senders configured for channel " ++ config.logicalName)
  else if !config.messageSourceProvider then
    .error (str "no message source provider configured for channel " ++ config.logicalName)
  else
    match config.underlay with
    | none =>
        .error (str "unable to initialize channel (initialization produced zero underlays)")
    | some u =>
        let impl := config.impl u
        -- written apart from `isMultiUnderlayCapable`, as the source does
        if impl.groupSecret.length = 0 ∧
            (config.dialPolicy ∨ 0 < config.constraints.entries.card ∨
              0 < config.minTotalUnderlays) then
          .error (str "no group secret header found for multi-underlay channel")
        else
          match config.binder.err with
          | some err => .error err
          | none => .ok (((impl.calls config.binder.calls).addUnderlay u).startMultiplex u)

/-! ### The life of a channel -/

/-- One thing that happens to a channel: a call, or the start of its first
underlay, which `newChannel` adds after binding. -/
inductive LifeStep
  | call (c : ChannelCall)
  | start (u : Underlay)

/-- What happens to a channel from its construction on. -/
def life (config : Config) (u : Underlay) (later : List ChannelCall) : List LifeStep :=
  config.binder.calls.map .call ++ .start u :: later.map .call

namespace ChannelImpl

/-- What one step of its life does. -/
def live (ch : ChannelImpl) : LifeStep → ChannelImpl
  | .call c => ch.call c
  | .start u => (ch.addUnderlay u).startMultiplex u

/-- The channel after a part of its life. -/
def after (ch : ChannelImpl) (steps : List LifeStep) : ChannelImpl := steps.foldl live ch

theorem after_append (ch : ChannelImpl) (a b : List LifeStep) :
    ch.after (a ++ b) = (ch.after a).after b := List.foldl_append

@[simp] theorem after_cons (ch : ChannelImpl) (st : LifeStep) (steps : List LifeStep) :
    ch.after (st :: steps) = (ch.live st).after steps := rfl

theorem after_map_call (ch : ChannelImpl) (cs : List ChannelCall) :
    ch.after (cs.map .call) = ch.calls cs := by
  rw [after, List.foldl_map]; rfl

/-! ### What the calls keep -/

/-- The part of the state that is fixed at construction. -/
def SameSetup (ch ch' : ChannelImpl) : Prop :=
  ch'.groupSecret = ch.groupSecret ∧ ch'.dialPolicy = ch.dialPolicy ∧
    ch'.constraints = ch.constraints ∧ ch'.minTotalUnderlays = ch.minTotalUnderlays

theorem SameSetup.capable {ch ch' : ChannelImpl} (h : SameSetup ch ch') :
    ch'.isMultiUnderlayCapable = ch.isMultiUnderlayCapable := by
  obtain ⟨-, hd, hc, hm⟩ := h
  rw [isMultiUnderlayCapable, hd, hc, hm, isMultiUnderlayCapable]

theorem SameSetup.trans {a b c : ChannelImpl} (h : SameSetup a b) (h' : SameSetup b c) :
    SameSetup a c :=
  ⟨h'.1.trans h.1, h'.2.1.trans h.2.1, h'.2.2.1.trans h.2.2.1, h'.2.2.2.trans h.2.2.2⟩

/-- Nothing but the fallback underlay is replaced. -/
theorem repairFallback_eq (ch : ChannelImpl) (u : Underlay) :
    ∃ v, ch.repairFallback u = { ch with fallbackUnderlay := v } := by
  unfold repairFallback
  split
  · split
    · exact ⟨_, rfl⟩
    · exact ⟨ch.fallbackUnderlay, rfl⟩
  · exact ⟨ch.fallbackUnderlay, rfl⟩

theorem sameSetup_repairFallback (ch : ChannelImpl) (u : Underlay) :
    SameSetup ch (ch.repairFallback u) := by
  obtain ⟨v, hv⟩ := ch.repairFallback_eq u
  rw [hv]
  exact ⟨rfl, rfl, rfl, rfl⟩

/-- The condition under which an offered underlay is taken in. -/
def Admits (ch : ChannelImpl) (u : Underlay) : Prop :=
  ch.isMultiUnderlayCapable = true ∧ u.headers.index groupSecretHeader = ch.groupSecret ∧
    ch.closed = false

/-- **An offered underlay is taken in or closed**, and nothing else happens to the
channel when it is closed. -/
theorem acceptUnderlay_cases (ch : ChannelImpl) (u : Underlay) :
    (ch.Admits u ∧ ch.acceptUnderlay u = (ch.admitUnderlay u, none)) ∨
      (¬ ch.Admits u ∧ ∃ why, ch.acceptUnderlay u = ch.rejectUnderlay u why) := by
  unfold acceptUnderlay Admits
  by_cases hcap : ch.isMultiUnderlayCapable = true
  · by_cases hsecret : u.headers.index groupSecretHeader = ch.groupSecret
    · by_cases hclosed : ch.closed = true
      · exact Or.inr ⟨by simp [hclosed], _, by simp [hcap, hsecret, hclosed]; rfl⟩
      · exact Or.inl ⟨⟨hcap, hsecret, by simpa using hclosed⟩, by simp [hcap, hsecret, hclosed]⟩
    · exact Or.inr ⟨fun h => hsecret h.2.1, _, by simp [hcap, hsecret]; rfl⟩
  · exact Or.inr ⟨fun h => hcap h.1, _, by simp [hcap]; rfl⟩

theorem sameSetup_live (ch : ChannelImpl) (st : LifeStep) : SameSetup ch (ch.live st) := by
  cases st with
  | start u => exact ⟨rfl, rfl, rfl, rfl⟩
  | call c =>
    cases c with
    | acceptUnderlay u =>
      rcases acceptUnderlay_cases ch u with ⟨-, h⟩ | ⟨-, why, h⟩
      · simp only [live, call, h]; exact ⟨rfl, rfl, rfl, rfl⟩
      · simp only [live, call, h]; exact ⟨rfl, rfl, rfl, rfl⟩
    | shut u => exact ⟨rfl, rfl, rfl, rfl⟩
    | remove u => exact ⟨rfl, rfl, rfl, rfl⟩
    | repair u => exact sameSetup_repairFallback ch u
    | close =>
      simp only [live, call, close]
      split <;> exact ⟨rfl, rfl, rfl, rfl⟩

theorem sameSetup_after : ∀ (steps : List LifeStep) (ch : ChannelImpl),
    SameSetup ch (ch.after steps) := by
  intro steps
  induction steps with
  | nil => intro ch; exact ⟨rfl, rfl, rfl, rfl⟩
  | cons st steps ih =>
    intro ch
    exact (sameSetup_live ch st).trans (ih (ch.live st))

/-- The only steps that put an underlay into the collection. -/
theorem mem_underlays_live {ch : ChannelImpl} {st : LifeStep} {u : Underlay}
    (h : u ∈ (ch.live st).underlays) :
    u ∈ ch.underlays ∨ st = .start u ∨ (st = .call (.acceptUnderlay u) ∧ ch.Admits u) := by
  cases st with
  | start v =>
    rcases List.mem_append.mp h with h | h
    · exact Or.inl h
    · exact Or.inr (Or.inl (by rw [List.mem_singleton.mp h]))
  | call c =>
    cases c with
    | acceptUnderlay v =>
      rcases acceptUnderlay_cases ch v with ⟨hadm, hv⟩ | ⟨-, why, hv⟩
      · simp only [live, call, hv] at h
        rcases List.mem_append.mp h with h | h
        · exact Or.inl h
        · rw [List.mem_singleton.mp h]
          exact Or.inr (Or.inr ⟨rfl, hadm⟩)
      · simp only [live, call, hv] at h
        exact Or.inl h
    | shut v => exact Or.inl h
    | remove v => exact Or.inl (List.mem_of_mem_erase h)
    | repair v =>
      obtain ⟨w, hw⟩ := ch.repairFallback_eq v
      simp only [live, call, hw] at h
      exact Or.inl h
    | close =>
      simp only [live, call, close] at h
      split at h <;> exact Or.inl h

/-- Whatever is in the collection was there at the beginning, is the first underlay,
or was offered and admitted at some point of the channel's life. -/
theorem mem_underlays_after {u : Underlay} : ∀ (steps : List LifeStep) (ch : ChannelImpl),
    u ∈ (ch.after steps).underlays →
    u ∈ ch.underlays ∨ .start u ∈ steps ∨
      ∃ pre post, steps = pre ++ .call (.acceptUnderlay u) :: post ∧ (ch.after pre).Admits u := by
  intro steps
  induction steps with
  | nil => intro ch h; exact Or.inl h
  | cons st steps ih =>
    intro ch h
    rcases ih (ch.live st) h with h | h | ⟨pre, post, rfl, hadm⟩
    · rcases mem_underlays_live h with h | rfl | ⟨rfl, hadm⟩
      · exact Or.inl h
      · exact Or.inr (Or.inl List.mem_cons_self)
      · exact Or.inr (Or.inr ⟨[], steps, rfl, hadm⟩)
    · exact Or.inr (Or.inl (List.mem_cons_of_mem st h))
    · exact Or.inr (Or.inr ⟨st :: pre, post, rfl, hadm⟩)

/-! ### Closing -/

/-- Nothing but `close` touches the closed flag and the close notification. -/
theorem live_flags (ch : ChannelImpl) (st : LifeStep) :
    ((ch.live st).closed = ch.closed ∧ (ch.live st).closeNotify = ch.closeNotify) ∨
      ch.live st = ch.close := by
  cases st with
  | start u => exact Or.inl ⟨rfl, rfl⟩
  | call c =>
    cases c with
    | acceptUnderlay u =>
      left
      rcases acceptUnderlay_cases ch u with ⟨-, h⟩ | ⟨-, why, h⟩
      · simp only [live, call, h]; exact ⟨rfl, rfl⟩
      · simp only [live, call, h]; exact ⟨rfl, rfl⟩
    | shut u => exact Or.inl ⟨rfl, rfl⟩
    | remove u => exact Or.inl ⟨rfl, rfl⟩
    | repair u =>
      left
      obtain ⟨v, hv⟩ := ch.repairFallback_eq u
      rw [live, call, hv]
      exact ⟨rfl, rfl⟩
    | close => exact Or.inr rfl

theorem closeNotify_close {ch : ChannelImpl} (h : ch.closed = true → ch.closeNotify = true) :
    ch.close.closeNotify = true := by
  unfold close
  split
  · next hc => exact h hc
  · rfl

/-- A closed channel has given its close notification, at every point of its life. -/
theorem closeNotify_of_closed : ∀ (steps : List LifeStep) {ch : ChannelImpl},
    (ch.closed = true → ch.closeNotify = true) →
    (ch.after steps).closed = true → (ch.after steps).closeNotify = true := by
  intro steps
  induction steps with
  | nil => intro ch h; exact h
  | cons st steps ih =>
    intro ch h
    refine ih fun hc => ?_
    rcases live_flags ch st with ⟨hcl, hn⟩ | hst
    · exact hn ▸ h (hcl ▸ hc)
    · rw [hst]; exact closeNotify_close h

/-- Nothing takes the close notification back. -/
theorem closeNotify_after : ∀ (steps : List LifeStep) {ch : ChannelImpl},
    ch.closeNotify = true → (ch.after steps).closeNotify = true := by
  intro steps
  induction steps with
  | nil => intro ch h; exact h
  | cons st steps ih =>
    intro ch h
    refine ih ?_
    rcases live_flags ch st with ⟨-, hn⟩ | hst
    · exact hn.trans h
    · rw [hst]; exact closeNotify_close fun _ => h

end ChannelImpl

/-- What an accepted configuration promises, and the channel it makes. -/
theorem newChannel_ok {config : Config} {ch : ChannelImpl} (h : newChannel config = .ok ch) :
    ∃ u, config.underlay = some u ∧
      (((config.impl u).groupSecret = [] → (config.impl u).isMultiUnderlayCapable = false)) ∧
      ch = ((((config.impl u).calls config.binder.calls).addUnderlay u).startMultiplex u) := by
  unfold newChannel at h
  split at h
  · simp at h
  · split at h
    · simp at h
    · cases hu : config.underlay with
      | none => rw [hu] at h; simp at h
      | some u =>
        rw [hu] at h
        simp only at h
        split at h
        · simp at h
        · next hguard =>
          cases herr : config.binder.err with
          | some err => rw [herr] at h; simp at h
          | none =>
            rw [herr] at h
            refine ⟨u, rfl, fun hs => ?_, (Except.ok.inj h).symm⟩
            rw [not_and, not_or, not_or] at hguard
            obtain ⟨hd, hc, hm⟩ := hguard (by rw [hs]; rfl)
            simp [ChannelImpl.isMultiUnderlayCapable, Config.impl, hd, hc, hm]

/-- A channel is what its life made of it. -/
theorem calls_newChannel {config : Config} {ch : ChannelImpl} {u : Underlay}
    (hch : ch = ((((config.impl u).calls config.binder.calls).addUnderlay u).startMultiplex u))
    (later : List ChannelCall) : ch.calls later = (config.impl u).after (life config u later) := by
  rw [life, ChannelImpl.after_append, ChannelImpl.after_map_call, ChannelImpl.after_cons,
    ChannelImpl.after_map_call, hch]
  rfl

/-- **Group secret gate.**  Take any configuration that `newChannel` accepts, and any
calls on the channel, while binding and later.  Every underlay of the collection
other than the first was offered at some point of the channel's life, when the
channel was open, and carried the channel's secret, which is not empty.  Every
other offer leaves the collection, the fallback underlay and the goroutines as they
were, and closes the underlay. -/
theorem groupSecret_gate (config : Config) (ch : ChannelImpl) (hnew : newChannel config = .ok ch)
    (later : List ChannelCall) :
    ∃ first, config.underlay = some first ∧
      ch.calls later = (config.impl first).after (life config first later) ∧
      (∀ u ∈ (ch.calls later).underlays, u ≠ first →
        ∃ pre post, life config first later = pre ++ .call (.acceptUnderlay u) :: post ∧
          ((config.impl first).after pre).closed = false ∧
          u.headers.index groupSecretHeader = ch.groupSecret ∧ ch.groupSecret ≠ []) ∧
      (∀ pre u post, life config first later = pre ++ .call (.acceptUnderlay u) :: post →
        let before := (config.impl first).after pre
        let result := before.acceptUnderlay u
        (before.closed = false ∧ u.headers.index groupSecretHeader = ch.groupSecret ∧
          ch.groupSecret ≠ [] ∧ result.2 = none) ∨
        (result.2 ≠ none ∧ result.1.closeCalls = before.closeCalls ++ [u] ∧
          result.1.underlays = before.underlays ∧
          result.1.fallbackUnderlay = before.fallbackUnderlay ∧
          result.1.multiplexed = before.multiplexed)) := by
  obtain ⟨first, hfirst, hsecret, hch⟩ := newChannel_ok hnew
  have hlife := calls_newChannel hch later
  -- the secret of the channel is the one it was constructed with, at every point
  have hsame : ch.groupSecret = (config.impl first).groupSecret := by
    have h := (ChannelImpl.sameSetup_after (life config first []) (config.impl first)).1
    rwa [← calls_newChannel hch []] at h
  have hadmits : ∀ pre u, ((config.impl first).after pre).Admits u →
      ((config.impl first).after pre).closed = false ∧
        u.headers.index groupSecretHeader = ch.groupSecret ∧ ch.groupSecret ≠ [] := by
    rintro pre u ⟨hcap, hu, hopen⟩
    have hset := ChannelImpl.sameSetup_after pre (config.impl first)
    rw [hset.capable] at hcap
    refine ⟨hopen, by rw [hu, hset.1, hsame], fun hnil => ?_⟩
    rw [hsecret (hsame ▸ hnil)] at hcap
    exact Bool.false_ne_true hcap
  refine ⟨first, hfirst, hlife, ?_, ?_⟩
  · intro u hu hne
    rw [hlife] at hu
    rcases ChannelImpl.mem_underlays_after _ _ hu with h | h | ⟨pre, post, hsplit, hadm⟩
    · simp [Config.impl] at h
    · -- only the first underlay is started
      exfalso
      simp only [life, List.mem_append, List.mem_map, List.mem_cons] at h
      rcases h with ⟨c, -, hc⟩ | h | ⟨c, -, hc⟩
      · cases hc
      · exact hne (by injection h)
      · cases hc
    · exact ⟨pre, post, hsplit, hadmits pre u hadm⟩
  · intro pre u post _
    rcases ChannelImpl.acceptUnderlay_cases ((config.impl first).after pre) u with
      ⟨hadm, h⟩ | ⟨-, why, h⟩
    · obtain ⟨hopen, hu, hne⟩ := hadmits pre u hadm
      exact Or.inl ⟨hopen, hu, hne, by rw [h]⟩
    · exact Or.inr (by rw [h]; exact ⟨by simp [ChannelImpl.rejectUnderlay], rfl, rfl, rfl, rfl⟩)

/-- A channel that wants two underlays takes in the one that knows its secret and
not the one that does not. -/
theorem groupSecret_gate_stranger :
    let secret : Headers := Finmap.singleton groupSecretHeader [42]
    let first : Underlay := ⟨0, [], [], secret⟩
    let joiner : Underlay := ⟨1, [], [], secret⟩
    let stranger : Underlay := ⟨2, [], [], ∅⟩
    let config : Config := ⟨[], true, true, some first, ⟨[], none⟩, false, ∅, 1⟩
    ∃ ch, newChannel config = .ok ch ∧
      (ch.calls [.acceptUnderlay joiner, .acceptUnderlay stranger]).underlays = [first, joiner] ∧
      ∀ u ∈ (ch.calls [.acceptUnderlay joiner, .acceptUnderlay stranger]).underlays, u ≠ first →
        u.headers.index groupSecretHeader = ch.groupSecret ∧ ch.groupSecret ≠ [] := by
  intro secret first joiner stranger config
  refine ⟨_, rfl, by decide, ?_⟩
  obtain ⟨v, hv, -, hgate, -⟩ :=
    groupSecret_gate config _ rfl [.acceptUnderlay joiner, .acceptUnderlay stranger]
  obtain rfl : first = v := Option.some.inj hv
  intro u hu hne
  obtain ⟨-, -, -, -, hsecret⟩ := hgate u hu hne
  exact hsecret

end ZitiChannel
