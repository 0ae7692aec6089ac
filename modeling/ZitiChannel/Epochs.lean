import Mathlib.Data.Nat.Digits.Defs
import ZitiChannel.Handshake
import ZitiChannel.ListenerInvariant

/-!
# Reconnect epochs

When a channel has lost all its underlays, its dial policy starts a new epoch: the next dial is a
first one, and from then on dials use a connection id with a new suffix.  The group secret stays the
same, so at the listener the id is all that separates a channel of one epoch from a late underlay of
another.

## Main definitions

* `groupConnectionId`, `dialIds` — the ids that a policy uses, dial by dial.
* `dialHeaders` — the headers of a dial.
* `DialedIn` — an underlay at the listener, and the epoch in which it was dialed.
* `FactoryPromise` — a `Factory` builds a channel on the underlay it is given.

## Main results

* `getElem?_dialIds`, `epochId_inj` — the ids count the epochs, and do not repeat.
* `underlays_chId` — a channel of the listener holds underlays of one connection id only.
* `epochs_never_mix` — **no channel holds underlays of two epochs**, unless the dialer's
  `HelloHeaderProvider` overrides the connection id.

The sources are `dial_policy.go` and `multi_listener.go`.
-/

namespace ZitiChannel

open ByteStream Transition

/-! ### Ids -/

/-- A number in decimal. -/
def decimal (n : ℕ) : GoString :=
  if n = 0 then [48] else (Nat.digits 10 n).reverse.map fun d => UInt8.ofNat (48 + d)

theorem decimal_inj {m n : ℕ} (hm : m ≠ 0) (hn : n ≠ 0) (h : decimal m = decimal n) : m = n := by
  rw [decimal, decimal, if_neg hm, if_neg hn, List.map_reverse, List.map_reverse,
    List.reverse_inj] at h
  -- a digit can be read off its character
  have hdigits : ∀ k, ((Nat.digits 10 k).map fun d => UInt8.ofNat (48 + d)).map
      (fun b => b.toNat - 48) = Nat.digits 10 k := by
    intro k
    rw [List.map_map]
    refine (List.map_congr_left fun d hd => ?_).trans (List.map_id _)
    have hlt : d < 10 := Nat.digits_lt_base (by decide) hd
    simp only [Function.comp_apply, UInt8.toNat_ofNat', id_eq]
    omega
  have := congrArg (List.map fun b : UInt8 => b.toNat - 48) h
  rwa [hdigits, hdigits, Nat.digits_inj_iff] at this

/-- The connection id that a dial uses, and the iteration after it. -/
def groupConnectionId (iteration : UInt32) (connectionId : GoString) (isFirst : Bool) :
    UInt32 × GoString :=
  let iteration := if isFirst then iteration + 1 else iteration
  if iteration = 0 then (iteration, connectionId)
  else (iteration, connectionId ++ str "-" ++ decimal iteration.toNat)

/-- A call of `Dial`, without what is the same for all of them. -/
structure Dial where
  underlayType : GoString
  isFirst : Bool

/-- The ids of a sequence of dials. -/
def dialIds (connectionId : GoString) : UInt32 → List Dial → List GoString
  | _, [] => []
  | iteration, dial :: dials =>
      let (iteration, groupId) := groupConnectionId iteration connectionId dial.isFirst
      groupId :: dialIds connectionId iteration dials

/-- The epoch of a dial: the number of first dials up to it. -/
def epoch (dials : List Dial) (i : ℕ) : ℕ := (dials.take (i + 1)).countP (·.isFirst)

/-- The id of an epoch. -/
def epochId (connectionId : GoString) (k : ℕ) : GoString :=
  if k = 0 then connectionId else connectionId ++ str "-" ++ decimal k

/-- The iteration counts the first dials, as long as it does not overflow. -/
theorem groupConnectionId_eq {iteration : UInt32} {isFirst : Bool}
    (h : iteration.toNat + isFirst.toNat < 2 ^ 32) (connectionId : GoString) :
    (groupConnectionId iteration connectionId isFirst).1.toNat = iteration.toNat + isFirst.toNat ∧
      (groupConnectionId iteration connectionId isFirst).2 =
        epochId connectionId (iteration.toNat + isFirst.toNat) := by
  have hnext : (if isFirst then iteration + 1 else iteration).toNat =
      iteration.toNat + isFirst.toNat := by
    cases isFirst
    · rfl
    · simp only [if_true, Bool.toNat_true] at h ⊢
      rw [UInt32.toNat_add]
      exact Nat.mod_eq_of_lt h
  simp only [groupConnectionId, epochId, ← hnext]
  generalize (if isFirst then iteration + 1 else iteration) = after
  have hzero : after = 0 ↔ after.toNat = 0 := by rw [← UInt32.toNat_inj, UInt32.toNat_zero]
  by_cases h0 : after = 0
  · rw [if_pos h0, if_pos (hzero.mp h0)]; exact ⟨rfl, rfl⟩
  · rw [if_neg h0, if_neg (mt hzero.mpr h0)]; exact ⟨rfl, rfl⟩

theorem epoch_cons_zero (dial : Dial) (dials : List Dial) :
    epoch (dial :: dials) 0 = dial.isFirst.toNat := by
  cases h : dial.isFirst <;> simp [epoch, h]

theorem epoch_cons_succ (dial : Dial) (dials : List Dial) (i : ℕ) :
    epoch (dial :: dials) (i + 1) = dial.isFirst.toNat + epoch dials i := by
  rw [epoch, List.take_succ_cons, List.countP_cons, Nat.add_comm, epoch]
  cases dial.isFirst <;> rfl

/-- Only a first dial begins an epoch. -/
theorem epoch_succ (dials : List Dial) (i : ℕ) :
    epoch dials (i + 1) = epoch dials i + (dials[i + 1]?.any (·.isFirst)).toNat := by
  rw [epoch, List.take_add_one, List.countP_append, epoch]
  cases dials[i + 1]? with
  | none => rfl
  | some dial => cases h : dial.isFirst <;> simp [h]

theorem epoch_eq_of_no_first {dials : List Dial} {i : ℕ} : ∀ {j : ℕ}, i ≤ j →
    (∀ m dial, i < m → m ≤ j → dials[m]? = some dial → dial.isFirst = false) →
    epoch dials j = epoch dials i := by
  intro j hij
  induction j, hij using Nat.le_induction with
  | base => intro _; rfl
  | succ j hij ih =>
    intro h
    have hlast : dials[j + 1]?.any (·.isFirst) = false := by
      rw [Option.any_eq_false]
      exact fun dial hdial => by simp [h (j + 1) dial (by omega) le_rfl hdial]
    rw [epoch_succ, hlast, ih fun m dial hm hmj => h m dial hm (by omega)]
    rfl

theorem epoch_eq_zero {dials : List Dial} {j : ℕ}
    (h : ∀ m dial, m ≤ j → dials[m]? = some dial → dial.isFirst = false) : epoch dials j = 0 := by
  rw [epoch, List.countP_eq_zero]
  intro dial hdial
  obtain ⟨m, hm, rfl⟩ := List.mem_take_iff_getElem.mp hdial
  have hfirst := h m dials[m] (by omega) (List.getElem?_eq_getElem _)
  simp [hfirst]

/-- The ids count the epochs. -/
theorem getElem?_dialIds (connectionId : GoString) :
    ∀ (dials : List Dial) (iteration : UInt32) (i : ℕ),
      iteration.toNat + dials.countP (·.isFirst) < 2 ^ 32 →
      (dialIds connectionId iteration dials)[i]? =
        dials[i]?.map fun _ => epochId connectionId (iteration.toNat + epoch dials i) := by
  intro dials
  induction dials with
  | nil => intro iteration i _; simp [dialIds]
  | cons dial dials ih =>
    intro iteration i h
    have hcount : (dial :: dials).countP (·.isFirst) =
        dials.countP (·.isFirst) + dial.isFirst.toNat := by
      rw [List.countP_cons]; cases dial.isFirst <;> rfl
    obtain ⟨hiter, hid⟩ := groupConnectionId_eq
      (show iteration.toNat + dial.isFirst.toNat < 2 ^ 32 by omega) connectionId
    cases i with
    | zero => rw [dialIds, List.getElem?_cons_zero, hid, epoch_cons_zero]; rfl
    | succ i =>
      rw [dialIds, List.getElem?_cons_succ, List.getElem?_cons_succ, ih _ _ (by omega), hiter,
        epoch_cons_succ, Nat.add_assoc]

/-- Different epochs have different ids. -/
theorem epochId_inj {connectionId : GoString} {k k' : ℕ}
    (h : epochId connectionId k = epochId connectionId k') : k = k' := by
  unfold epochId at h
  split at h
  · next hk =>
    split at h
    · next hk' => rw [hk, hk']
    · -- a suffix makes an id longer
      have := congrArg List.length h
      simp [str] at this
  · next hk =>
    split at h
    · have := congrArg List.length h
      simp [str] at this
    · next hk' => exact decimal_inj hk hk' (List.append_cancel_left h)

theorem epochId_eq_nil {connectionId : GoString} {k : ℕ} (h : epochId connectionId k = []) :
    connectionId = [] ∧ k = 0 := by
  unfold epochId at h
  split at h
  · next hk => exact ⟨h, hk⟩
  · rw [List.append_eq_nil_iff, List.append_eq_nil_iff] at h
    exact absurd h.1.2 (by decide)

/-! ### Dialed underlays at the listener -/

/-- The headers of a dial. -/
def dialHeaders (underlayType groupId : GoString) (groupSecret : Bytes) (isFirst : Bool) :
    Headers :=
  let headers : Headers := Finmap.insert isGroupedHeader [1] (Finmap.insert groupSecretHeader
    groupSecret (Finmap.insert connectionIdHeader groupId (Finmap.singleton typeHeader underlayType)))
  if isFirst then headers.putBoolHeader isFirstGroupConnection true else headers

theorem lookup_dialHeaders_connectionId (underlayType groupId : GoString) (groupSecret : Bytes)
    (isFirst : Bool) :
    (dialHeaders underlayType groupId groupSecret isFirst).lookup connectionIdHeader =
      some groupId := by
  cases isFirst <;> simp (disch := decide) [dialHeaders, Headers.putBoolHeader,
    Finmap.lookup_insert_of_ne]

theorem lookup_dialHeaders_isGrouped (underlayType groupId : GoString) (groupSecret : Bytes)
    (isFirst : Bool) :
    (dialHeaders underlayType groupId groupSecret isFirst).lookup isGroupedHeader = some [1] := by
  cases isFirst <;> simp (disch := decide) [dialHeaders, Headers.putBoolHeader,
    Finmap.lookup_insert_of_ne]

/-- The provider of a dialer, if it has one, leaves the connection id and the grouping alone. -/
def ClassicDialer.KeepsGroup (d : ClassicDialer) : Prop :=
  ∀ provider ∈ d.helloHeaderProvider, ∀ h : Headers,
    (provider h).1.index connectionIdHeader = h.index connectionIdHeader ∧
      (provider h).1.index isGroupedHeader = h.index isGroupedHeader

/-- What is dialed with goes into the hello, over the dialer's own headers. -/
theorem ClassicDialer.KeepsGroup.hello {d : ClassicDialer} (hd : d.KeepsGroup) {headers : Headers}
    {request : Message} (h : d.hello headers = .ok request) {id grouped : Bytes}
    (hid : headers.lookup connectionIdHeader = some id)
    (hgrouped : headers.lookup isGroupedHeader = some grouped) :
    request.headers.index connectionIdHeader = id ∧
      request.headers.index isGroupedHeader = grouped := by
  have hcopy : ∀ (own : Headers) {key : Int32} {v : Bytes}, headers.lookup key = some v →
      (own.copy headers).index key = v := fun own key v hv => by
    rw [Headers.index, Headers.lookup_copy, hv, Option.some_or, Option.getD_some]
  unfold ClassicDialer.hello at h
  dsimp only at h
  split at h
  · cases h
    exact ⟨hcopy _ hid, hcopy _ hgrouped⟩
  · next provider hprovider =>
    split at h
    · cases h
    · next edited heq =>
      cases h
      have hkeep := hd provider hprovider ((newHello d.identity d.headers).headers.copy headers)
      rw [heq] at hkeep
      exact ⟨hkeep.1.trans (hcopy _ hid), hkeep.2.trans (hcopy _ hgrouped)⟩

/-- What `NextConnectionId` generates, or a UUID in its place: no such id starts with a hyphen. -/
abbrev GeneratedId := { id : GoString // id.head? ≠ some 45 }

/-- `u` is an underlay at the listener of the group with the given connection id and secret, and
was dialed in epoch `k`: it is the one that the group started with, or comes from one of the
dials. -/
inductive DialedIn (connectionId : GoString) (groupSecret : Bytes) (d : ClassicDialer)
    (dials : List Dial) (u : Underlay) : ℕ → Prop
  | initial (h : u.connectionId = connectionId) : DialedIn connectionId groupSecret d dials u 0
  | dial (i : ℕ) (dial : Dial) (groupId : GoString) (request : Message) (generatedId : GeneratedId)
      (newSecret : Uuid) (hdial : dials[i]? = some dial)
      (hid : (dialIds connectionId 0 dials)[i]? = some groupId)
      (hhello : d.hello (dialHeaders dial.underlayType groupId groupSecret dial.isFirst) =
        .ok request)
      (haccept : u = (ClassicListener.acceptHello u.ref generatedId.1 newSecret request.arrived).2) :
      DialedIn connectionId groupSecret d dials u (epoch dials i)

/-- The connection id of a dialed underlay at the listener is that of its epoch, unless that is
empty and the listener generated one. -/
theorem DialedIn.connectionId {connectionId : GoString} {groupSecret : Bytes} {d : ClassicDialer}
    {dials : List Dial} {u : Underlay} {k : ℕ} (hd : d.KeepsGroup)
    (hfirsts : dials.countP (·.isFirst) < 2 ^ 32)
    (h : DialedIn connectionId groupSecret d dials u k) :
    u.connectionId = epochId connectionId k ∨
      (connectionId = [] ∧ k = 0 ∧ u.connectionId.head? ≠ some 45) := by
  cases h with
  | initial h => exact Or.inl h
  | dial i dial groupId request generatedId newSecret hdial hid hhello haccept =>
    have hgroupId : groupId = epochId connectionId (epoch dials i) := by
      rw [getElem?_dialIds connectionId dials 0 i (by simpa using hfirsts), hdial] at hid
      simpa using hid.symm
    obtain ⟨hrequestId, hrequestGrouped⟩ := hd.hello hhello
      (lookup_dialHeaders_connectionId _ _ _ _) (lookup_dialHeaders_isGrouped _ _ _ _)
    have hgrouped : (request.arrived.headers.getBoolHeader isGroupedHeader).1 = true := by
      rw [request.isGrouped_arrived, Headers.getBoolHeader_fst, hrequestGrouped]; rfl
    have hu : u.connectionId = if groupId ≠ [] then groupId else generatedId.1 := by
      rw [haccept, ClassicListener.acceptHello_connectionId, request.index_arrived (by decide),
        hrequestId]
      simp [hgrouped]
    by_cases hempty : groupId = []
    · right
      rw [hempty, if_neg (by simp)] at hu
      obtain ⟨hnil, hk⟩ := epochId_eq_nil (hgroupId ▸ hempty)
      exact ⟨hnil, hk, hu ▸ generatedId.2⟩
    · left
      rw [hu, if_pos hempty, hgroupId]

/-- The connection id of an underlay tells its epoch. -/
theorem DialedIn.epoch_eq {connectionId : GoString} {groupSecret : Bytes} {d : ClassicDialer}
    {dials : List Dial} {u v : Underlay} {k k' : ℕ} (hd : d.KeepsGroup)
    (hfirsts : dials.countP (·.isFirst) < 2 ^ 32)
    (hu : DialedIn connectionId groupSecret d dials u k)
    (hv : DialedIn connectionId groupSecret d dials v k')
    (hsame : u.connectionId = v.connectionId) : k = k' := by
  -- a generated id is not that of a later epoch
  have hfresh : ∀ {id : GoString} {k : ℕ}, connectionId = [] → id.head? ≠ some 45 →
      id = epochId connectionId k → 0 = k := by
    intro id k hnil hhead hid
    by_contra hk
    rw [hid, hnil, epochId, if_neg (Ne.symm hk)] at hhead
    exact hhead rfl
  rcases hu.connectionId hd hfirsts with huid | ⟨hnil, hk, huid⟩
  · rcases hv.connectionId hd hfirsts with hvid | ⟨hnil, hk', hvid⟩
    · exact epochId_inj (huid.symm.trans (hsame.trans hvid))
    · exact hk'.symm ▸ (hfresh hnil hvid (hsame.symm.trans huid)).symm
  · rcases hv.connectionId hd hfirsts with hvid | ⟨-, hk', -⟩
    · exact hk.trans (hfresh hnil huid (hsame.trans hvid))
    · exact hk.trans hk'.symm

/-! ### One connection id to a channel -/

/-- What a `Factory` promises: it builds its channel on the underlay it is given, and leaves it to
the listener to offer more. -/
def FactoryPromise (setup : ListenerSetup) (_ : Listener) : Listener.Action → Prop
  | .call t (.build ch) => ∀ u ∈ ch.underlays, u = setup.underlay t
  | .channel t (.start u) => u = setup.underlay t
  | .channel _ (.call (.acceptUnderlay _)) => False
  | _ => True

instance (setup : ListenerSetup) (s : Listener) : DecidablePred (FactoryPromise setup s) := fun a =>
  match a with
  | .call t (.build ch) => inferInstanceAs (Decidable (∀ u ∈ ch.underlays, u = setup.underlay t))
  | .channel t (.start u) => inferInstanceAs (Decidable (u = setup.underlay t))
  | .channel _ (.call (.acceptUnderlay _)) => inferInstanceAs (Decidable False)
  | .call _ .go | .call _ (.ret _) | .call _ .retNil | .call _ .timeout | .callback _ _
  | .channel _ (.call (.shut _)) | .channel _ (.call (.remove _)) | .channel _ (.call (.repair _))
  | .channel _ (.call .close) | .unregister _ => inferInstanceAs (Decidable True)

/-- The registration whose channel a call is looking at. -/
def Pc.reg? : Pc → Option ℕ
  | .loadFlag reg | .askClosed reg | .acking (some reg) | .attaching reg => some reg
  | _ => none

section

variable {setup : ListenerSetup} {s s' : Listener} {t : ℕ}

theorem next_reg? {a : CallAction} {e : Effect} {c c' : Call} {pc : Pc} (hpc : c.pc = pc)
    (h : next setup s t c pc a = some (c', e)) {reg : ℕ} (hreg : c'.pc.reg? = some reg) :
    pc.reg? = some reg ∨ s.channels (setup.chId t) = some reg := by
  revert h hreg
  fun_cases next setup s t c pc a
  all_goals intro h hreg
  all_goals cases h
  all_goals simp_all [Pc.reg?]

/-- Channels hold underlays of their own connection id, and calls look at channels of theirs. -/
def OneId (setup : ListenerSetup) (s : Listener) : Prop :=
  (∀ r, ∀ ch ∈ (s.registrations r).ch, ∀ u ∈ ch.underlays, u.connectionId = setup.chId r) ∧
    ∀ t, ∀ reg ∈ (s.calls t).pc.reg?, setup.chId reg = setup.chId t

/-- What a step does to one registration's channel. -/
theorem OneId.setChannel {reg : ℕ} {ch : ChannelImpl} (hs : OneId setup s)
    (hch : ∀ u ∈ ch.underlays, u.connectionId = setup.chId reg) :
    OneId setup (s.setChannel reg ch) := by
  refine ⟨fun r => ?_, hs.2⟩
  rcases eq_or_ne r reg with rfl | hne
  · simpa [Listener.setChannel] using hch
  · simpa [Listener.setChannel, hne] using hs.1 r

theorem oneId_step {act : Listener.Action}
    (hr : (multiListener setup).Reachable (FactoryPromise setup) s) (hs : OneId setup s)
    (hok : FactoryPromise setup s act) (h : (multiListener setup).step s act = some s') :
    OneId setup s' := by
  refine Listener.step_cases (P := OneId setup) h ?_ ?_ ?_ ?_
  · rintro t a c e rfl hc -
    have hcalls : OneId setup (s.setCall t c) := by
      refine ⟨hs.1, fun u reg hreg => ?_⟩
      rcases eq_or_ne u t with rfl | hne
      · rw [Listener.setCall_calls_self] at hreg
        rcases next_reg? rfl hc hreg with hreg | hfound
        · exact hs.2 u reg hreg
        · exact registered_chId hr _ _ hfound
      · rw [Listener.setCall_calls_of_ne hne] at hreg
        exact hs.2 u reg hreg
    cases e with
    | quiet | lock | unlock | evict | reserve | publish | release => exact hcalls
    | channel reg ch' =>
      refine hcalls.setChannel fun u hu => ?_
      rcases next_channel hc with ⟨-, rfl, rfl, -⟩ | ⟨hpc, ch, hch, rfl⟩
      · rw [hok u hu]; rfl
      · have hlive : u ∈ (ch.live (.call (.acceptUnderlay (setup.underlay t)))).underlays := hu
        rcases ChannelImpl.mem_underlays_live hlive with hold | hstart | ⟨hoffer, -⟩
        · exact hs.1 reg ch hch u hold
        · cases hstart
        · -- the offered underlay has the id that the call looked up
          cases hoffer
          exact (hs.2 t reg (by rw [hpc]; rfl)).symm
  · rintro t ch st rfl hch
    refine hs.setChannel fun u hu => ?_
    rcases ChannelImpl.mem_underlays_live hu with hold | rfl | ⟨rfl, -⟩
    · exact hs.1 t ch hch u hold
    · rw [show u = setup.underlay t from hok]; rfl
    · exact hok.elim
  · rintro k t - - -
    refine ⟨fun r => ?_, hs.2⟩
    rcases eq_or_ne r t with rfl | hne
    · simpa [Listener.mark] using hs.1 r
    · simpa [Listener.mark, hne] using hs.1 r
  · rintro k t - - -
    exact hs

/-- A channel of the listener holds only underlays with the connection id it was created for. -/
theorem underlays_chId (hr : (multiListener setup).Reachable (FactoryPromise setup) s) {r : ℕ}
    {ch : ChannelImpl} (hch : (s.registrations r).ch = some ch) {u : Underlay}
    (hu : u ∈ ch.underlays) : u.connectionId = setup.chId r := by
  have hinit : OneId setup (multiListener setup).init :=
    ⟨fun _ _ h => (Option.some_ne_none _ h.symm).elim,
      fun _ _ h => (Option.some_ne_none _ h.symm).elim⟩
  exact (hr.invariant_of_reachable hinit fun _ _ _ => oneId_step).1 r ch hch u hu

end

/-- **Epochs do not mix.**  Take any connection id and secret, and any sequence of dials with fewer
than `2 ^ 32` first ones.  Dials of different epochs use different ids, and none of a later epoch
the original one.  A dial that is not first uses the id of the latest first dial, or the original
one if there was none.  And let the underlays arrive at a listener in any order, with any others,
each served by a call that takes its time, and channels close at any time: then all dialed
underlays that one channel holds were dialed in the same epoch, provided that the dialer's
`HelloHeaderProvider` leaves the headers of the group alone and that the `Factory` keeps its
promise. -/
theorem epochs_never_mix (connectionId : GoString) (groupSecret : Bytes) (dials : List Dial)
    (hfirsts : dials.countP (·.isFirst) < 2 ^ 32) :
    (∀ i j a b, (dialIds connectionId 0 dials)[i]? = some a →
      (dialIds connectionId 0 dials)[j]? = some b → epoch dials i ≠ epoch dials j → a ≠ b) ∧
    (∀ i a, (dialIds connectionId 0 dials)[i]? = some a → epoch dials i ≠ 0 → a ≠ connectionId) ∧
    (∀ i j first, dials[i]? = some first → first.isFirst = true → i ≤ j → j < dials.length →
      (∀ m dial, i < m → m ≤ j → dials[m]? = some dial → dial.isFirst = false) →
      (dialIds connectionId 0 dials)[j]? = (dialIds connectionId 0 dials)[i]?) ∧
    (∀ j, j < dials.length →
      (∀ m dial, m ≤ j → dials[m]? = some dial → dial.isFirst = false) →
      (dialIds connectionId 0 dials)[j]? = some connectionId) ∧
    (∀ (d : ClassicDialer) (setup : ListenerSetup) (s : Listener), d.KeepsGroup →
      (multiListener setup).Reachable (FactoryPromise setup) s →
      ∀ r ch, (s.registrations r).ch = some ch → ∀ u ∈ ch.underlays, ∀ v ∈ ch.underlays,
        ∀ k k', DialedIn connectionId groupSecret d dials u k →
          DialedIn connectionId groupSecret d dials v k' → k = k') := by
  have hids : ∀ i, (dialIds connectionId 0 dials)[i]? =
      dials[i]?.map fun _ => epochId connectionId (epoch dials i) := fun i => by
    have h := getElem?_dialIds connectionId dials 0 i (by simpa using hfirsts)
    rwa [UInt32.toNat_zero, Nat.zero_add] at h
  have hid : ∀ {i a}, (dialIds connectionId 0 dials)[i]? = some a →
      a = epochId connectionId (epoch dials i) := fun {i a} ha => by
    rw [hids] at ha
    obtain ⟨-, -, rfl⟩ := Option.map_eq_some_iff.mp ha
    rfl
  refine ⟨?_, ?_, ?_, ?_, ?_⟩
  · intro i j a b ha hb hne heq
    exact hne (epochId_inj (hid ha ▸ hid hb ▸ heq))
  · intro i a ha hne heq
    exact hne (epochId_inj (hid ha ▸ heq))
  · intro i j first hfirst _ hij hj hlater
    rw [hids, hids, epoch_eq_of_no_first hij hlater, hfirst, List.getElem?_eq_getElem hj]
    rfl
  · intro j hj hnone
    rw [hids, epoch_eq_zero hnone, List.getElem?_eq_getElem hj]
    rfl
  · intro d setup s hd hr r ch hch u hu v hv k k' hk hk'
    have hsame := (underlays_chId hr hch hu).trans (underlays_chId hr hch hv).symm
    exact hk.epoch_eq hd hfirsts hk' hsame

/-- A reconnect and a further dial: the policy dials twice into the first epoch after the
original one. -/
def reconnectDials : List Dial := [⟨str "data", true⟩, ⟨str "data", false⟩]

/-- The underlay of one of these dials at the listener. -/
def reconnectUnderlay (t : ℕ) (isFirst : Bool) : Underlay :=
  (ClassicListener.acceptHello t plainChance.generatedId plainChance.newSecret
    ((newHello (str "dialer") (dialHeaders (str "data") (str "group-1") [42] isFirst)).setSequence
      helloSequence).arrived).2

def reconnectSetup : ListenerSetup := ⟨fun t => reconnectUnderlay t (decide (t = 0)), false⟩

def reconnectChannel : ChannelImpl :=
  (Config.impl ⟨[], true, true, none, ⟨[], none⟩, false, ∅, 1⟩ (reconnectUnderlay 0 true)).live
    (.start (reconnectUnderlay 0 true))

theorem reconnectUnderlay_dialed (t : ℕ) :
    DialedIn (str "group") [42] plainDialer reconnectDials (reconnectUnderlay t true) 1 ∧
      DialedIn (str "group") [42] plainDialer reconnectDials (reconnectUnderlay t false) 1 :=
  have hgenerated : plainChance.generatedId.head? ≠ some 45 := by decide
  ⟨.dial 0 ⟨str "data", true⟩ (str "group-1") _ ⟨_, hgenerated⟩ plainChance.newSecret rfl (by decide)
      rfl rfl,
    .dial 1 ⟨str "data", false⟩ (str "group-1") _ ⟨_, hgenerated⟩ plainChance.newSecret rfl
      (by decide) rfl rfl⟩

/-- Both underlays end up in one channel, and whatever joins it was dialed in the same epoch. -/
theorem epochs_never_mix_reconnect :
    ∃ s ch, (multiListener reconnectSetup).Reachable (FactoryPromise reconnectSetup) s ∧
      (s.registrations 0).ch = some ch ∧
      ch.underlays = [reconnectUnderlay 0 true, reconnectUnderlay 1 false] ∧
      ∀ u ∈ ch.underlays, ∀ k,
        DialedIn (str "group") [42] plainDialer reconnectDials u k → k = 1 := by
  obtain ⟨s, hr, h⟩ := System.reachable_of_replay (multiListener reconnectSetup)
    (FactoryPromise reconnectSetup)
    [.call 0 .go, .call 0 .go, .call 0 .go, .call 0 (.ret none), .call 0 (.build reconnectChannel),
      .call 0 (.ret none), .call 0 .go, .call 0 .go, .call 0 .go, .call 0 .go, .call 1 .go,
      .call 1 .go, .call 1 .go, .call 1 .go, .call 1 (.ret none), .call 1 .go]
    (fun s => decide ((s.registrations 0).ch.map (·.underlays) =
      some [reconnectUnderlay 0 true, reconnectUnderlay 1 false])) (by decide)
  obtain ⟨ch, hch, hunderlays⟩ := Option.map_eq_some_iff.mp (of_decide_eq_true h)
  refine ⟨s, ch, hr, hch, hunderlays, fun u hu k hk => ?_⟩
  obtain ⟨-, -, -, -, hmix⟩ := epochs_never_mix (str "group") [42] reconnectDials (by decide)
  exact hmix plainDialer reconnectSetup s (fun _ h => by cases h) hr 0 ch hch u hu
    (reconnectUnderlay 0 true) (by simp [hunderlays]) k 1 hk (reconnectUnderlay_dialed 0).1

/-- A dialer whose `HelloHeaderProvider` sends every hello with the same connection id. -/
def fixedIdDialer : ClassicDialer :=
  ⟨str "dialer", ∅, some fun h => (Finmap.insert connectionIdHeader (str "group") h, none)⟩

/-- The group is dialed anew twice, and once more in the second epoch. -/
def fixedIdDials : List Dial := [⟨str "data", true⟩, ⟨str "data", true⟩, ⟨str "data", false⟩]

/-- The underlay of a dial of this dialer at the listener, whatever id the dial was made with. -/
def fixedIdUnderlay (t : ℕ) (groupId : GoString) (isFirst : Bool) : Underlay :=
  (ClassicListener.acceptHello t plainChance.generatedId plainChance.newSecret
    ((newHello (str "dialer") (Finmap.insert connectionIdHeader (str "group")
      (dialHeaders (str "data") groupId [42] isFirst))).setSequence helloSequence).arrived).2

def fixedIdSetup : ListenerSetup :=
  ⟨fun t => if t = 0 then fixedIdUnderlay t (str "group-1") true
    else fixedIdUnderlay t (str "group-2") false, false⟩

def fixedIdChannel : ChannelImpl :=
  (Config.impl ⟨[], true, true, none, ⟨[], none⟩, false, ∅, 1⟩ (fixedIdSetup.underlay 0)).live
    (.start (fixedIdSetup.underlay 0))

/-- A provider may set `ConnectionIdHeader`: then underlays of two epochs end up in one channel. -/
theorem epochs_mix_fixedId :
    ∃ s ch, (multiListener fixedIdSetup).Reachable (FactoryPromise fixedIdSetup) s ∧
      (s.registrations 0).ch = some ch ∧ fixedIdDials.countP (·.isFirst) < 2 ^ 32 ∧
      ∃ u ∈ ch.underlays, ∃ v ∈ ch.underlays,
        DialedIn (str "group") [42] fixedIdDialer fixedIdDials u 1 ∧
        DialedIn (str "group") [42] fixedIdDialer fixedIdDials v 2 := by
  obtain ⟨s, hr, h⟩ := System.reachable_of_replay (multiListener fixedIdSetup)
    (FactoryPromise fixedIdSetup)
    [.call 0 .go, .call 0 .go, .call 0 .go, .call 0 (.ret none), .call 0 (.build fixedIdChannel),
      .call 0 (.ret none), .call 0 .go, .call 0 .go, .call 0 .go, .call 0 .go, .call 1 .go,
      .call 1 .go, .call 1 .go, .call 1 .go, .call 1 (.ret none), .call 1 .go]
    (fun s => decide ((s.registrations 0).ch.map (·.underlays) =
      some [fixedIdUnderlay 0 (str "group-1") true, fixedIdUnderlay 1 (str "group-2") false]))
    (by decide)
  obtain ⟨ch, hch, hunderlays⟩ := Option.map_eq_some_iff.mp (of_decide_eq_true h)
  have hgenerated : plainChance.generatedId.head? ≠ some 45 := by decide
  refine ⟨s, ch, hr, hch, by decide, fixedIdUnderlay 0 (str "group-1") true, by simp [hunderlays],
    fixedIdUnderlay 1 (str "group-2") false, by simp [hunderlays], ?_, ?_⟩
  · exact .dial 0 ⟨str "data", true⟩ (str "group-1") _ ⟨_, hgenerated⟩ plainChance.newSecret rfl
      (by decide) rfl rfl
  · exact .dial 2 ⟨str "data", false⟩ (str "group-2") _ ⟨_, hgenerated⟩ plainChance.newSecret rfl
      (by decide) rfl rfl

end ZitiChannel
