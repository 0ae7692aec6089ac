import ZitiChannel.StreamLink

/-!
# A link of packets

Over a packet-oriented transport a message is a packet.  `Tx` writes the frame at once, and `Rx`
reads one packet into a buffer of fixed length and decodes what is there.  There is no stream to
fall out of step with, but packets may be lost, come twice or out of order, and a packet that is
longer than the buffer loses its end.

What arrives is still something that was sent, and all of it.  A packet whose end is lost is not
read as a message: it ends the `rxer`.  So one message that is too long takes the connection down,
and nothing else does.  Packets that come twice do no harm to requests: a registration is answered
once.

## Main definitions

* `rxPacket` — `Rx` on a packet.
* `packetLink` — two ends joined by packets.

## Main results

* `rxPacket_frame` — what becomes of a frame.
* `packets_whole` — **what is delivered was sent, whole; only messages that are too long end a
  connection.**

The sources are `datagram_underlay.go`, `message.go` and `impl.go`.
-/

namespace ZitiChannel

open Transition ByteStream ByteSource

/-- The length of the buffer for a packet. -/
def packetBuffer : ℕ := 2000

/-- `DatagramUnderlay.Rx` on a packet: what fits into the buffer is read through `bytes.Buffer`,
which gives whatever is asked for. -/
def rxPacket (packet : Bytes) : Except WireError Message :=
  (readV2 (⟨packet.take packetBuffer, fun _ => (packetBuffer, false)⟩ : Chopped)).1

/-- **A frame that fits is the message; of one that does not, nothing is.** -/
theorem rxPacket_frame (o : Outgoing) (hfit : o.dataLen ≤ maxInt32) :
    if o.frame.length ≤ packetBuffer then rxPacket o.frame = .ok o.received
    else ∃ err, rxPacket o.frame = .error err := by
  unfold rxPacket
  split
  · next hle =>
    rw [List.take_of_length_le hle]
    have hrest : remaining (⟨o.frame, fun _ => (packetBuffer, false)⟩ : Chopped) = o.frame ++ [] :=
      (List.append_nil _).symm
    obtain ⟨next, -, hread⟩ := readV2_frame hfit hrest
    rw [hread]
  · next hlt =>
    have hpart := readV2_part
      (s := (⟨o.frame.take packetBuffer, fun _ => (packetBuffer, false)⟩ : Chopped))
      (isFrame_frame hfit) (Nat.lt_of_not_le hlt) rfl
    cases hread : (readV2 (⟨o.frame.take packetBuffer, fun _ => (packetBuffer, false)⟩ : Chopped)).1
      with
    | ok m => exact absurd hread (hpart m)
    | error err => exact ⟨err, rfl⟩

/-- Two ends joined by packets. -/
structure PacketLink where
  sides : Bool → Side
  /-- The `rxer`s that got a packet they could not read, and returned: the number of the packet. -/
  ended : Bool → ℕ → Option ℕ

namespace PacketLink

/-- What can happen. -/
inductive Event
  | side (b : Bool) (e : Side.Event)
  /-- `rxer` `t` of an end gets a packet, by its number on the connection. -/
  | arrive (b : Bool) (t i : ℕ)

/-- Whether an event puts out a frame at once, if it puts out any of it. -/
def whole (setup : LinkSetup) (s : Side) : Side.Event → Bool
  | .emit t n =>
      match s.mux.tx.txers t with
      | .write x => decide (n = (setup.frame x t).length)
      | _ => true
  | .mux _ => true

def setSide (s : PacketLink) (b : Bool) (s' : Side) : PacketLink :=
  { s with sides := Function.update s.sides b s' }

def setEnded (s : PacketLink) (b : Bool) (t i : ℕ) : PacketLink :=
  { s with ended := Function.update s.ended b (Function.update (s.ended b) t (some i)) }

end PacketLink

/-- Two ends of a channel, joined by packets.  Nothing says that a packet arrives, or that it does
only once, or in which order packets do. -/
def packetLink (setup : Bool → LinkSetup) : System PacketLink PacketLink.Event where
  init := ⟨(link setup).init, fun _ _ => none⟩
  step s
    | .side b e =>
        if e.isRead = false ∧ PacketLink.whole (setup b) (s.sides b) e = true then
          ((side (setup b)).step (s.sides b) e).map (s.setSide b)
        else none
    | .arrive b t i =>
        if (s.ended b t).isSome then none
        else
          match ((s.sides !b).wireBy t)[i]? with
          | none => none
          | some c =>
              match rxPacket ((setup !b).frame c.sendable t) with
              | .ok m =>
                  ((side (setup b)).step (s.sides b) (.mux (.rx t (.read m)))).map (s.setSide b)
              | .error _ => some (s.setEnded b t i)

namespace PacketLink

variable {setup : Bool → LinkSetup} {s s' : PacketLink}

/-- What a step can be. -/
theorem step_cases {e : Event} {P : PacketLink → Prop} (h : (packetLink setup).step s e = some s')
    (own : ∀ b e' side', e'.isRead = false → (side (setup b)).step (s.sides b) e' = some side' →
      P (s.setSide b side'))
    (arrive : ∀ b t c side', c ∈ (s.sides !b).wireBy t →
      ((setup !b).frame c.sendable t).length ≤ packetBuffer →
      (side (setup b)).step (s.sides b)
        (.mux (.rx t (.read ((setup !b).arrived c.sendable)))) = some side' →
      P (s.setSide b side'))
    (long : ∀ b t i c, ((s.sides !b).wireBy t)[i]? = some c →
      packetBuffer < ((setup !b).frame c.sendable t).length → P (s.setEnded b t i)) : P s' := by
  cases e with
  | side b e =>
    simp only [packetLink] at h
    split at h
    · next hown =>
      obtain ⟨side', hside, rfl⟩ := Option.map_eq_some_iff.mp h
      exact own b e side' hown.1 hside
    · cases h
  | arrive b t i =>
    simp only [packetLink] at h
    split at h
    · cases h
    · split at h
      · cases h
      · next c hc =>
        have hframe : if ((setup !b).frame c.sendable t).length ≤ packetBuffer then
            rxPacket ((setup !b).frame c.sendable t) = .ok ((setup !b).arrived c.sendable)
            else ∃ err, rxPacket ((setup !b).frame c.sendable t) = .error err :=
          rxPacket_frame _ ((setup !b).fits c.sendable t)
        split at hframe
        · next hle =>
          rw [hframe] at h
          obtain ⟨side', hside, rfl⟩ := Option.map_eq_some_iff.mp h
          exact arrive b t c side' (List.mem_of_getElem? hc) hle hside
        · next hlt =>
          obtain ⟨err, herr⟩ := hframe
          rw [herr] at h
          cases h
          exact long b t i c hc (Nat.lt_of_not_le hlt)

/-- **Each end does what an end does by itself.** -/
theorem refines_side (setup : Bool → LinkSetup) (b : Bool) :
    (packetLink setup).Refines System.anyEvent (side (setup b)) System.anyEvent
      fun s => s.sides b where
  init := rfl
  step s e s' _ _ h := by
    have hstep : ∀ b' e' side', (side (setup b')).step (s.sides b') e' = some side' →
        (side (setup b)).Steps System.anyEvent (s.sides b) ((s.setSide b' side').sides b) := by
      intro b' e' side' hside
      rcases eq_or_ne b b' with rfl | hb
      · rw [show (s.setSide b side').sides b = side' from Function.update_self ..]
        exact System.Steps.single (e := e') trivial hside
      · rw [show (s.setSide b' side').sides b = s.sides b from Function.update_of_ne hb _ _]
        exact System.Steps.stutter _
    refine step_cases (P := fun s' =>
      (side (setup b)).Steps System.anyEvent (s.sides b) (s'.sides b)) h ?_ ?_ ?_
    · intro b' e' side' _ hside; exact hstep b' e' side' hside
    · intro b' t c side' _ _ hside; exact hstep b' _ side' hside
    · intro b' t i c _ _; exact System.Steps.stutter _

/-- What was read from a connection, and why reading has ended. -/
structure Sound (setup : Bool → LinkSetup) (s : PacketLink) : Prop where
  reads : ∀ b t, ∀ m ∈ (s.sides b).reads.keyed t, ∃ c ∈ (s.sides !b).wireBy t,
    ((setup !b).frame c.sendable t).length ≤ packetBuffer ∧ m = (setup !b).arrived c.sendable
  ended : ∀ b t i, s.ended b t = some i → ∃ c, ((s.sides !b).wireBy t)[i]? = some c ∧
    packetBuffer < ((setup !b).frame c.sendable t).length

/-- An end goes on: what was on its connections still is, and of what it has read only that is new
which is said to be. -/
theorem Sound.setSide (h : Sound setup s) {b : Bool} {e : Side.Event} {side' : Side}
    (hside : (side (setup b)).step (s.sides b) e = some side')
    (hnew : ∀ t, ∀ m ∈ side'.reads.keyed t, m ∈ (s.sides b).reads.keyed t ∨
      ∃ c ∈ (s.sides !b).wireBy t,
        ((setup !b).frame c.sendable t).length ≤ packetBuffer ∧
          m = (setup !b).arrived c.sendable) : Sound setup (s.setSide b side') := by
  have hself : (s.setSide b side').sides b = side' := Function.update_self ..
  have hother : (s.setSide b side').sides (!b) = s.sides (!b) :=
    Function.update_of_ne (Bool.not_ne_self b) _ _
  have hwire : ∀ t, (s.sides b).wireBy t <+: side'.wireBy t := Side.wireBy_step hside
  constructor
  · intro b' t m hm
    rcases eq_or_ne b' b with rfl | hb
    · rw [hself] at hm
      rw [hother]
      exact (hnew t m hm).elim (h.reads b' t m) id
    · obtain rfl := Bool.eq_not.mpr hb
      rw [hother] at hm
      obtain ⟨c, hc, hsound⟩ := h.reads _ t m hm
      rw [Bool.not_not] at hc
      rw [Bool.not_not, hself]
      rw [Bool.not_not] at hsound
      exact ⟨c, (hwire t).subset hc, hsound⟩
  · intro b' t i hi
    obtain ⟨c, hc, hlong⟩ := h.ended b' t i hi
    rcases eq_or_ne b' b with rfl | hb
    · rw [hother]
      exact ⟨c, hc, hlong⟩
    · obtain rfl := Bool.eq_not.mpr hb
      rw [Bool.not_not] at hc hlong ⊢
      rw [hself]
      refine ⟨c, ?_, hlong⟩
      obtain ⟨hlt, rfl⟩ := List.getElem?_eq_some_iff.mp hc
      exact List.prefix_iff_getElem?.mp (hwire t) i hlt

theorem sound (hs : (packetLink setup).Reachable System.anyEvent s) : Sound setup s := by
  refine hs.invariant (P := Sound setup) ?_ ?_
  · exact ⟨fun b t m hm => (by cases hm), fun b t i hi => (by cases hi)⟩
  intro s e s' h _ hstep
  refine step_cases (P := Sound setup) hstep ?_ ?_ ?_
  · intro b e' side' hread hside
    refine h.setSide hside fun t m hm => .inl ?_
    rwa [Side.reads_of_not_isRead hside hread] at hm
  · intro b t c side' hc hle hside
    refine h.setSide hside fun u m hm => ?_
    rw [show side'.reads = (s.sides b).reads ++ [(t, (setup !b).arrived c.sendable)] from
      Side.reads_step hside, List.keyed_append, List.keyed_singleton] at hm
    rcases List.mem_append.mp hm with hold | hnew
    · exact .inl hold
    · split at hnew
      · next htu =>
        obtain rfl : t = u := htu
        exact .inr ⟨c, hc, hle, List.mem_singleton.mp hnew⟩
      · cases hnew
  · intro b t i c hc hlong
    refine ⟨h.reads, fun b' u j hj => ?_⟩
    by_cases hbu : b' = b ∧ u = t
    · obtain ⟨rfl, rfl⟩ := hbu
      have hij : (s.setEnded b' u i).ended b' u = some i := by simp [setEnded]
      cases hij.symm.trans hj
      exact ⟨c, hc, hlong⟩
    · refine h.ended b' u j ?_
      simp only [setEnded, Function.update_apply] at hj
      grind

end PacketLink

/-- **What is delivered was sent, whole.**  Whatever packets are lost, doubled or overtaken: every
message that an `rxer` has delivered is one that the other end has written to the same connection,
and that fits into the buffer; the packet that an `rxer` could not read, if there was one, is the
frame of a message that does not fit; and no registration of a reply receiver has been answered
twice. -/
theorem packets_whole (setup : Bool → LinkSetup) (s : PacketLink)
    (hs : (packetLink setup).Reachable System.anyEvent s) (b : Bool) :
    (∀ t, ∀ m ∈ (s.sides b).delivered.keyed t, ∃ c ∈ (s.sides !b).wireBy t,
      ((setup !b).frame c.sendable t).length ≤ packetBuffer ∧ m = (setup !b).arrived c.sendable) ∧
    (∀ t i, s.ended b t = some i → ∃ c, ((s.sides !b).wireBy t)[i]? = some c ∧
      packetBuffer < ((setup !b).frame c.sendable t).length) ∧
    (s.sides b).mux.rx.used.Nodup := by
  have hside := (PacketLink.refines_side setup b).reachable hs
  have hsound := PacketLink.sound hs
  refine ⟨fun t m hm => hsound.reads b t m ?_, hsound.ended b,
    (routed_multiplex (Side.reachable_mux hside)).once⟩
  rw [Side.reads_eq hside t]
  exact List.mem_append_left _ hm

/-- A message with a body of the given length. -/
def ofLength (n : ℕ) : Outgoing :=
  ⟨newMessage 7 (List.replicate n 0), [], by simp only [newMessage]; rfl⟩

theorem dataLen_ofLength (n : ℕ) : (ofLength n).dataLen = n := by
  show 0 + (List.replicate n (0 : UInt8)).length = n
  rw [List.length_replicate, Nat.zero_add]

/-- Both ends send an empty message and one with a body as long as the buffer. -/
def longSetup : Bool → LinkSetup := fun _ =>
  Link.plainLink (fun x => if x = 0 then ofLength 0 else ofLength packetBuffer) false fun x => by
    split <;> rw [dataLen_ofLength] <;> decide

/-- Both messages are sent.  The first arrives twice, and then the second ends the `rxer`. -/
theorem packets_whole_long :
    ∃ s, (packetLink longSetup).Reachable System.anyEvent s ∧
      ((s.sides true).delivered.keyed 0).length = 2 ∧
      ∃ c, ((s.sides false).wireBy 0)[1]? = some c ∧
        packetBuffer < ((longSetup false).frame c.sendable 0).length := by
  obtain ⟨s, hs, h⟩ := System.reachable_of_replay (packetLink longSetup) System.anyEvent
    ([.side false (.mux (.send 0 0)), .side false (.mux (.send 1 0)),
      .side false (.mux (.tx 0 (.take 0))), .side false (.mux (.tx 0 .go)),
      .side false (.mux (.tx 0 .go)), .side false (.emit 0 20),
      .side false (.mux (.tx 0 (.underlay none))), .side false (.mux (.tx 0 .go)),
      .side false (.mux (.tx 0 (.take 0))), .side false (.mux (.tx 0 .go)),
      .side false (.mux (.tx 0 .go)), .side false (.emit 0 2020),
      .arrive true 0 0, .side true (.mux (.rx 0 .go)),
      .arrive true 0 0, .side true (.mux (.rx 0 .go)), .arrive true 0 1])
    (fun s => decide (((s.sides true).delivered.keyed 0).length = 2 ∧ s.ended true 0 = some 1))
      (by decide +kernel)
  obtain ⟨htwice, hended⟩ := of_decide_eq_true h
  exact ⟨s, hs, htwice, (packets_whole longSetup s hs true).2.1 0 1 hended⟩

end ZitiChannel
