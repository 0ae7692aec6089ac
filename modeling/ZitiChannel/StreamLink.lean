import ZitiChannel.Link

/-!
# A link of byte streams

`link` hands whole messages from one end to the other.  The connections of the program carry bytes:
a frame goes out in pieces, and the other end reads whatever is there, in whatever pieces the
connection pleases.  Here an `rxer` gets its messages from `ReadV2`, out of the bytes that are on
the connection and that it has not read before.

The byte level refines the message level: neither the pieces in which frames are written nor those
in which they are read, nor a frame that is cut off by a failed write, can be seen from outside.
What is proved of `link` holds of `streamLink`.

## Main definitions

* `streamLink` — two ends joined by byte streams.

## Main results

* `readV2_iff_next` — `ReadV2` gets the next message that is complete, and nothing else.
* `streamLink_refines_link` — **the byte level refines the message level.**

The sources are `message.go`, `classic_impl.go` and `impl.go`.
-/

namespace ZitiChannel

open Transition ByteStream ByteSource

/-- Two ends, and how many bytes of each connection each of them has read. -/
structure StreamLink where
  sides : Bool → Side
  got : Bool → ℕ → ℕ

namespace StreamLink

/-- What can happen. -/
inductive Event
  | side (b : Bool) (e : Side.Event)
  /-- `rxer` `t` of an end gets a message by `ReadV2`, whose reads return what `sched` says. -/
  | arrive (b : Bool) (t : ℕ) (sched : ℕ → ℕ × Bool)

/-- The bytes on a connection that an end has not read, in pieces. -/
def stream (s : StreamLink) (b : Bool) (t : ℕ) (sched : ℕ → ℕ × Bool) : Chopped :=
  ⟨((s.sides !b).sent t).drop (s.got b t), sched⟩

/-- An end goes on, having read this many bytes of each connection. -/
def setSide (s : StreamLink) (b : Bool) (got : ℕ → ℕ) (s' : Side) : StreamLink :=
  ⟨Function.update s.sides b s', Function.update s.got b got⟩

end StreamLink

/-- Two ends of a channel, joined by byte streams. -/
def streamLink (setup : Bool → LinkSetup) : System StreamLink StreamLink.Event where
  init := ⟨(link setup).init, fun _ _ => 0⟩
  step s
    | .side b e =>
        if e.isRead then none
        else ((side (setup b)).step (s.sides b) e).map (s.setSide b (s.got b))
    | .arrive b t sched =>
        match readV2 (s.stream b t sched) with
        | (.ok m, rest) =>
            let n := (s.stream b t sched).rest.length - rest.rest.length
            ((side (setup b)).step (s.sides b) (.mux (.rx t (.read m)))).map
              (s.setSide b (Function.update (s.got b) t (s.got b t + n)))
        | (.error _, _) => none

/-! ### Reading from a connection -/

/-- What is written is a frame. -/
theorem isFrame_frame {o : Outgoing} (hfit : o.dataLen ≤ maxInt32) : IsFrame o.frame := by
  unfold Outgoing.dataLen at hfit
  set headers := marshalHeaders o.order.entries with hheaders
  have hframe : o.frame = messageSection o.msg.contentType o.msg.sequence
      (Int32.ofNat headers.length) (Int32.ofNat o.msg.body.length) ++ (headers ++ o.msg.body) :=
    marshalV2_eq _ _
  have hsec := length_messageSection o.msg.contentType o.msg.sequence
    (Int32.ofNat headers.length) (Int32.ofNat o.msg.body.length)
  have htake : o.frame.take dataSectionV2 = messageSection o.msg.contentType o.msg.sequence
      (Int32.ofNat headers.length) (Int32.ofNat o.msg.body.length) := by
    rw [hframe, ← hsec, List.take_left]
  have hh : (declaredHeaders o.frame).toNat = headers.length := by
    rw [declaredHeaders, ← slice_take (show 16 ≤ dataSectionV2 by decide), htake,
      slice_messageSection_headersLength, toNat_uint32_putInt32_ofNat (by omega)]
  have hb : (declaredBody o.frame).toNat = o.msg.body.length := by
    rw [declaredBody, ← slice_take (show 20 ≤ dataSectionV2 by decide), htake,
      slice_messageSection_bodyLength, toNat_uint32_putInt32_ofNat (by omega)]
  constructor
  · have hmagic : o.frame.take magicLength = (o.frame.take dataSectionV2).take magicLength := by
      rw [List.take_take]; rfl
    rw [hmagic, htake]
    rfl
  · rw [frameLength, hh, hb, hframe, List.length_append, hsec, List.length_append]
    omega

/-- A piece of a frame is all that is behind the complete ones. -/
theorem Side.PartOf.piece {setup : LinkSetup} {t progress : ℕ} {part : Bytes} {pc : TxPc}
    (h : Side.PartOf setup t progress part pc) :
    ∃ x n, n < (setup.frame x t).length ∧ part = (setup.frame x t).take n := by
  have hpos := Side.length_frame_pos setup
  cases pc with
  | write x =>
    by_cases hlt : progress < (setup.frame x t).length
    · exact ⟨x, progress, hlt, h.1 hlt⟩
    · exact ⟨x, 0, hpos x t, h.2 (Nat.le_of_not_lt hlt)⟩
  | failed | retry | refused | stopped => exact h
  | source | check | addWaiter | setWriteTimeout | wrote => exact ⟨0, 0, hpos 0 t, h.2⟩

theorem frames_append (ms ms' : List Outgoing) : frames (ms ++ ms') = frames ms ++ frames ms' := by
  simp [frames]

/-- The bytes that were not read yet: the frames of the messages that were not, and a piece of one
more. -/
theorem unread_eq {setup : LinkSetup} {s : Side} (hs : (side setup).Reachable System.anyEvent s)
    (t n : ℕ) :
    ∃ x k, k < (setup.frame x t).length ∧ (s.sent t).drop
      (frames (((s.wireBy t).take n).map fun c => setup.outgoing c.sendable t)).length =
      frames (((s.wireBy t).drop n).map fun c => setup.outgoing c.sendable t) ++
        (setup.frame x t).take k := by
  obtain ⟨part, hsent, hpart⟩ := Side.sent_eq hs t
  obtain ⟨x, k, hk, rfl⟩ := hpart.piece
  refine ⟨x, k, hk, ?_⟩
  rw [hsent, Side.framesBy]
  nth_rewrite 2 [← List.take_append_drop n (s.wireBy t)]
  rw [List.map_append, frames_append, List.append_assoc, List.drop_left]

/-- **`ReadV2` gets the next message**, if there is one, and takes the bytes of its frame. -/
theorem read_next {setup : LinkSetup} {s : Side} (hs : (side setup).Reachable System.anyEvent s)
    {t n : ℕ} {c : Carried} (hc : (s.wireBy t)[n]? = some c) {stream : Chopped}
    (hstream : stream.rest = (s.sent t).drop
      (frames (((s.wireBy t).take n).map fun c => setup.outgoing c.sendable t)).length) :
    ∃ rest, readV2 stream = (.ok (setup.arrived c.sendable), rest) ∧
      (frames (((s.wireBy t).take n).map fun c => setup.outgoing c.sendable t)).length +
          (stream.rest.length - rest.rest.length) =
        (frames (((s.wireBy t).take (n + 1)).map fun c => setup.outgoing c.sendable t)).length := by
  obtain ⟨x, k, -, hunread⟩ := unread_eq hs t n
  obtain ⟨hlt, hget⟩ := List.getElem?_eq_some_iff.mp hc
  rw [← hstream, List.drop_eq_getElem_cons hlt, hget, List.map_cons, frames_cons,
    List.append_assoc] at hunread
  obtain ⟨rest, hrest, hread⟩ := readV2_frame (s := stream) (setup.fits c.sendable t) hunread
  refine ⟨rest, hread, ?_⟩
  have hlength : stream.rest.length - rest.rest.length =
      (setup.outgoing c.sendable t).frame.length := by
    rw [hunread, show rest.rest = _ from hrest, List.length_append]
    exact Nat.add_sub_cancel ..
  rw [hlength, List.take_add_one, hc, List.map_append, frames_append, List.length_append]
  simp [frames]

/-- If there is no message, then `ReadV2` does not get one: no part of a frame is read as a
message. -/
theorem read_none {setup : LinkSetup} {s : Side} (hs : (side setup).Reachable System.anyEvent s)
    {t n : ℕ} (hn : (s.wireBy t)[n]? = none) {stream : Chopped}
    (hstream : stream.rest = (s.sent t).drop
      (frames (((s.wireBy t).take n).map fun c => setup.outgoing c.sendable t)).length)
    (m : Message) : (readV2 stream).1 ≠ .ok m := by
  obtain ⟨x, k, hk, hunread⟩ := unread_eq hs t n
  rw [← hstream, List.drop_eq_nil_of_le (List.getElem?_eq_none_iff.mp hn)] at hunread
  exact readV2_part (s := stream) (isFrame_frame (setup.fits x t)) hk hunread m

/-! ### Refinement -/

namespace StreamLink

variable {setup : Bool → LinkSetup} {s s' : StreamLink}

/-- What an end has read of a connection are the frames of the messages it got. -/
def Tail (setup : Bool → LinkSetup) (s : StreamLink) (b : Bool) (t : ℕ) : Prop :=
  s.got b t = (frames ((((s.sides !b).wireBy t).take ((s.sides b).reads.keyed t).length).map
    fun c => (setup !b).outgoing c.sendable t)).length

/-- A step of the message level, with the bytes that it takes. -/
theorem step_cases {e : Event} {P : StreamLink → Prop} (h : (streamLink setup).step s e = some s')
    (own : ∀ b e' side', e'.isRead = false → (side (setup b)).step (s.sides b) e' = some side' →
      P (s.setSide b (s.got b) side'))
    (arrive : ∀ b t sched m rest side', readV2 (s.stream b t sched) = (.ok m, rest) →
      (side (setup b)).step (s.sides b) (.mux (.rx t (.read m))) = some side' →
      P (s.setSide b (Function.update (s.got b) t (s.got b t +
        ((s.stream b t sched).rest.length - rest.rest.length))) side')) : P s' := by
  cases e with
  | side b e =>
    simp only [streamLink] at h
    split at h
    · cases h
    · next hread =>
      obtain ⟨side', hside, rfl⟩ := Option.map_eq_some_iff.mp h
      exact own b e side' (by simpa using hread) hside
  | arrive b t sched =>
    simp only [streamLink] at h
    split at h
    · next m rest hm =>
      obtain ⟨side', hside, rfl⟩ := Option.map_eq_some_iff.mp h
      exact arrive b t sched m rest side' hm hside
    · cases h

/-- The bytes of the messages that were read do not depend on what is put behind them. -/
theorem take_wireBy {wire wire' : List Carried} (h : wire <+: wire') {n : ℕ}
    (hn : n ≤ wire.length) :
    wire'.take n = wire.take n := by
  obtain ⟨rest, rfl⟩ := h
  exact List.take_append_of_le_length hn

theorem reads_length_le (hl : (link setup).Reachable System.anyEvent s.sides) (b : Bool) (t : ℕ) :
    ((s.sides b).reads.keyed t).length ≤ ((s.sides !b).wireBy t).length := by
  have hle := (Link.reads_prefix_wire hl b t).length_le
  rwa [Link.onWire, List.length_map] at hle

/-- What happens at the end that sends changes nothing of what was read. -/
theorem Tail.sender (hl : (link setup).Reachable System.anyEvent s.sides) {b : Bool} {t : ℕ}
    (h : s.Tail setup (!b) t) {e : Side.Event} {got : ℕ → ℕ} {side' : Side}
    (hstep : (side (setup b)).step (s.sides b) e = some side') :
    (s.setSide b got side').Tail setup (!b) t := by
  have hle := reads_length_le hl (!b) t
  unfold Tail at h ⊢
  rw [Bool.not_not] at h hle ⊢
  simp only [setSide, Function.update_self, Function.update_of_ne (Bool.not_ne_self b)]
  rw [take_wireBy (Side.wireBy_step hstep t) hle]
  exact h

/-- An arrival of bytes is an arrival of the next message. -/
theorem next_of_readV2 (hl : (link setup).Reachable System.anyEvent s.sides) {b : Bool} {t : ℕ}
    (htail : s.Tail setup b t) {sched : ℕ → ℕ × Bool} {m : Message} {rest : Chopped}
    (h : readV2 (s.stream b t sched) = (.ok m, rest)) :
    Side.next (setup !b) (s.sides !b) (s.sides b) t = some m ∧
      s.got b t + ((s.stream b t sched).rest.length - rest.rest.length) =
        (frames ((((s.sides !b).wireBy t).take (((s.sides b).reads.keyed t).length + 1)).map
          fun c => (setup !b).outgoing c.sendable t)).length := by
  have hside := Link.reachable_side hl !b
  have hstream : (s.stream b t sched).rest = ((s.sides !b).sent t).drop (s.got b t) := rfl
  rw [htail] at hstream ⊢
  unfold Side.next
  cases hc : ((s.sides !b).wireBy t)[((s.sides b).reads.keyed t).length]? with
  | none => exact absurd (congrArg Prod.fst h) (read_none hside hc hstream m)
  | some c =>
    obtain ⟨rest', hread, hlength⟩ := read_next hside hc hstream
    rw [h] at hread
    cases hread
    exact ⟨rfl, hlength⟩

/-- The ends are as at the message level, and the bytes that were read are those of the messages. -/
theorem reachable_link (hs : (streamLink setup).Reachable System.anyEvent s) :
    (link setup).Reachable System.anyEvent s.sides ∧ ∀ b t, s.Tail setup b t := by
  refine hs.invariant (P := fun s => (link setup).Reachable System.anyEvent s.sides ∧
    ∀ b t, s.Tail setup b t) ?_ ?_
  · exact ⟨.init, fun b t => rfl⟩
  intro s e s' ih _ hstep
  obtain ⟨hl, htail⟩ := ih
  refine step_cases (P := fun s' => (link setup).Reachable System.anyEvent s'.sides ∧
    ∀ b t, s'.Tail setup b t) hstep ?_ ?_
  · intro b e' side' hread hside
    refine ⟨hl.step (e := .side b e') trivial ?_, fun b₀ t => ?_⟩
    · simp [link, hread, hside, setSide]
    · rcases eq_or_ne b₀ b with rfl | hb
      · have h := htail b₀ t
        unfold Tail at h ⊢
        simp only [setSide, Function.update_self, Function.update_of_ne (Bool.not_ne_self b₀)]
        rw [Side.reads_of_not_isRead hside hread]
        exact h
      · rw [Bool.eq_not.mpr hb]
        exact Tail.sender hl (htail (!b) t) hside
  · intro b t sched m rest side' hm hside
    obtain ⟨hnext, hgot⟩ := next_of_readV2 hl (htail b t) hm
    refine ⟨hl.step (e := .arrive b t) trivial ?_, fun b₀ u => ?_⟩
    · simp [link, hnext, hside, setSide]
    · rcases eq_or_ne b₀ b with rfl | hb
      · have h := htail b₀ u
        have hreads : side'.reads = (s.sides b₀).reads ++ [(t, m)] := Side.reads_step hside
        unfold Tail at h ⊢
        simp only [setSide, Function.update_self, Function.update_of_ne (Bool.not_ne_self b₀)]
        rw [hreads, List.keyed_append, List.keyed_singleton]
        rcases eq_or_ne u t with rfl | hut
        · rw [Function.update_self, if_pos rfl, List.length_append, hgot]
          rfl
        · rw [Function.update_of_ne hut, if_neg hut.symm, List.append_nil]
          exact h
      · rw [Bool.eq_not.mpr hb]
        exact Tail.sender hl (htail (!b) u) hside

/-- **`ReadV2` gets the next message that is complete on the connection, and nothing else**, in
whatever pieces it reads. -/
theorem readV2_iff_next (hs : (streamLink setup).Reachable System.anyEvent s) (b : Bool) (t : ℕ)
    (sched : ℕ → ℕ × Bool) (m : Message) :
    (readV2 (s.stream b t sched)).1 = .ok m ↔
      Side.next (setup !b) (s.sides !b) (s.sides b) t = some m := by
  obtain ⟨hl, htail⟩ := reachable_link hs
  constructor
  · intro hm
    have hread : readV2 (s.stream b t sched) = (.ok m, (readV2 (s.stream b t sched)).2) :=
      Prod.ext hm rfl
    exact (next_of_readV2 hl (htail b t) hread).1
  · intro hnext
    obtain ⟨c, hc, rfl⟩ := Option.map_eq_some_iff.mp hnext
    have hstream : (s.stream b t sched).rest = ((s.sides !b).sent t).drop (s.got b t) := rfl
    rw [htail b t] at hstream
    obtain ⟨rest, hread, -⟩ := read_next (Link.reachable_side hl !b) hc hstream
    rw [hread]

end StreamLink

/-- **The byte level refines the message level.**  Whatever the pieces in which frames go out and in
which they are read, and wherever failed writes cut them off: every step of the byte level is a step
of the message level, or none at all. -/
theorem streamLink_refines_link (setup : Bool → LinkSetup) :
    (streamLink setup).Refines System.anyEvent (link setup) System.anyEvent StreamLink.sides where
  init := rfl
  step s e s' hs _ h := by
    obtain ⟨hl, htail⟩ := StreamLink.reachable_link hs
    refine StreamLink.step_cases (P := fun s' =>
      (link setup).Steps System.anyEvent s.sides s'.sides) h ?_ ?_
    · intro b e' side' hread hside
      refine System.Steps.single (e := .side b e') trivial ?_
      simp [link, hread, hside, StreamLink.setSide]
    · intro b t sched m rest side' hm hside
      obtain ⟨hnext, -⟩ := StreamLink.next_of_readV2 hl (htail b t) hm
      refine System.Steps.single (e := .arrive b t) trivial ?_
      simp [link, hnext, hside, StreamLink.setSide]

end ZitiChannel
