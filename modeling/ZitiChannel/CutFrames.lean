import ZitiChannel.Fragmentation

/-!
# Frames that are cut off

A stream that ends inside a frame is not a peer that has finished.  `io.EOF` is what a full read
returns when it gets nothing at all, and `readV2` reads a frame in up to three reads: at least the
magic, the rest of the message section, and the data section.  A stream that ends between two of
them therefore looks as if it had ended before the frame.

## Main definitions

* `IsFrame` — the bytes of a frame.
* `EndsBetweenReads` — the stream ends between two reads of a frame.

## Main results

* `readV2_eof_iff` — when a stream is reported to have ended.
* `readV2_cut_iff` — **a cut frame is reported as one exactly if the cut is not between two reads.**
-/

namespace ZitiChannel

open ByteStream ByteSource

/-! ### Where a stream ends -/

/-- A frame: a message section and as many bytes as it declares. -/
def IsFrame (b : Bytes) : Prop := b.take magicLength = magicV2 ∧ b.length = frameLength b

/-- The length of the data section that a frame declares. -/
def declaredData (b : Bytes) : ℕ := (declaredHeaders b).toNat + (declaredBody b).toNat

section

variable {σ : Type} [ByteSource σ]

/-- The stream starts a frame, and ends where `readV2` has finished a read: behind what its first
read took of the message section, or behind the message section. -/
def EndsBetweenReads (s : σ) : Prop :=
  (remaining s).take magicLength = magicV2 ∧
    ((magicLength ≤ (remaining s).length ∧ (remaining s).length < dataSectionV2 ∧
        (readAtLeast s dataSectionV2 magicLength).data = remaining s) ∨
      ((remaining s).length = dataSectionV2 ∧ 0 < declaredData (remaining s) ∧
        declaredData (remaining s) ≤ maxInt32))

/-- Of a read that ran out of bytes, the error tells whether there were any. -/
theorem read_eof_iff (b : Bytes) :
    (Except.error (.read (if b = [] then .eof else .unexpectedEOF)) : Except WireError Message) =
      .error (.read .eof) ↔ b = [] := by
  by_cases h : b = []
  · simp [h]
  · simp [h]

/-! ### When the end is reported -/

/-- The data section: its end is reported when none of it is there. -/
theorem unmarshalV2_eof_iff {peer : σ} {sec : Bytes} (hlen : sec.length = dataSectionV2)
    (hmagic : slice sec 0 magicLength = magicV2) :
    (unmarshalV2 peer sec (declaredHeaders sec) (declaredBody sec)).1 = .error (.read .eof) ↔
      remaining peer = [] ∧ 0 < declaredData sec ∧ declaredData sec ≤ maxInt32 := by
  by_cases hbig : declaredData sec > maxInt32
  · have hresult : (unmarshalV2 peer sec (declaredHeaders sec) (declaredBody sec)).1 ≠
        .error (.read .eof) := by
      unfold declaredData at hbig
      simp [unmarshalV2, hbig]
    refine iff_of_false hresult ?_
    rintro ⟨-, -, hle⟩
    omega
  · by_cases hshort : (remaining peer).length < declaredData sec
    · obtain ⟨next, -, hread⟩ := readFull_of_lt peer hshort
      have hresult : (unmarshalV2 peer sec (declaredHeaders sec) (declaredBody sec)).1 =
          .error (.read (if remaining peer = [] then .eof else .unexpectedEOF)) := by
        unfold declaredData at hbig hread
        simp only [unmarshalV2, hbig, if_false, hread]
      rw [hresult, read_eof_iff]
      constructor
      · intro h
        exact ⟨h, by omega, by omega⟩
      · exact And.left
    · -- all of it is there, and what may be wrong with it is told by a text
      refine iff_of_false ?_ ?_
      · intro h
        have hagree : Agrees (unmarshalV2 peer sec (declaredHeaders sec) (declaredBody sec)) _ :=
          unmarshalV2_agrees hlen hmagic
        have hdec := hagree.mapError
        unfold declaredData at hbig hshort
        simp only [h, decodeData, hbig, hshort, if_false] at hdec
        split at hdec
        · next err herr =>
          obtain ⟨msg, rfl⟩ := unmarshalHeaders_error herr
          cases hdec
        · cases hdec
      · rintro ⟨hnil, hpos, -⟩
        rw [hnil] at hshort
        exact hshort hpos

/-- The message section: its end is reported when the first read took all there is of it. -/
theorem readV2_short_section_eof_iff {s : σ} (hmin : magicLength ≤ (remaining s).length)
    (hmagic : (remaining s).take magicLength = magicV2)
    (hshort : (remaining s).length < dataSectionV2) :
    (readV2 s).1 = .error (.read .eof) ↔
      (readAtLeast s dataSectionV2 magicLength).data = remaining s := by
  obtain ⟨k, peer, hk, -, hkr, hpeer, hread⟩ :=
    readAtLeast_of_le s (show magicLength ≤ dataSectionV2 by decide) hmin
  have hklen : ((remaining s).take k).length = k := by rw [List.length_take]; omega
  have hhead : slice ((remaining s).take k) 0 magicLength = magicV2 := by
    rw [slice_take hk]; exact hmagic
  have htail : (remaining peer).length < dataSectionV2 - k := by
    rw [hpeer, List.length_drop]; omega
  obtain ⟨next, -, htop⟩ := readFull_of_lt peer htail
  have hresult : (readV2 s).1 =
      .error (.read (if remaining peer = [] then .eof else .unexpectedEOF)) := by
    simp only [readV2, hread, hhead, ne_eq, not_true_eq_false, if_false, hklen,
      show k < dataSectionV2 by omega, if_true, htop]
  rw [hresult, read_eof_iff, hpeer, hread, List.drop_eq_nil_iff]
  exact (List.take_eq_self_iff _).symm

/-- **When the end of a stream is reported**: before a frame, and between two reads of one. -/
theorem readV2_eof_iff (s : σ) :
    (readV2 s).1 = .error (.read .eof) ↔ remaining s = [] ∨ EndsBetweenReads s := by
  by_cases hmin : (remaining s).length < magicLength
  · obtain ⟨next, -, hread⟩ :=
      readAtLeast_of_lt s (show magicLength ≤ dataSectionV2 by decide) hmin
    have hresult : (readV2 s).1 =
        .error (.read (if remaining s = [] then .eof else .unexpectedEOF)) := by
      simp only [readV2, hread]
    have hends : ¬ EndsBetweenReads s := by
      rintro ⟨-, ⟨hle, -⟩ | ⟨hlen, -⟩⟩
      · omega
      · rw [hlen] at hmin
        exact absurd hmin (by decide)
    rw [hresult, read_eof_iff]
    simp [hends]
  · have hne : remaining s ≠ [] := by
      intro h
      rw [h] at hmin
      exact hmin (by decide)
    simp only [hne, false_or]
    by_cases hmagic : (remaining s).take magicLength = magicV2
    · by_cases hsec : (remaining s).length < dataSectionV2
      · rw [readV2_short_section_eof_iff (Nat.not_lt.mp hmin) hmagic hsec]
        simp [EndsBetweenReads, hmagic, Nat.not_lt.mp hmin, hsec, Nat.ne_of_lt hsec]
      · have hlen : ((remaining s).take dataSectionV2).length = dataSectionV2 := by
          rw [List.length_take]; omega
        have hmagic' : slice ((remaining s).take dataSectionV2) 0 magicLength = magicV2 := by
          rw [slice_take (by decide)]; exact hmagic
        obtain ⟨peer, hpeer, hread⟩ :=
          readV2_of_section hlen hmagic' (List.take_append_drop dataSectionV2 (remaining s)).symm
        have hdata : declaredData ((remaining s).take dataSectionV2) = declaredData (remaining s) := by
          rw [declaredData, declaredHeaders_take, declaredBody_take, declaredData]
        rw [hread]
        refine (unmarshalV2_eof_iff hlen hmagic').trans ?_
        rw [hpeer, hdata, List.drop_eq_nil_iff]
        have hend : (remaining s).length ≤ dataSectionV2 ↔ (remaining s).length = dataSectionV2 := by
          omega
        simp [EndsBetweenReads, hmagic, hsec, hend]
    · rw [readV2_other_magic (Nat.not_lt.mp hmin) hmagic]
      simp only [EndsBetweenReads, hmagic, false_and, iff_false]
      split
      · simp only [decodeVersionResponse]
        split <;> simp
      · simp

/-- What a part of a frame declares, the frame declares, once the message section is there. -/
theorem frameLength_take {b : Bytes} {n : ℕ} (hn : dataSectionV2 ≤ n) :
    frameLength (b.take n) = frameLength b := by
  have hsixteen : 16 ≤ n := le_trans (by decide) hn
  have htwenty : 20 ≤ n := hn
  rw [frameLength, declaredHeaders, declaredBody, slice_take hsixteen, slice_take htwenty]
  rfl

/-- A part of a frame is no message. -/
theorem readV2_part {s : σ} {frame : Bytes} (hframe : IsFrame frame) {n : ℕ}
    (hlt : n < frame.length) (hs : remaining s = frame.take n) (m : Message) :
    (readV2 s).1 ≠ .ok m := by
  intro hm
  have hlen : (remaining s).length = n := by rw [hs, List.length_take]; omega
  obtain ⟨hle, -⟩ := decodeV2_ok ((readV2_agrees s).ok hm)
  have hsec : dataSectionV2 ≤ n := by
    rw [hlen] at hle
    unfold frameLength at hle
    omega
  rw [hlen, hs, frameLength_take hsec, ← hframe.2] at hle
  omega

end

/-- **A cut frame is not reported as the end of the stream**, if and only if the cut is not between
two reads: for every frame, every part of it that is not empty and not all of it, and every way in
which that part is delivered.  And in general, the end is reported only for a stream that ends
before a frame, with the same exception. -/
theorem readV2_cut_iff {σ τ : Type} [ByteSource σ] [ByteSource τ] {frame : Bytes}
    (hframe : IsFrame frame) {n : ℕ} (hn : 0 < n) (hlt : n < frame.length) (s : σ)
    (hs : remaining s = frame.take n) (t : τ) :
    ((∃ err, (readV2 s).1 = .error err ∧ err ≠ .read .eof) ↔ ¬ EndsBetweenReads s) ∧
      (((readV2 t).1 = .error (.read .eof) → remaining t = []) ↔ ¬ EndsBetweenReads t) := by
  have hnot : ∀ {t : τ}, EndsBetweenReads t → remaining t ≠ [] := by
    rintro t ⟨hmagic, -⟩ hnil
    rw [hnil] at hmagic
    exact absurd hmagic (by decide)
  refine ⟨?_, ?_⟩
  · have hne : remaining s ≠ [] := by
      intro h
      have := congrArg List.length (hs.symm.trans h)
      rw [List.length_take, List.length_nil] at this
      omega
    have heof := readV2_eof_iff s
    simp only [hne, false_or] at heof
    rw [← heof]
    cases hr : (readV2 s).1 with
    | ok m => exact absurd hr (readV2_part hframe hlt hs m)
    | error err => simp
  · rw [readV2_eof_iff]
    constructor
    · intro h hends
      exact hnot hends (h (Or.inr hends))
    · rintro h (hnil | hends)
      · exact hnil
      · exact absurd hends h

/-- A message with a body of two bytes. -/
def cutFrame : Bytes := (⟨newMessage 7 [8, 9], [], by decide⟩ : Outgoing).frame

/-- Cut inside its body, the frame is reported as cut. -/
theorem readV2_cut_body :
    let s : Chopped := ⟨cutFrame.take 21, fun _ => (21, false)⟩
    IsFrame cutFrame ∧ ∃ err, (readV2 s).1 = .error err ∧ err ≠ .read .eof := by
  intro s
  have hframe : IsFrame cutFrame := by unfold IsFrame; decide
  have hends : ¬ EndsBetweenReads s := by
    have hlen : (remaining s).length = 21 := rfl
    rintro ⟨-, ⟨-, hlt, -⟩ | ⟨heq, -⟩⟩
    · rw [hlen] at hlt
      exact absurd hlt (by decide)
    · rw [hlen] at heq
      exact absurd heq (by decide)
  exact ⟨hframe, (readV2_cut_iff hframe (by decide) (by decide) s rfl s).1.mpr hends⟩

/-- Cut before its body, it is taken for the end of the stream. -/
theorem readV2_cut_section :
    let s : Chopped := ⟨cutFrame.take 20, fun _ => (20, false)⟩
    IsFrame cutFrame ∧ 20 < cutFrame.length ∧ (readV2 s).1 = .error (.read .eof) := by
  intro s
  have hends : EndsBetweenReads s := ⟨by decide, Or.inr (by decide)⟩
  exact ⟨by unfold IsFrame; decide, by decide, (readV2_eof_iff s).mpr (Or.inr hends)⟩

end ZitiChannel
