import ZitiChannel.WireRoundTrip

/-!
# Reading does not depend on the pieces

`readV2` looks at the magic before it has the whole message section, so how many bytes
its first read takes is up to the source, and it goes on in two ways that both have to
make up for that.  `readHello` takes the magic by itself and bounds the lengths.  What
either returns is nevertheless a function of the bytes that the stream holds: `decodeV2`
and `decodeHello` say which function, without reading.  Only the two errors for a stream
that ends too early, at the end or inside what was asked for, depend on the pieces.

## Main definitions

* `decodeV2`, `decodeHello` — what a stream of bytes decodes to, and the bytes behind it.
* `Agrees` — a reader's result is that of a decoder, up to the kind of end.

## Main results

* `readV2_agrees`, `readHello_agrees` — the readers compute the decoders, for every source.
* `readV2_fragmentation` — **two sources of the same bytes give the same outcome, and a
  message takes exactly its frame.**
* `readHello_readV2` — **the two readers accept the same frames, up to the bound.**
-/

namespace ZitiChannel

open ByteStream ByteSource

/-! ### What bytes decode to -/

/-- An error without the difference between the two ends of a stream. -/
def WireError.upToEOF : WireError → WireError
  | .read .unexpectedEOF => .read .eof
  | err => err

/-- The length of the headers that a frame declares. -/
def declaredHeaders (b : Bytes) : UInt32 := uint32 (slice b 12 16)

/-- The length of the body that a frame declares. -/
def declaredBody (b : Bytes) : UInt32 := uint32 (slice b 16 20)

/-- The length of the frame that starts a stream. -/
def frameLength (b : Bytes) : ℕ :=
  dataSectionV2 + (declaredHeaders b).toNat + (declaredBody b).toNat

/-- The data section `b` behind the message section `sec`. -/
def decodeData (sec b : Bytes) : Except WireError (Message × Bytes) :=
  let headersLength := (declaredHeaders sec).toNat
  let dataSectionLen := headersLength + (declaredBody sec).toNat
  if dataSectionLen > maxInt32 then
    .error (.text
      s!"declared data section of {dataSectionLen} bytes exceeds the maximum of {maxInt32}")
  else if b.length < dataSectionLen then .error (.read .eof)
  else
    match unmarshalHeaders (b.take headersLength) with
    | .error err => .error err
    | .ok headers =>
        .ok ({
          contentType := int32 (slice sec 4 8)
          sequence := int32 (slice sec 8 12)
          cachedReplyFor := none
          headers := headers
          body := (b.take dataSectionLen).drop headersLength }, b.drop dataSectionLen)

/-- A version response, behind its magic. -/
def decodeVersionResponse (b : Bytes) : WireError :=
  let versionCount := (uint32 (b.take versionLen)).toNat
  if b.length < versionLen ∨ versionCount > maxSupportedVersionCount ∨
      b.length < versionLen + versionCount * versionLen then
    .text "channel synchronization"
  else .unsupportedVersion (decodeVersions ((b.drop versionLen).take (versionCount * versionLen)))

/-- The message at the start of a stream, and what follows it. -/
def decodeV2 (b : Bytes) : Except WireError (Message × Bytes) :=
  if b.length < magicLength then .error (.read .eof)
  else if b.take magicLength = magicV2 then
    if b.length < dataSectionV2 then .error (.read .eof)
    else decodeData (b.take dataSectionV2) (b.drop dataSectionV2)
  else if b.take magicLength = magicUnknownVersion then
    .error (decodeVersionResponse (b.drop magicLength))
  else .error .badMagicNumber

/-- The hello at the start of a stream, and what follows it. -/
def decodeHello (b : Bytes) : Except WireError (Message × Bytes) :=
  if b.length < magicLength then .error (.read .eof)
  else if b.take magicLength = magicV2 then
    if b.length < dataSectionV2 then .error (.read .eof)
    else if declaredHeaders b > 16384 ∨ declaredBody b > 4192 then
      let headersLength := declaredHeaders b
      let bodyLength := declaredBody b
      .error (.text
        s!"hello message too big. header len: {headersLength}, body len: {bodyLength}")
    else decodeData (b.take dataSectionV2) (b.drop dataSectionV2)
  else .error .badMagicNumber

/-! ### Slices of the message section -/

theorem slice_take {b : Bytes} {n lo hi : ℕ} (h : hi ≤ n) :
    slice (b.take n) lo hi = slice b lo hi := by
  rw [slice, slice, List.take_take, Nat.min_eq_left h]

theorem declaredHeaders_take (b : Bytes) :
    declaredHeaders (b.take dataSectionV2) = declaredHeaders b := by
  rw [declaredHeaders, declaredHeaders, slice_take (by decide)]

theorem declaredBody_take (b : Bytes) : declaredBody (b.take dataSectionV2) = declaredBody b := by
  rw [declaredBody, declaredBody, slice_take (by decide)]

/-! ### What the decoders return -/

/-- What is wrong with a header block is told by a text. -/
theorem unmarshalHeaders_error {b : Bytes} {err : WireError}
    (h : unmarshalHeaders b = .error err) : ∃ msg, err = .text msg := by
  have loop : ∀ i out, unmarshalHeadersLoop b i out = .error err → ∃ msg, err = .text msg := by
    intro i out
    fun_induction unmarshalHeadersLoop b i out with
    | case1 => intro h; cases h; exact ⟨_, rfl⟩
    | case2 => intro h; cases h; exact ⟨_, rfl⟩
    | case3 i out _ _ _ _ _ _ _ _ ih => exact ih
    | case4 => intro h; cases h
  rw [unmarshalHeaders] at h
  split at h
  · cases h; exact ⟨_, rfl⟩
  · exact loop _ _ h

theorem decodeData_ok {sec b rest : Bytes} {m : Message} (h : decodeData sec b = .ok (m, rest)) :
    (declaredHeaders sec).toNat + (declaredBody sec).toNat ≤ b.length ∧
      rest = b.drop ((declaredHeaders sec).toNat + (declaredBody sec).toNat) := by
  simp only [decodeData] at h
  split at h
  · cases h
  · split at h
    · cases h
    · next hlen =>
      split at h
      · cases h
      · cases h
        exact ⟨Nat.not_lt.mp hlen, rfl⟩

/-- A message was decoded from a whole frame, and what follows the frame is left. -/
theorem decodeV2_ok {b rest : Bytes} {m : Message} (h : decodeV2 b = .ok (m, rest)) :
    frameLength b ≤ b.length ∧ rest = b.drop (frameLength b) := by
  simp only [decodeV2] at h
  split at h
  · cases h
  · split at h
    · split at h
      · cases h
      · next hlen =>
        obtain ⟨hle, hrest⟩ := decodeData_ok h
        rw [declaredHeaders_take, declaredBody_take, List.length_drop] at hle
        rw [declaredHeaders_take, declaredBody_take, List.drop_drop] at hrest
        unfold frameLength
        refine ⟨by omega, ?_⟩
        rw [hrest, Nat.add_assoc]
    · split at h
      · cases h
      · cases h

/-- A message comes with its reply target not yet looked up. -/
theorem decodeV2_cachedReplyFor {b rest : Bytes} {m : Message} (h : decodeV2 b = .ok (m, rest)) :
    m.cachedReplyFor = none := by
  simp only [decodeV2, decodeData] at h
  split at h
  · cases h
  · split at h
    · split at h
      · cases h
      · split at h
        · cases h
        · split at h
          · cases h
          · split at h
            · cases h
            · cases h; rfl
    · split at h
      · cases h
      · cases h

/-- A hello is a message that keeps the bounds. -/
theorem decodeHello_ok_iff (b : Bytes) (p : Message × Bytes) :
    decodeHello b = .ok p ↔
      decodeV2 b = .ok p ∧ declaredHeaders b ≤ 16384 ∧ declaredBody b ≤ 4192 := by
  simp only [decodeHello, decodeV2]
  split
  · simp
  · split
    · split
      · simp
      · split
        · next hbound =>
          simp only [reduceCtorEq, false_iff, not_and]
          intro _ hh
          rcases hbound with hgt | hgt
          · exact absurd hgt (UInt32.not_lt.mpr hh)
          · exact UInt32.not_le.mpr hgt
        · next hbound =>
          rw [not_or] at hbound
          exact ⟨fun h => ⟨h, UInt32.not_lt.mp hbound.1, UInt32.not_lt.mp hbound.2⟩, fun h => h.1⟩
    · split
      · simp
      · simp

theorem decodeData_ne_badMagicNumber (sec b : Bytes) :
    decodeData sec b ≠ .error .badMagicNumber := by
  intro h
  simp only [decodeData] at h
  split at h
  · cases h
  · split at h
    · cases h
    · split at h
      · next err herr =>
        obtain ⟨msg, rfl⟩ := unmarshalHeaders_error herr
        cases h
      · cases h

theorem decodeHello_badMagicNumber_iff (b : Bytes) :
    decodeHello b = .error .badMagicNumber ↔
      magicLength ≤ b.length ∧ b.take magicLength ≠ magicV2 := by
  simp only [decodeHello]
  split
  · next hmin => simp [Nat.not_le.mpr hmin]
  · next hmin =>
    split
    · next hmagic =>
      simp only [hmagic, ne_eq, not_true_eq_false, and_false, iff_false]
      split
      · simp
      · split
        · simp
        · exact decodeData_ne_badMagicNumber _ _
    · next hmagic => simp [hmagic, Nat.not_lt.mp hmin]

/-! ### The readers compute the decoders -/

section

variable {σ τ : Type} [ByteSource σ] [ByteSource τ]

/-- A reader's result is that of a decoder: the same message with the same bytes left, or
the same error up to the kind of end. -/
def Agrees (r : Except WireError Message × σ) : Except WireError (Message × Bytes) → Prop
  | .ok (m, rest) => r.1 = .ok m ∧ remaining r.2 = rest
  | .error err => r.1.mapError WireError.upToEOF = .error err

/-- A read that ran out of bytes agrees with the decoder's truncation. -/
theorem agrees_truncated (b : Bytes) (peer : σ) :
    Agrees (.error (.read (if b = [] then .eof else .unexpectedEOF)), peer)
      (.error (.read .eof)) := by
  by_cases h : b = []
  · simp [Agrees, Except.mapError, WireError.upToEOF, h]
  · simp [Agrees, Except.mapError, WireError.upToEOF, h]

theorem unmarshalV2_agrees {peer : σ} {sec : Bytes} (hlen : sec.length = dataSectionV2)
    (hmagic : slice sec 0 magicLength = magicV2) :
    Agrees (unmarshalV2 peer sec (declaredHeaders sec) (declaredBody sec))
      (decodeData sec (remaining peer)) := by
  generalize hh : declaredHeaders sec = headersLength
  generalize hb : declaredBody sec = bodyLength
  simp only [unmarshalV2, decodeData, hh, hb]
  by_cases hbig : headersLength.toNat + bodyLength.toNat > maxInt32
  · simp [hbig, Agrees, Except.mapError, WireError.upToEOF]
  · simp only [hbig, if_false]
    by_cases hshort : (remaining peer).length < headersLength.toNat + bodyLength.toNat
    · obtain ⟨next, -, hread⟩ := readFull_of_lt peer hshort
      simp only [hread, hshort, if_true]
      exact agrees_truncated _ _
    · obtain ⟨next, hnext, hread⟩ := readFull_of_le peer (Nat.not_lt.mp hshort)
      have htake : ((remaining peer).take (headersLength.toNat + bodyLength.toNat)).length
          = headersLength.toNat + bodyLength.toNat := by
        rw [List.length_take]; omega
      have hslice : slice ((remaining peer).take (headersLength.toNat + bodyLength.toNat)) 0
          headersLength.toNat = (remaining peer).take headersLength.toNat := by
        rw [slice_take (by omega)]; rfl
      have hheaders : (if headersLength > 0 then
            unmarshalHeaders ((remaining peer).take headersLength.toNat) else .ok ∅)
          = unmarshalHeaders ((remaining peer).take headersLength.toNat) :=
        unmarshalHeaders_declared (by rw [List.length_take]; omega)
      simp only [hread, hshort, if_false, htake, ne_eq, not_true_eq_false, hlen, Nat.lt_irrefl,
        hmagic, hslice, hheaders]
      cases hdec : unmarshalHeaders ((remaining peer).take headersLength.toNat) with
      | error err =>
        obtain ⟨msg, rfl⟩ := unmarshalHeaders_error hdec
        rfl
      | ok headers => exact ⟨rfl, hnext⟩

/-- Behind a whole message section, `readV2` decodes the data that follows it. -/
theorem readV2_section_agrees {s : σ} {sec rest : Bytes} (hlen : sec.length = dataSectionV2)
    (hmagic : slice sec 0 magicLength = magicV2) (hs : remaining s = sec ++ rest) :
    Agrees (readV2 s) (decodeData sec rest) := by
  obtain ⟨peer, hpeer, heq⟩ := readV2_of_section hlen hmagic hs
  rw [heq, ← hpeer]
  exact unmarshalV2_agrees hlen hmagic

/-- A version response decodes to the same error, however much of it came with the magic. -/
theorem readUnknownVersionResponse_eq (initial : Bytes) (reader : σ) :
    (readUnknownVersionResponse initial reader).1
      = decodeVersionResponse (initial ++ remaining reader) := by
  have hrem : remaining (⟨initial, reader⟩ : MultiReader σ) = initial ++ remaining reader := rfl
  simp only [readUnknownVersionResponse, decodeVersionResponse]
  generalize initial ++ remaining reader = b at hrem
  by_cases hcount : b.length < versionLen
  · obtain ⟨next, -, hread⟩ := readFull_of_lt (⟨initial, reader⟩ : MultiReader σ) (hrem ▸ hcount)
    simp [hread, hcount]
  · have hle : versionLen ≤ (remaining (⟨initial, reader⟩ : MultiReader σ)).length := by
      rw [hrem]; omega
    obtain ⟨response, hresponse, hread⟩ := readFull_of_le _ hle
    rw [hrem] at hresponse hread
    simp only [hread, hcount, false_or]
    generalize (uint32 (b.take versionLen)).toNat = versionCount
    have hleft : (remaining response).length = b.length - versionLen := by
      rw [hresponse, List.length_drop]
    by_cases hmany : versionCount > maxSupportedVersionCount
    · simp [hmany]
    · by_cases hversions : b.length < versionLen + versionCount * versionLen
      · have hlt : (remaining response).length < versionCount * versionLen := by omega
        obtain ⟨next, -, hread'⟩ := readFull_of_lt response hlt
        simp [hmany, hversions, hread']
      · have hle' : versionCount * versionLen ≤ (remaining response).length := by omega
        obtain ⟨next, -, hread'⟩ := readFull_of_le response hle'
        rw [hresponse] at hread'
        simp [hmany, hversions, hread']

/-- An error of a version response is no end of the stream. -/
theorem upToEOF_decodeVersionResponse (b : Bytes) :
    (decodeVersionResponse b).upToEOF = decodeVersionResponse b := by
  simp only [decodeVersionResponse]
  split
  · rfl
  · rfl

/-- A stream that ends inside the message section of a frame. -/
theorem readV2_short_section {s : σ} (hmin : magicLength ≤ (remaining s).length)
    (hmagic : (remaining s).take magicLength = magicV2)
    (hshort : (remaining s).length < dataSectionV2) :
    Agrees (readV2 s) (.error (.read .eof)) := by
  obtain ⟨k, peer, hk, -, hkr, hpeer, hread⟩ :=
    readAtLeast_of_le s (show magicLength ≤ dataSectionV2 by decide) hmin
  have hklen : ((remaining s).take k).length = k := by rw [List.length_take]; omega
  have hhead : slice ((remaining s).take k) 0 magicLength = magicV2 := by
    rw [slice_take hk]; exact hmagic
  have htail : (remaining peer).length < dataSectionV2 - k := by
    rw [hpeer, List.length_drop]; omega
  obtain ⟨next, -, htop⟩ := readFull_of_lt peer htail
  simp only [readV2, hread, hhead, ne_eq, not_true_eq_false, if_false, hklen,
    show k < dataSectionV2 by omega, if_true, htop]
  exact agrees_truncated _ _

/-- A stream that does not start with the magic of a frame. -/
theorem readV2_other_magic {s : σ} (hmin : magicLength ≤ (remaining s).length)
    (hmagic : (remaining s).take magicLength ≠ magicV2) :
    (readV2 s).1 = .error (if (remaining s).take magicLength = magicUnknownVersion then
        decodeVersionResponse ((remaining s).drop magicLength)
      else .badMagicNumber) := by
  obtain ⟨k, peer, hk, -, hkr, hpeer, hread⟩ :=
    readAtLeast_of_le s (show magicLength ≤ dataSectionV2 by decide) hmin
  have hhead : slice ((remaining s).take k) 0 magicLength = (remaining s).take magicLength := by
    rw [slice_take hk]; rfl
  -- what came with the magic and what is still to come make up the response
  have hjoin : ((remaining s).take k).drop magicLength ++ remaining peer
      = (remaining s).drop magicLength := by
    conv_rhs => rw [← List.take_append_drop k (remaining s)]
    rw [hpeer, List.drop_append_of_le_length (by rw [List.length_take]; omega)]
  simp only [readV2, hread, hhead, ne_eq, hmagic, not_false_eq_true, if_true]
  split
  · rw [readUnknownVersionResponse_eq, hjoin]
  · rfl

/-- **`readV2` computes `decodeV2`**, from every source. -/
theorem readV2_agrees (s : σ) : Agrees (readV2 s) (decodeV2 (remaining s)) := by
  simp only [decodeV2]
  by_cases hmin : (remaining s).length < magicLength
  · obtain ⟨next, -, hread⟩ :=
      readAtLeast_of_lt s (show magicLength ≤ dataSectionV2 by decide) hmin
    simp only [hmin, if_true, readV2, hread]
    exact agrees_truncated _ _
  · simp only [hmin, if_false]
    by_cases hmagic : (remaining s).take magicLength = magicV2
    · simp only [hmagic, if_true]
      by_cases hsec : (remaining s).length < dataSectionV2
      · simp only [hsec, if_true]
        exact readV2_short_section (Nat.not_lt.mp hmin) hmagic hsec
      · simp only [hsec, if_false]
        have hlen : ((remaining s).take dataSectionV2).length = dataSectionV2 := by
          rw [List.length_take]; omega
        have hmagic' : slice ((remaining s).take dataSectionV2) 0 magicLength = magicV2 := by
          rw [slice_take (by decide)]; exact hmagic
        exact readV2_section_agrees hlen hmagic' (List.take_append_drop dataSectionV2 (remaining s)).symm
    · have hother := readV2_other_magic (Nat.not_lt.mp hmin) hmagic
      simp only [hmagic, if_false]
      split
      · next hu => simp [Agrees, hother, hu, Except.mapError, upToEOF_decodeVersionResponse]
      · next hu => simp [Agrees, hother, hu, Except.mapError, WireError.upToEOF]

/-- Behind the magic, `readHelloV2` decodes the hello that the magic started. -/
theorem readHelloV2_agrees {peer : σ} {b : Bytes} (hmin : ¬ b.length < magicLength)
    (hmagic : b.take magicLength = magicV2) (hpeer : remaining peer = b.drop magicLength) :
    Agrees (readHelloV2 peer) (decodeHello b) := by
  have hversion : versionLen = magicLength := rfl
  simp only [decodeHello, hmin, if_false, hmagic, if_true, readHelloV2]
  by_cases hsec : b.length < dataSectionV2
  · have hlt : (remaining peer).length < dataSectionV2 - versionLen := by
      rw [hpeer, List.length_drop, hversion]; omega
    obtain ⟨next, -, hread⟩ := readFull_of_lt peer hlt
    simp only [hsec, if_true, hread]
    exact agrees_truncated _ _
  · have hle : dataSectionV2 - versionLen ≤ (remaining peer).length := by
      rw [hpeer, List.length_drop, hversion]; omega
    obtain ⟨next, hnext, hread⟩ := readFull_of_le peer hle
    have htail : ((remaining peer).take (dataSectionV2 - versionLen)).length
        = dataSectionV2 - versionLen := by
      rw [List.length_take]; omega
    -- putting the magic back gives the message section
    have hjoin : magicV2 ++ (remaining peer).take (dataSectionV2 - versionLen)
        = b.take dataSectionV2 := by
      rw [← hmagic, hpeer, ← List.take_add]
      rfl
    have hrest : remaining next = b.drop dataSectionV2 := by
      rw [hnext, hpeer, List.drop_drop]
      rfl
    have hlen : (b.take dataSectionV2).length = dataSectionV2 := by rw [List.length_take]; omega
    have hmagic' : slice (b.take dataSectionV2) 0 magicLength = magicV2 := by
      rw [slice_take (by decide)]; exact hmagic
    have hagree : Agrees (unmarshalV2 next _ _ _) _ := unmarshalV2_agrees hlen hmagic'
    rw [hrest, declaredHeaders_take, declaredBody_take] at hagree
    have hh : uint32 (slice (b.take dataSectionV2) 12 16) = declaredHeaders b :=
      declaredHeaders_take b
    have hb : uint32 (slice (b.take dataSectionV2) 16 20) = declaredBody b := declaredBody_take b
    simp only [hsec, if_false, hread, htail, ne_eq, not_true_eq_false, hjoin, hh, hb]
    by_cases hbound : declaredHeaders b > 16384 ∨ declaredBody b > 4192
    · simp only [hbound, if_true]
      rfl
    · simp only [hbound, if_false]
      exact hagree

/-- **`readHello` computes `decodeHello`**, from every source. -/
theorem readHello_agrees (s : σ) : Agrees (readHello s) (decodeHello (remaining s)) := by
  have hversion : versionLen = magicLength := rfl
  by_cases hmin : (remaining s).length < magicLength
  · obtain ⟨next, -, hread⟩ := readFull_of_lt s hmin
    simp only [decodeHello, readHello, hversion, hmin, if_true, hread]
    exact agrees_truncated _ _
  · obtain ⟨peer, hpeer, hread⟩ := readFull_of_le s (Nat.not_lt.mp hmin)
    have hmlen : ((remaining s).take magicLength).length = magicLength := by
      rw [List.length_take]; omega
    by_cases hmagic : (remaining s).take magicLength = magicV2
    · have hagree := readHelloV2_agrees hmin hmagic hpeer
      simp only [readHello, hversion, hread, hmlen, ne_eq, not_true_eq_false, if_false,
        if_pos hmagic]
      exact hagree
    · simp only [decodeHello, readHello, hversion, hmin, if_false, hread, hmlen, ne_eq,
        not_true_eq_false, hmagic]
      rfl

/-! ### What follows for two sources -/

theorem Agrees.ok {r : Except WireError Message × σ} {d : Except WireError (Message × Bytes)}
    {m : Message} (h : Agrees r d) (hm : r.1 = .ok m) : d = .ok (m, remaining r.2) := by
  cases d with
  | ok p =>
    obtain ⟨h1, h2⟩ := h
    rw [hm] at h1
    cases h1
    exact congrArg Except.ok (Prod.ext rfl h2.symm)
  | error err =>
    simp only [Agrees, hm, Except.mapError] at h
    cases h

theorem readV2_cachedReplyFor {s : σ} {m : Message} (h : (readV2 s).1 = .ok m) :
    m.cachedReplyFor = none :=
  decodeV2_cachedReplyFor ((readV2_agrees s).ok h)

theorem Agrees.mapError {r : Except WireError Message × σ}
    {d : Except WireError (Message × Bytes)} (h : Agrees r d) :
    r.1.mapError WireError.upToEOF = d.map Prod.fst := by
  cases d with
  | ok p => rw [h.1]; rfl
  | error err => exact h

theorem Agrees.badMagicNumber_iff {r : Except WireError Message × σ}
    {d : Except WireError (Message × Bytes)} (h : Agrees r d) :
    r.1 = .error .badMagicNumber ↔ d = .error .badMagicNumber := by
  obtain ⟨r, next⟩ := r
  cases d with
  | ok p =>
    have hr : r = .ok p.1 := h.1
    simp [hr]
  | error err =>
    cases r with
    | ok m => cases h
    | error e =>
      -- no kind of end is a bad magic number
      have he : e.upToEOF = err := Except.error.inj h
      simp only [Except.error.injEq, ← he]
      cases e with
      | read e => cases e <;> simp [WireError.upToEOF]
      | badMagicNumber => simp [WireError.upToEOF]
      | unsupportedVersion vs => simp [WireError.upToEOF]
      | text msg => simp [WireError.upToEOF]

end

/-- **Read fragmentation does not matter.**  Two sources that hold the same bytes give the
same outcome, the same message or the same error up to the kind of end; and a message has
taken exactly its message section, headers and body. -/
theorem readV2_fragmentation {σ τ : Type} [ByteSource σ] [ByteSource τ] (s : σ) (t : τ)
    (hst : remaining s = remaining t) :
    (readV2 s).1.mapError WireError.upToEOF = (readV2 t).1.mapError WireError.upToEOF ∧
      ∀ m, (readV2 s).1 = .ok m →
        frameLength (remaining s) ≤ (remaining s).length ∧
          remaining (readV2 s).2 = (remaining s).drop (frameLength (remaining s)) := by
  refine ⟨?_, fun m hm => decodeV2_ok ((readV2_agrees s).ok hm)⟩
  rw [(readV2_agrees s).mapError, (readV2_agrees t).mapError, hst]

/-- A version response of one byte per read, and in one read. -/
theorem readV2_fragmentation_response :
    let b : Bytes := magicUnknownVersion ++ [2, 0, 0, 0, 1, 0, 0, 0, 2, 0, 0, 0]
    let s : Chopped := ⟨b, fun _ => (1, false)⟩
    let t : Chopped := ⟨b, fun _ => (16, true)⟩
    remaining s = remaining t ∧
      (readV2 s).1.mapError WireError.upToEOF = (readV2 t).1.mapError WireError.upToEOF := by
  intro b s t
  exact ⟨rfl, (readV2_fragmentation s t rfl).1⟩

/-- **The hello reader agrees with the message reader**, however the same bytes are
delivered to the two: a hello is also read as a message, and takes as many bytes; a message
whose frame keeps the bounds is also read as a hello; and `readHello` fails with a bad magic
number exactly when four bytes arrive that are not the magic. -/
theorem readHello_readV2 {σ τ : Type} [ByteSource σ] [ByteSource τ] (s : σ) (t : τ)
    (hst : remaining s = remaining t) :
    (∀ m, (readHello s).1 = .ok m →
      (readV2 t).1 = .ok m ∧ remaining (readV2 t).2 = remaining (readHello s).2) ∧
    (∀ m, (readV2 t).1 = .ok m → declaredHeaders (remaining t) ≤ 16384 →
      declaredBody (remaining t) ≤ 4192 → (readHello s).1 = .ok m) ∧
    ((readHello s).1 = .error .badMagicNumber ↔
      4 ≤ (remaining s).length ∧ (remaining s).take 4 ≠ magicV2) := by
  have hhello := readHello_agrees s
  have hmsg := readV2_agrees t
  refine ⟨fun m hm => ?_, fun m hm hheaders hbody => ?_, ?_⟩
  · have hdec := ((decodeHello_ok_iff _ _).mp (hhello.ok hm)).1
    rw [hst] at hdec
    rw [hdec] at hmsg
    exact hmsg
  · have hdec := (decodeHello_ok_iff _ _).mpr ⟨hmsg.ok hm, hheaders, hbody⟩
    rw [← hst] at hdec
    rw [hdec] at hhello
    exact hhello.1
  · exact hhello.badMagicNumber_iff.trans (decodeHello_badMagicNumber_iff _)

/-- A hello with a body, in pieces of three bytes and in one piece. -/
theorem readHello_readV2_hello :
    let hello : Outgoing := ⟨(newMessage 0 [7, 8]).setSequence (-1), [], rfl⟩
    let s : Chopped := ⟨hello.frame, fun _ => (3, false)⟩
    let t : Chopped := ⟨hello.frame, fun _ => (22, true)⟩
    remaining s = remaining t ∧ (readV2 t).1 = .ok hello.received ∧
      (readHello s).1 = .ok hello.received := by
  intro hello s t
  have hfit : hello.dataLen ≤ maxInt32 := by decide
  have ht : remaining t = hello.frame ++ [] := (List.append_nil _).symm
  obtain ⟨next, -, hread⟩ := readV2_frame hfit ht
  have hok : (readV2 t).1 = .ok hello.received := by rw [hread]
  exact ⟨rfl, hok, (readHello_readV2 s t rfl).2.1 _ hok (by decide) (by decide)⟩

end ZitiChannel
