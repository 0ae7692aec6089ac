import ZitiChannel.Wire

/-!
# Frames survive the wire

A stream of frames is read back message by message, whatever order the headers
were marshalled in and however the stream is chopped.  The first read of a frame
takes between four and twenty bytes, as the source pleases; what makes this safe
is that the message section is exactly twenty bytes long, so the first read never
reaches past it, and the top-up completes it.

## Main results

* `readV2_of_section` — reading is reading the data section behind the message
  section, however the latter was chopped.
* `unmarshalHeaders_marshalHeaders` — the header loop inverts marshalling.
* `readV2_frame` — one frame, followed by anything.
* `readV2_stream` — **a list of frames is read back in order, each call taking its
  own frame, and the call after the last one reports the end of the stream.**
-/

namespace ZitiChannel

open ByteStream ByteSource

/-! ### Slices -/

theorem slice_append_right {a b : Bytes} {lo hi : ℕ} (h : a.length ≤ lo) :
    slice (a ++ b) lo hi = slice b (lo - a.length) (hi - a.length) := by
  rw [slice, slice, List.take_append, List.drop_append]
  rcases Nat.le_total a.length hi with hi' | hi'
  · simp [List.drop_of_length_le, List.take_of_length_le hi', h]
  · have hz : hi - a.length = 0 := by omega
    simp only [hz, List.take_zero, List.drop_nil, List.append_nil]
    exact List.drop_of_length_le (by rw [List.length_take]; omega)

theorem slice_zero_length {a b : Bytes} : slice (a ++ b) 0 a.length = a := by
  simp [slice]

/-! ### The message section -/

/-- The message section of a frame. -/
def messageSection (contentType sequence headersLength bodyLength : Int32) : Bytes :=
  magicV2 ++ putInt32 contentType ++ putInt32 sequence ++ putInt32 headersLength ++
    putInt32 bodyLength

section

variable (contentType sequence headersLength bodyLength : Int32)

@[simp] theorem length_messageSection :
    (messageSection contentType sequence headersLength bodyLength).length = dataSectionV2 := by
  simp [messageSection, magicV2, dataSectionV2]

theorem slice_messageSection_magic :
    slice (messageSection contentType sequence headersLength bodyLength) 0 magicLength
      = magicV2 := by
  rfl

theorem slice_messageSection_contentType :
    slice (messageSection contentType sequence headersLength bodyLength) 4 8
      = putInt32 contentType := by
  rfl

theorem slice_messageSection_sequence :
    slice (messageSection contentType sequence headersLength bodyLength) 8 12
      = putInt32 sequence := by
  rfl

theorem slice_messageSection_headersLength :
    slice (messageSection contentType sequence headersLength bodyLength) 12 16
      = putInt32 headersLength := by
  rfl

theorem slice_messageSection_bodyLength :
    slice (messageSection contentType sequence headersLength bodyLength) 16 20
      = putInt32 bodyLength := by
  rfl

end

/-- A frame is its message section, the headers and the body. -/
theorem marshalV2_eq (m : Message) (order : Ranging.Order m.putReplyFor.headers) :
    marshalV2 m order =
      messageSection m.contentType m.sequence
          (Int32.ofNat (marshalHeaders order.entries).length) (Int32.ofNat m.body.length) ++
        (marshalHeaders order.entries ++ m.body) := by
  simp [marshalV2, marshalWithVersion, messageSection]

/-! ### Decoding the headers -/

/-- A length field holds the low 32 bits of a length. -/
theorem toNat_uint32_putInt32 (n : ℕ) : (uint32 (putInt32 (Int32.ofNat n))).toNat = n % 2 ^ 32 := by
  rw [putInt32, uint32_putUint32, Int32.toUInt32_ofNat', UInt32.toNat_ofNat']

/-- A length that fits 31 bits is read back exactly. -/
theorem toNat_uint32_putInt32_ofNat {n : ℕ} (hn : n ≤ maxInt32) :
    (uint32 (putInt32 (Int32.ofNat n))).toNat = n := by
  rw [toNat_uint32_putInt32]
  unfold maxInt32 at hn
  omega

/-- The loop of `unmarshalHeaders` with its cursor behind `before` stores the
headers that follow. -/
theorem unmarshalHeadersLoop_marshalHeaders : ∀ (entries : List HeaderEntry) (before : Bytes)
    (out : Headers), (marshalHeaders entries).length ≤ maxInt32 →
    unmarshalHeadersLoop (before ++ marshalHeaders entries) before.length out
      = .ok (Ranging.storeAll out entries) := by
  intro entries
  induction entries with
  | nil =>
    intro before out _
    rw [unmarshalHeadersLoop]
    simp [marshalHeaders, Ranging.storeAll]
  | cons e entries ih =>
    obtain ⟨k, v⟩ := e
    intro before out hlen
    have hlen' : (marshalHeaders (⟨k, v⟩ :: entries)).length
        = 8 + v.length + (marshalHeaders entries).length := by
      simp [marshalHeaders]; omega
    rw [hlen'] at hlen
    -- what the cursor reads: the key, the length of the value, and the value
    have hkey : slice (before ++ marshalHeaders (⟨k, v⟩ :: entries)) before.length
        (before.length + 4) = putInt32 k := by
      rw [slice_append_right le_rfl]
      simp [marshalHeaders, slice]
    have hlength : slice (before ++ marshalHeaders (⟨k, v⟩ :: entries)) (before.length + 4)
        (before.length + 8) = putInt32 (Int32.ofNat v.length) := by
      rw [slice_append_right (by omega), Nat.add_sub_cancel_left, Nat.add_sub_cancel_left,
        marshalHeaders, List.append_assoc, List.append_assoc, slice_append_right (by simp)]
      simp [slice]
    have hdata : slice (before ++ marshalHeaders (⟨k, v⟩ :: entries)) (before.length + 8)
        (before.length + 8 + v.length) = v := by
      have hpre : before ++ marshalHeaders (⟨k, v⟩ :: entries)
          = (before ++ putInt32 k ++ putInt32 (Int32.ofNat v.length)) ++
            (v ++ marshalHeaders entries) := by
        simp [marshalHeaders]
      have hl : (before ++ putInt32 k ++ putInt32 (Int32.ofNat v.length)).length
          = before.length + 8 := by simp
      rw [hpre, slice_append_right (by omega), hl, Nat.sub_self, Nat.add_sub_cancel_left]
      exact slice_zero_length
    have hnat : (uint32 (putInt32 (Int32.ofNat v.length))).toNat = v.length :=
      toNat_uint32_putInt32_ofNat (by omega)
    rw [unmarshalHeadersLoop]
    simp only [hkey, hlength, hnat, hdata, int32_putInt32, List.length_append, hlen']
    rw [if_pos (by omega), if_neg (by omega), if_neg (by omega)]
    -- the rest of the loop runs with this header behind the cursor
    have hrest := ih (before ++ (putInt32 k ++ putInt32 (Int32.ofNat v.length) ++ v))
      (Finmap.insert k v out) (by omega)
    rw [Ranging.storeAll, List.foldl_cons, ← Ranging.storeAll, ← hrest]
    congr 1
    · simp [marshalHeaders]
    · simp; omega

/-- **The header block of a map decodes to the map.** -/
theorem unmarshalHeaders_marshalHeaders {h : Headers} (order : Ranging.Order h)
    (hlen : (marshalHeaders order.entries).length ≤ maxInt32) :
    unmarshalHeaders (marshalHeaders order.entries) = .ok h := by
  have hshort : ¬ ((marshalHeaders order.entries).length > 0 ∧
      (marshalHeaders order.entries).length < 8) := by
    cases order.entries with
    | nil => simp [marshalHeaders]
    | cons e entries =>
      obtain ⟨k, v⟩ := e
      simp [marshalHeaders]; omega
  have hloop := unmarshalHeadersLoop_marshalHeaders order.entries [] ∅ hlen
  rw [Ranging.storeAll_entries order.complete, List.nil_append, List.length_nil] at hloop
  rw [unmarshalHeaders, if_neg hshort, hloop]

/-! ### Reading -/

section

variable {σ : Type} [ByteSource σ]

/-- **The message section may arrive in any pieces**: reading goes on with the
data section that follows it. -/
theorem readV2_of_section {s : σ} {sec rest : Bytes} (hlen : sec.length = dataSectionV2)
    (hmagic : slice sec 0 magicLength = magicV2) (hs : remaining s = sec ++ rest) :
    ∃ peer, remaining peer = rest ∧
      readV2 s = unmarshalV2 peer sec (uint32 (slice sec 12 16)) (uint32 (slice sec 16 20)) := by
  have hle : magicLength ≤ dataSectionV2 := by decide
  obtain ⟨k, peer, hmin, hmax, hk, hpeer, hread⟩ :=
    readAtLeast_of_le s hle
      (by rw [hs, List.length_append, hlen]; simp [magicLength, dataSectionV2]; omega)
  have hhead : (remaining s).take k = sec.take k := by
    rw [hs, List.take_append_of_le_length (by omega)]
  have hmagic' : slice (sec.take k) 0 magicLength = magicV2 := by
    rw [← hmagic, slice, slice, List.take_take, Nat.min_eq_left hmin]
  have hdrop : remaining peer = sec.drop k ++ rest := by
    rw [hpeer, hs, List.drop_append_of_le_length (by omega)]
  have hklen : (sec.take k).length = k := by rw [List.length_take]; omega
  by_cases hlt : k < dataSectionV2
  · -- the first read stopped inside the section: the top-up reads the rest of it
    have hrlen : (sec.drop k).length = dataSectionV2 - k := by rw [List.length_drop, hlen]
    have hleft : dataSectionV2 - k ≤ (remaining peer).length := by
      rw [hdrop, List.length_append, hrlen]; omega
    obtain ⟨peer', hpeer', htop⟩ := readFull_of_le peer hleft
    have htail : (remaining peer).take (dataSectionV2 - k) = sec.drop k := by
      rw [hdrop, ← hrlen, List.take_left]
    have hrest : remaining peer' = rest := by
      rw [hpeer', hdrop, ← hrlen, List.drop_left]
    refine ⟨peer', hrest, ?_⟩
    simp only [readV2, hread, hhead, hmagic', ne_eq, not_true_eq_false, if_false, hklen, hlt,
      if_true, htop, htail, List.take_append_drop]
  · -- the first read took the whole section
    have hkeq : k = dataSectionV2 := by omega
    have hall : sec.take k = sec := List.take_of_length_le (by omega)
    refine ⟨peer, by rw [hdrop, List.drop_of_length_le (by omega), List.nil_append], ?_⟩
    simp only [readV2, hread, hhead, hall, hmagic, ne_eq, not_true_eq_false, if_false, hlen,
      Nat.lt_irrefl, List.append_nil]

/-- No header bytes decode to no headers. -/
theorem unmarshalHeaders_nil : unmarshalHeaders [] = .ok ∅ := by
  rw [unmarshalHeaders, unmarshalHeadersLoop]
  simp

/-- That no headers are decoded when none are declared makes no difference. -/
theorem unmarshalHeaders_declared {headersLength : UInt32} {headersData : Bytes}
    (h : headersLength.toNat = headersData.length) :
    (if headersLength > 0 then unmarshalHeaders headersData else .ok ∅)
      = unmarshalHeaders headersData := by
  split
  · rfl
  · next h0 =>
    have hz : headersData.length = 0 := by
      have h0' : ¬ 0 < headersLength.toNat := fun h => h0 (UInt32.lt_iff_toNat_lt.mpr h)
      omega
    rw [List.length_eq_zero_iff.mp hz, unmarshalHeaders_nil]

/-- The data section of a frame decodes to its headers and body. -/
theorem unmarshalV2_of_data {peer : σ} {sec headersData body rest : Bytes}
    {headersLength bodyLength : UInt32} {headers : Headers} (hlen : sec.length = dataSectionV2)
    (hmagic : slice sec 0 magicLength = magicV2) (hh : headersLength.toNat = headersData.length)
    (hb : bodyLength.toNat = body.length) (hfit : headersData.length + body.length ≤ maxInt32)
    (hheaders : unmarshalHeaders headersData = .ok headers)
    (hpeer : remaining peer = headersData ++ body ++ rest) :
    ∃ next, remaining next = rest ∧
      unmarshalV2 peer sec headersLength bodyLength =
        (.ok {
          contentType := int32 (slice sec 4 8)
          sequence := int32 (slice sec 8 12)
          cachedReplyFor := none
          headers := headers
          body := body }, next) := by
  have hdlen : (headersData ++ body).length = headersData.length + body.length :=
    List.length_append
  have hleft : headersData.length + body.length ≤ (remaining peer).length := by
    rw [hpeer, List.length_append, hdlen]; omega
  obtain ⟨next, hnext, hread⟩ := readFull_of_le peer hleft
  have hdata : (remaining peer).take (headersData.length + body.length) = headersData ++ body := by
    rw [hpeer, ← hdlen, List.take_left]
  refine ⟨next, by rw [hnext, hpeer, ← hdlen, List.drop_left], ?_⟩
  have hslice : slice (headersData ++ body) 0 headersData.length = headersData :=
    slice_zero_length
  have hheaders' := (unmarshalHeaders_declared hh).trans hheaders
  simp only [unmarshalV2, hh, hb, gt_iff_lt, Nat.not_lt.mpr hfit, if_false, hread, hdata, hdlen,
    ne_eq, not_true_eq_false, hlen, Nat.lt_irrefl, hmagic, hslice, List.drop_left] at hheaders' ⊢
  rw [hheaders']

/-! ### Frames -/

/-- A message together with the order in which its headers are marshalled. -/
structure Outgoing where
  /-- The message. -/
  msg : Message
  /-- The order of its headers. -/
  order : Ranging.Order msg.putReplyFor.headers

namespace Outgoing

/-- The frame that is written. -/
def frame (o : Outgoing) : Bytes := marshalV2 o.msg o.order

/-- The length of the data section. -/
def dataLen (o : Outgoing) : ℕ := (marshalHeaders o.order.entries).length + o.msg.body.length

/-- The message that arrives: nothing is cached yet, and the reply target that was
cached by the sender is in the headers. -/
def received (o : Outgoing) : Message :=
  { o.msg.putReplyFor with cachedReplyFor := none }

end Outgoing

/-- The bytes of a list of frames. -/
def frames (ms : List Outgoing) : Bytes := (ms.map Outgoing.frame).flatten

@[simp] theorem frames_cons (o : Outgoing) (ms : List Outgoing) :
    frames (o :: ms) = o.frame ++ frames ms := rfl

/-- **One frame**, followed by anything, is read back and nothing more is taken. -/
theorem readV2_frame {s : σ} {o : Outgoing} {rest : Bytes} (hfit : o.dataLen ≤ maxInt32)
    (hs : remaining s = o.frame ++ rest) :
    ∃ next, remaining next = rest ∧ readV2 s = (.ok o.received, next) := by
  unfold Outgoing.dataLen at hfit
  have hbody : o.msg.putReplyFor.body = o.msg.body := by
    unfold Message.putReplyFor; split <;> rfl
  have hct : o.msg.putReplyFor.contentType = o.msg.contentType := by
    unfold Message.putReplyFor; split <;> rfl
  have hseq : o.msg.putReplyFor.sequence = o.msg.sequence := by
    unfold Message.putReplyFor; split <;> rfl
  rw [Outgoing.frame, marshalV2_eq, List.append_assoc] at hs
  obtain ⟨peer, hpeer, hread⟩ :=
    readV2_of_section (length_messageSection _ _ _ _) (slice_messageSection_magic _ _ _ _) hs
  rw [slice_messageSection_headersLength, slice_messageSection_bodyLength] at hread
  obtain ⟨next, hnext, hdata⟩ :=
    unmarshalV2_of_data (length_messageSection _ _ _ _)
      (slice_messageSection_magic _ _ _ _) (toNat_uint32_putInt32_ofNat (by omega))
      (toNat_uint32_putInt32_ofNat (by omega)) hfit
      (unmarshalHeaders_marshalHeaders o.order (by omega)) hpeer
  refine ⟨next, hnext, ?_⟩
  rw [hread, hdata, slice_messageSection_contentType, slice_messageSection_sequence,
    int32_putInt32, int32_putInt32, Outgoing.received, hbody, hct, hseq]

/-- A stream that has ended reads as the end of the stream. -/
theorem readV2_nil {s : σ} (hs : remaining s = []) : (readV2 s).1 = .error (.read .eof) := by
  obtain ⟨next, -, hread⟩ :=
    readAtLeast_of_lt s (show magicLength ≤ dataSectionV2 by decide) (by rw [hs]; decide)
  rw [hs] at hread
  simp [readV2, hread]

/-- The source after `k` calls of `readV2`. -/
def afterReads : ℕ → σ → σ
  | 0, s => s
  | k + 1, s => afterReads k (readV2 s).2

/-- What is left after reading some of the frames. -/
theorem remaining_afterReads : ∀ (ms : List Outgoing) (s : σ) (i : ℕ),
    (∀ o ∈ ms, o.dataLen ≤ maxInt32) → remaining s = frames ms → i ≤ ms.length →
    remaining (afterReads i s) = frames (ms.drop i) := by
  intro ms
  induction ms with
  | nil =>
    intro s i _ hs hi
    have h0 : i = 0 := by simpa using hi
    subst h0
    exact hs
  | cons o ms ih =>
    intro s i hfit hs hi
    cases i with
    | zero => exact hs
    | succ i =>
      rw [frames_cons] at hs
      obtain ⟨next, hnext, hread⟩ := readV2_frame (hfit o List.mem_cons_self) hs
      rw [afterReads, hread, List.drop_succ_cons]
      exact ih next i (fun o' ho' => hfit o' (List.mem_cons_of_mem o ho')) hnext
        (by simpa using hi)

end

/-- The headers that arrive are the headers that were there, with `replyForHeader`
replaced by the cached reply target if there is one. -/
theorem lookup_putReplyFor (m : Message) (key : Int32) :
    m.putReplyFor.headers.lookup key =
      match m.cachedReplyFor with
      | some replyFor =>
          if key = replyForHeader then some (putInt32 replyFor) else m.headers.lookup key
      | none => m.headers.lookup key := by
  cases hr : m.cachedReplyFor with
  | none => simp only [Message.putReplyFor, hr]
  | some replyFor =>
    simp only [Message.putReplyFor, hr, Headers.putUint32Header]
    split
    · next hk => rw [hk, Finmap.lookup_insert]; rfl
    · next hk => rw [Finmap.lookup_insert_of_ne _ hk]

/-- **Stream framing round trip.**  The frames of any messages whose data sections
fit a signed 32-bit length, marshalled in any header order and delivered by any
byte source, are read back in order by as many calls of `readV2`.  Each call takes
exactly its own frame, and the call after the last reports the end of the
stream. -/
theorem readV2_stream {σ : Type} [ByteSource σ] (ms : List Outgoing)
    (hfit : ∀ o ∈ ms, o.dataLen ≤ maxInt32) (s : σ) (hs : remaining s = frames ms) :
    (∀ i (hi : i < ms.length), ∃ m : Message,
      (readV2 (afterReads i s)).1 = .ok m ∧
      m.contentType = ms[i].msg.contentType ∧ m.sequence = ms[i].msg.sequence ∧
      m.body = ms[i].msg.body ∧
      (∀ key, m.headers.lookup key =
        match ms[i].msg.cachedReplyFor with
        | some replyFor =>
            if key = replyForHeader then some (putInt32 replyFor)
            else ms[i].msg.headers.lookup key
        | none => ms[i].msg.headers.lookup key) ∧
      remaining (afterReads i s) = ms[i].frame ++ remaining (afterReads (i + 1) s) ∧
      remaining (afterReads (i + 1) s) = frames (ms.drop (i + 1))) ∧
    (readV2 (afterReads ms.length s)).1 = .error (.read .eof) := by
  refine ⟨fun i hi => ?_, ?_⟩
  · have hi' := remaining_afterReads ms s i hfit hs hi.le
    have hnext := remaining_afterReads ms s (i + 1) hfit hs hi
    have hsplit : frames (ms.drop i) = ms[i].frame ++ frames (ms.drop (i + 1)) := by
      rw [List.drop_eq_getElem_cons hi, frames_cons]
    rw [hsplit] at hi'
    obtain ⟨next, -, hread⟩ := readV2_frame (hfit _ (List.getElem_mem hi)) hi'
    refine ⟨ms[i].received, by rw [hread], ?_, ?_, ?_, lookup_putReplyFor _, ?_, hnext⟩
    · unfold Outgoing.received Message.putReplyFor; split <;> rfl
    · unfold Outgoing.received Message.putReplyFor; split <;> rfl
    · unfold Outgoing.received Message.putReplyFor; split <;> rfl
    · rw [hi', hnext]
  · have hend := remaining_afterReads ms s ms.length hfit hs le_rfl
    rw [List.drop_length] at hend
    exact readV2_nil hend

/-- A request with sequence `5`, and the reply to it, read one byte at a time. -/
theorem readV2_stream_request_reply :
    let request := (newMessage 7 [1, 2, 3]).setSequence 5
    let reply := (newMessage 2 []).replyTo request
    let ms : List Outgoing := [⟨request, [], rfl⟩, ⟨reply, [⟨1, [5, 0, 0, 0]⟩], by decide⟩]
    let s : Chopped := ⟨frames ms, fun _ => (1, false)⟩
    (∀ o ∈ ms, o.dataLen ≤ maxInt32) ∧
      (∃ m : Message, (readV2 (afterReads 1 s)).1 = .ok m ∧ m.contentType = 2 ∧
        m.headers.lookup replyForHeader = some [5, 0, 0, 0]) ∧
      (readV2 (afterReads 2 s)).1 = .error (.read .eof) := by
  intro request reply ms s
  have hfit : ∀ o ∈ ms, o.dataLen ≤ maxInt32 := by decide
  obtain ⟨hmsgs, hend⟩ := readV2_stream ms hfit s rfl
  obtain ⟨m, hread, hct, -, -, hheaders, -⟩ := hmsgs 1 (by decide)
  exact ⟨hfit, ⟨m, hread, hct, (hheaders replyForHeader).trans (by decide)⟩, hend⟩

end ZitiChannel
