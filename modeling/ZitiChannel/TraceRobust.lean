import ZitiChannel.Trace

/-!
# Trace files of any content

Nothing is known of a trace file before it is read: it may be cut off, damaged, or made up.  The
reader gives the handler a record only when all its bytes are there.  It allocates the data of a
record by the length that the file declares, and that length is signed: a negative one ends the
program.

## Main definitions

* `RawRecord`, `Present` — the bytes of a record, and records at the beginning of a file.
* `Taken` — the handler takes records, one after the other.
* `NegativeAhead` — behind records that are taken, a negative length is declared.

## Main results

* `readRecord_record`, `readRecord_panic_iff` — when a record is read, and when reading it ends the
  program.
* `readLoop_present`, `readLoop_panic_iff` — the same of the whole file.
* `read_robust_iff` — **reading returns, with the handler called on records that are there only,
  exactly if no negative length is ahead.**

The source is `trace/read.go`.
-/

namespace ZitiChannel.Trace

open ByteStream

/-! ### Records in a file -/

/-- A record as the file has it: its type and its data. -/
structure RawRecord where
  messageType : Int32
  data : Bytes

def RawRecord.bytes (x : RawRecord) : Bytes :=
  putInt32 x.messageType ++ (putInt32 (Int32.ofNat x.data.length) ++ x.data)

/-- A length follows a type, and it is negative. -/
def NegativeLength (b : Bytes) : Prop :=
  ∃ messageType len rest, len < 0 ∧ b = putInt32 messageType ++ (putInt32 len ++ rest)

section

variable {ChannelState ChannelMessage : Type} (proto : Proto ChannelState ChannelMessage)

/-- The record is of a known type, and its data decodes. -/
def RawRecord.Decodes (x : RawRecord) (r : Record ChannelState ChannelMessage) : Prop :=
  x.data.length < 2 ^ 31 ∧ unmarshal proto x.messageType x.data = .ok r

/-- The file begins with all the bytes of the given records, one record after the other, and goes on
as given. -/
inductive Present : Bytes → List (Record ChannelState ChannelMessage) → Bytes → Prop
  | nil (b : Bytes) : Present b [] b
  | cons (x : RawRecord) (r : Record ChannelState ChannelMessage) {b rest : Bytes}
      {rs : List (Record ChannelState ChannelMessage)} (hx : x.Decodes proto r)
      (h : Present b rs rest) : Present (x.bytes ++ b) (r :: rs) rest

/-- The handler takes the records, the given ones having come before. -/
def Taken (handle : List (Record ChannelState ChannelMessage) →
      Record ChannelState ChannelMessage → Option GoString) :
    List (Record ChannelState ChannelMessage) → List (Record ChannelState ChannelMessage) → Prop
  | _, [] => True
  | before, r :: rs => handle before r = none ∧ Taken handle (before ++ [r]) rs

/-- Behind records that the handler takes, a negative length is declared. -/
def NegativeAhead (handle : List (Record ChannelState ChannelMessage) →
      Record ChannelState ChannelMessage → Option GoString)
    (before : List (Record ChannelState ChannelMessage)) (b : Bytes) : Prop :=
  ∃ rs rest, Present proto b rs rest ∧ Taken handle before rs ∧ NegativeLength rest

variable {proto} {φ : Type} [ByteFile φ] {f next : φ} {r : Record ChannelState ChannelMessage}

/-! ### One record -/

/-- A read returns no more than it asked for. -/
theorem length_read_le_ask (f : φ) (n : ℕ) : (ByteFile.read f n).data.length ≤ n := by
  rcases Nat.lt_or_ge (ByteFile.remaining f).length n with hlt | hle
  · exact (ByteFile.length_read_le f n).trans hlt.le
  · exact (ByteFile.read_of_le f n hle).1.le

theorem readData_record {messageType len : Int32}
    (h : readData proto messageType len f = .record r next) :
    ∃ data, ByteFile.remaining f = data ++ ByteFile.remaining next ∧
      Int32.ofNat data.length = len ∧ RawRecord.Decodes proto ⟨messageType, data⟩ r := by
  simp only [readData] at h
  split at h
  · cases h
  · next hneg =>
    split at h
    · cases h
    · split at h
      · cases h
      · next hlen =>
        split at h
        · cases h
        · next hr =>
          cases h
          have hnn : 0 ≤ len.toInt := by
            rw [Int32.lt_iff_toInt_lt] at hneg
            simpa using hneg
          have hask := length_read_le_ask f len.toInt.toNat
          have hlt : len.toInt < 2 ^ 31 := Int32.toInt_lt len
          exact ⟨_, (ByteFile.read_append f _).symm, not_not.mp hlen, by dsimp only; omega, hr⟩

theorem readLength_record {messageType : Int32}
    (h : readLength proto messageType f = .record r next) :
    ∃ data, ByteFile.remaining f =
        putInt32 (Int32.ofNat data.length) ++ (data ++ ByteFile.remaining next) ∧
      RawRecord.Decodes proto ⟨messageType, data⟩ r := by
  simp only [readLength] at h
  split at h
  · cases h
  · split at h
    · cases h
    · next hlen =>
      obtain ⟨data, hdata, hsize, hr⟩ := readData_record h
      refine ⟨data, ?_, hr⟩
      rw [hsize, putInt32_int32 (not_not.mp hlen), ← hdata, ByteFile.read_append]

/-- **A record that is read is there**, and its bytes are taken. -/
theorem readRecord_record (h : readRecord proto f = .record r next) :
    ∃ x : RawRecord, x.Decodes proto r ∧
      ByteFile.remaining f = x.bytes ++ ByteFile.remaining next := by
  simp only [readRecord] at h
  split at h
  · cases h
  · cases h
  · split at h
    · cases h
    · next hlen =>
      obtain ⟨data, hdata, hr⟩ := readLength_record h
      refine ⟨_, hr, ?_⟩
      rw [RawRecord.bytes, putInt32_int32 (not_not.mp hlen), List.append_assoc, List.append_assoc,
        ← hdata, ByteFile.read_append]

/-- And the other way round. -/
theorem readRecord_of_present {x : RawRecord} (hx : x.Decodes proto r) {rest : Bytes}
    (h : ByteFile.remaining f = x.bytes ++ rest) :
    ∃ next, ByteFile.remaining next = rest ∧ readRecord proto f = .record r next := by
  rw [RawRecord.bytes, List.append_assoc, List.append_assoc] at h
  obtain ⟨f₁, h₁, hrecord⟩ := readRecord_of_append h
  obtain ⟨f₂, h₂, hlength⟩ := readLength_of_append h₁
  obtain ⟨next, hnext, hdata⟩ := readData_of_append hx.1 hx.2 h₂
  exact ⟨next, hnext, hrecord.trans (hlength.trans hdata)⟩

theorem unmarshal_ne_panic (messageType : Int32) (data : Bytes) :
    unmarshal proto messageType data ≠ .error .panic := by
  unfold unmarshal
  split
  · cases proto.state.unmarshal data <;> simp [Except.map, Except.mapError]
  · split
    · cases proto.message.unmarshal data <;> simp [Except.map, Except.mapError]
    · simp

theorem readData_panic_iff {messageType len : Int32} :
    readData proto messageType len f = .fail .panic ↔ len < 0 := by
  simp only [readData]
  split
  · next hneg => exact iff_of_true rfl hneg
  · next hneg =>
    refine iff_of_false (fun h => ?_) hneg
    split at h
    · cases h
    · split at h
      · cases h
      · split at h
        · next err herr =>
          cases h
          exact unmarshal_ne_panic _ _ herr
        · cases h

theorem readLength_panic_iff {messageType : Int32} :
    readLength proto messageType f = .fail .panic ↔
      ∃ len rest, len < 0 ∧ ByteFile.remaining f = putInt32 len ++ rest := by
  constructor
  · intro h
    simp only [readLength] at h
    split at h
    · cases h
    · split at h
      · cases h
      · next hlen =>
        refine ⟨int32 (ByteFile.read f 4).data, ByteFile.remaining (ByteFile.read f 4).next,
          readData_panic_iff.mp h, ?_⟩
        rw [putInt32_int32 (not_not.mp hlen), ByteFile.read_append]
  · intro h
    obtain ⟨len, rest, hneg, hf⟩ := h
    obtain ⟨f', -, hlength⟩ := readLength_of_append hf
    rw [hlength, readData_panic_iff]
    exact hneg

/-- **Reading a record ends the program exactly if it declares a negative length.** -/
theorem readRecord_panic_iff :
    readRecord proto f = .fail .panic ↔ NegativeLength (ByteFile.remaining f) := by
  constructor
  · intro h
    simp only [readRecord] at h
    split at h
    · cases h
    · cases h
    · split at h
      · cases h
      · next htype =>
        obtain ⟨len, rest, hneg, hrest⟩ := readLength_panic_iff.mp h
        refine ⟨int32 (ByteFile.read f 4).data, len, rest, hneg, ?_⟩
        rw [putInt32_int32 (not_not.mp htype), ← hrest, ByteFile.read_append]
  · intro h
    obtain ⟨messageType, len, rest, hneg, hf⟩ := h
    obtain ⟨f', hf', hrecord⟩ := readRecord_of_append hf
    rw [hrecord]
    exact readLength_panic_iff.mpr ⟨len, rest, hneg, hf'⟩

/-! ### The whole file -/

variable {handle : List (Record ChannelState ChannelMessage) →
  Record ChannelState ChannelMessage → Option GoString}

/-- **The handler is called on records that are there.** -/
theorem readLoop_present (proto : Proto ChannelState ChannelMessage)
    (handle : List (Record ChannelState ChannelMessage) →
      Record ChannelState ChannelMessage → Option GoString)
    (f : φ) (calls : List (Record ChannelState ChannelMessage)) :
    ∃ rs rest, (readLoop proto handle f calls).1 = calls ++ rs ∧
      Present proto (ByteFile.remaining f) rs rest := by
  fun_induction readLoop proto handle f calls with
  | case1 f calls heof => exact ⟨[], _, (List.append_nil calls).symm, .nil _⟩
  | case2 f calls err hfail => exact ⟨[], _, (List.append_nil calls).symm, .nil _⟩
  | case3 f calls r next hrecord err hr =>
    obtain ⟨x, hx, hf⟩ := readRecord_record hrecord
    rw [hf]
    exact ⟨[r], _, rfl, .cons x r hx (.nil _)⟩
  | case4 f calls r next hrecord hr ih =>
    obtain ⟨x, hx, hf⟩ := readRecord_record hrecord
    obtain ⟨rs, rest, hcalls, hpresent⟩ := ih
    rw [hf]
    exact ⟨r :: rs, rest, by rw [hcalls, List.append_assoc]; rfl, .cons x r hx hpresent⟩

/-- A negative length that is ahead is met. -/
theorem readLoop_panic_of_present {b rest : Bytes} {rs : List (Record ChannelState ChannelMessage)}
    (h : Present proto b rs rest) (hneg : NegativeLength rest) :
    ∀ (f : φ) (calls : List (Record ChannelState ChannelMessage)), ByteFile.remaining f = b →
      Taken handle calls rs → (readLoop proto handle f calls).2 = some .panic := by
  induction h with
  | nil b =>
    intro f calls hf _
    rw [readLoop_fail calls (readRecord_panic_iff.mpr (hf ▸ hneg))]
  | cons x r hx _ ih =>
    intro f calls hf htaken
    obtain ⟨next, hnext, hrecord⟩ := readRecord_of_present hx hf
    rw [readLoop_record calls hrecord htaken.1]
    exact ih hneg next (calls ++ [r]) hnext htaken.2

/-- **The loop ends the program exactly if a negative length is ahead.** -/
theorem readLoop_panic_iff (proto : Proto ChannelState ChannelMessage)
    (handle : List (Record ChannelState ChannelMessage) →
      Record ChannelState ChannelMessage → Option GoString)
    (f : φ) (calls : List (Record ChannelState ChannelMessage)) :
    (readLoop proto handle f calls).2 = some .panic ↔
      NegativeAhead proto handle calls (ByteFile.remaining f) := by
  constructor
  · intro h
    fun_induction readLoop proto handle f calls with
    | case1 f calls heof => cases h
    | case2 f calls err hfail =>
      rw [Option.some.inj h] at hfail
      exact ⟨[], _, .nil _, trivial, readRecord_panic_iff.mp hfail⟩
    | case3 f calls r next hrecord err hr => cases h
    | case4 f calls r next hrecord hr ih =>
      obtain ⟨x, hx, hf⟩ := readRecord_record hrecord
      obtain ⟨rs, rest, hpresent, htaken, hneg⟩ := ih h
      rw [hf]
      exact ⟨r :: rs, rest, .cons x r hx hpresent, ⟨hr, htaken⟩, hneg⟩
  · intro ⟨rs, rest, hpresent, htaken, hneg⟩
    exact readLoop_panic_of_present hpresent hneg f calls rfl htaken

end

/-- **Trace files of any content.**  Reading a file returns without an error or with one, having
called the handler on records only whose type, length and data are wholly in the file, exactly if
the file does not declare a negative length behind records that the handler takes. -/
theorem read_robust_iff {ChannelState ChannelMessage φ : Type} [ByteFile φ]
    (proto : Proto ChannelState ChannelMessage)
    (handle : List (Record ChannelState ChannelMessage) →
      Record ChannelState ChannelMessage → Option GoString)
    (f : φ) :
    ((read proto handle (.ok f)).2 ≠ some .panic ∧
      ∃ rest, Present proto (ByteFile.remaining f) (read proto handle (.ok f)).1 rest) ↔
    ¬ NegativeAhead proto handle [] (ByteFile.remaining f) := by
  obtain ⟨rs, rest, hcalls, hpresent⟩ := readLoop_present proto handle f []
  have hpanic := readLoop_panic_iff proto handle f []
  rw [List.nil_append] at hcalls
  rw [read, hcalls, ← hpanic]
  exact ⟨And.left, fun h => ⟨h, rest, hpresent⟩⟩

/-- A record without data, and behind it one with a length of `-1`. -/
def negativeFile : Bytes :=
  (RawRecord.bytes ⟨messageTypeChannelState, []⟩) ++
    (putInt32 messageTypeChannelMessage ++ putInt32 (-1))

/-- The length of the second record ends the program. -/
theorem negativeFile_panics :
    (read plainProto (fun _ _ => none) (.ok negativeFile)).2 = some .panic := by
  rw [read, readLoop_panic_iff]
  exact ⟨[.state []], _, .cons ⟨messageTypeChannelState, []⟩ _ ⟨by decide, rfl⟩ (.nil _),
    ⟨rfl, trivial⟩, messageTypeChannelMessage, -1, [], by decide, by rw [List.append_nil]⟩

end ZitiChannel.Trace
