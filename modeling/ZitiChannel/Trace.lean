import ZitiChannel.Lib.Reader
import ZitiChannel.Message

/-!
# Trace files

A trace is a file of records, each its type, its length and its data.  The data is encoded by
a library; what is needed of that library is that decoding undoes encoding.  A trace is
written one record at a time and read to its end, with every record given to a handler.
A file may stop anywhere: the reader tells a file that ends between two records from one that
ends inside one.

## Main definitions

* `Trace.writeChannelState`, `Trace.writeChannelMessage` — what a call appends to the file.
* `Trace.readRecord`, `Trace.readLoop`, `Trace.read` — reading, one record at a time.

## Main results

* `Trace.readRecord_frame`, `Trace.readRecord_cut` — a whole record is read, and nothing more;
  a record that is cut off is an error.
* `Trace.readLoop_take` — the records of a file that stops anywhere.
* `Trace.read_written` — **the handler gets what was written, and of a file that stops early
  what it holds whole.**

The sources are `trace/write.go` and `trace/read.go`.
-/

namespace ZitiChannel.Trace

open ByteStream

/-! ### Records -/

/-- A record, of one of the two types. -/
inductive Record (ChannelState ChannelMessage : Type)
  | state (s : ChannelState)
  | message (m : ChannelMessage)
  deriving DecidableEq

def messageTypeChannelState : Int32 := 0
def messageTypeChannelMessage : Int32 := 1

/-- The encoding of a type of records, either direction of which may fail. -/
structure Codec (α : Type) where
  marshal : α → Except GoString Bytes
  unmarshal : Bytes → Except GoString α

/-- Decoding undoes encoding. -/
def Codec.Undoes {α : Type} (c : Codec α) : Prop :=
  ∀ x data, c.marshal x = .ok data → c.unmarshal data = .ok x

/-- The encodings of the two types. -/
structure Proto (ChannelState ChannelMessage : Type) where
  state : Codec ChannelState
  message : Codec ChannelMessage

section

variable {ChannelState ChannelMessage : Type} (proto : Proto ChannelState ChannelMessage)

/-! ### Writing -/

namespace Record

def messageType : Record ChannelState ChannelMessage → Int32
  | .state _ => messageTypeChannelState
  | .message _ => messageTypeChannelMessage

/-- The data of a record. -/
def marshal : Record ChannelState ChannelMessage → Except GoString Bytes
  | .state s => proto.state.marshal s
  | .message m => proto.message.marshal m

end Record

/-- What a call writes for encoded data, or the error of encoding it. -/
def writeRecord (messageType : Int32) (data : Except GoString Bytes) : Except GoString Bytes :=
  data.map fun data => putInt32 messageType ++ putInt32 (Int32.ofNat data.length) ++ data

def writeChannelState (s : ChannelState) : Except GoString Bytes :=
  writeRecord messageTypeChannelState (proto.state.marshal s)

def writeChannelMessage (m : ChannelMessage) : Except GoString Bytes :=
  writeRecord messageTypeChannelMessage (proto.message.marshal m)

/-- The call that writes a record. -/
def write : Record ChannelState ChannelMessage → Except GoString Bytes
  | .state s => writeChannelState proto s
  | .message m => writeChannelMessage proto m

/-- What the call adds to the file: nothing if it fails. -/
def frame (r : Record ChannelState ChannelMessage) : Bytes := (write proto r).toOption.getD []

/-- The file after a sequence of calls. -/
def written (rs : List (Record ChannelState ChannelMessage)) : Bytes :=
  (rs.map (frame proto)).flatten

/-- The records of the calls that did not fail. -/
def recorded (rs : List (Record ChannelState ChannelMessage)) :
    List (Record ChannelState ChannelMessage) :=
  rs.filter fun r => (write proto r).toOption.isSome

/-! ### Reading -/

/-- Why reading stopped. -/
inductive TraceError
  | openFile (err : GoString)
  | read (err : ReadErr)
  | text (msg : String)
  | unmarshal (err : GoString)
  | handler (err : GoString)
  /-- A buffer of negative length was asked for. -/
  | panic
  deriving DecidableEq

/-- How the reader's loop body begins. -/
inductive Step (φ ChannelState ChannelMessage : Type)
  | eof
  | fail (err : TraceError)
  | record (r : Record ChannelState ChannelMessage) (next : φ)

/-- The record that data of a given type stands for. -/
def unmarshal (messageType : Int32) (data : Bytes) :
    Except TraceError (Record ChannelState ChannelMessage) :=
  if messageType = messageTypeChannelState then
    ((proto.state.unmarshal data).map .state).mapError .unmarshal
  else if messageType = messageTypeChannelMessage then
    ((proto.message.unmarshal data).map .message).mapError .unmarshal
  else .error (.text "unexpected message")

variable {φ : Type} [ByteFile φ]

/-- The body of the loop from where it has the type and the length. -/
def readData (messageType len : Int32) (f : φ) : Step φ ChannelState ChannelMessage :=
  if len < 0 then .fail .panic
  else
    let data := ByteFile.read f len.toInt.toNat
    match data.err with
    | some err => .fail (.read err)
    | none =>
        if Int32.ofNat data.data.length ≠ len then .fail (.text "short read")
        else
          match unmarshal proto messageType data.data with
          | .error err => .fail err
          | .ok r => .record r data.next

/-- The body of the loop from where it has the type. -/
def readLength (messageType : Int32) (f : φ) : Step φ ChannelState ChannelMessage :=
  let lenData := ByteFile.read f 4
  match lenData.err with
  | some err => .fail (.read err)
  | none =>
      if lenData.data.length ≠ 4 then .fail (.text "short read")
      else readData proto messageType (int32 lenData.data) lenData.next

/-- The body of the loop, up to the call of the handler.  Only before the first byte of a record
is the end of the file no error. -/
def readRecord (f : φ) : Step φ ChannelState ChannelMessage :=
  let typeData := ByteFile.read f 4
  match typeData.err with
  | some .eof => .eof
  | some err => .fail (.read err)
  | none =>
      if typeData.data.length ≠ 4 then .fail (.text "short read")
      else readLength proto (int32 typeData.data) typeData.next

section

variable {proto} {f next : φ} {r : Record ChannelState ChannelMessage} {messageType len : Int32}

theorem length_read_next (f : φ) (n : ℕ) :
    (ByteFile.read f n).data.length + (ByteFile.remaining (ByteFile.read f n).next).length =
      (ByteFile.remaining f).length := by
  rw [← List.length_append, ByteFile.read_append]

theorem length_readData (h : readData proto messageType len f = .record r next) :
    (ByteFile.remaining next).length ≤ (ByteFile.remaining f).length := by
  have hlen := length_read_next f len.toInt.toNat
  simp only [readData] at h
  split at h
  · cases h
  · split at h
    · cases h
    · split at h
      · cases h
      · split at h
        · cases h
        · cases h; omega

theorem length_readLength (h : readLength proto messageType f = .record r next) :
    (ByteFile.remaining next).length ≤ (ByteFile.remaining f).length := by
  have hlen := length_read_next f 4
  simp only [readLength] at h
  split at h
  · cases h
  · split at h
    · cases h
    · exact (length_readData h).trans (by omega)

/-- A record takes at least its type from the file. -/
theorem length_readRecord (h : readRecord proto f = .record r next) :
    (ByteFile.remaining next).length < (ByteFile.remaining f).length := by
  have hlen := length_read_next f 4
  simp only [readRecord] at h
  split at h
  · cases h
  · cases h
  · split at h
    · cases h
    · next htype => exact (length_readLength h).trans_lt (by omega)

end

/-- The loop of `Read`, with the calls of the handler made so far. -/
def readLoop (handle : List (Record ChannelState ChannelMessage) →
      Record ChannelState ChannelMessage → Option GoString)
    (f : φ) (calls : List (Record ChannelState ChannelMessage)) :
    List (Record ChannelState ChannelMessage) × Option TraceError :=
  match _h : readRecord proto f with
  | .eof => (calls, none)
  | .fail err => (calls, some err)
  | .record r next =>
      match handle calls r with
      | some err => (calls ++ [r], some (.handler err))
      | none => readLoop handle next (calls ++ [r])
termination_by (ByteFile.remaining f).length
decreasing_by exact length_readRecord _h

/-- Read a trace: the calls of the handler, and the error.  The handler's answer may depend on
what it was given before. -/
def read (handle : List (Record ChannelState ChannelMessage) →
      Record ChannelState ChannelMessage → Option GoString)
    (file : Except GoString φ) :
    List (Record ChannelState ChannelMessage) × Option TraceError :=
  match file with
  | .error err => ([], some (.openFile err))
  | .ok f => readLoop proto handle f []

end

/-! ### One record -/

section

variable {ChannelState ChannelMessage : Type} {proto : Proto ChannelState ChannelMessage}
  {r : Record ChannelState ChannelMessage} {data : Bytes}

theorem write_eq (r : Record ChannelState ChannelMessage) :
    write proto r = writeRecord r.messageType (r.marshal proto) := by
  cases r with
  | state s => rfl
  | message m => rfl

theorem frame_eq (h : r.marshal proto = .ok data) :
    frame proto r =
      putInt32 r.messageType ++ (putInt32 (Int32.ofNat data.length) ++ data) := by
  rw [frame, write_eq, h, ← List.append_assoc]
  rfl

theorem unmarshal_marshal (hstate : proto.state.Undoes) (hmessage : proto.message.Undoes)
    (h : r.marshal proto = .ok data) : unmarshal proto r.messageType data = .ok r := by
  cases r with
  | state s =>
    have hs : proto.state.unmarshal data = .ok s := hstate s data h
    simp [unmarshal, Record.messageType, hs, Except.map, Except.mapError]
  | message m =>
    have hm : proto.message.unmarshal data = .ok m := hmessage m data h
    simp [unmarshal, Record.messageType, messageTypeChannelState, messageTypeChannelMessage, hm,
      Except.map, Except.mapError]

/-- A length below `2 ^ 31` is read back as itself. -/
theorem toInt_ofNat {n : ℕ} (h : n < 2 ^ 31) : (Int32.ofNat n).toInt = n :=
  Int32.toInt_ofNat_of_lt h

variable {φ : Type} [ByteFile φ] {f : φ}

theorem readData_of_append {messageType : Int32} (hfit : data.length < 2 ^ 31)
    (hr : unmarshal proto messageType data = .ok r) {rest : Bytes}
    (h : ByteFile.remaining f = data ++ rest) :
    ∃ next, ByteFile.remaining next = rest ∧
      readData proto messageType (Int32.ofNat data.length) f = .record r next := by
  obtain ⟨hdata, herr, hnext⟩ := ByteFile.read_of_append h
  have hneg : ¬ Int32.ofNat data.length < 0 := by
    rw [Int32.lt_iff_toInt_lt, toInt_ofNat hfit]; simp
  refine ⟨_, hnext, ?_⟩
  simp [readData, hneg, toInt_ofNat hfit, hdata, herr, hr]

theorem readLength_of_append {messageType len : Int32} {b : Bytes}
    (h : ByteFile.remaining f = putInt32 len ++ b) :
    ∃ next, ByteFile.remaining next = b ∧
      readLength proto messageType f = readData proto messageType len next := by
  obtain ⟨hdata, herr, hnext⟩ := ByteFile.read_of_append h
  rw [length_putInt32] at hdata herr hnext
  refine ⟨_, hnext, ?_⟩
  simp [readLength, hdata, herr]

theorem readRecord_of_append {messageType : Int32} {b : Bytes}
    (h : ByteFile.remaining f = putInt32 messageType ++ b) :
    ∃ next, ByteFile.remaining next = b ∧
      readRecord proto f = readLength proto messageType next := by
  obtain ⟨hdata, herr, hnext⟩ := ByteFile.read_of_append h
  rw [length_putInt32] at hdata herr hnext
  refine ⟨_, hnext, ?_⟩
  simp [readRecord, hdata, herr]

theorem readRecord_nil (h : ByteFile.remaining f = []) : readRecord proto f = .eof := by
  simp [readRecord, ByteFile.read_nil f 4 h (by decide)]

/-- **A whole record** is read, and nothing behind it. -/
theorem readRecord_frame (hstate : proto.state.Undoes) (hmessage : proto.message.Undoes)
    (hr : r.marshal proto = .ok data) (hfit : data.length < 2 ^ 31) {rest : Bytes}
    (h : ByteFile.remaining f = frame proto r ++ rest) :
    ∃ next, ByteFile.remaining next = rest ∧ readRecord proto f = .record r next := by
  rw [frame_eq hr, List.append_assoc, List.append_assoc] at h
  obtain ⟨f₁, h₁, hrecord⟩ := readRecord_of_append h
  obtain ⟨f₂, h₂, hlength⟩ := readLength_of_append h₁
  obtain ⟨next, hnext, hdata⟩ := readData_of_append hfit (unmarshal_marshal hstate hmessage hr) h₂
  exact ⟨next, hnext, hrecord.trans (hlength.trans hdata)⟩

theorem readData_cut {messageType : Int32} {n : ℕ} (hfit : n < 2 ^ 31)
    (h : (ByteFile.remaining f).length < n) :
    ∃ err, readData proto messageType (Int32.ofNat n) f = .fail err := by
  have hneg : ¬ Int32.ofNat n < 0 := by
    rw [Int32.lt_iff_toInt_lt, toInt_ofNat hfit]; simp
  rcases ByteFile.read_short h with herr | ⟨herr, hdata⟩
  · exact ⟨_, by simp [readData, hneg, toInt_ofNat hfit, herr]; rfl⟩
  · have hne : Int32.ofNat (ByteFile.read f n).data.length ≠ Int32.ofNat n := by
      intro heq
      have := congrArg Int32.toInt heq
      rw [toInt_ofNat hfit, toInt_ofNat (by omega)] at this
      omega
    exact ⟨_, by simp [readData, hneg, toInt_ofNat hfit, herr, hne]; rfl⟩

theorem readLength_cut {messageType : Int32} (h : (ByteFile.remaining f).length < 4) :
    ∃ err, readLength proto messageType f = .fail err := by
  rcases ByteFile.read_short h with herr | ⟨herr, hdata⟩
  · exact ⟨_, by simp [readLength, herr]; rfl⟩
  · exact ⟨_, by simp [readLength, herr, hdata.ne]; rfl⟩

/-- **A record that is cut off** is an error, wherever the file ends. -/
theorem readRecord_cut (hr : r.marshal proto = .ok data) (hfit : data.length < 2 ^ 31) {n : ℕ}
    (hpos : 0 < n) (hn : n < (frame proto r).length)
    (h : ByteFile.remaining f = (frame proto r).take n) :
    ∃ err, readRecord proto f = .fail err := by
  have hlen : (ByteFile.remaining f).length = n := by rw [h, List.length_take]; omega
  rw [frame_eq hr] at hn h
  simp only [List.length_append, length_putInt32] at hn
  by_cases htype : n < 4
  · -- inside the type
    have hne : ByteFile.remaining f ≠ [] := List.ne_nil_of_length_pos (by omega)
    have herr := ByteFile.read_of_lt f 4 hne (by omega)
    have hdata := ByteFile.length_read_le f 4
    exact ⟨_, by simp [readRecord, herr, show (ByteFile.read f 4).data.length ≠ 4 by omega]; rfl⟩
  · rw [List.take_append, List.take_of_length_le (by rw [length_putInt32]; omega),
      length_putInt32] at h
    obtain ⟨f₁, h₁, hrecord⟩ := readRecord_of_append h
    rw [hrecord]
    by_cases hlength : n < 8
    · -- inside the length
      refine readLength_cut ?_
      rw [h₁, List.length_take]
      omega
    · -- inside the data
      rw [List.take_append, List.take_of_length_le (by rw [length_putInt32]; omega),
        length_putInt32] at h₁
      obtain ⟨f₂, h₂, hlen₂⟩ := readLength_of_append h₁
      rw [hlen₂]
      refine readData_cut hfit ?_
      rw [h₂, List.length_take]
      omega

/-! ### A file of records -/

theorem written_cons (r : Record ChannelState ChannelMessage)
    (rs : List (Record ChannelState ChannelMessage)) :
    written proto (r :: rs) = frame proto r ++ written proto rs := rfl

/-- The calls that failed wrote nothing. -/
theorem written_recorded (rs : List (Record ChannelState ChannelMessage)) :
    written proto (recorded proto rs) = written proto rs := by
  induction rs with
  | nil => rfl
  | cons r rs ih =>
    rw [recorded, List.filter_cons, ← recorded]
    split
    · rw [written_cons, ih, written_cons]
    · next hr =>
      rw [Bool.not_eq_true, Option.isSome_eq_false_iff, Option.isNone_iff_eq_none] at hr
      rw [ih, written_cons, frame, hr, Option.getD_none, List.nil_append]

theorem marshal_of_mem_recorded {rs : List (Record ChannelState ChannelMessage)}
    (h : r ∈ recorded proto rs) : r ∈ rs ∧ ∃ data, r.marshal proto = .ok data := by
  obtain ⟨hmem, hok⟩ := List.mem_filter.mp h
  refine ⟨hmem, ?_⟩
  rw [write_eq] at hok
  cases hr : r.marshal proto with
  | ok data => exact ⟨data, rfl⟩
  | error err => rw [hr] at hok; cases hok

theorem written_take (rs : List (Record ChannelState ChannelMessage)) (j : ℕ) :
    written proto (rs.take j) <+: written proto rs := by
  conv_rhs => rw [← List.take_append_drop j rs]
  rw [written, written, List.map_append, List.flatten_append]
  exact List.prefix_append _ _

theorem length_frame_pos (h : r.marshal proto = .ok data) : 0 < (frame proto r).length := by
  rw [frame_eq h]; simp

section

variable {handle : List (Record ChannelState ChannelMessage) →
  Record ChannelState ChannelMessage → Option GoString}

theorem readLoop_eof (calls : List (Record ChannelState ChannelMessage))
    (h : readRecord proto f = .eof) : readLoop proto handle f calls = (calls, none) := by
  rw [readLoop]
  split
  · rfl
  · next h' => rw [h] at h'; cases h'
  · next h' => rw [h] at h'; cases h'

theorem readLoop_fail (calls : List (Record ChannelState ChannelMessage)) {err : TraceError}
    (h : readRecord proto f = .fail err) : readLoop proto handle f calls = (calls, some err) := by
  rw [readLoop]
  split
  · next h' => rw [h] at h'; cases h'
  · next h' => rw [h] at h'; cases h'; rfl
  · next h' => rw [h] at h'; cases h'

/-- The loop goes on behind a record that the handler takes. -/
theorem readLoop_record (calls : List (Record ChannelState ChannelMessage)) {next : φ}
    (h : readRecord proto f = .record r next) (hr : handle calls r = none) :
    readLoop proto handle f calls = readLoop proto handle next (calls ++ [r]) := by
  rw [readLoop]
  split
  · next h' => rw [h] at h'; cases h'
  · next h' => rw [h] at h'; cases h'
  · next h' => rw [h] at h'; cases h'; rw [hr]

/-- A file that stops before its first record is complete. -/
theorem readLoop_cut {r : Record ChannelState ChannelMessage} {data : List UInt8} {n : ℕ} {f : φ}
    (calls : List (Record ChannelState ChannelMessage)) (hr : r.marshal proto = .ok data)
    (hlen : data.length < 2 ^ 31) (hn : n < (frame proto r).length)
    (hf : ByteFile.remaining f = (frame proto r).take n) :
    (readLoop proto handle f calls).1 = calls ∧
      ((readLoop proto handle f calls).2 = none ↔ n = 0) := by
  rcases Nat.eq_zero_or_pos n with rfl | hpos
  · have hloop : readLoop proto handle f calls = (calls, none) :=
      readLoop_eof calls (readRecord_nil (by rw [hf, List.take_zero]))
    rw [hloop]
    exact ⟨rfl, iff_of_true rfl rfl⟩
  · obtain ⟨err, hcut⟩ := readRecord_cut hr hlen hpos hn hf
    have hloop : readLoop proto handle f calls = (calls, some err) := readLoop_fail calls hcut
    rw [hloop]
    exact ⟨rfl, iff_of_false (by simp) hpos.ne'⟩

/-- **A file of records that stops after `n` bytes.**  The handler gets the records that are
wholly there; the end is no error exactly when the last of them ends there. -/
theorem readLoop_take (hstate : proto.state.Undoes) (hmessage : proto.message.Undoes)
    (hhandle : ∀ seen r, handle seen r = none) :
    ∀ (rs : List (Record ChannelState ChannelMessage)) (n : ℕ) (f : φ)
      (calls : List (Record ChannelState ChannelMessage)),
    (∀ r ∈ rs, ∃ data, r.marshal proto = .ok data ∧ data.length < 2 ^ 31) →
    n ≤ (written proto rs).length → ByteFile.remaining f = (written proto rs).take n →
    ∃ k ≤ rs.length, (written proto (rs.take k)).length ≤ n ∧
      (∀ j ≤ rs.length, (written proto (rs.take j)).length ≤ n → j ≤ k) ∧
      (readLoop proto handle f calls).1 = calls ++ rs.take k ∧
      ((readLoop proto handle f calls).2 = none ↔ (written proto (rs.take k)).length = n) := by
  intro rs
  induction rs with
  | nil =>
    intro n f calls _ hn hf
    have hloop : readLoop proto handle f calls = (calls, none) :=
      readLoop_eof calls (readRecord_nil (by rw [hf]; exact List.take_nil))
    refine ⟨0, le_rfl, Nat.zero_le n, fun j hj _ => hj, ?_, ?_⟩
    · rw [hloop, List.take_zero, List.append_nil]
    · rw [hloop]
      exact iff_of_true rfl (Nat.le_zero.mp hn).symm
  | cons r rs ih =>
    intro n f calls hfit hn hf
    obtain ⟨data, hr, hlen⟩ := hfit r List.mem_cons_self
    have hpos := length_frame_pos hr
    rw [written_cons] at hn hf
    by_cases hwhole : (frame proto r).length ≤ n
    · -- the first record is there: it is read, and the loop goes on behind it
      rw [List.take_append, List.take_of_length_le hwhole] at hf
      obtain ⟨next, hnext, hrecord⟩ := readRecord_frame hstate hmessage hr hlen hf
      rw [List.length_append] at hn
      obtain ⟨k, hk, hle, hmax, hcalls, hend⟩ := ih (n - (frame proto r).length) next (calls ++ [r])
        (fun r' hr' => hfit r' (List.mem_cons_of_mem r hr')) (by omega) hnext
      have hloop := readLoop_record calls hrecord (hhandle calls r)
      have hlength : ∀ j, (written proto ((r :: rs).take (j + 1))).length =
          (frame proto r).length + (written proto (rs.take j)).length := by
        intro j
        rw [List.take_succ_cons, written_cons, List.length_append]
      refine ⟨k + 1, Nat.succ_le_succ hk, by rw [hlength]; omega, ?_, ?_, ?_⟩
      · intro j hj hjn
        cases j with
        | zero => exact Nat.zero_le _
        | succ j =>
          rw [hlength] at hjn
          exact Nat.succ_le_succ (hmax j (Nat.le_of_succ_le_succ hj) (by omega))
      · rw [hloop, hcalls, List.take_succ_cons, List.append_assoc]
        rfl
      · rw [hloop, hend, hlength]
        omega
    · -- the file stops before the first record is complete
      have hnone : ∀ j ≤ (r :: rs).length, (written proto ((r :: rs).take j)).length ≤ n → j ≤ 0 := by
        intro j _ hjn
        cases j with
        | zero => exact le_rfl
        | succ j =>
          rw [List.take_succ_cons, written_cons, List.length_append] at hjn
          omega
      rw [List.take_append_of_le_length (by omega)] at hf
      obtain ⟨hcalls, hend⟩ := readLoop_cut calls hr hlen (by omega) hf
      refine ⟨0, Nat.zero_le _, Nat.zero_le n, hnone, ?_, hend.trans eq_comm⟩
      rw [hcalls, List.take_zero, List.append_nil]

end

end

/-- **Trace files replay what was written.**  Let decoding undo encoding, and let the handler take
every record.  Reading the file of any calls, with records below `2 ^ 31` bytes, gives the handler
the records of the calls that did not fail, in order and with their types, without an error.
Reading any beginning of such a file gives it the records that are wholly there, and returns an
error unless the beginning ends with a record. -/
theorem read_written {ChannelState ChannelMessage φ : Type} [ByteFile φ]
    (proto : Proto ChannelState ChannelMessage) (hstate : proto.state.Undoes)
    (hmessage : proto.message.Undoes)
    (handle : List (Record ChannelState ChannelMessage) →
      Record ChannelState ChannelMessage → Option GoString)
    (hhandle : ∀ seen r, handle seen r = none)
    (calls : List (Record ChannelState ChannelMessage))
    (hfit : ∀ r ∈ calls, ∀ data, r.marshal proto = .ok data → data.length < 2 ^ 31) :
    (∀ f : φ, ByteFile.remaining f = written proto calls →
      read proto handle (.ok f) = (recorded proto calls, none)) ∧
    (∀ f : φ, ByteFile.remaining f <+: written proto calls →
      ∃ k ≤ (recorded proto calls).length,
        written proto ((recorded proto calls).take k) <+: ByteFile.remaining f ∧
        (∀ j ≤ (recorded proto calls).length,
          written proto ((recorded proto calls).take j) <+: ByteFile.remaining f → j ≤ k) ∧
        (read proto handle (.ok f)).1 = (recorded proto calls).take k ∧
        ((read proto handle (.ok f)).2 = none ↔ ∃ j ≤ (recorded proto calls).length,
          ByteFile.remaining f = written proto ((recorded proto calls).take j))) := by
  rw [← written_recorded calls]
  have hrs : ∀ r ∈ recorded proto calls, ∃ data, r.marshal proto = .ok data ∧
      data.length < 2 ^ 31 := by
    intro r hr
    obtain ⟨hmem, data, hdata⟩ := marshal_of_mem_recorded hr
    exact ⟨data, hdata, hfit r hmem data hdata⟩
  generalize recorded proto calls = rs at hrs
  refine ⟨fun f hf => ?_, fun f hf => ?_⟩
  · obtain ⟨k, hk, -, hmax, hcalls, hend⟩ := readLoop_take hstate hmessage hhandle rs
      (written proto rs).length f [] hrs le_rfl (by rw [hf, List.take_length])
    have hall : k = rs.length := le_antisymm hk (hmax rs.length le_rfl (by rw [List.take_length]))
    subst hall
    rw [List.take_length] at hcalls hend
    exact Prod.ext hcalls (hend.mpr rfl)
  · obtain ⟨k, hk, hle, hmax, hcalls, hend⟩ := readLoop_take hstate hmessage hhandle rs
      (ByteFile.remaining f).length f [] hrs hf.length_le (List.prefix_iff_eq_take.mp hf)
    -- two beginnings of the same file are compared by their lengths
    have hinitial : ∀ j, (written proto (rs.take j)).length ≤ (ByteFile.remaining f).length →
        written proto (rs.take j) <+: ByteFile.remaining f :=
      fun j hj => List.prefix_of_prefix_length_le (written_take rs j) hf hj
    refine ⟨k, hk, hinitial k hle, fun j hj hpre => hmax j hj hpre.length_le, hcalls, ?_⟩
    refine hend.trans ⟨fun hlen => ⟨k, hk, ((hinitial k hle).eq_of_length hlen).symm⟩, ?_⟩
    rintro ⟨j, hj, hfj⟩
    have hjk : j ≤ k := hmax j hj (by rw [hfj])
    have hmono : (written proto ((rs.take k).take j)).length ≤ (written proto (rs.take k)).length :=
      (written_take _ j).length_le
    rw [List.take_take, Nat.min_eq_left hjk, ← hfj] at hmono
    exact le_antisymm hle hmono

/-- Records that are given by their encodings. -/
def plainProto : Proto Bytes Bytes := ⟨⟨.ok, .ok⟩, ⟨.ok, .ok⟩⟩

/-- A state with a timestamp, a message without anything, and the file of the two cut inside the
second. -/
theorem read_written_cut :
    let calls : List (Record Bytes Bytes) := [.state [8, 5], .message []]
    let f : Bytes := (written plainProto calls).take 15
    f <+: written plainProto calls ∧
      (read plainProto (fun _ _ => none) (.ok (written plainProto calls))) = (calls, none) ∧
      (read plainProto (fun _ _ => none) (.ok f)).2 ≠ none := by
  intro calls f
  have hstate : plainProto.state.Undoes := fun x data h => h.symm
  have hmessage : plainProto.message.Undoes := fun x data h => h.symm
  have hfit : ∀ r ∈ calls, ∀ data, r.marshal plainProto = .ok data → data.length < 2 ^ 31 := by
    intro r hr data hdata
    rcases List.mem_pair.mp hr with rfl | rfl
    · cases hdata; decide
    · cases hdata; decide
  have hpre : f <+: written plainProto calls := List.take_prefix _ _
  obtain ⟨hwhole, hcut⟩ : (∀ f : Bytes, _) ∧ ∀ f : Bytes, _ :=
    read_written plainProto hstate hmessage (fun _ _ => none) (fun _ _ => rfl) calls hfit
  obtain ⟨k, -, -, -, -, hend⟩ := hcut f hpre
  refine ⟨hpre, hwhole _ rfl, fun hnone => ?_⟩
  obtain ⟨j, hj, hfj⟩ := hend.mp hnone
  have hlen := congrArg List.length hfj
  revert hlen
  revert j
  decide

end ZitiChannel.Trace
