import ZitiChannel.CutFrames
import ZitiChannel.HeaderBlock
import ZitiChannel.Lib.Checked

/-!
# Reading with the integers of a machine

The wire model computes with natural numbers and takes slices that are always in range.  The program
computes with `int`, of 32 or of 64 bits, and a slice out of range stops it.  Here the readers are
written once more as the program has them, each slice with its check, and compared with the model.

Reading is safe where `int` has 64 bits.  Where it has 32 bits, one check may wrap: the one for the
fixed part of a header, `i + 8`, if the cursor `i` is within the last eight values of `int`.  A header
block of nearly 2^31 bytes can bring the cursor there.

## Main definitions

* `IntSize`, `IntSize.int` — the widths of `int`, and what an integer wraps to.
* `IntSize.unmarshalHeaders`, `IntSize.unmarshalV2`, `IntSize.readV2`, `IntSize.readHello` — the
  readers with their slices checked.
* `IntSize.CursorFits` — no header starts where the check of its fixed part wraps.

## Main results

* `IntSize.unmarshalHeaders_eq`, `IntSize.unmarshalHeaders_panic` — the header loop, in both cases.
* `IntSize.readV2_eq`, `IntSize.readHello_eq` — **the readers are those of the wire model** as long
  as the cursor fits.
* `IntSize.readers_safe_iff` — **when a slice is out of range.**

The source is `message.go`.
-/

namespace ZitiChannel

open ByteStream ByteSource Repetition

/-- The width of `int`. -/
inductive IntSize
  | bits32
  | bits64
  deriving DecidableEq, Repr

/-- What a reader returns, or why it stops. -/
abbrev Checked (α : Type) := Except (Stop WireError) α

/-- The conversion to `uint64`. -/
def uint64 (x : ℤ) : ℤ := x % 2 ^ 64

def readUint32 (data : Bytes) : Checked UInt32 := uint32At data

def readInt32 (data : Bytes) : Checked Int32 := do
  let v ← uint32At data
  .ok v.toInt32

theorem readInt32_ok {data : Bytes} {v : Int32} (h : readInt32 data = .ok v) : 4 ≤ data.length := by
  simp only [readInt32, bind, Except.bind] at h
  split at h
  · cases h
  · next hv => exact uint32At_ok hv

namespace IntSize

def bits : IntSize → ℕ
  | .bits32 => 32
  | .bits64 => 64

/-- The greatest `int`. -/
def maxInt (w : IntSize) : ℕ := 2 ^ (w.bits - 1) - 1

/-- The `int` that an integer wraps to. -/
def int (w : IntSize) (x : ℤ) : ℤ := x.bmod (2 ^ w.bits)

/-! ### Headers -/

/-- The body of the loop of `unmarshalHeaders`: the header at the cursor `i`, and the next cursor. -/
def headerAt (w : IntSize) (headerData : Bytes) (i : ℤ) : Checked (HeaderEntry × ℤ) :=
  let len : ℤ := headerData.length
  if w.int (i + 8) > len then
    .error (.error (.text s!"short header meta-data ({w.int (i + 8)} >= {len})"))
  else do
    let key ← readInt32 (← sliceAt headerData i (w.int (i + 4)))
    let length ← readUint32 (← sliceAt headerData (w.int (i + 4)) (w.int (i + 8)))
    let stop := uint64 (uint64 i + 8 + length.toNat)
    if stop > uint64 len then .error (.error (.text s!"short header data ({stop} >= {len})"))
    else do
      let data ← sliceAt headerData (w.int (i + 8)) (w.int (w.int (i + 8) + w.int length.toNat))
      .ok (⟨key, data⟩, w.int (i + w.int (8 + w.int length.toNat)))

/-- In the sum of a cursor it does not matter where `int` wraps. -/
theorem int_add_int (w : IntSize) (i n : ℤ) :
    w.int (i + w.int (8 + w.int n)) = w.int (w.int (i + 8) + w.int n) := by
  simp only [int, Int.add_bmod_bmod, Int.bmod_add_bmod, Int.add_assoc]

/-- The cursor moves on: each of the slices starts where the one before it ends. -/
theorem headerAt_lt {w : IntSize} {headerData : Bytes} {i i' : ℤ} {e : HeaderEntry}
    (h : w.headerAt headerData i = .ok (e, i')) : i < i' := by
  simp only [headerAt, bind, Except.bind] at h
  split at h
  · cases h
  split at h
  · cases h
  next hkey =>
  split at h
  · cases h
  next hkey' =>
  split at h
  · cases h
  next hlength =>
  split at h
  · cases h
  split at h
  · cases h
  split at h
  · cases h
  next hdata =>
  cases h
  rw [int_add_int]
  have hfour := readInt32_ok hkey'
  obtain ⟨-, -, -, hsize⟩ := sliceAt_ok hkey
  obtain ⟨-, hle, -⟩ := sliceAt_ok hlength
  obtain ⟨-, hle', -⟩ := sliceAt_ok hdata
  omega

/-- The loop of `unmarshalHeaders`. -/
def unmarshalHeadersLoop (w : IntSize) (headerData : Bytes) (i : ℤ) (out : Headers) :
    Checked Headers :=
  if i < headerData.length then
    match _h : w.headerAt headerData i with
    | .error stop => .error stop
    | .ok (e, i') => unmarshalHeadersLoop w headerData i' (Finmap.insert e.1 e.2 out)
  else .ok out
termination_by (headerData.length - i).toNat
decreasing_by
  have := headerAt_lt _h
  omega

def unmarshalHeaders (w : IntSize) (headerData : Bytes) : Checked Headers :=
  if headerData.length > 0 ∧ headerData.length < 8 then
    .error (.error (.text "truncated header data"))
  else w.unmarshalHeadersLoop headerData 0 ∅

/-! ### Messages -/

/-- What `unmarshalV2` does once it has read the data section. -/
def message (w : IntSize) (messageSectionData dataSectionData : Bytes) (headersLength : UInt32) :
    Checked Message := do
  let magic ← sliceAt messageSectionData 0 magicLength
  if magic ≠ magicV2 then .error (.error (.text "magic mismatch"))
  else do
    let headers ←
      if headersLength > 0 then do
        let headerData ← sliceAt dataSectionData 0 headersLength.toNat
        w.unmarshalHeaders headerData
      else .ok ∅
    let contentType ← readInt32 (← sliceAt messageSectionData 4 8)
    let sequence ← readInt32 (← sliceAt messageSectionData 8 12)
    let body ← sliceAt dataSectionData headersLength.toNat dataSectionData.length
    .ok {
      contentType := contentType
      sequence := sequence
      cachedReplyFor := none
      headers := headers
      body := body }

section

variable {σ : Type} [ByteSource σ]

def unmarshalV2 (w : IntSize) (peer : σ) (messageSectionData : Bytes)
    (headersLength bodyLength : UInt32) : Checked Message × σ :=
  let dataSectionLen := headersLength.toNat + bodyLength.toNat
  if dataSectionLen > maxInt32 then
    (.error (.error (.text
      s!"declared data section of {dataSectionLen} bytes exceeds the maximum of {maxInt32}")), peer)
  else
    match readFull peer dataSectionLen with
    | ⟨_, some err, peer⟩ => (.error (.error (.read err)), peer)
    | ⟨dataSectionData, none, peer⟩ =>
        if dataSectionData.length ≠ dataSectionLen then
          (.error (.error (.text "short read")), peer)
        else if messageSectionData.length < dataSectionV2 then
          (.error (.error (.text "short data stream")), peer)
        else (w.message messageSectionData dataSectionData headersLength, peer)

end

end IntSize

/-- The loop of `readUnknownVersionResponse`. -/
def supportedVersions (supported : List UInt32) (versionsBuf : Bytes) : Checked (List UInt32) :=
  if _hpos : versionsBuf.length > 0 then
    match readUint32 versionsBuf with
    | .error stop => .error stop
    | .ok version =>
        match _h : sliceAt versionsBuf versionLen versionsBuf.length with
        | .error stop => .error stop
        | .ok rest => supportedVersions (supported ++ [version]) rest
  else .ok supported
termination_by versionsBuf.length
decreasing_by
  have hlen := (sliceAt_ok _h).2.2.2
  unfold versionLen at hlen
  omega

section

variable {σ : Type} [ByteSource σ]

/-- Go on with what a check returned, or stop. -/
def orStop {α β : Type} (r : Checked α) (peer : σ) (next : α → Checked β × σ) : Checked β × σ :=
  match r with
  | .error stop => (.error stop, peer)
  | .ok a => next a

/-- The version response with its slices checked. -/
def readUnknownVersionResponseAt (initial : Bytes) (reader : σ) : Checked Message × σ :=
  let response : MultiReader σ := ⟨initial, reader⟩
  match readFull response versionLen with
  | ⟨_, some _, response⟩ => (.error (.error (.text "channel synchronization")), response.next)
  | ⟨countBuf, none, response⟩ =>
      orStop (readUint32 countBuf) response.next fun versionCount =>
      if versionCount.toNat > maxSupportedVersionCount then
        (.error (.error (.text "channel synchronization")), response.next)
      else
        match readFull response (versionCount.toNat * versionLen) with
        | ⟨_, some _, response⟩ =>
            (.error (.error (.text "channel synchronization")), response.next)
        | ⟨versionsBuf, none, response⟩ =>
            orStop (supportedVersions [] versionsBuf) response.next fun supported =>
            (.error (.error (.unsupportedVersion supported)), response.next)

/-- The lengths that a message section declares. -/
def sectionLengths (messageSection : Bytes) : Checked (UInt32 × UInt32) := do
  let headersLength ← readUint32 (← sliceAt messageSection 12 16)
  let bodyLength ← readUint32 (← sliceAt messageSection 16 20)
  .ok (headersLength, bodyLength)

namespace IntSize

/-- The buffer of the message section holds what was read, and zeros. -/
def readV2 (w : IntSize) (peer : σ) : Checked Message × σ :=
  match readAtLeast peer dataSectionV2 magicLength with
  | ⟨_, some err, peer⟩ => (.error (.error (.read err)), peer)
  | ⟨head, none, peer⟩ =>
      let messageSection := head ++ List.replicate (dataSectionV2 - head.length) 0
      orStop (sliceAt messageSection 0 magicLength) peer fun magic =>
      if magic ≠ magicV2 then
        if magic = magicUnknownVersion then
          orStop (sliceAt messageSection magicLength head.length) peer fun initial =>
          readUnknownVersionResponseAt initial peer
        else (.error (.error .badMagicNumber), peer)
      else if head.length < dataSectionV2 then
        orStop (sliceAt messageSection head.length messageSection.length) peer fun rest =>
        match readFull peer rest.length with
        | ⟨_, some err, peer⟩ => (.error (.error (.read err)), peer)
        | ⟨tail, none, peer⟩ =>
            orStop (sectionLengths (head ++ tail)) peer fun (headersLength, bodyLength) =>
            w.unmarshalV2 peer (head ++ tail) headersLength bodyLength
      else
        orStop (sectionLengths messageSection) peer fun (headersLength, bodyLength) =>
        w.unmarshalV2 peer messageSection headersLength bodyLength

def readHelloV2 (w : IntSize) (peer : σ) : Checked Message × σ :=
  let messageSection := magicV2 ++ List.replicate (dataSectionV2 - magicV2.length) 0
  orStop (sliceAt messageSection versionLen messageSection.length) peer fun rest =>
  match readFull peer rest.length with
  | ⟨_, some err, peer⟩ => (.error (.error (.read err)), peer)
  | ⟨tail, none, peer⟩ =>
      if tail.length ≠ dataSectionV2 - versionLen then (.error (.error (.text "short read")), peer)
      else
        orStop (sectionLengths (magicV2 ++ tail)) peer fun (headersLength, bodyLength) =>
        if headersLength > 16384 ∨ bodyLength > 4192 then
          (.error (.error (.text
            s!"hello message too big. header len: {headersLength}, body len: {bodyLength}")), peer)
        else w.unmarshalV2 peer (magicV2 ++ tail) headersLength bodyLength

def readHello (w : IntSize) (peer : σ) : Checked Message × σ :=
  match readFull peer versionLen with
  | ⟨_, some err, peer⟩ => (.error (.error (.read err)), peer)
  | ⟨version, none, peer⟩ =>
      if version.length ≠ versionLen then (.error (.error (.text "short read")), peer)
      else if version = magicV2 then w.readHelloV2 peer
      else (.error (.error .badMagicNumber), peer)

end IntSize

end

/-! ### What `int` can hold -/

namespace IntSize

theorem maxInt32_le_maxInt (w : IntSize) : maxInt32 ≤ w.maxInt := by
  cases w with
  | bits32 => decide
  | bits64 => decide

/-- What `int` can hold does not wrap. -/
theorem int_natCast {w : IntSize} {n : ℕ} (h : n ≤ w.maxInt) : w.int n = n := by
  cases w with
  | bits32 =>
    have : n ≤ 2147483647 := h
    exact Int.bmod_eq_of_le (by simp [bits]) (by simp [bits]; omega)
  | bits64 =>
    have : n ≤ 9223372036854775807 := h
    exact Int.bmod_eq_of_le (by simp [bits]) (by simp [bits]; omega)

/-- What it can just not hold wraps to a negative number. -/
theorem int_bits32_of_gt {n : ℕ} (h : 2147483647 < n) (hlt : n < 4294967296) :
    bits32.int n = n - 4294967296 := by
  have hmod : (n : ℤ) % (2 ^ 32 : ℕ) = n := Int.emod_eq_of_lt (by omega) (by norm_num; omega)
  rw [int, Int.bmod, show bits32.bits = 32 from rfl, hmod]
  norm_num
  omega

theorem uint64_natCast {n : ℕ} (h : n < 2 ^ 64) : uint64 n = n :=
  Int.emod_eq_of_lt (by omega) (by omega)

/-! ### One header -/

variable {w : IntSize} {before b : Bytes}

/-- The header at a cursor that `int` can hold with the eight bytes behind it. -/
theorem headerAt_append (hlen : (before ++ b).length ≤ maxInt32)
    (hfits : before.length + 8 ≤ w.maxInt) :
    w.headerAt (before ++ b) before.length =
      if b.length < 8 then
        .error (.error (.text
          s!"short header meta-data ({before.length + 8} >= {(before ++ b).length})"))
      else if b.length - 8 < (uint32 (b.drop 4)).toNat then
        .error (.error (.text
          s!"short header data ({before.length + 8 + (uint32 (b.drop 4)).toNat} >= {(before ++ b).length})"))
      else .ok (⟨int32 b, (b.drop 8).take (uint32 (b.drop 4)).toNat⟩,
        ((before.length + 8 + (uint32 (b.drop 4)).toNat : ℕ) : ℤ)) := by
  have hmax := w.maxInt32_le_maxInt
  have hfour : w.int ((before.length : ℤ) + 4) = ((before.length + 4 : ℕ) : ℤ) :=
    int_natCast (n := before.length + 4) (by omega)
  have height : w.int ((before.length : ℤ) + 8) = ((before.length + 8 : ℕ) : ℤ) :=
    int_natCast (n := before.length + 8) hfits
  have htotal : (before ++ b).length = before.length + b.length := List.length_append
  rw [headerAt]
  simp only [hfour, height]
  by_cases hshort : b.length < 8
  · rw [if_pos hshort, if_pos (by omega)]
    rfl
  rw [if_neg hshort, if_neg (by omega)]
  have hslice : ∀ lo hi : ℕ, lo ≤ hi → hi ≤ b.length →
      sliceAt (ε := WireError) (before ++ b) ((before.length + lo : ℕ) : ℤ)
        ((before.length + hi : ℕ) : ℤ) = .ok (slice b lo hi) := by
    intro lo hi hle hhi
    rw [sliceAt_of_le (by omega) (by omega), ← slice_append_add before b]
    rfl
  have hkey := hslice 0 4 (by omega) (by omega)
  have hlength := hslice 4 8 (by omega) (by omega)
  have hkey' : readInt32 (slice b 0 4) = .ok (int32 b) := by
    rw [slice, List.drop_zero, readInt32, uint32At_word (by omega)]
    rfl
  have hlength' : readUint32 (slice b 4 8) = .ok (uint32 (b.drop 4)) := by
    have hdrop : slice b 4 8 = (b.drop 4).take 4 := by rw [slice, List.drop_take]
    rw [hdrop, readUint32, uint32At_word (by rw [List.length_drop]; omega)]
  rw [Nat.add_zero] at hkey
  simp only [hkey, hlength, hkey', hlength', bind, Except.bind]
  have hn : (uint32 (b.drop 4)).toNat < 2 ^ 32 := (uint32 (b.drop 4)).toNat_lt
  generalize (uint32 (b.drop 4)).toNat = n at hn ⊢
  have hsmall : maxInt32 < 2 ^ 31 := by decide
  have hstop : uint64 (uint64 before.length + 8 + n) = ((before.length + 8 + n : ℕ) : ℤ) := by
    rw [uint64_natCast (by omega)]
    exact uint64_natCast (n := before.length + 8 + n) (by omega)
  have hlen64 : uint64 (before ++ b).length = (before ++ b).length := uint64_natCast (by omega)
  rw [hstop, hlen64]
  by_cases hvalue : b.length - 8 < n
  · rw [if_pos hvalue, if_pos (by omega)]
    rfl
  rw [if_neg hvalue, if_neg (by omega)]
  have hdata := hslice 8 (8 + n) (by omega) (by omega)
  have hcursor : w.int (((before.length + 8 : ℕ) : ℤ) + w.int n) =
      ((before.length + (8 + n) : ℕ) : ℤ) := by
    rw [int_natCast (n := n) (by omega), ← Nat.cast_add, Nat.add_assoc]
    exact int_natCast (by omega)
  rw [int_add_int, height, hcursor, hdata]
  simp only [slice, List.drop_take, Nat.add_sub_cancel_left, Nat.add_assoc]

/-- At a cursor that is too far, the check of the fixed part wraps, and a slice is out of range. -/
theorem headerAt_panic (hlen : (before ++ b).length ≤ maxInt32) (hb : b ≠ [])
    (hfits : ¬ before.length + 8 ≤ w.maxInt) :
    w.headerAt (before ++ b) before.length = .error .panic := by
  have hpos : 0 < b.length := List.length_pos_iff.mpr hb
  have htotal : (before ++ b).length = before.length + b.length := List.length_append
  have hmax : maxInt32 = 2147483647 := rfl
  cases w with
  | bits64 =>
    have : before.length + 8 ≤ 9223372036854775807 := by omega
    exact absurd this hfits
  | bits32 =>
    have hgt : ¬ before.length + 8 ≤ 2147483647 := hfits
    have height : bits32.int ((before.length : ℤ) + 8) = (before.length : ℤ) + 8 - 4294967296 :=
      int_bits32_of_gt (n := before.length + 8) (by omega) (by omega)
    rw [headerAt]
    simp only [height]
    rw [if_neg (by omega)]
    by_cases hfour : before.length + 4 ≤ (before ++ b).length
    · -- the key is there, and the length field is not
      have hint : bits32.int ((before.length : ℤ) + 4) = ((before.length + 4 : ℕ) : ℤ) :=
        int_natCast (n := before.length + 4) (hfour.trans (hlen.trans (maxInt32_le_maxInt _)))
      have hkey : sliceAt (ε := WireError) (before ++ b) before.length
          ((before.length + 4 : ℕ) : ℤ) = .ok (b.take 4) := by
        rw [sliceAt_of_le (by omega) hfour]
        exact congrArg _ (slice_append_add before b 0 4)
      have hread : readInt32 (b.take 4) = .ok (int32 b) := by
        rw [readInt32, uint32At_word (by omega)]
        rfl
      rw [hint, hkey, sliceAt_of_lt (by omega)]
      simp only [bind, Except.bind, hread]
    · -- not even the key is there
      have hslice : sliceAt (ε := WireError) (before ++ b) before.length
          (bits32.int ((before.length : ℤ) + 4)) = .error .panic := by
        by_cases hwrap : before.length + 4 ≤ 2147483647
        · have hint : bits32.int ((before.length : ℤ) + 4) = ((before.length + 4 : ℕ) : ℤ) :=
            int_natCast (n := before.length + 4) hwrap
          rw [hint]
          exact if_neg fun hin => by omega
        · have hint : bits32.int ((before.length : ℤ) + 4) = (before.length : ℤ) + 4 - 4294967296 :=
            int_bits32_of_gt (n := before.length + 4) (by omega) (by omega)
          rw [hint]
          exact sliceAt_of_lt (by omega)
      rw [hslice]
      rfl

/-! ### The header loop -/

/-- No header behind the cursor starts where the check of its fixed part wraps.  The headers before
it are well formed, or it would not be reached. -/
def FitsBehind (w : IntSize) (before b : Bytes) : Prop :=
  ∀ entries rest, Entries HeaderField b entries rest → rest ≠ [] →
    (before ++ b).length - rest.length + 8 ≤ w.maxInt

/-- No header of the block starts there. -/
def CursorFits (w : IntSize) (headerData : Bytes) : Prop := w.FitsBehind [] headerData

/-- An outcome of the wire model, which does not panic. -/
def unchecked {α : Type} (r : Except WireError α) : Checked α := r.mapError .error

theorem unchecked_ne_panic {α : Type} (r : Except WireError α) : unchecked r ≠ .error .panic := by
  cases r with
  | error err => simp [unchecked, Except.mapError]
  | ok a => simp [unchecked, Except.mapError]

theorem unmarshalHeadersLoop_eq (headerData : Bytes) (i : ℤ) (out : Headers) :
    w.unmarshalHeadersLoop headerData i out =
      if i < headerData.length then
        match w.headerAt headerData i with
        | .error stop => .error stop
        | .ok (e, i') => w.unmarshalHeadersLoop headerData i' (Finmap.insert e.1 e.2 out)
      else .ok out := by
  rw [unmarshalHeadersLoop]
  split
  · split
    · next h => rw [h]
    · next h => rw [h]
  · rfl

/-- What is behind the next cursor. -/
theorem append_header (before : Bytes) {e : HeaderEntry} {rest : Bytes} (h : HeaderField b e rest) :
    ∃ before', before ++ b = before' ++ rest ∧
      before'.length = before.length + 8 + (uint32 (b.drop 4)).toNat := by
  obtain ⟨hlen, hvalue, rfl, rfl⟩ := headerField_iff.mp h
  refine ⟨before ++ b.take (8 + (uint32 (b.drop 4)).toNat), ?_, ?_⟩
  · rw [List.drop_drop, List.append_assoc, List.take_append_drop]
  · rw [List.length_append, List.length_take]
    omega

/-- **The header loop is that of the wire model**, as long as the cursor fits. -/
theorem unmarshalHeadersLoop_append (hlen : (before ++ b).length ≤ maxInt32)
    (hfits : w.FitsBehind before b) (out : Headers) :
    w.unmarshalHeadersLoop (before ++ b) before.length out =
      unchecked (ZitiChannel.unmarshalHeadersLoop (before ++ b) before.length out) := by
  induction hn : b.length using Nat.strong_induction_on generalizing before b out with
  | _ n ih =>
  rw [unmarshalHeadersLoop_eq, ZitiChannel.unmarshalHeadersLoop_append]
  have htotal : (before ++ b).length = before.length + b.length := List.length_append
  by_cases hnil : b = []
  · subst hnil
    simp [unchecked, Except.mapError]
  have hpos : 0 < b.length := List.length_pos_iff.mpr hnil
  have hhere : before.length + 8 ≤ w.maxInt := by
    have := hfits [] b (.nil b) hnil
    omega
  rw [if_pos (by omega), if_neg hnil, headerAt_append hlen hhere]
  by_cases hshort : b.length < 8
  · rw [if_pos hshort, if_pos hshort]
    rfl
  rw [if_neg hshort, if_neg hshort]
  by_cases hvalue : b.length - 8 < (uint32 (b.drop 4)).toNat
  · rw [if_pos hvalue, if_pos hvalue]
    rfl
  rw [if_neg hvalue, if_neg hvalue]
  -- the rest of the loop runs with this header behind the cursor
  have hfield := headerField_iff.mpr ⟨Nat.not_lt.mp hshort, Nat.not_lt.mp hvalue, rfl, rfl⟩
  obtain ⟨before', happend, hcursor⟩ := append_header before hfield
  have hless := hfield.length_eq
  have hfits' : w.FitsBehind before' ((b.drop 8).drop (uint32 (b.drop 4)).toNat) := by
    intro entries rest hentries hrest
    rw [← happend]
    exact hfits _ rest (.cons hfield hentries) hrest
  rw [happend, ← hcursor]
  exact ih _ (by omega) (happend ▸ hlen) hfits' _ rfl

/-- **The header loop panics** once the cursor does not fit. -/
theorem unmarshalHeadersLoop_panic {entries : List HeaderEntry} {rest : Bytes}
    (h : Entries HeaderField b entries rest) (hlen : (before ++ b).length ≤ maxInt32)
    (hrest : rest ≠ []) (hfits : ¬ (before ++ b).length - rest.length + 8 ≤ w.maxInt)
    (out : Headers) : w.unmarshalHeadersLoop (before ++ b) before.length out = .error .panic := by
  induction h generalizing before out with
  | nil b =>
    have hpos : 0 < b.length := List.length_pos_iff.mpr hrest
    rw [List.length_append, Nat.add_sub_cancel] at hfits
    rw [unmarshalHeadersLoop_eq, headerAt_panic hlen hrest hfits,
      if_pos (by rw [List.length_append]; omega)]
  | @cons b b' rest e entries head tail ih =>
    have htotal : (before ++ b).length = before.length + b.length := List.length_append
    obtain ⟨hb, hvalue, he, -⟩ := headerField_iff.mp head
    obtain ⟨before', happend, hcursor⟩ := append_header before head
    rw [unmarshalHeadersLoop_eq, if_pos (by omega)]
    by_cases hhere : before.length + 8 ≤ w.maxInt
    · rw [headerAt_append hlen hhere, if_neg (by omega), if_neg (by omega)]
      dsimp only
      rw [happend, ← hcursor]
      exact ih (happend ▸ hlen) hrest (happend ▸ hfits) _
    · rw [headerAt_panic hlen (List.ne_nil_of_length_pos (by omega)) hhere]

variable {headerData : Bytes}

/-- The whole block, if the cursor fits. -/
theorem unmarshalHeaders_eq (hlen : headerData.length ≤ maxInt32) (hfits : w.CursorFits headerData) :
    w.unmarshalHeaders headerData = unchecked (ZitiChannel.unmarshalHeaders headerData) := by
  rw [unmarshalHeaders, ZitiChannel.unmarshalHeaders]
  split
  · rfl
  · exact @unmarshalHeadersLoop_append w [] headerData hlen hfits ∅

/-- The whole block, if it does not. -/
theorem unmarshalHeaders_panic (hlen : headerData.length ≤ maxInt32)
    (hfits : ¬ w.CursorFits headerData) : w.unmarshalHeaders headerData = .error .panic := by
  simp only [CursorFits, FitsBehind, not_forall] at hfits
  obtain ⟨entries, rest, hentries, hrest, hfits⟩ := hfits
  have hmax := w.maxInt32_le_maxInt
  have hpanic := @unmarshalHeadersLoop_panic w [] headerData _ _ hentries hlen hrest hfits ∅
  rw [unmarshalHeaders, if_neg]
  · exact hpanic
  · have hsmall : 16 ≤ w.maxInt := by
      cases w with
      | bits32 => decide
      | bits64 => decide
    rw [List.nil_append] at hfits
    omega

/-! ### Messages -/

/-- The outcome of a reader of the wire model. -/
def uncheckedRead {σ : Type} (r : Except WireError Message × σ) : Checked Message × σ :=
  (unchecked r.1, r.2)

section

variable {σ : Type} [ByteSource σ] {messageSectionData dataSectionData : Bytes}
  {headersLength bodyLength : UInt32}

theorem readInt32_slice {b : Bytes} {lo : ℕ} (h : lo + 4 ≤ b.length) :
    readInt32 (slice b lo (lo + 4)) = .ok (int32 (slice b lo (lo + 4))) := by
  have hlen : 4 ≤ (slice b lo (lo + 4)).length := by
    rw [slice, List.length_drop, List.length_take]
    omega
  rw [readInt32, uint32At_of_le hlen]
  rfl

theorem sliceAt_eq_slice {b : Bytes} {lo hi : ℕ} (hle : lo ≤ hi) (h : hi ≤ b.length) :
    sliceAt (ε := WireError) b lo hi = .ok (slice b lo hi) :=
  sliceAt_of_le hle h

/-- What `message` does, without the checks of its own slices: none of them fails. -/
theorem message_of_length (hsec : messageSectionData.length = dataSectionV2)
    (hdata : headersLength.toNat ≤ dataSectionData.length) :
    w.message messageSectionData dataSectionData headersLength =
      if slice messageSectionData 0 magicLength ≠ magicV2 then
        .error (.error (.text "magic mismatch"))
      else
        match (if headersLength > 0 then
            w.unmarshalHeaders (slice dataSectionData 0 headersLength.toNat)
          else .ok ∅) with
        | .error err => .error err
        | .ok headers => .ok {
            contentType := int32 (slice messageSectionData 4 8)
            sequence := int32 (slice messageSectionData 8 12)
            cachedReplyFor := none
            headers := headers
            body := dataSectionData.drop headersLength.toNat } := by
  have htwenty : messageSectionData.length = 20 := hsec
  have hmagic : sliceAt (ε := WireError) messageSectionData 0 magicLength =
      .ok (slice messageSectionData 0 magicLength) :=
    sliceAt_take (by rw [hsec]; decide)
  have hcontent : sliceAt (ε := WireError) messageSectionData 4 8 =
      .ok (slice messageSectionData 4 8) := @sliceAt_eq_slice _ 4 8 (by omega) (by omega)
  have hseq : sliceAt (ε := WireError) messageSectionData 8 12 =
      .ok (slice messageSectionData 8 12) := @sliceAt_eq_slice _ 8 12 (by omega) (by omega)
  have hheaders : sliceAt (ε := WireError) dataSectionData 0 headersLength.toNat =
      .ok (slice dataSectionData 0 headersLength.toNat) := sliceAt_take hdata
  have hread : readInt32 (slice messageSectionData 4 8) = .ok (int32 (slice messageSectionData 4 8)) :=
    @readInt32_slice _ 4 (by omega)
  have hread' : readInt32 (slice messageSectionData 8 12) =
      .ok (int32 (slice messageSectionData 8 12)) := @readInt32_slice _ 8 (by omega)
  simp only [message, hmagic, hcontent, hseq, hheaders, hread, hread', sliceAt_drop hdata, bind,
    Except.bind]
  split
  · rfl
  · split
    · split
      · next h => rw [h]
      · next h => rw [h]
    · rfl

theorem unmarshalV2_eq {peer : σ} (hsec : messageSectionData.length = dataSectionV2)
    (hfits : headersLength.toNat + bodyLength.toNat ≤ maxInt32 →
      headersLength.toNat + bodyLength.toNat ≤ (remaining peer).length →
      w.CursorFits ((remaining peer).take headersLength.toNat)) :
    w.unmarshalV2 peer messageSectionData headersLength bodyLength =
      uncheckedRead (ZitiChannel.unmarshalV2 peer messageSectionData headersLength bodyLength) := by
  simp only [unmarshalV2, ZitiChannel.unmarshalV2]
  by_cases hbig : headersLength.toNat + bodyLength.toNat > maxInt32
  · simp only [hbig, if_true]
    rfl
  simp only [hbig, if_false]
  by_cases hshort : (remaining peer).length < headersLength.toNat + bodyLength.toNat
  · obtain ⟨next, -, hread⟩ := readFull_of_lt peer hshort
    simp only [hread]
    rfl
  obtain ⟨next, -, hread⟩ := readFull_of_le peer (Nat.not_lt.mp hshort)
  have htake : ((remaining peer).take (headersLength.toNat + bodyLength.toNat)).length =
      headersLength.toNat + bodyLength.toNat := List.length_take_of_le (Nat.not_lt.mp hshort)
  have hslice : slice ((remaining peer).take (headersLength.toNat + bodyLength.toNat)) 0
      headersLength.toNat = (remaining peer).take headersLength.toNat := by
    rw [slice_take (by omega)]; rfl
  have hblock := hfits (Nat.not_lt.mp hbig) (Nat.not_lt.mp hshort)
  have hlen : ((remaining peer).take headersLength.toNat).length ≤ maxInt32 := by
    rw [List.length_take]
    omega
  have hheaders := unmarshalHeaders_eq hlen hblock
  simp only [hread, htake, ne_eq, not_true_eq_false, if_false, hsec, Nat.lt_irrefl]
  rw [message_of_length hsec (by rw [htake]; omega), hslice, hheaders]
  split
  · rfl
  · by_cases hzero : headersLength > 0
    · simp only [hzero, if_true]
      cases ZitiChannel.unmarshalHeaders ((remaining peer).take headersLength.toNat) with
      | error err => rfl
      | ok headers => rfl
    · simp only [hzero, if_false]
      rfl

theorem unmarshalV2_panic {peer : σ} (hsec : messageSectionData.length = dataSectionV2)
    (hmagic : slice messageSectionData 0 magicLength = magicV2)
    (hbig : headersLength.toNat + bodyLength.toNat ≤ maxInt32)
    (hshort : headersLength.toNat + bodyLength.toNat ≤ (remaining peer).length)
    (hfits : ¬ w.CursorFits ((remaining peer).take headersLength.toNat)) :
    (w.unmarshalV2 peer messageSectionData headersLength bodyLength).1 = .error .panic := by
  obtain ⟨next, -, hread⟩ := readFull_of_le peer hshort
  have htake : ((remaining peer).take (headersLength.toNat + bodyLength.toNat)).length =
      headersLength.toNat + bodyLength.toNat := List.length_take_of_le hshort
  have hslice : slice ((remaining peer).take (headersLength.toNat + bodyLength.toNat)) 0
      headersLength.toNat = (remaining peer).take headersLength.toNat := by
    rw [slice_take (by omega)]; rfl
  have hlen : ((remaining peer).take headersLength.toNat).length ≤ maxInt32 := by
    rw [List.length_take]
    omega
  -- without headers there is no cursor
  have hpos : headersLength > 0 := by
    refine UInt32.lt_iff_toNat_lt.mpr (Nat.pos_of_ne_zero fun hzero => hfits ?_)
    intro entries rest hentries hrest
    rw [show headersLength.toNat = 0 from hzero, List.take_zero] at hentries
    exact absurd (entries_headerField_nil hentries).2 hrest
  simp only [unmarshalV2, Nat.not_lt.mpr hbig, gt_iff_lt, if_false, hread, htake, ne_eq,
    not_true_eq_false, hsec, Nat.lt_irrefl, message_of_length hsec (show headersLength.toNat ≤
      ((remaining peer).take (headersLength.toNat + bodyLength.toNat)).length by rw [htake]; omega),
    hmagic, hslice, unmarshalHeaders_panic hlen hfits, if_pos hpos]

/-! ### Readers -/

/-- The versions in a buffer that holds whole versions. -/
theorem supportedVersions_eq (n : ℕ) : ∀ (supported : List UInt32) (versionsBuf : Bytes),
    versionsBuf.length = n * versionLen →
    supportedVersions supported versionsBuf = .ok (supported ++ decodeVersions versionsBuf) := by
  induction n with
  | zero =>
    intro supported versionsBuf hlen
    rw [List.length_eq_zero_iff.mp (hlen.trans (Nat.zero_mul _)), supportedVersions]
    simp [decodeVersions]
  | succ n ih =>
    intro supported versionsBuf hlen
    rw [Nat.succ_mul] at hlen
    obtain ⟨b₀, b₁, b₂, b₃, rest, rfl⟩ : ∃ b₀ b₁ b₂ b₃ rest,
        versionsBuf = b₀ :: b₁ :: b₂ :: b₃ :: rest := by
      match versionsBuf, hlen with
      | b₀ :: b₁ :: b₂ :: b₃ :: rest, _ => exact ⟨b₀, b₁, b₂, b₃, rest, rfl⟩
      | [], h | [_], h | [_, _], h | [_, _, _], h =>
        unfold versionLen at h
        simp at h
    have hword : readUint32 (b₀ :: b₁ :: b₂ :: b₃ :: rest) = .ok (uint32 [b₀, b₁, b₂, b₃]) := by
      rw [readUint32, uint32At_of_le (by simp)]
      rfl
    have htail : sliceAt (ε := WireError) (b₀ :: b₁ :: b₂ :: b₃ :: rest) versionLen
        (b₀ :: b₁ :: b₂ :: b₃ :: rest).length = .ok rest :=
      sliceAt_drop (by simp [versionLen])
    rw [supportedVersions, dif_pos (by simp)]
    simp only [hword]
    split
    · next h =>
      rw [htail] at h
      cases h
    · next h =>
      rw [htail] at h
      cases h
      rw [ih _ rest (by simp only [List.length_cons, versionLen] at hlen ⊢; omega)]
      simp [decodeVersions]

theorem readUnknownVersionResponseAt_eq (initial : Bytes) (reader : σ) :
    readUnknownVersionResponseAt initial reader =
      (.error (.error (readUnknownVersionResponse initial reader).1),
        (readUnknownVersionResponse initial reader).2) := by
  simp only [readUnknownVersionResponseAt, readUnknownVersionResponse]
  generalize (⟨initial, reader⟩ : MultiReader σ) = response
  by_cases hcount : (remaining response).length < versionLen
  · obtain ⟨next, -, hread⟩ := readFull_of_lt response hcount
    simp only [hread]
  · obtain ⟨next, -, hread⟩ := readFull_of_le response (Nat.not_lt.mp hcount)
    have hword : readUint32 ((remaining response).take versionLen) =
        .ok (uint32 ((remaining response).take versionLen)) :=
      uint32At_of_le (List.length_take_of_le (Nat.not_lt.mp hcount)).ge
    simp only [hread, hword, orStop]
    generalize (uint32 ((remaining response).take versionLen)).toNat = versionCount
    by_cases hmany : versionCount > maxSupportedVersionCount
    · simp only [hmany, if_true]
    · simp only [hmany, if_false]
      by_cases hversions : (remaining next).length < versionCount * versionLen
      · obtain ⟨next', -, hread'⟩ := readFull_of_lt next hversions
        simp only [hread']
      · obtain ⟨next', -, hread'⟩ := readFull_of_le next (Nat.not_lt.mp hversions)
        simp only [hread', supportedVersions_eq versionCount []  _
          (List.length_take_of_le (Nat.not_lt.mp hversions)), List.nil_append]

theorem sectionLengths_eq {messageSection : Bytes} (h : messageSection.length = dataSectionV2) :
    sectionLengths messageSection =
      .ok (uint32 (slice messageSection 12 16), uint32 (slice messageSection 16 20)) := by
  have htwenty : messageSection.length = 20 := h
  have hword : ∀ lo, lo + 4 ≤ messageSection.length →
      readUint32 (slice messageSection lo (lo + 4)) = .ok (uint32 (slice messageSection lo (lo + 4))) := by
    intro lo hlo
    refine uint32At_of_le ?_
    rw [slice, List.length_drop, List.length_take]
    omega
  have hheaders : sliceAt (ε := WireError) messageSection 12 16 = .ok (slice messageSection 12 16) :=
    @sliceAt_eq_slice _ 12 16 (by omega) (by omega)
  have hbody : sliceAt (ε := WireError) messageSection 16 20 = .ok (slice messageSection 16 20) :=
    @sliceAt_eq_slice _ 16 20 (by omega) (by omega)
  simp only [sectionLengths, hheaders, hbody, bind, Except.bind, hword 12 (by omega),
    hword 16 (by omega)]

/-- A short block has no cursor that does not fit. -/
theorem cursorFits_of_le (h : headerData.length ≤ 16384) : w.CursorFits headerData := by
  intro entries rest _ _
  have hmax : 16392 ≤ w.maxInt := by
    cases w with
    | bits32 => decide
    | bits64 => decide
  rw [List.nil_append]
  omega

theorem readHelloV2_eq (w : IntSize) (peer : σ) :
    w.readHelloV2 peer = uncheckedRead (ZitiChannel.readHelloV2 peer) := by
  have hslice : sliceAt (ε := WireError) (magicV2 ++ List.replicate (dataSectionV2 - magicV2.length) 0)
      versionLen (magicV2 ++ List.replicate (dataSectionV2 - magicV2.length) (0 : UInt8)).length =
        .ok (List.replicate (dataSectionV2 - versionLen) 0) := by rfl
  simp only [readHelloV2, ZitiChannel.readHelloV2, hslice, orStop, List.length_replicate]
  rcases readFull peer (dataSectionV2 - versionLen) with ⟨tail, err, peer'⟩
  cases err with
  | some err => rfl
  | none =>
    by_cases htail : tail.length = dataSectionV2 - versionLen
    · have hsec : (magicV2 ++ tail).length = dataSectionV2 := by
        rw [List.length_append, htail]
        rfl
      simp only [htail, ne_eq, not_true_eq_false, if_false, sectionLengths_eq hsec]
      split
      · rfl
      · next hbound =>
        refine unmarshalV2_eq hsec fun _ _ => cursorFits_of_le ?_
        have hle := UInt32.le_iff_toNat_le.mp (UInt32.not_lt.mp (not_or.mp hbound).1)
        exact (List.length_take_le _ _).trans hle
    · simp only [ne_eq, htail, not_false_eq_true, if_true]
      rfl

/-- **`readHello` is that of the wire model**: its bound keeps the cursor small. -/
theorem readHello_eq (w : IntSize) (peer : σ) :
    w.readHello peer = uncheckedRead (ZitiChannel.readHello peer) := by
  simp only [readHello, ZitiChannel.readHello]
  rcases readFull peer versionLen with ⟨version, err, peer'⟩
  cases err with
  | some err => rfl
  | none =>
    by_cases hlen : version.length = versionLen
    · simp only [hlen, ne_eq, not_true_eq_false, if_false]
      split
      · exact readHelloV2_eq w peer'
      · rfl
    · simp only [ne_eq, hlen, not_false_eq_true, if_true]
      rfl

/-- Up to the data section of a frame the two readers do the same. -/
theorem readV2_cases (w : IntSize) (s : σ) :
    (¬ ((remaining s).take magicLength = magicV2 ∧ dataSectionV2 ≤ (remaining s).length) ∧
      w.readV2 s = uncheckedRead (ZitiChannel.readV2 s)) ∨
    ((remaining s).take magicLength = magicV2 ∧ dataSectionV2 ≤ (remaining s).length ∧
      ∃ peer, remaining peer = (remaining s).drop dataSectionV2 ∧
        w.readV2 s = w.unmarshalV2 peer ((remaining s).take dataSectionV2)
          (declaredHeaders (remaining s)) (declaredBody (remaining s)) ∧
        ZitiChannel.readV2 s = ZitiChannel.unmarshalV2 peer ((remaining s).take dataSectionV2)
          (declaredHeaders (remaining s)) (declaredBody (remaining s))) := by
  by_cases hmin : (remaining s).length < magicLength
  · obtain ⟨next, -, hread⟩ :=
      readAtLeast_of_lt s (show magicLength ≤ dataSectionV2 by decide) hmin
    refine .inl ⟨fun h => ?_, by simp only [readV2, ZitiChannel.readV2, hread]; rfl⟩
    exact absurd (h.2.trans_lt hmin) (by decide)
  obtain ⟨k, peer, hk, hk', hkr, hpeer, hread⟩ :=
    readAtLeast_of_le s (show magicLength ≤ dataSectionV2 by decide) (Nat.not_lt.mp hmin)
  have hklen : ((remaining s).take k).length = k := List.length_take_of_le hkr
  have hhead : slice ((remaining s).take k) 0 magicLength = (remaining s).take magicLength := by
    rw [slice_take hk]; rfl
  -- the slices of the buffer
  have hbuf : ((remaining s).take k ++ List.replicate (dataSectionV2 - k) (0 : UInt8)).length =
      dataSectionV2 := by
    rw [List.length_append, hklen, List.length_replicate]
    omega
  have hmagicAt : sliceAt (ε := WireError)
      ((remaining s).take k ++ List.replicate (dataSectionV2 - k) 0) 0 magicLength =
        .ok ((remaining s).take magicLength) := by
    rw [sliceAt_take (by rw [hbuf]; decide), List.take_append_of_le_length (by omega),
      List.take_take, Nat.min_eq_left hk]
  have hinitialAt : sliceAt (ε := WireError)
      ((remaining s).take k ++ List.replicate (dataSectionV2 - k) 0) magicLength k =
        .ok (((remaining s).take k).drop magicLength) := by
    rw [sliceAt_of_le hk (by omega), List.take_append_of_le_length hklen.ge,
      List.take_of_length_le hklen.le]
  have hrestAt : sliceAt (ε := WireError)
      ((remaining s).take k ++ List.replicate (dataSectionV2 - k) 0) k
        ((remaining s).take k ++ List.replicate (dataSectionV2 - k) (0 : UInt8)).length =
        .ok (List.replicate (dataSectionV2 - k) 0) := by
    rw [sliceAt_drop (by omega), List.drop_left' hklen]
  by_cases hmagic : (remaining s).take magicLength = magicV2
  · by_cases hlt : k < dataSectionV2
    · by_cases hsec : (remaining s).length < dataSectionV2
      · -- the stream ends inside the message section
        have htail : (remaining peer).length < dataSectionV2 - k := by
          rw [hpeer, List.length_drop]
          omega
        obtain ⟨next, -, htop⟩ := readFull_of_lt peer htail
        refine .inl ⟨fun h => absurd h.2 (Nat.not_le.mpr hsec), ?_⟩
        simp only [readV2, ZitiChannel.readV2, hread, hklen, hhead, hmagicAt, hrestAt, orStop, ne_eq,
          hmagic, not_true_eq_false, if_false, hlt, if_true, List.length_replicate, htop]
        rfl
      · have htail : dataSectionV2 - k ≤ (remaining peer).length := by
          rw [hpeer, List.length_drop]
          omega
        obtain ⟨next, hnext, htop⟩ := readFull_of_le peer htail
        have hjoin : (remaining s).take k ++ (remaining peer).take (dataSectionV2 - k) =
            (remaining s).take dataSectionV2 := by
          rw [hpeer, ← List.take_add, Nat.add_sub_cancel' hk']
        have hlen := List.length_take_of_le (Nat.not_lt.mp hsec)
        refine .inr ⟨hmagic, Nat.not_lt.mp hsec, next, ?_, ?_, ?_⟩
        · rw [hnext, hpeer, List.drop_drop, Nat.add_sub_cancel' hk']
        · simp only [readV2, hread, hklen, hmagicAt, hrestAt, orStop, ne_eq, hmagic,
            not_true_eq_false, if_false, hlt, if_true, List.length_replicate, htop, hjoin,
            sectionLengths_eq hlen]
          rw [← declaredHeaders, ← declaredBody, declaredHeaders_take, declaredBody_take]
        · simp only [ZitiChannel.readV2, hread, hklen, hhead, ne_eq, hmagic, not_true_eq_false,
            if_false, hlt, if_true, htop, hjoin]
          rw [← declaredHeaders, ← declaredBody, declaredHeaders_take, declaredBody_take]
    · -- the first read took the whole message section
      obtain rfl : k = dataSectionV2 := by omega
      rw [Nat.sub_self, List.replicate_zero, List.append_nil] at hmagicAt
      refine .inr ⟨hmagic, hkr, peer, hpeer, ?_, ?_⟩
      · simp only [readV2, hread, hklen, hmagicAt, orStop, ne_eq, hmagic, not_true_eq_false,
          if_false, Nat.lt_irrefl, Nat.sub_self, List.replicate_zero, List.append_nil,
          sectionLengths_eq hklen]
        rw [← declaredHeaders, ← declaredBody, declaredHeaders_take, declaredBody_take]
      · simp only [ZitiChannel.readV2, hread, hklen, hhead, ne_eq, hmagic, not_true_eq_false,
          if_false, Nat.lt_irrefl, List.append_nil]
        rw [← declaredHeaders, ← declaredBody, declaredHeaders_take, declaredBody_take]
  · refine .inl ⟨fun h => hmagic h.1, ?_⟩
    simp only [readV2, ZitiChannel.readV2, hread, hklen, hhead, hmagicAt, hinitialAt, orStop, ne_eq,
      hmagic, not_false_eq_true, if_true]
    split
    · rw [readUnknownVersionResponseAt_eq]
      rfl
    · rfl

/-- The stream starts with a whole frame that is not too large, and in its header block a header
starts where the check of its fixed part wraps. -/
def Overflows (w : IntSize) (b : Bytes) : Prop :=
  b.take magicLength = magicV2 ∧ frameLength b ≤ b.length ∧ declaredData b ≤ maxInt32 ∧
    ¬ w.CursorFits ((b.drop dataSectionV2).take (declaredHeaders b).toNat)

/-- **`readV2` is that of the wire model**, as long as the cursor fits. -/
theorem readV2_eq {s : σ} (h : ¬ w.Overflows (remaining s)) :
    w.readV2 s = uncheckedRead (ZitiChannel.readV2 s) := by
  obtain ⟨-, heq⟩ | ⟨hmagic, hlen, peer, hpeer, hread, hread'⟩ := readV2_cases w s
  · exact heq
  · rw [hread, hread']
    refine unmarshalV2_eq (List.length_take_of_le hlen) fun hbig hshort => ?_
    rw [hpeer] at hshort ⊢
    by_contra hfits
    refine h ⟨hmagic, ?_, hbig, hfits⟩
    rw [List.length_drop] at hshort
    unfold frameLength
    omega

/-- And it panics otherwise. -/
theorem readV2_panic {s : σ} (h : w.Overflows (remaining s)) : (w.readV2 s).1 = .error .panic := by
  obtain ⟨hmagic, hframe, hbig, hfits⟩ := h
  unfold frameLength at hframe
  obtain ⟨hnot, -⟩ | ⟨-, hlen, peer, hpeer, hread, -⟩ := readV2_cases w s
  · exact absurd ⟨hmagic, by omega⟩ hnot
  · rw [hread]
    refine unmarshalV2_panic (List.length_take_of_le hlen) ?_ hbig ?_ (by rwa [hpeer])
    · rw [slice_take (by decide)]
      exact hmagic
    · rw [hpeer, List.length_drop]
      omega

/-- In 64 bits every cursor fits. -/
theorem cursorFits_bits64 (h : headerData.length ≤ maxInt32) : bits64.CursorFits headerData := by
  intro entries rest _ _
  have hmax : maxInt32 + 8 ≤ bits64.maxInt := by decide
  rw [List.nil_append]
  omega

/-- **When a slice is out of range**, for every stream and both widths: a hello never takes one, and
a message or a header block exactly if a header starts where the check of its fixed part wraps.
With 64 bits it never does. -/
theorem readers_safe_iff (w : IntSize) (s : σ) :
    ((w.readV2 s).1 ≠ .error .panic ↔ ¬ w.Overflows (remaining s)) ∧
    (w.readHello s).1 ≠ .error .panic ∧
    (∀ headerData : Bytes, headerData.length ≤ maxInt32 →
      (w.unmarshalHeaders headerData ≠ .error .panic ↔ w.CursorFits headerData)) ∧
    (w = .bits64 → ¬ w.Overflows (remaining s) ∧
      ∀ headerData : Bytes, headerData.length ≤ maxInt32 → w.CursorFits headerData) := by
  refine ⟨⟨fun h hover => h (readV2_panic hover), fun h => ?_⟩, ?_, fun headerData hlen => ⟨?_, ?_⟩, ?_⟩
  · rw [readV2_eq h]
    exact unchecked_ne_panic _
  · rw [readHello_eq]
    exact unchecked_ne_panic _
  · intro h
    by_contra hfits
    exact h (unmarshalHeaders_panic hlen hfits)
  · intro hfits
    rw [unmarshalHeaders_eq hlen hfits]
    exact unchecked_ne_panic _
  · rintro rfl
    refine ⟨?_, fun headerData => cursorFits_bits64⟩
    rintro ⟨-, -, hbig, hfits⟩
    refine hfits (cursorFits_bits64 ?_)
    unfold declaredData at hbig
    exact (List.length_take_le _ _).trans (by omega)

end

/-- One header whose value has 2^31 - 10 bytes, and one byte behind it. -/
def farHeaders (value : Bytes) : Bytes :=
  putInt32 7 ++ (putUint32 (UInt32.ofNat (2 ^ 31 - 10)) ++ (value ++ [0]))

/-- The frame with these headers, and no body. -/
def farFrame (value : Bytes) : Bytes :=
  messageSection 0 0 (Int32.ofNat (2 ^ 31 - 1)) (Int32.ofNat 0) ++ farHeaders value

theorem farFrame_overflows {value : Bytes} (hvalue : value.length = 2 ^ 31 - 10) :
    bits32.Overflows (farFrame value) := by
  have hfar : (farHeaders value).length = 2 ^ 31 - 1 := by
    simp only [farHeaders, List.length_append, length_putInt32, length_putUint32, hvalue,
      List.length_singleton]
    omega
  have hsec : (messageSection 0 0 (Int32.ofNat (2 ^ 31 - 1)) (Int32.ofNat 0)).length =
      dataSectionV2 := length_messageSection _ _ _ _
  have htake : (farFrame value).take dataSectionV2 =
      messageSection 0 0 (Int32.ofNat (2 ^ 31 - 1)) (Int32.ofNat 0) := List.take_left' hsec
  have hdrop : (farFrame value).drop dataSectionV2 = farHeaders value := List.drop_left' hsec
  have hheaders : (declaredHeaders (farFrame value)).toNat = 2 ^ 31 - 1 := by
    rw [← declaredHeaders_take, htake, declaredHeaders, slice_messageSection_headersLength]
    exact toNat_uint32_putInt32_ofNat (by decide)
  have hbody : (declaredBody (farFrame value)).toNat = 0 := by
    rw [← declaredBody_take, htake, declaredBody, slice_messageSection_bodyLength]
    exact toNat_uint32_putInt32_ofNat (by decide)
  refine ⟨?_, ?_, ?_, ?_⟩
  · have hmagic := slice_messageSection_magic 0 0 (Int32.ofNat (2 ^ 31 - 1)) (Int32.ofNat 0)
    rw [← htake, slice_take (by decide)] at hmagic
    exact hmagic
  · rw [frameLength, hheaders, hbody, farFrame, List.length_append, hsec, hfar, Nat.add_zero]
  · rw [declaredData, hheaders, hbody]
    decide
  · rw [hdrop, hheaders, List.take_of_length_le hfar.le]
    -- the cursor behind the header
    have hfield : HeaderField (farHeaders value) ⟨7, value⟩ [0] := by
      refine ⟨putInt32 7, putUint32 (UInt32.ofNat (2 ^ 31 - 10)), length_putInt32 7,
        length_putUint32 _, (int32_putInt32 7).symm, ?_, rfl⟩
      rw [uint32_putUint32, hvalue]
      rfl
    intro hfits
    have hcursor := hfits [⟨7, value⟩] [0] (.cons hfield (.nil _)) (by simp)
    rw [List.nil_append, hfar] at hcursor
    exact absurd hcursor (by decide)

/-- With 32 bits, reading this frame takes a slice out of range. -/
theorem readV2_farFrame :
    (bits32.readV2 (⟨farFrame (List.replicate (2 ^ 31 - 10) 0), fun _ => (20, false)⟩ : Chopped)).1 =
      .error .panic :=
  readV2_panic (farFrame_overflows List.length_replicate)

end IntSize

end ZitiChannel
