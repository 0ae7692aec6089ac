import ZitiChannel.Lib.Checked
import ZitiChannel.Lib.Entries
import ZitiChannel.Lib.Ranging
import ZitiChannel.Message

/-!
# Collections as header values

A header value may hold a collection: a list of strings, a map from 32-bit words to bytes, or a map
from strings to strings.  It is encoded as the number of entries and the entries, each with its
lengths.  The encoders size a buffer in one loop and write it in another.  The decoders take at most
128 entries, with strings and values of at most 8192 bytes, and ignore what follows them.

The decoders compare a length with the number of bytes left after converting that number to 32 bits.
For a byte string of four gigabytes this is not the number of bytes left.

## Main definitions

* `decodeStringSlice`, `decodeU32ToBytesMap`, `decodeStringToStringMap` — the decoders.
* `StringEntry`, `BytesEntry`, `PairEntry`, `Collection` — the grammar.
* `AcceptsExactly` — a decoder takes what is in the grammar, and returns what is in it.

## Main results

* `decodeString_reads`, `decodeBytesEntry_reads`, `decodePair_reads` — what is taken for one entry.
* `decodeCollection_ok_iff` — what is taken for a collection.
* `headerDecoders_accept_iff` — **the decoders accept their grammar** exactly if the 32-bit counts
  are large enough.

The source is `message.go`.
-/

namespace ZitiChannel

open ByteStream Repetition

/-! ### Decoding -/

/-- What a decoder returns, or why it stops. -/
abbrev Decoded (α : Type) := Except (Stop String) α

/-- A string at the start of `b`, and the bytes behind it. -/
def decodeString (t : String) (b : Bytes) : Decoded (GoString × Bytes) :=
  if b.length < 4 then
    .error (.error s!"invalid string in {t}, not enough bytes for string length")
  else do
    let sl ← uint32At (← sliceAt b 0 4)
    if sl > 8192 then .error (.error s!"strings in {t} may have max length 8192")
    else do
      let b ← sliceAt b 4 b.length
      if sl > UInt32.ofNat b.length then
        .error (.error s!"invalid string length in {t}, longer than remaining data")
      else do
        let s ← sliceAt b 0 sl.toNat
        let b ← sliceAt b sl.toNat b.length
        .ok (s, b)

/-- An entry of a map from strings to strings. -/
def decodePair (b : Bytes) : Decoded ((Sigma fun _ : GoString => GoString) × Bytes) := do
  let (key, b) ← decodeString "string->string map" b
  let (val, b) ← decodeString "string->string map" b
  .ok (⟨key, val⟩, b)

/-- An entry of a map from words to bytes.  A slice without bytes is `nil`. -/
def decodeBytesEntry (b : Bytes) : Decoded ((Sigma fun _ : UInt32 => Option Bytes) × Bytes) :=
  if b.length < 4 then
    .error (.error "invalid uint32->bytes map, not enough bytes for key")
  else do
    let key ← uint32At (← sliceAt b 0 4)
    let b ← sliceAt b 4 b.length
    if b.length < 4 then
      .error (.error "invalid uint32->bytes map, not enough bytes for entry length")
    else do
      let entryLen ← uint32At (← sliceAt b 0 4)
      if entryLen > 8192 then
        .error (.error "entries in uint32->bytes map may have max length 8192")
      else do
        let b ← sliceAt b 4 b.length
        if entryLen > UInt32.ofNat b.length then
          .error (.error "invalid uint32->bytes map entry length, longer than remaining data")
        else if entryLen = 0 then .ok (⟨key, none⟩, b)
        else do
          let value ← sliceAt b 0 entryLen.toNat
          let b ← sliceAt b entryLen.toNat b.length
          .ok (⟨key, some value⟩, b)

/-- The number of entries and the entries, each stored into what `start` is.  No bytes are
decoded to `nil`. -/
def decodeCollection {α γ : Type} (tooShort tooMany : String) (nil start : γ)
    (entry : Bytes → Decoded (α × Bytes)) (store : γ → α → γ) (b : Bytes) : Decoded γ :=
  if b.length = 0 then .ok nil
  else if b.length < 4 then .error (.error tooShort)
  else do
    let l ← uint32At (← sliceAt b 0 4)
    if l > 128 then .error (.error tooMany)
    else do
      let b ← sliceAt b 4 b.length
      readTimes entry store l.toNat b start

/-- Append to a slice that may be `nil`. -/
def appendTo {α : Type} (slice : Option (List α)) (a : α) : Option (List α) :=
  some (slice.getD [] ++ [a])

def decodeStringSlice : Bytes → Decoded (Option (List GoString)) :=
  decodeCollection "invalid string slice, not enough bytes for slice length"
    "string slice may have at most 128 entries" none none (decodeString "string slice") appendTo

/-- Store into a map that is not `nil`. -/
def storeTo {κ ν : Type} [DecidableEq κ] (m : Option (Finmap fun _ : κ => ν))
    (e : Sigma fun _ : κ => ν) : Option (Finmap fun _ : κ => ν) :=
  m.map (Finmap.insert e.1 e.2)

def decodeU32ToBytesMap : Bytes → Decoded (Option (Finmap fun _ : UInt32 => Option Bytes)) :=
  decodeCollection "invalid uint32->bytes map, not enough bytes for map length"
    "uint32->bytes map may have at most 128 entries" none (some ∅) decodeBytesEntry storeTo

def decodeStringToStringMap : Bytes → Decoded (Option (Finmap fun _ : GoString => GoString)) :=
  decodeCollection "invalid string->string map, not enough bytes for map length"
    "string->string map may have at most 128 entries" none (some ∅) decodePair storeTo

/-! ### The grammar -/

section

variable (count : ℕ → ℕ)

/-- A length field, and as many bytes.  `count` is how the bytes that are left are counted. -/
def StringEntry (b : Bytes) (s : GoString) (rest : Bytes) : Prop :=
  ∃ len : Bytes, len.length = 4 ∧ (uint32 len).toNat = s.length ∧ s.length ≤ 8192 ∧
    s.length ≤ count (s ++ rest).length ∧ b = len ++ (s ++ rest)

/-- Two strings. -/
def PairEntry (b : Bytes) (e : Sigma fun _ : GoString => GoString) (rest : Bytes) : Prop :=
  ∃ mid, StringEntry count b e.1 mid ∧ StringEntry count mid e.2 rest

/-- The bytes of a slice that may be `nil`. -/
def bytesOf (v : Option Bytes) : Bytes := v.getD []

/-- A slice as it is decoded: `nil` if it has no bytes. -/
def nilIfEmpty (v : Bytes) : Option Bytes := if v = [] then none else some v

/-- A word, a length field, and as many bytes. -/
def BytesEntry (b : Bytes) (e : Sigma fun _ : UInt32 => Option Bytes) (rest : Bytes) : Prop :=
  ∃ (key mid value : Bytes), key.length = 4 ∧ e = ⟨uint32 key, nilIfEmpty value⟩ ∧
    b = key ++ mid ∧ StringEntry count mid value rest

end

/-- No bytes; or the number of entries, at most 128, the entries, and anything. -/
def Collection {α : Type} (R : Bytes → α → Bytes → Prop) (b : Bytes) (as : List α) : Prop :=
  (b = [] ∧ as = []) ∨
    ∃ n rest tail : Bytes, n.length = 4 ∧ (uint32 n).toNat = as.length ∧ as.length ≤ 128 ∧
      b = n ++ rest ∧ Entries R rest as tail

/-! ### One entry -/

section

variable {count : ℕ → ℕ} {b s rest : Bytes}

/-- The length field decides what the string is, and what follows it. -/
theorem stringEntry_iff :
    StringEntry count b s rest ↔
      4 ≤ b.length ∧ (uint32 b).toNat ≤ 8192 ∧ (uint32 b).toNat ≤ count (b.length - 4) ∧
        (uint32 b).toNat ≤ b.length - 4 ∧ s = (b.drop 4).take (uint32 b).toNat ∧
        rest = (b.drop 4).drop (uint32 b).toNat := by
  constructor
  · rintro ⟨len, hlen, hword, hmax, hcount, rfl⟩
    have hdrop : (len ++ (s ++ rest)).drop 4 = s ++ rest := by rw [← hlen, List.drop_left]
    have hleft : (len ++ (s ++ rest)).length - 4 = (s ++ rest).length := by
      rw [List.length_append, hlen, Nat.add_sub_cancel_left]
    rw [uint32_append hlen, hword, hdrop, hleft, List.take_left, List.drop_left]
    refine ⟨?_, hmax, hcount, ?_, rfl, rfl⟩
    · rw [List.length_append, hlen]; omega
    · rw [List.length_append]; omega
  · rintro ⟨hlen, hmax, hcount, hleft, hs, hrest⟩
    have hsrest : s ++ rest = b.drop 4 := by rw [hs, hrest, List.take_append_drop]
    have hslen : s.length = (uint32 b).toNat := by
      rw [hs, List.length_take, List.length_drop]; omega
    refine ⟨b.take 4, ?_, ?_, ?_, ?_, ?_⟩
    · rw [List.length_take]; omega
    · rw [uint32_take, hslen]
    · rw [hslen]; exact hmax
    · rw [hslen, hsrest, List.length_drop]; exact hcount
    · rw [hsrest, List.take_append_drop]

/-- How `decodeString` counts the bytes that are left. -/
def narrow (n : ℕ) : ℕ := n % 2 ^ 32

theorem narrow_le (n : ℕ) : narrow n ≤ n := Nat.mod_le _ _

theorem lt_ofNat_iff (v : UInt32) (n : ℕ) : v > UInt32.ofNat n ↔ narrow n < v.toNat := by
  rw [gt_iff_lt, UInt32.lt_iff_toNat_lt, UInt32.toNat_ofNat']
  rfl

/-- What `decodeString` does, without the checks of its slices: none of them fails. -/
theorem decodeString_eq (t : String) (h : 4 ≤ b.length) :
    decodeString t b =
      if 8192 < (uint32 b).toNat then
        .error (.error s!"strings in {t} may have max length 8192")
      else if narrow (b.length - 4) < (uint32 b).toNat then
        .error (.error s!"invalid string length in {t}, longer than remaining data")
      else .ok ((b.drop 4).take (uint32 b).toNat, (b.drop 4).drop (uint32 b).toNat) := by
  have hmax : uint32 b > 8192 ↔ 8192 < (uint32 b).toNat := UInt32.lt_iff_toNat_lt
  simp only [decodeString, Nat.not_lt.mpr h, if_false, sliceAt_word h, sliceAt_behind_word h,
    uint32At_word h, bind, Except.bind, hmax, lt_ofNat_iff, List.length_drop]
  split
  · rfl
  · split
    · rfl
    · next hcount =>
      have hleft : (uint32 b).toNat ≤ (b.drop 4).length := by
        have := narrow_le (b.length - 4)
        rw [List.length_drop]
        omega
      rw [← List.length_drop, sliceAt_take hleft, sliceAt_drop hleft]

/-- **`decodeString` takes a string exactly where there is one**, counting the bytes that are left
in 32 bits. -/
theorem decodeString_reads (t : String) : Reads (decodeString t) (StringEntry narrow) := by
  intro b s rest
  rw [stringEntry_iff]
  by_cases hlen : 4 ≤ b.length
  · have hnarrow := narrow_le (b.length - 4)
    rw [decodeString_eq t hlen]
    split
    · next hmax => simp [Nat.not_le.mpr hmax]
    · next hmax =>
      split
      · next hcount => simp [Nat.not_le.mpr hcount]
      · next hcount =>
        simp only [Except.ok.injEq, Prod.mk.injEq, hlen, Nat.not_lt.mp hmax, Nat.not_lt.mp hcount,
          (Nat.not_lt.mp hcount).trans hnarrow, true_and]
        constructor
        · rintro ⟨rfl, rfl⟩; exact ⟨rfl, rfl⟩
        · rintro ⟨rfl, rfl⟩; exact ⟨rfl, rfl⟩
  · simp [decodeString, Nat.not_le.mp hlen, hlen]

theorem decodeString_error {t : String} {err : Stop String} (h : decodeString t b = .error err) :
    err ≠ .panic := by
  by_cases hlen : 4 ≤ b.length
  · rw [decodeString_eq t hlen] at h
    split at h
    · cases h; simp
    · split at h
      · cases h; simp
      · cases h
  · simp only [decodeString, Nat.not_le.mp hlen, if_true] at h
    cases h
    simp

theorem decodePair_reads : Reads decodePair (PairEntry narrow) := by
  intro b e rest
  have hstring := decodeString_reads "string->string map"
  simp only [decodePair, bind, Except.bind]
  constructor
  · intro h
    split at h
    · cases h
    · next r hkey =>
      obtain ⟨key, mid⟩ := r
      dsimp only at h
      split at h
      · cases h
      · next r hval =>
        cases h
        exact ⟨mid, (hstring _ _ _).mp hkey, (hstring _ _ _).mp hval⟩
  · rintro ⟨mid, hkey, hval⟩
    rw [(hstring _ _ _).mpr hkey]
    dsimp only
    rw [(hstring _ _ _).mpr hval]

theorem decodePair_error {err : Stop String} (h : decodePair b = .error err) : err ≠ .panic := by
  simp only [decodePair, bind, Except.bind] at h
  split at h
  · next herr =>
    cases h
    exact decodeString_error herr
  · next r hkey =>
    obtain ⟨key, mid⟩ := r
    dsimp only at h
    split at h
    · next herr =>
      cases h
      exact decodeString_error herr
    · cases h

/-- What is decoded behind the key of an entry: `decodeString`, with other texts. -/
theorem decodeBytesEntry_eq (h : 4 ≤ b.length) :
    decodeBytesEntry b =
      if (b.drop 4).length < 4 then
        .error (.error "invalid uint32->bytes map, not enough bytes for entry length")
      else if 8192 < (uint32 (b.drop 4)).toNat then
        .error (.error "entries in uint32->bytes map may have max length 8192")
      else if narrow ((b.drop 4).length - 4) < (uint32 (b.drop 4)).toNat then
        .error (.error "invalid uint32->bytes map entry length, longer than remaining data")
      else
        .ok (⟨uint32 b, nilIfEmpty (((b.drop 4).drop 4).take (uint32 (b.drop 4)).toNat)⟩,
          ((b.drop 4).drop 4).drop (uint32 (b.drop 4)).toNat) := by
  simp only [decodeBytesEntry, Nat.not_lt.mpr h, if_false, sliceAt_word h, sliceAt_behind_word h,
    uint32At_word h, bind, Except.bind]
  generalize b.drop 4 = mid
  split
  · rfl
  · next hmid =>
    have hmid' := Nat.not_lt.mp hmid
    have hmax : uint32 mid > 8192 ↔ 8192 < (uint32 mid).toNat := UInt32.lt_iff_toNat_lt
    simp only [sliceAt_word hmid', sliceAt_behind_word hmid', uint32At_word hmid', hmax,
      lt_ofNat_iff, List.length_drop]
    split
    · rfl
    · split
      · rfl
      · next hcount =>
        have hleft : (uint32 mid).toNat ≤ (mid.drop 4).length := by
          have := narrow_le (mid.length - 4)
          rw [List.length_drop]
          omega
        rw [← List.length_drop, sliceAt_take hleft, sliceAt_drop hleft]
        have hlen : ((mid.drop 4).take (uint32 mid).toNat).length = (uint32 mid).toNat :=
          List.length_take_of_le hleft
        split
        · -- an entry without bytes leaves the rest as it is
          next hzero =>
          rw [hzero]
          rfl
        · next hzero =>
          have hne : (mid.drop 4).take (uint32 mid).toNat ≠ [] := by
            intro hnil
            rw [hnil, List.length_nil] at hlen
            exact hzero (UInt32.toNat_inj.mp hlen.symm)
          simp only [nilIfEmpty, hne, if_false]

theorem decodeBytesEntry_reads : Reads decodeBytesEntry (BytesEntry narrow) := by
  intro b e rest
  by_cases hlen : 4 ≤ b.length
  · have hentry : BytesEntry narrow b e rest ↔
        ∃ value, e = ⟨uint32 b, nilIfEmpty value⟩ ∧ StringEntry narrow (b.drop 4) value rest := by
      constructor
      · rintro ⟨key, mid, value, hkey, rfl, rfl, hvalue⟩
        refine ⟨value, by rw [uint32_append hkey], ?_⟩
        rwa [← hkey, List.drop_left]
      · rintro ⟨value, rfl, hvalue⟩
        exact ⟨b.take 4, b.drop 4, value, List.length_take_of_le hlen, by rw [uint32_take],
          (List.take_append_drop 4 b).symm, hvalue⟩
    rw [decodeBytesEntry_eq hlen, hentry]
    generalize b.drop 4 = mid
    simp only [stringEntry_iff]
    have hnarrow := narrow_le (mid.length - 4)
    split
    · next hmid => simp [Nat.not_le.mpr hmid]
    · next hmid =>
      split
      · next hmax => simp [Nat.not_le.mpr hmax]
      · next hmax =>
        split
        · next hcount => simp [Nat.not_le.mpr hcount]
        · next hcount =>
          simp only [Except.ok.injEq, Prod.mk.injEq, Nat.not_lt.mp hmid, Nat.not_lt.mp hmax,
            Nat.not_lt.mp hcount, (Nat.not_lt.mp hcount).trans hnarrow, true_and]
          constructor
          · rintro ⟨rfl, rfl⟩; exact ⟨_, rfl, rfl, rfl⟩
          · rintro ⟨value, rfl, rfl, rfl⟩; exact ⟨rfl, rfl⟩
  · have hnot : ¬ BytesEntry narrow b e rest := by
      rintro ⟨key, mid, value, hkey, -, rfl, -⟩
      rw [List.length_append, hkey] at hlen
      omega
    simp [decodeBytesEntry, Nat.not_le.mp hlen, hnot]

theorem decodeBytesEntry_error {err : Stop String} (h : decodeBytesEntry b = .error err) :
    err ≠ .panic := by
  by_cases hlen : 4 ≤ b.length
  · rw [decodeBytesEntry_eq hlen] at h
    split at h
    · cases h; simp
    · split at h
      · cases h; simp
      · split at h
        · cases h; simp
        · cases h
  · simp only [decodeBytesEntry, Nat.not_le.mp hlen, if_true] at h
    cases h
    simp

end

/-! ### Collections -/

section

variable {α γ : Type} {tooShort tooMany : String} {nil start : γ}
  {entry : Bytes → Decoded (α × Bytes)} {store : γ → α → γ} {b : Bytes}

/-- What a decoder makes of the entries in `b`. -/
def collected (nil start : γ) (store : γ → α → γ) (b : Bytes) (as : List α) : γ :=
  if b = [] then nil else as.foldl store start

/-- What `decodeCollection` does, without the checks of its slices: none of them fails. -/
theorem decodeCollection_eq (h : 4 ≤ b.length) :
    decodeCollection tooShort tooMany nil start entry store b =
      if 128 < (uint32 b).toNat then .error (.error tooMany)
      else readTimes entry store (uint32 b).toNat (b.drop 4) start := by
  have hmax : uint32 b > 128 ↔ 128 < (uint32 b).toNat := UInt32.lt_iff_toNat_lt
  simp only [decodeCollection, show b.length ≠ 0 by omega, Nat.not_lt.mpr h, if_false,
    sliceAt_word h, sliceAt_behind_word h, uint32At_word h, hmax, bind, Except.bind]

theorem collection_iff {R : Bytes → α → Bytes → Prop} {as : List α} (hnil : b ≠ []) :
    Collection R b as ↔ 4 ≤ b.length ∧ (uint32 b).toNat = as.length ∧ as.length ≤ 128 ∧
      ∃ tail, Entries R (b.drop 4) as tail := by
  constructor
  · rintro (⟨h, -⟩ | ⟨n, rest, tail, hn, hcount, hmax, rfl, hentries⟩)
    · exact absurd h hnil
    · refine ⟨by rw [List.length_append]; omega, by rw [uint32_append hn, hcount], hmax, tail, ?_⟩
      rwa [← hn, List.drop_left]
  · rintro ⟨hlen, hcount, hmax, tail, hentries⟩
    exact Or.inr ⟨b.take 4, b.drop 4, tail, List.length_take_of_le hlen,
      by rw [uint32_take, hcount], hmax, (List.take_append_drop 4 b).symm, hentries⟩

/-- **A collection is decoded exactly if it is in the grammar of its entries.** -/
theorem decodeCollection_ok_iff {R : Bytes → α → Bytes → Prop} (hentry : Reads entry R)
    (result : γ) :
    decodeCollection tooShort tooMany nil start entry store b = .ok result ↔
      ∃ as, Collection R b as ∧ result = collected nil start store b as := by
  by_cases hnil : b = []
  · subst hnil
    simp only [decodeCollection, List.length_nil, if_true, collected, Except.ok.injEq]
    constructor
    · rintro rfl
      exact ⟨[], Or.inl ⟨rfl, rfl⟩, rfl⟩
    · rintro ⟨-, -, rfl⟩
      rfl
  · simp only [collection_iff hnil, collected, if_neg hnil]
    by_cases hlen : 4 ≤ b.length
    · rw [decodeCollection_eq hlen]
      split
      · next hmax =>
        simp only [reduceCtorEq, false_iff, not_exists, not_and]
        rintro as ⟨-, hcount, hle, -⟩
        omega
      · next hmax =>
        rw [readTimes_ok_iff hentry]
        constructor
        · rintro ⟨as, rest, hcount, hentries, rfl⟩
          exact ⟨as, ⟨hlen, hcount.symm, by omega, rest, hentries⟩, rfl⟩
        · rintro ⟨as, ⟨-, hcount, -, rest, hentries⟩, rfl⟩
          exact ⟨as, rest, hcount.symm, hentries, rfl⟩
    · have hpos : b.length ≠ 0 := by simpa using hnil
      simp [decodeCollection, hpos, Nat.not_le.mp hlen, hlen]

theorem decodeCollection_error (hentry : ∀ b err, entry b = .error err → err ≠ .panic) :
    decodeCollection tooShort tooMany nil start entry store b ≠ .error .panic := by
  by_cases hlen : 4 ≤ b.length
  · rw [decodeCollection_eq hlen]
    split
    · simp
    · intro h
      exact readTimes_error hentry _ _ _ _ h rfl
  · unfold decodeCollection
    split
    · simp
    · simp [Nat.not_le.mp hlen]

/-! ### What the decoders accept -/

/-- `decode` does not go out of range, takes `b` exactly if it is a collection of entries in `R`,
and returns these entries. -/
structure AcceptsExactly (decode : Bytes → Decoded γ) (R : Bytes → α → Bytes → Prop)
    (Holds : γ → List α → Prop) (b : Bytes) : Prop where
  no_panic : decode b ≠ .error .panic
  ok_iff : (∃ result, decode b = .ok result) ↔ ∃ as, Collection R b as
  holds : ∀ as result, Collection R b as → decode b = .ok result → Holds result as

/-- No bytes hold no entries. -/
theorem Collection.eq_nil {R : Bytes → α → Bytes → Prop} {as : List α} (h : Collection R [] as) :
    as = [] := by
  obtain ⟨-, rfl⟩ | ⟨n, _, _, hn, -, -, h, -⟩ := h
  · rfl
  · rw [(List.append_eq_nil_iff.mp h.symm).1] at hn
    cases hn

/-- The bytes decide the entries of a collection, if they decide a single one. -/
theorem Collection.unique {R : Bytes → α → Bytes → Prop} {as as' : List α}
    (hR : ∀ b a b' a' b'', R b a b' → R b a' b'' → a = a' ∧ b' = b'')
    (h : Collection R b as) (h' : Collection R b as') : as = as' := by
  by_cases hnil : b = []
  · subst hnil
    rw [h.eq_nil, h'.eq_nil]
  · obtain ⟨-, hcount, -, _, hentries⟩ := (collection_iff hnil).mp h
    obtain ⟨-, hcount', -, _, hentries'⟩ := (collection_iff hnil).mp h'
    exact hentries.unique hR hentries' (hcount.symm.trans hcount')

/-- Entries of one kind are entries of another, if they are so on the way. -/
theorem Collection.mono {R R' : Bytes → α → Bytes → Prop} {P : Bytes → Prop} {as : List α}
    (hR : ∀ b a b', P b → R b a b' → R' b a b' ∧ P b') (hdrop : ∀ n rest : Bytes, P (n ++ rest) → P rest)
    (hb : P b) (h : Collection R b as) : Collection R' b as := by
  obtain h | ⟨n, rest, tail, hn, hcount, hmax, rfl, hentries⟩ := h
  · exact Or.inl h
  · exact Or.inr ⟨n, rest, tail, hn, hcount, hmax, rfl, hentries.mono hR (hdrop n rest hb)⟩

/-- A decoder that counts the bytes left in its own way accepts exactly the grammar, if it counts
enough of them in everything that is in the grammar. -/
theorem decodeCollection_acceptsExactly_iff {R R' : Bytes → α → Bytes → Prop}
    {Holds : γ → List α → Prop} (hentry : Reads entry R')
    (herror : ∀ b err, entry b = .error err → err ≠ .panic) (hR : ∀ b a b', R' b a b' → R b a b')
    (hunique : ∀ b a b' a' b'', R b a b' → R b a' b'' → a = a' ∧ b' = b'')
    (hholds : ∀ b as, Collection R b as → Holds (collected nil start store b as) as) :
    AcceptsExactly (decodeCollection tooShort tooMany nil start entry store) R Holds b ↔
      ∀ as, Collection R b as → Collection R' b as := by
  have hsub : ∀ as, Collection R' b as → Collection R b as := fun as h =>
    h.mono (P := fun _ => True) (fun b a b' _ h => ⟨hR b a b' h, trivial⟩) (fun _ _ _ => trivial)
      trivial
  constructor
  · intro h as has
    obtain ⟨result, hresult⟩ := h.ok_iff.mpr ⟨as, has⟩
    obtain ⟨as', has', -⟩ := (decodeCollection_ok_iff hentry result).mp hresult
    rwa [has.unique hunique (hsub as' has')]
  · intro h
    refine ⟨decodeCollection_error herror, ⟨?_, ?_⟩, ?_⟩
    · rintro ⟨result, hresult⟩
      obtain ⟨as, has, -⟩ := (decodeCollection_ok_iff hentry result).mp hresult
      exact ⟨as, hsub as has⟩
    · rintro ⟨as, has⟩
      exact ⟨_, (decodeCollection_ok_iff hentry _).mpr ⟨as, h as has, rfl⟩⟩
    · intro as result has hresult
      obtain ⟨as', has', rfl⟩ := (decodeCollection_ok_iff hentry result).mp hresult
      rw [has.unique hunique (hsub as' has')]
      exact hholds b as' (hsub as' has')

end

section

variable {b rest rest' : Bytes}

theorem StringEntry.unique {count : ℕ → ℕ} {s s' : GoString} (h : StringEntry count b s rest)
    (h' : StringEntry count b s' rest') : s = s' ∧ rest = rest' := by
  obtain ⟨-, -, -, -, rfl, rfl⟩ := stringEntry_iff.mp h
  obtain ⟨-, -, -, -, rfl, rfl⟩ := stringEntry_iff.mp h'
  exact ⟨rfl, rfl⟩

theorem PairEntry.unique {count : ℕ → ℕ} {e e' : Sigma fun _ : GoString => GoString}
    (h : PairEntry count b e rest) (h' : PairEntry count b e' rest') : e = e' ∧ rest = rest' := by
  obtain ⟨key, value⟩ := e
  obtain ⟨key', value'⟩ := e'
  obtain ⟨mid, hkey, hvalue⟩ := h
  obtain ⟨mid', hkey', hvalue'⟩ := h'
  obtain ⟨rfl, rfl⟩ := hkey.unique hkey'
  obtain ⟨rfl, rfl⟩ := hvalue.unique hvalue'
  exact ⟨rfl, rfl⟩

theorem BytesEntry.unique {count : ℕ → ℕ} {e e' : Sigma fun _ : UInt32 => Option Bytes}
    (h : BytesEntry count b e rest) (h' : BytesEntry count b e' rest') : e = e' ∧ rest = rest' := by
  obtain ⟨key, mid, value, hkey, rfl, rfl, hvalue⟩ := h
  obtain ⟨key', mid', value', hkey', rfl, hmid, hvalue'⟩ := h'
  obtain ⟨rfl, rfl⟩ := List.append_inj hmid (hkey.trans hkey'.symm)
  obtain ⟨rfl, rfl⟩ := hvalue.unique hvalue'
  exact ⟨rfl, rfl⟩

/-! A way of counting that counts less takes fewer entries. -/

theorem StringEntry.of_narrow {s : GoString} (h : StringEntry narrow b s rest) :
    StringEntry id b s rest := by
  obtain ⟨len, hlen, hword, hmax, hcount, rfl⟩ := h
  exact ⟨len, hlen, hword, hmax, hcount.trans (narrow_le _), rfl⟩

theorem PairEntry.of_narrow {e : Sigma fun _ : GoString => GoString}
    (h : PairEntry narrow b e rest) : PairEntry id b e rest := by
  obtain ⟨mid, hkey, hvalue⟩ := h
  exact ⟨mid, hkey.of_narrow, hvalue.of_narrow⟩

theorem BytesEntry.of_narrow {e : Sigma fun _ : UInt32 => Option Bytes}
    (h : BytesEntry narrow b e rest) : BytesEntry id b e rest := by
  obtain ⟨key, mid, value, hkey, he, hb, hvalue⟩ := h
  exact ⟨key, mid, value, hkey, he, hb, hvalue.of_narrow⟩

/-! Below 2^32 bytes both count the same. -/

theorem StringEntry.to_narrow {s : GoString} (hb : b.length < 2 ^ 32) (h : StringEntry id b s rest) :
    StringEntry narrow b s rest ∧ rest.length < 2 ^ 32 := by
  obtain ⟨len, hlen, hword, hmax, hcount, rfl⟩ := h
  rw [List.length_append] at hb
  have hnarrow : narrow (s ++ rest).length = (s ++ rest).length := Nat.mod_eq_of_lt (by omega)
  refine ⟨⟨len, hlen, hword, hmax, by rw [hnarrow]; exact hcount, rfl⟩, ?_⟩
  rw [List.length_append] at hb
  omega

theorem PairEntry.to_narrow {e : Sigma fun _ : GoString => GoString} (hb : b.length < 2 ^ 32)
    (h : PairEntry id b e rest) : PairEntry narrow b e rest ∧ rest.length < 2 ^ 32 := by
  obtain ⟨mid, hkey, hvalue⟩ := h
  obtain ⟨hkey', hmid⟩ := hkey.to_narrow hb
  obtain ⟨hvalue', hrest⟩ := hvalue.to_narrow hmid
  exact ⟨⟨mid, hkey', hvalue'⟩, hrest⟩

theorem BytesEntry.to_narrow {e : Sigma fun _ : UInt32 => Option Bytes} (hb : b.length < 2 ^ 32)
    (h : BytesEntry id b e rest) : BytesEntry narrow b e rest ∧ rest.length < 2 ^ 32 := by
  obtain ⟨key, mid, value, hkey, he, rfl, hvalue⟩ := h
  rw [List.length_append] at hb
  obtain ⟨hvalue', hrest⟩ := hvalue.to_narrow (by omega)
  exact ⟨⟨key, mid, value, hkey, he, rfl, hvalue'⟩, hrest⟩

theorem Collection.to_narrow {α : Type} {R R' : Bytes → α → Bytes → Prop} {as : List α}
    (hR : ∀ b a b', b.length < 2 ^ 32 → R b a b' → R' b a b' ∧ b'.length < 2 ^ 32)
    (hb : b.length < 2 ^ 32) (h : Collection R b as) : Collection R' b as := by
  refine h.mono hR ?_ hb
  intro n rest hlen
  rw [List.length_append] at hlen
  omega

end

/-- The slice is these strings, in order.  A `nil` slice has none. -/
def IsSlice (result : Option (List GoString)) (as : List GoString) : Prop := result.getD [] = as

/-- The map has the last value of each key.  A `nil` map has no keys. -/
def IsMap {κ ν : Type} [DecidableEq κ] (result : Option (Finmap fun _ : κ => ν))
    (as : List (Sigma fun _ : κ => ν)) : Prop :=
  ∀ key, (result.getD ∅).lookup key = as.reverse.dlookup key

theorem foldl_appendTo {α : Type} : ∀ (as : List α) (slice : Option (List α)),
    as.foldl appendTo slice = if as = [] then slice else some (slice.getD [] ++ as) := by
  intro as
  induction as with
  | nil => intro slice; rfl
  | cons a as ih =>
    intro slice
    rw [List.foldl_cons, ih, if_neg (List.cons_ne_nil a as)]
    split
    · next h => rw [h]; rfl
    · simp [appendTo]

theorem foldl_storeTo {κ ν : Type} [DecidableEq κ] : ∀ (as : List (Sigma fun _ : κ => ν))
    (m : Finmap fun _ : κ => ν), as.foldl storeTo (some m) = some (Ranging.storeAll m as) := by
  intro as
  induction as with
  | nil => intro m; rfl
  | cons a as ih => intro m; exact ih _

theorem isSlice_collected {R : Bytes → GoString → Bytes → Prop} (b : Bytes) (as : List GoString)
    (h : Collection R b as) : IsSlice (collected none none appendTo b as) as := by
  by_cases has : as = []
  · subst has
    simp [IsSlice, collected]
  · have hb : b ≠ [] := by
      rintro rfl
      exact has (h.eq_nil)
    rw [IsSlice, collected, if_neg hb, foldl_appendTo, if_neg has]
    rfl

theorem isMap_collected {κ ν : Type} [DecidableEq κ]
    {R : Bytes → (Sigma fun _ : κ => ν) → Bytes → Prop} (b : Bytes)
    (as : List (Sigma fun _ : κ => ν)) (h : Collection R b as) :
    IsMap (collected none (some ∅) storeTo b as) as := by
  intro key
  rw [collected]
  split
  · next hb =>
    subst hb
    rw [h.eq_nil]
    rfl
  · rw [foldl_storeTo, Option.getD_some, Ranging.lookup_storeAll, Finmap.lookup_empty,
      Option.or_none]

/-- If `b` is in the grammar, each length field in it is covered by the bytes behind it also when
only the low 32 bits of their number are looked at. -/
def CoveredIn32Bits {α : Type} (R : (ℕ → ℕ) → Bytes → α → Bytes → Prop) (b : Bytes) : Prop :=
  ∀ as, Collection (R id) b as → Collection (R narrow) b as

/-- **The decoders accept exactly their grammar**, if what is in the grammar is covered in 32 bits;
so they do for every byte string shorter than 2^32 bytes. -/
theorem headerDecoders_accept_iff (b : Bytes) :
    (AcceptsExactly decodeStringSlice (StringEntry id) IsSlice b ↔
      CoveredIn32Bits StringEntry b) ∧
    (AcceptsExactly decodeU32ToBytesMap (BytesEntry id) IsMap b ↔ CoveredIn32Bits BytesEntry b) ∧
    (AcceptsExactly decodeStringToStringMap (PairEntry id) IsMap b ↔ CoveredIn32Bits PairEntry b) ∧
    (b.length < 2 ^ 32 → CoveredIn32Bits StringEntry b ∧ CoveredIn32Bits BytesEntry b ∧
      CoveredIn32Bits PairEntry b) := by
  refine ⟨?_, ?_, ?_, ?_⟩
  · exact decodeCollection_acceptsExactly_iff (decodeString_reads _)
      (fun _ _ => decodeString_error) (fun _ _ _ => StringEntry.of_narrow)
      (fun _ _ _ _ _ => StringEntry.unique) isSlice_collected
  · exact decodeCollection_acceptsExactly_iff decodeBytesEntry_reads
      (fun _ _ => decodeBytesEntry_error) (fun _ _ _ => BytesEntry.of_narrow)
      (fun _ _ _ _ _ => BytesEntry.unique) isMap_collected
  · exact decodeCollection_acceptsExactly_iff decodePair_reads
      (fun _ _ => decodePair_error) (fun _ _ _ => PairEntry.of_narrow)
      (fun _ _ _ _ _ => PairEntry.unique) isMap_collected
  · intro hb
    exact ⟨fun _ h => h.to_narrow (fun _ _ _ => StringEntry.to_narrow) hb,
      fun _ h => h.to_narrow (fun _ _ _ => BytesEntry.to_narrow) hb,
      fun _ h => h.to_narrow (fun _ _ _ => PairEntry.to_narrow) hb⟩

theorem headerDecoders_accept_one :
    let b : Bytes := [1, 0, 0, 0, 1, 0, 0, 0, 65]
    b.length < 2 ^ 32 ∧ AcceptsExactly decodeStringSlice (StringEntry id) IsSlice b ∧
      decodeStringSlice b = .ok (some [[65]]) := by
  obtain ⟨hslice, -, -, hshort⟩ := headerDecoders_accept_iff [1, 0, 0, 0, 1, 0, 0, 0, 65]
  exact ⟨by decide, hslice.mpr (hshort (by decide)).1, by decide⟩

/-- A string of one byte is refused for being longer than what is left, if what is left is 2^32
bytes. -/
theorem decodeStringSlice_of_length {tail : Bytes} (h : tail.length = 2 ^ 32 - 1) :
    decodeStringSlice (putUint32 1 ++ (putUint32 1 ++ ([0] ++ tail))) =
      .error (.error "invalid string length in string slice, longer than remaining data") := by
  have hstring : decodeString "string slice" (putUint32 1 ++ ([0] ++ tail)) =
      .error (.error "invalid string length in string slice, longer than remaining data") := by
    have hword : (uint32 (putUint32 1 ++ ([0] ++ tail))).toNat = 1 := by
      rw [uint32_putUint32_append]; rfl
    have hleft : (putUint32 1 ++ ([0] ++ tail)).length - 4 = 2 ^ 32 := by
      simp only [List.length_append, length_putUint32, List.length_singleton, h]
      omega
    rw [decodeString_eq _ (by simp), hword, hleft, if_neg (by decide), if_pos (by decide)]
    rfl
  rw [decodeStringSlice, decodeCollection_eq (by simp), uint32_putUint32_append,
    if_neg (by decide), ← length_putUint32 1, List.drop_left]
  show readTimes _ _ 1 _ _ = _
  rw [readTimes, hstring]

theorem collection_one_byte (tail : Bytes) :
    Collection (StringEntry id) (putUint32 1 ++ (putUint32 1 ++ ([0] ++ tail))) [[0]] := by
  refine Or.inr ⟨putUint32 1, _, tail, by simp, by simp, by decide, rfl, ?_⟩
  exact .cons ⟨putUint32 1, by simp, by simp, by decide, by simp, rfl⟩ (.nil _)

/-- A string of one byte, with 2^32 - 1 bytes behind it. -/
def fourGigabytes : Bytes :=
  putUint32 1 ++ (putUint32 1 ++ ([0] ++ List.replicate (2 ^ 32 - 1) 0))

/-- The string is there, and is refused. -/
theorem decodeStringSlice_fourGigabytes :
    Collection (StringEntry id) fourGigabytes [[0]] ∧
      decodeStringSlice fourGigabytes =
        .error (.error "invalid string length in string slice, longer than remaining data") := by
  unfold fourGigabytes
  exact ⟨collection_one_byte _, decodeStringSlice_of_length List.length_replicate⟩

end ZitiChannel
