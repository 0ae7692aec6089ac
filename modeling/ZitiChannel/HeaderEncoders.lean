import Mathlib.Algebra.BigOperators.Group.List.Basic
import Mathlib.Algebra.Order.BigOperators.Group.List
import ZitiChannel.HeaderValues

/-!
# Encoding collections as header values

An encoder ranges twice over its collection: once to size a buffer, and once to write it.  Over a map
the two loops may see the entries in different orders.  It panics if the place it has written to is
not the end of the buffer.

Encoders know nothing of the limits of the decoders.  What they write for a collection beyond the
limits is refused.

## Main definitions

* `encodeStringSlice`, `encodeU32ToBytesMap`, `encodeStringToStringMap` — the encoders.
* `stringBytes`, `bytesEntryBytes`, `pairBytes` — what they write for an entry.

## Main results

* `encodeCollection_eq` — an encoder does not panic, and writes the entries in a row.
* `headerValues_roundTrip` — **what is encoded is decoded to the same collection, or refused**.

The source is `message.go`.
-/

namespace ZitiChannel

open ByteStream Repetition

/-! ### The encoders -/

/-- What an encoder returns.  It has no errors of its own: a `Stop.error` is what it panics with. -/
abbrev Encoded (α : Type) := Except (Stop String) α

/-- Write a length and as many bytes. -/
def putString : Bytes × ℕ → Bytes → Encoded (Bytes × ℕ)
  | (result, idx), s => do
    let result ← putUint32At result idx (UInt32.ofNat s.length)
    let result ← copyAt result (idx + 4) s
    .ok (result, idx + (4 + s.length))

/-- Write an entry of a map from words to bytes. -/
def putBytesEntry : Bytes × ℕ → (Sigma fun _ : UInt32 => Option Bytes) → Encoded (Bytes × ℕ)
  | (result, idx), ⟨k, v⟩ => do
    let result ← putUint32At result idx k
    let result ← putUint32At result (idx + 4) (UInt32.ofNat (bytesOf v).length)
    let result ← copyAt result (idx + 8) (bytesOf v)
    .ok (result, idx + (8 + (bytesOf v).length))

/-- Write an entry of a map from strings to strings. -/
def putPair : Bytes × ℕ → (Sigma fun _ : GoString => GoString) → Encoded (Bytes × ℕ)
  | (result, idx), ⟨k, v⟩ => do
    let (result, idx) ← putString (result, idx) k
    putString (result, idx) v

/-- Size a buffer for `n` entries in one loop, and write them in another.  An entry takes `perEntry`
bytes and its size. -/
def encodeCollection {α : Type} (perEntry : ℕ) (size : α → ℕ)
    (write : Bytes × ℕ → α → Encoded (Bytes × ℕ)) (n : ℕ) (sizing writing : List α) :
    Encoded Bytes :=
  if n = 0 then .ok []
  else do
    let l := sizing.foldl (fun l a => l + size a) (4 + perEntry * n)
    let result ← putUint32At (List.replicate l 0) 0 (UInt32.ofNat n)
    let (result, idx) ← writing.foldlM write (result, 4)
    if idx ≠ l then .error (.error s!"invalid length was {idx}, expected {l}")
    else .ok result

def encodeStringSlice (strSlice : List GoString) : Encoded Bytes :=
  encodeCollection 4 List.length putString strSlice.length strSlice strSlice

def encodeU32ToBytesMap (m : Finmap fun _ : UInt32 => Option Bytes)
    (sizing writing : Ranging.Order m) : Encoded Bytes :=
  encodeCollection 8 (fun e => (bytesOf e.2).length) putBytesEntry m.entries.card sizing.entries
    writing.entries

def encodeStringToStringMap (m : Finmap fun _ : GoString => GoString)
    (sizing writing : Ranging.Order m) : Encoded Bytes :=
  encodeCollection 8 (fun e => e.1.length + e.2.length) putPair m.entries.card sizing.entries
    writing.entries

/-! ### What is written -/

def stringBytes (s : Bytes) : Bytes := putUint32 (UInt32.ofNat s.length) ++ s

def bytesEntryBytes (e : Sigma fun _ : UInt32 => Option Bytes) : Bytes :=
  putUint32 e.1 ++ stringBytes (bytesOf e.2)

def pairBytes (e : Sigma fun _ : GoString => GoString) : Bytes := stringBytes e.1 ++ stringBytes e.2

@[simp] theorem length_stringBytes (s : Bytes) : (stringBytes s).length = 4 + s.length := by
  rw [stringBytes, List.length_append, length_putUint32]

theorem length_bytesEntryBytes (e : Sigma fun _ : UInt32 => Option Bytes) :
    (bytesEntryBytes e).length = 8 + (bytesOf e.2).length := by
  rw [bytesEntryBytes, List.length_append, length_putUint32, length_stringBytes]
  omega

theorem length_pairBytes (e : Sigma fun _ : GoString => GoString) :
    (pairBytes e).length = 8 + (e.1.length + e.2.length) := by
  rw [pairBytes, List.length_append, length_stringBytes, length_stringBytes]
  omega

theorem putString_writes : Writes putString stringBytes := by
  intro s done free hfree
  rw [length_stringBytes] at hfree
  have hlen : ∀ v, done.length + 4 = (done ++ putUint32 v).length := fun v => by simp
  have hcopy : s.length ≤ free - 4 := by omega
  simp only [putString, putUint32At_of_append rfl (show 4 ≤ free by omega), bind, Except.bind,
    copyAt_of_append (hlen _) hcopy]
  simp only [stringBytes, List.append_assoc, List.length_append, length_putUint32, Nat.sub_add_eq]

theorem putBytesEntry_writes : Writes putBytesEntry bytesEntryBytes := by
  rintro ⟨k, v⟩ done free hfree
  rw [length_bytesEntryBytes] at hfree
  dsimp only at hfree
  have hword : ∀ v, done.length + 4 = (done ++ putUint32 v).length := fun v => by simp
  have hlen : ∀ v v', done.length + 8 = (done ++ putUint32 v ++ putUint32 v').length :=
    fun v v' => by simp
  have hcopy : (bytesOf v).length ≤ free - 4 - 4 := by omega
  simp only [putBytesEntry, putUint32At_of_append rfl (show 4 ≤ free by omega), bind, Except.bind,
    putUint32At_of_append (hword _) (show 4 ≤ free - 4 by omega), copyAt_of_append (hlen _ _) hcopy]
  simp only [bytesEntryBytes, stringBytes, List.append_assoc, List.length_append, length_putUint32,
    Nat.sub_add_eq]
  rw [show 8 + (bytesOf v).length = 4 + (4 + (bytesOf v).length) by omega]

theorem putPair_writes : Writes putPair pairBytes := by
  rintro ⟨k, v⟩ done free hfree
  rw [length_pairBytes] at hfree
  dsimp only at hfree
  have hkey := putString_writes k done free (by rw [length_stringBytes]; omega)
  have hvalue := putString_writes v (done ++ stringBytes k) (free - (stringBytes k).length)
    (by rw [length_stringBytes, length_stringBytes]; omega)
  simp only [putPair, hkey, bind, Except.bind, hvalue]
  simp only [pairBytes, List.append_assoc, List.length_append, Nat.sub_add_eq]

section

variable {α : Type} {perEntry : ℕ} {size : α → ℕ} {write : Bytes × ℕ → α → Encoded (Bytes × ℕ)}
  {enc : α → Bytes}

/-- The entries in a row take what the sizing loop counts. -/
theorem length_flatMap_enc (hsize : ∀ a, (enc a).length = perEntry + size a) (as : List α) :
    (as.flatMap enc).length = perEntry * as.length + (as.map size).sum := by
  induction as with
  | nil => rfl
  | cons a as ih =>
    rw [List.flatMap_cons, List.length_append, ih, hsize, List.map_cons, List.sum_cons,
      List.length_cons, Nat.mul_succ]
    omega

theorem foldl_size (as : List α) (l : ℕ) :
    as.foldl (fun l a => l + size a) l = l + (as.map size).sum := by
  induction as generalizing l with
  | nil => rfl
  | cons a as ih => rw [List.foldl_cons, ih, List.map_cons, List.sum_cons, Nat.add_assoc]

/-- **An encoder does not panic**, and writes the entries in a row. -/
theorem encodeCollection_eq (hwrite : Writes write enc)
    (hsize : ∀ a, (enc a).length = perEntry + size a) {sizing writing : List α}
    (hperm : sizing.Perm writing) {n : ℕ} (hn : writing.length = n) :
    encodeCollection perEntry size write n sizing writing =
      .ok (if n = 0 then [] else putUint32 (UInt32.ofNat n) ++ writing.flatMap enc) := by
  rw [encodeCollection]
  split
  · rfl
  · have hl : sizing.foldl (fun l a => l + size a) (4 + perEntry * n) =
        4 + (writing.flatMap enc).length := by
      rw [foldl_size, (hperm.map size).sum_eq, length_flatMap_enc hsize, hn, Nat.add_assoc]
    have hcount := @putUint32At_of_append String [] 0 (4 + (writing.flatMap enc).length) rfl
      (by omega) (UInt32.ofNat n)
    have hloop := hwrite.foldlM writing (putUint32 (UInt32.ofNat n)) (writing.flatMap enc).length
      le_rfl
    rw [List.nil_append, List.nil_append, Nat.add_sub_cancel_left] at hcount
    rw [length_putUint32, Nat.sub_self] at hloop
    simp only [hl, hcount, hloop, bind, Except.bind]
    simp

end

/-! ### What is decoded from it -/

section

variable {rest rest' : Bytes}

/-- From a string that was written, this string is read; if it is not too long. -/
theorem stringEntry_stringBytes_iff {s s' : Bytes} (h : s.length < 2 ^ 32) :
    StringEntry id (stringBytes s ++ rest) s' rest' ↔ s.length ≤ 8192 ∧ s' = s ∧ rest' = rest := by
  have hword : (uint32 (stringBytes s ++ rest)).toNat = s.length := by
    rw [stringBytes, List.append_assoc, uint32_putUint32_append, UInt32.toNat_ofNat_of_lt' h]
  have hdrop : (stringBytes s ++ rest).drop 4 = s ++ rest := by
    rw [stringBytes, List.append_assoc]
    exact List.drop_left' (length_putUint32 _)
  have hlen : (stringBytes s ++ rest).length = 4 + (s ++ rest).length := by
    rw [List.length_append, length_stringBytes, List.length_append, Nat.add_assoc]
  rw [stringEntry_iff, hword, hdrop, hlen, List.take_left, List.drop_left, List.length_append]
  constructor
  · rintro ⟨-, hmax, -, -, rfl, rfl⟩
    exact ⟨hmax, rfl, rfl⟩
  · rintro ⟨hmax, rfl, rfl⟩
    exact ⟨by omega, hmax, by simp only [id]; omega, by omega, rfl, rfl⟩

theorem pairEntry_pairBytes_iff {e e' : Sigma fun _ : GoString => GoString}
    (h : (pairBytes e).length < 2 ^ 32) : PairEntry id (pairBytes e ++ rest) e' rest' ↔
      (e.1.length ≤ 8192 ∧ e.2.length ≤ 8192) ∧ e' = id e ∧ rest' = rest := by
  obtain ⟨k, v⟩ := e
  obtain ⟨k', v'⟩ := e'
  rw [length_pairBytes] at h
  dsimp only at h
  rw [pairBytes, List.append_assoc]
  dsimp only [PairEntry]
  constructor
  · rintro ⟨mid, hkey, hvalue⟩
    obtain ⟨hk, rfl, rfl⟩ := (stringEntry_stringBytes_iff (by omega)).mp hkey
    obtain ⟨hv, rfl, rfl⟩ := (stringEntry_stringBytes_iff (by omega)).mp hvalue
    exact ⟨⟨hk, hv⟩, rfl, rfl⟩
  · rintro ⟨⟨hk, hv⟩, he, rfl⟩
    cases he
    exact ⟨_, (stringEntry_stringBytes_iff (by omega)).mpr ⟨hk, rfl, rfl⟩,
      (stringEntry_stringBytes_iff (by omega)).mpr ⟨hv, rfl, rfl⟩⟩

theorem bytesEntry_bytesEntryBytes_iff {e e' : Sigma fun _ : UInt32 => Option Bytes}
    (h : (bytesEntryBytes e).length < 2 ^ 32) : BytesEntry id (bytesEntryBytes e ++ rest) e' rest' ↔
      (bytesOf e.2).length ≤ 8192 ∧ e' = Sigma.map id (fun _ v => nilIfEmpty (bytesOf v)) e ∧
        rest' = rest := by
  obtain ⟨k, v⟩ := e
  rw [length_bytesEntryBytes] at h
  dsimp only at h
  rw [bytesEntryBytes, List.append_assoc]
  dsimp only
  constructor
  · rintro ⟨key, mid, value, hkey, rfl, hmid, hvalue⟩
    obtain ⟨rfl, rfl⟩ := List.append_inj hmid ((length_putUint32 _).trans hkey.symm)
    obtain ⟨hv, rfl, rfl⟩ := (stringEntry_stringBytes_iff (by omega)).mp hvalue
    refine ⟨hv, ?_, rfl⟩
    rw [uint32_putUint32]
    rfl
  · rintro ⟨hv, rfl, rfl⟩
    refine ⟨putUint32 k, _, bytesOf v, length_putUint32 k, ?_, rfl,
      (stringEntry_stringBytes_iff (by omega)).mpr ⟨hv, rfl, rfl⟩⟩
    rw [uint32_putUint32]
    rfl

end

section

variable {α β γ : Type} {perEntry : ℕ} {size : α → ℕ} {enc : α → Bytes} {f : α → β}
  {P : α → Prop} {R R' : Bytes → β → Bytes → Prop} {tooShort tooMany : String} {nil start : γ}
  {entry : Bytes → Decoded (β × Bytes)} {store : γ → β → γ}

/-- The collection in what is written is the encoded one, if it is within the limits. -/
theorem collection_encoded_iff {as : List α} {as' : List β}
    (hsize : ∀ a, (enc a).length = perEntry + size a) (hper : 0 < perEntry)
    (henc : ∀ a, (enc a).length < 2 ^ 32 → ∀ rest a' rest',
      R (enc a ++ rest) a' rest' ↔ P a ∧ a' = f a ∧ rest' = rest)
    (hb : (putUint32 (UInt32.ofNat as.length) ++ as.flatMap enc).length < 2 ^ 32) :
    Collection R (putUint32 (UInt32.ofNat as.length) ++ as.flatMap enc) as' ↔
      (as.length ≤ 128 ∧ ∀ a ∈ as, P a) ∧ as' = as.map f := by
  have hne : putUint32 (UInt32.ofNat as.length) ++ as.flatMap enc ≠ [] := by
    intro h
    have := congrArg List.length h
    simp at this
  have hcount : as.length ≤ (as.flatMap enc).length := by
    rw [length_flatMap_enc hsize]
    exact (Nat.le_mul_of_pos_left _ hper).trans (Nat.le_add_right _ _)
  rw [List.length_append, length_putUint32] at hb
  have hword : (uint32 (putUint32 (UInt32.ofNat as.length) ++ as.flatMap enc)).toNat = as.length := by
    rw [uint32_putUint32_append, UInt32.toNat_ofNat_of_lt' (show as.length < 2 ^ 32 by omega)]
  have hdrop : (putUint32 (UInt32.ofNat as.length) ++ as.flatMap enc).drop 4 =
      as.flatMap enc ++ [] := by
    rw [List.drop_left' (length_putUint32 _), List.append_nil]
  have hmem : ∀ a ∈ as, (enc a).length < 2 ^ 32 := by
    intro a ha
    have hle : (enc a).length ≤ (as.flatMap enc).length := by
      rw [List.length_flatMap]
      exact List.single_le_sum (fun _ _ => Nat.zero_le _) _ (List.mem_map_of_mem ha)
    omega
  have hentries := Entries.flatMap_iff [] as fun a ha => henc a (hmem a ha)
  rw [collection_iff hne, hword, hdrop]
  constructor
  · rintro ⟨-, hlen, hmax, tail, h⟩
    obtain ⟨hP, rfl, -⟩ := (hentries as' tail).mp ⟨hlen.symm, h⟩
    exact ⟨⟨by omega, hP⟩, rfl⟩
  · rintro ⟨⟨hmax, hP⟩, rfl⟩
    obtain ⟨hlen, h⟩ := (hentries _ _).mpr ⟨hP, rfl, rfl⟩
    exact ⟨by simp, hlen.symm, by omega, [], h⟩

/-- Within the limits `decoded` is the collection, and beyond them an error. -/
structure DecodesOrRefuses (decoded : Decoded γ) (within : Prop) (Same : γ → Prop) : Prop where
  decodes : within → ∃ result, decoded = .ok result ∧ Same result
  refuses : ¬ within → ∃ err, decoded = .error (.error err)

theorem DecodesOrRefuses.mono {decoded : Decoded γ} {within within' : Prop} {Same Same' : γ → Prop}
    (h : DecodesOrRefuses decoded within Same) (hwithin : within ↔ within')
    (hSame : ∀ result, Same result → Same' result) : DecodesOrRefuses decoded within' Same' := by
  refine ⟨fun hw => ?_, fun hw => h.refuses (mt hwithin.mp hw)⟩
  obtain ⟨result, hresult, hsame⟩ := h.decodes (hwithin.mpr hw)
  exact ⟨result, hresult, hSame result hsame⟩

/-- **Encoding and decoding**, for entries of any kind. -/
theorem decodeCollection_encoded {write : Bytes × ℕ → α → Encoded (Bytes × ℕ)}
    (hwrite : Writes write enc) (hsize : ∀ a, (enc a).length = perEntry + size a)
    (hper : 0 < perEntry)
    (henc : ∀ a, (enc a).length < 2 ^ 32 → ∀ rest a' rest',
      R (enc a ++ rest) a' rest' ↔ P a ∧ a' = f a ∧ rest' = rest)
    (hentry : Reads entry R') (herror : ∀ b err, entry b = .error err → err ≠ .panic)
    (hof : ∀ b a b', R' b a b' → R b a b')
    (hto : ∀ b a b', b.length < 2 ^ 32 → R b a b' → R' b a b' ∧ b'.length < 2 ^ 32)
    {sizing writing : List α} (hperm : sizing.Perm writing) {n : ℕ} (hn : writing.length = n) :
    ∃ b, encodeCollection perEntry size write n sizing writing = .ok b ∧
      (b.length < 2 ^ 32 →
        DecodesOrRefuses (decodeCollection tooShort tooMany nil start entry store b)
          (n ≤ 128 ∧ ∀ a ∈ writing, P a)
          (fun result => result = if n = 0 then nil else (writing.map f).foldl store start)) := by
  refine ⟨_, encodeCollection_eq hwrite hsize hperm hn, ?_⟩
  by_cases hzero : n = 0
  · -- an empty collection is no bytes
    have hwriting : writing = [] := List.length_eq_zero_iff.mp (hn.trans hzero)
    rw [if_pos hzero, if_pos hzero]
    refine fun _ => ⟨fun _ => ⟨nil, rfl, rfl⟩, fun h => absurd ⟨by omega, ?_⟩ h⟩
    rw [hwriting]
    exact List.forall_mem_nil P
  · rw [if_neg hzero, if_neg hzero]
    intro hb
    subst hn
    -- below 2^32 bytes the decoder reads the grammar
    have hcollection : ∀ as', Collection R' (putUint32 (UInt32.ofNat writing.length) ++
        writing.flatMap enc) as' ↔ (writing.length ≤ 128 ∧ ∀ a ∈ writing, P a) ∧
          as' = writing.map f := by
      intro as'
      rw [← collection_encoded_iff hsize hper henc hb]
      constructor
      · exact fun h => h.mono (P := fun _ => True) (fun b a b' _ h => ⟨hof b a b' h, trivial⟩)
          (fun _ _ _ => trivial) trivial
      · exact fun h => h.to_narrow hto hb
    have hne : putUint32 (UInt32.ofNat writing.length) ++ writing.flatMap enc ≠ [] := by
      intro h
      have := congrArg List.length h
      simp at this
    constructor
    · intro hwithin
      refine ⟨_, (decodeCollection_ok_iff hentry _).mpr
        ⟨_, (hcollection _).mpr ⟨hwithin, rfl⟩, rfl⟩, ?_⟩
      rw [collected, if_neg hne]
    · intro hwithin
      rcases h : decodeCollection tooShort tooMany nil start entry store
        (putUint32 (UInt32.ofNat writing.length) ++ writing.flatMap enc) with err | result
      · cases err with
        | panic => exact absurd h (decodeCollection_error herror)
        | error err => exact ⟨err, rfl⟩
      · obtain ⟨as', has', -⟩ := (decodeCollection_ok_iff hentry result).mp h
        exact absurd ((hcollection as').mp has').1 hwithin

end

theorem card_entries_eq_zero_iff {κ ν : Type} {m : Finmap fun _ : κ => ν} :
    m.entries.card = 0 ↔ m = ∅ := by
  rw [Multiset.card_eq_zero]
  exact ⟨fun h => Finmap.ext h, fun h => h ▸ rfl⟩

theorem forall_mem_entries_iff {κ ν : Type} [DecidableEq κ] {m : Finmap fun _ : κ => ν}
    (order : Ranging.Order m) {P : (Sigma fun _ : κ => ν) → Prop} :
    (∀ e ∈ order.entries, P e) ↔ ∀ key value, m.lookup key = some value → P ⟨key, value⟩ :=
  ⟨fun h key value hvalue => h ⟨key, value⟩ (order.mem_entries.mpr hvalue),
    fun h e he => h e.1 e.2 (order.mem_entries.mp he)⟩

theorem decodeStringSlice_encoded (strSlice : List GoString) :
    ∃ b, encodeStringSlice strSlice = .ok b ∧
      (b.length < 2 ^ 32 → DecodesOrRefuses (decodeStringSlice b)
        (strSlice.length ≤ 128 ∧ ∀ s ∈ strSlice, s.length ≤ 8192)
        (fun result => result = if strSlice = [] then none else some strSlice)) := by
  obtain ⟨b, hb, hdecode⟩ : ∃ b, encodeStringSlice strSlice = .ok b ∧
      (b.length < 2 ^ 32 → DecodesOrRefuses (decodeStringSlice b)
        (strSlice.length ≤ 128 ∧ ∀ s ∈ strSlice, s.length ≤ 8192)
        (fun result => result =
          if strSlice.length = 0 then none else (strSlice.map id).foldl appendTo none)) :=
    decodeCollection_encoded putString_writes length_stringBytes (by decide)
      (fun s hs rest s' rest' => stringEntry_stringBytes_iff
        ((Nat.le_add_left _ _).trans_lt (length_stringBytes s ▸ hs)))
      (decodeString_reads _) (fun _ _ => decodeString_error)
      (fun _ _ _ => StringEntry.of_narrow) (fun _ _ _ => StringEntry.to_narrow)
      (List.Perm.refl strSlice) rfl
  refine ⟨b, hb, fun hlen => (hdecode hlen).mono Iff.rfl ?_⟩
  rintro result rfl
  simp only [List.map_id, foldl_appendTo, List.length_eq_zero_iff]
  split
  · rfl
  · rfl

theorem decodeU32ToBytesMap_encoded (m : Finmap fun _ : UInt32 => Option Bytes)
    (sizing writing : Ranging.Order m) : ∃ b, encodeU32ToBytesMap m sizing writing = .ok b ∧
      (b.length < 2 ^ 32 → DecodesOrRefuses (decodeU32ToBytesMap b)
        (m.entries.card ≤ 128 ∧ ∀ key value, m.lookup key = some value →
          (bytesOf value).length ≤ 8192)
        (fun result => if m = ∅ then result = none else ∃ m', result = some m' ∧
          ∀ key, m'.lookup key = (m.lookup key).map fun value => nilIfEmpty (bytesOf value))) := by
  obtain ⟨b, hb, hdecode⟩ : ∃ b, encodeU32ToBytesMap m sizing writing = .ok b ∧
      (b.length < 2 ^ 32 → DecodesOrRefuses (decodeU32ToBytesMap b)
        (m.entries.card ≤ 128 ∧ ∀ e ∈ writing.entries, (bytesOf e.2).length ≤ 8192)
        (fun result => result = if m.entries.card = 0 then none else
          (writing.entries.map (Sigma.map id fun _ value => nilIfEmpty (bytesOf value))).foldl
            storeTo (some ∅))) :=
    decodeCollection_encoded putBytesEntry_writes length_bytesEntryBytes (by decide)
      (fun _ he _ _ _ => bytesEntry_bytesEntryBytes_iff he)
      decodeBytesEntry_reads (fun _ _ => decodeBytesEntry_error)
      (fun _ _ _ => BytesEntry.of_narrow) (fun _ _ _ => BytesEntry.to_narrow)
      (sizing.perm writing) writing.length_entries
  refine ⟨b, hb, fun hlen => (hdecode hlen).mono
    (and_congr_right fun _ => forall_mem_entries_iff writing) ?_⟩
  rintro result rfl
  simp only [foldl_storeTo, card_entries_eq_zero_iff]
  split
  · rfl
  · exact ⟨_, rfl, Ranging.lookup_storeAll_map writing.complete _⟩

theorem decodeStringToStringMap_encoded (m : Finmap fun _ : GoString => GoString)
    (sizing writing : Ranging.Order m) : ∃ b, encodeStringToStringMap m sizing writing = .ok b ∧
      (b.length < 2 ^ 32 → DecodesOrRefuses (decodeStringToStringMap b)
        (m.entries.card ≤ 128 ∧ ∀ key value, m.lookup key = some value →
          key.length ≤ 8192 ∧ value.length ≤ 8192)
        (fun result => result = if m = ∅ then none else some m)) := by
  obtain ⟨b, hb, hdecode⟩ : ∃ b, encodeStringToStringMap m sizing writing = .ok b ∧
      (b.length < 2 ^ 32 → DecodesOrRefuses (decodeStringToStringMap b)
        (m.entries.card ≤ 128 ∧ ∀ e ∈ writing.entries, e.1.length ≤ 8192 ∧ e.2.length ≤ 8192)
        (fun result => result = if m.entries.card = 0 then none else
          (writing.entries.map id).foldl storeTo (some ∅))) :=
    decodeCollection_encoded putPair_writes length_pairBytes (by decide)
      (fun _ he _ _ _ => pairEntry_pairBytes_iff he)
      decodePair_reads (fun _ _ => decodePair_error)
      (fun _ _ _ => PairEntry.of_narrow) (fun _ _ _ => PairEntry.to_narrow)
      (sizing.perm writing) writing.length_entries
  refine ⟨b, hb, fun hlen => (hdecode hlen).mono
    (and_congr_right fun _ => forall_mem_entries_iff writing) ?_⟩
  rintro result rfl
  simp only [List.map_id, foldl_storeTo, card_entries_eq_zero_iff,
    Ranging.storeAll_entries writing.complete]

/-- **Header values round trip or are refused.**  No encoder panics, whatever the orders of its
loops; and from what it writes, if it is shorter than 2^32 bytes, the decoder returns the collection,
if that is within the limits, and else an error. -/
theorem headerValues_roundTrip :
    (∀ strSlice : List GoString, ∃ b, encodeStringSlice strSlice = .ok b ∧
      (b.length < 2 ^ 32 → DecodesOrRefuses (decodeStringSlice b)
        (strSlice.length ≤ 128 ∧ ∀ s ∈ strSlice, s.length ≤ 8192)
        (fun result => result = if strSlice = [] then none else some strSlice))) ∧
    (∀ (m : Finmap fun _ : UInt32 => Option Bytes) (sizing writing : Ranging.Order m),
      ∃ b, encodeU32ToBytesMap m sizing writing = .ok b ∧
      (b.length < 2 ^ 32 → DecodesOrRefuses (decodeU32ToBytesMap b)
        (m.entries.card ≤ 128 ∧ ∀ key value, m.lookup key = some value →
          (bytesOf value).length ≤ 8192)
        (fun result => if m = ∅ then result = none else ∃ m', result = some m' ∧
          ∀ key, m'.lookup key = (m.lookup key).map fun value => nilIfEmpty (bytesOf value)))) ∧
    (∀ (m : Finmap fun _ : GoString => GoString) (sizing writing : Ranging.Order m),
      ∃ b, encodeStringToStringMap m sizing writing = .ok b ∧
      (b.length < 2 ^ 32 → DecodesOrRefuses (decodeStringToStringMap b)
        (m.entries.card ≤ 128 ∧ ∀ key value, m.lookup key = some value →
          key.length ≤ 8192 ∧ value.length ≤ 8192)
        (fun result => result = if m = ∅ then none else some m))) := by
  exact ⟨decodeStringSlice_encoded, decodeU32ToBytesMap_encoded, decodeStringToStringMap_encoded⟩

end ZitiChannel
