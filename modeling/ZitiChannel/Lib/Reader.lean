import Mathlib.Tactic.Common
import ZitiChannel.Lib.LittleEndian

/-!
# Byte sources that deliver what they have in pieces

A byte source stands for a blocking reader: it holds the bytes still to come, and
a read of at most `n` of them returns some non-empty piece, chosen by the source,
or the end of the stream.  The end may be reported together with the last bytes
or by the read after them; a source decides that too.  The class carries these
laws, so a result about every `ByteSource` is a result about every way a stream
may be chopped.

## Main definitions

* `ByteSource` — sources with their laws; `Chopped` is the source that follows a
  given schedule, `MultiReader` puts a buffer in front of another source.
* `readAtLeast`, `readFull` — the two loops that assemble a buffer.
* `ByteFile` — files, which return what is asked for as long as it is there.

## Main results

* `readAtLeast_of_le`, `readAtLeast_of_lt` — what the loop returns when the stream
  holds enough, and when it does not.
* `readFull_of_le`, `readFull_of_lt` — the same of a full read, which takes exactly its
  length.
-/

namespace ByteStream

/-- Why a read stopped short. -/
inductive ReadErr
  /-- The stream ended before the first byte. -/
  | eof
  /-- The stream ended after some bytes of what was asked for. -/
  | unexpectedEOF
  /-- The buffer is smaller than the least number of bytes asked for. -/
  | shortBuffer
  deriving DecidableEq, Repr

/-- What a read returns: the bytes read, the error, and the source afterwards. -/
structure ReadResult (σ : Type) where
  data : Bytes
  err : Option ReadErr
  next : σ

/-- A source of bytes, delivered in non-empty pieces of the source's choosing. -/
class ByteSource (σ : Type) where
  remaining : σ → Bytes
  /-- Read into a buffer of the given length. -/
  read : σ → ℕ → ReadResult σ
  /-- At the end of the stream every read reports it. -/
  read_nil : ∀ (s : σ) (n : ℕ), remaining s = [] →
    (read s n).data = [] ∧ (read s n).err = some .eof ∧ remaining (read s n).next = []
  /-- Before the end, a read into a non-empty buffer returns the next `k` bytes for
  some `k`; only the read that takes the last byte may report the end with it. -/
  read_cons : ∀ (s : σ) (n : ℕ), remaining s ≠ [] → 0 < n →
    ∃ k, 0 < k ∧ k ≤ n ∧ k ≤ (remaining s).length ∧
      (read s n).data = (remaining s).take k ∧ remaining (read s n).next = (remaining s).drop k ∧
      ((read s n).err = none ∨ ((read s n).err = some .eof ∧ (remaining s).drop k = []))

open ByteSource

/-! ### Sources -/

/-- The source that delivers `rest` by a schedule: `sched i` is how many bytes the
`i`-th coming read would like to return, and whether it reports the end of the
stream as soon as it returns the last byte. -/
structure Chopped where
  rest : Bytes
  sched : ℕ → ℕ × Bool

namespace Chopped

/-- How many bytes the next read returns, into a buffer of length `n`. -/
def size (s : Chopped) (n : ℕ) : ℕ := max 1 (min (s.sched 0).1 (min n s.rest.length))

def read (s : Chopped) (n : ℕ) : ReadResult Chopped :=
  if s.rest = [] then ⟨[], some .eof, s⟩
  else
    ⟨s.rest.take (s.size n),
      if s.rest.drop (s.size n) = [] ∧ (s.sched 0).2 then some .eof else none,
      ⟨s.rest.drop (s.size n), fun i => s.sched (i + 1)⟩⟩

instance : ByteSource Chopped where
  remaining := rest
  read := read
  read_nil := by
    intro s n hs
    simp [read, hs]
  read_cons := by
    intro s n hs hn
    have hlen : 0 < s.rest.length := List.length_pos_iff.mpr hs
    refine ⟨s.size n, ?_, ?_, ?_, by simp [read, hs], by simp [read, hs], ?_⟩
    · unfold size; omega
    · unfold size; omega
    · unfold size; omega
    · simp only [read, hs, if_false]
      split
      · next h => exact Or.inr ⟨rfl, h.1⟩
      · exact Or.inl rfl

end Chopped

/-- A buffer in front of a source: reads drain the buffer first. -/
structure MultiReader (σ : Type) where
  /-- The bytes of the buffer not yet read. -/
  initial : Bytes
  next : σ

section

variable {σ : Type} [ByteSource σ]

def MultiReader.read (s : MultiReader σ) (n : ℕ) : ReadResult (MultiReader σ) :=
  if s.initial = [] then
    let r := ByteSource.read s.next n
    ⟨r.data, r.err, ⟨[], r.next⟩⟩
  else ⟨s.initial.take n, none, ⟨s.initial.drop n, s.next⟩⟩

instance : ByteSource (MultiReader σ) where
  remaining s := s.initial ++ remaining s.next
  read := MultiReader.read
  read_nil := by
    intro s n hs
    obtain ⟨hi, hr⟩ := List.append_eq_nil_iff.mp hs
    obtain ⟨hd, he, hn⟩ := ByteSource.read_nil s.next n hr
    simp [MultiReader.read, hi, hd, he, hn]
  read_cons := by
    intro s n hs hn
    by_cases hi : s.initial = []
    · simp only [MultiReader.read, hi, List.nil_append, if_true] at hs ⊢
      exact ByteSource.read_cons s.next n hs hn
    · have hlen : 0 < s.initial.length := List.length_pos_iff.mpr hi
      refine ⟨min n s.initial.length, by omega, by omega, by rw [List.length_append]; omega, ?_⟩
      rcases Nat.le_total n s.initial.length with h | h
      · simp [MultiReader.read, hi, Nat.min_eq_left h, List.take_append_of_le_length h,
          List.drop_append_of_le_length h]
      · simp [MultiReader.read, hi, Nat.min_eq_right h, List.take_of_length_le h,
          List.drop_of_length_le h]

/-! ### Assembling a buffer -/

/-- A read that reports no error returned at least one byte. -/
theorem data_ne_nil_of_err_none {s : σ} {n : ℕ} (hn : 0 < n) (h : (read s n).err = none) :
    (read s n).data ≠ [] := by
  intro hd
  by_cases hs : remaining s = []
  · rw [(ByteSource.read_nil s n hs).2.1] at h
    simp at h
  · obtain ⟨k, hk, -, hkr, hdata, -⟩ := ByteSource.read_cons s n hs hn
    have hlen := congrArg List.length (hdata.symm.trans hd)
    rw [List.length_take, List.length_nil] at hlen
    omega

/-- Read until `got` holds at least `min` bytes, offering each read the rest of a
buffer of length `len`. -/
def readLoop (len min : ℕ) (hle : min ≤ len) (s : σ) (got : Bytes) : ReadResult σ :=
  if _hlt : got.length < min then
    match _herr : (read s (len - got.length)).err with
    | none =>
        readLoop len min hle (read s (len - got.length)).next
          (got ++ (read s (len - got.length)).data)
    | some err =>
        ⟨got ++ (read s (len - got.length)).data, some err, (read s (len - got.length)).next⟩
  else ⟨got, none, s⟩
termination_by min - got.length
decreasing_by
  have hne := List.length_pos_iff.mpr (data_ne_nil_of_err_none (by omega) _herr)
  rw [List.length_append]
  omega

/-- Fill a buffer of length `len` with at least `min` bytes. -/
def readAtLeast (s : σ) (len min : ℕ) : ReadResult σ :=
  if hle : min ≤ len then
    let r := readLoop len min hle s []
    if min ≤ r.data.length then ⟨r.data, none, r.next⟩
    else if 0 < r.data.length ∧ r.err = some .eof then ⟨r.data, some .unexpectedEOF, r.next⟩
    else r
  else ⟨[], some .shortBuffer, s⟩

/-- Fill a buffer of length `len`. -/
def readFull (s : σ) (len : ℕ) : ReadResult σ := readAtLeast s len len

/-- The loop when the stream holds enough: it takes some number `k` of bytes, no
more than the buffer holds. -/
theorem readLoop_of_le {len min : ℕ} (hle : min ≤ len) : ∀ (m : ℕ) (s : σ) (got : Bytes),
    min - got.length = m → got.length ≤ len → min ≤ got.length + (remaining s).length →
    ∃ k, k ≤ (remaining s).length ∧ min ≤ got.length + k ∧ got.length + k ≤ len ∧
      (readLoop len min hle s got).data = got ++ (remaining s).take k ∧
      remaining (readLoop len min hle s got).next = (remaining s).drop k := by
  intro m
  induction m using Nat.strong_induction_on with
  | _ m ih =>
    intro s got hm hgot hmin
    rw [readLoop]
    by_cases hlt : got.length < min
    · simp only [hlt, dif_pos]
      have hs : remaining s ≠ [] := by
        intro h
        rw [h, List.length_nil] at hmin
        omega
      obtain ⟨k, hk, hkn, hkr, hdata, hnext, herr⟩ :=
        ByteSource.read_cons s (len - got.length) hs (by omega)
      have hdlen : ((remaining s).take k).length = k := by rw [List.length_take]; omega
      split
      · -- no error: the rest of the loop runs on what is left
        obtain ⟨k', hk', hmin', hlen', hd', hn'⟩ :=
          ih (min - (got ++ (remaining s).take k).length)
            (by rw [List.length_append, hdlen]; omega)
            (read s (len - got.length)).next (got ++ (remaining s).take k) rfl
            (by rw [List.length_append, hdlen]; omega)
            (by rw [hnext, List.length_append, hdlen, List.length_drop]; omega)
        rw [hnext, List.length_drop] at hk'
        rw [List.length_append, hdlen] at hmin' hlen'
        refine ⟨k + k', by omega, by omega, by omega, ?_, ?_⟩
        · rw [hdata, hd', hnext, List.append_assoc, List.take_add]
        · rw [hdata, hn', hnext, List.drop_drop]
      · -- the end was reported with the last bytes
        next e he =>
        have hdrop : (remaining s).drop k = [] := by
          rcases herr with h | ⟨-, h⟩
          · rw [h] at he; simp at he
          · exact h
        have hkeq : (remaining s).length ≤ k := List.drop_eq_nil_iff.mp hdrop
        refine ⟨k, hkr, by omega, by omega, by rw [hdata], by rw [hnext]⟩
    · simp only [hlt, dif_neg, not_false_eq_true]
      exact ⟨0, by omega, by omega, by omega, by simp, by simp⟩

/-- The loop when the stream ends too early: it takes everything. -/
theorem readLoop_of_lt {len min : ℕ} (hle : min ≤ len) : ∀ (m : ℕ) (s : σ) (got : Bytes),
    min - got.length = m → got.length + (remaining s).length < min →
    (readLoop len min hle s got).data = got ++ remaining s ∧
      (readLoop len min hle s got).err = some .eof ∧
      remaining (readLoop len min hle s got).next = [] := by
  intro m
  induction m using Nat.strong_induction_on with
  | _ m ih =>
    intro s got hm hmin
    have hlt : got.length < min := by omega
    rw [readLoop]
    simp only [hlt, dif_pos]
    by_cases hs : remaining s = []
    · obtain ⟨hd, he, hn⟩ := ByteSource.read_nil s (len - got.length) hs
      split
      · next h => rw [he] at h; simp at h
      · next e h =>
        rw [he] at h
        exact ⟨by rw [hd, hs], h.symm, hn⟩
    · obtain ⟨k, hk, hkn, hkr, hdata, hnext, herr⟩ :=
        ByteSource.read_cons s (len - got.length) hs (by omega)
      have hdlen : ((remaining s).take k).length = k := by rw [List.length_take]; omega
      split
      · obtain ⟨hd', he', hn'⟩ :=
          ih (min - (got ++ (remaining s).take k).length)
            (by rw [List.length_append, hdlen]; omega)
            (read s (len - got.length)).next (got ++ (remaining s).take k) rfl
            (by rw [hnext, List.length_append, hdlen, List.length_drop]; omega)
        rw [hdata]
        refine ⟨?_, he', hn'⟩
        rw [hd', hnext, List.append_assoc, List.take_append_drop]
      · next e he =>
        rcases herr with h | ⟨h, hdrop⟩
        · rw [h] at he; simp at he
        · have hall : (remaining s).take k = remaining s := by
            conv_rhs => rw [← List.take_append_drop k (remaining s), hdrop, List.append_nil]
          rw [h] at he
          exact ⟨by rw [hdata, hall], he.symm, by rw [hnext, hdrop]⟩

/-- **A buffer that the stream can fill** is filled with the next `k` bytes, for
some `k` between the least number asked for and the buffer's length. -/
theorem readAtLeast_of_le (s : σ) {len min : ℕ} (hle : min ≤ len)
    (hmin : min ≤ (remaining s).length) :
    ∃ k next, min ≤ k ∧ k ≤ len ∧ k ≤ (remaining s).length ∧
      remaining next = (remaining s).drop k ∧
      readAtLeast s len min = ⟨(remaining s).take k, none, next⟩ := by
  obtain ⟨k, hk, hmink, hlen, hd, hn⟩ :=
    readLoop_of_le hle _ s [] rfl (Nat.zero_le _) (by simpa using hmin)
  simp only [List.length_nil, Nat.zero_add, List.nil_append] at hmink hlen hd
  refine ⟨k, _, hmink, hlen, hk, hn, ?_⟩
  have htake : min ≤ ((remaining s).take k).length := by rw [List.length_take]; omega
  simp only [readAtLeast, hle, dif_pos, hd, if_pos htake]

/-- **A buffer that the stream cannot fill** takes everything, and the error tells
a stream that had ended from one that ends inside the buffer. -/
theorem readAtLeast_of_lt (s : σ) {len min : ℕ} (hle : min ≤ len)
    (hmin : (remaining s).length < min) :
    ∃ next, remaining next = [] ∧
      readAtLeast s len min =
        ⟨remaining s, some (if remaining s = [] then .eof else .unexpectedEOF), next⟩ := by
  obtain ⟨hd, he, hn⟩ := readLoop_of_lt hle _ s [] rfl (by simpa using hmin)
  rw [List.nil_append] at hd
  refine ⟨_, hn, ?_⟩
  have hnot : ¬ min ≤ (remaining s).length := by omega
  simp only [readAtLeast, hle, dif_pos]
  generalize readLoop len min hle s [] = r at hd he
  cases r with
  | mk data err next =>
    simp only at hd he
    subst hd he
    by_cases hs : remaining s = []
    · simp [hs, show ¬ min ≤ 0 by omega]
    · simp [hs, if_neg hnot, List.length_pos_iff]

/-- A full read takes exactly its length. -/
theorem readFull_of_le (s : σ) {len : ℕ} (hlen : len ≤ (remaining s).length) :
    ∃ next, remaining next = (remaining s).drop len ∧
      readFull s len = ⟨(remaining s).take len, none, next⟩ := by
  obtain ⟨k, next, hmin, hmax, -, hnext, h⟩ := readAtLeast_of_le s (le_refl len) hlen
  have hk : k = len := by omega
  subst hk
  exact ⟨next, hnext, h⟩

/-- A full read of more than there is takes everything and fails. -/
theorem readFull_of_lt (s : σ) {len : ℕ} (hlen : (remaining s).length < len) :
    ∃ next, remaining next = [] ∧
      readFull s len =
        ⟨remaining s, some (if remaining s = [] then .eof else .unexpectedEOF), next⟩ :=
  readAtLeast_of_lt s (le_refl len) hlen

end

/-! ### Files -/

/-- A file being read: a read returns all it asked for if that is there, some of what is there
otherwise, and the end of the file only when nothing is left. -/
class ByteFile (φ : Type) where
  remaining : φ → Bytes
  read : φ → ℕ → ReadResult φ
  read_append : ∀ (f : φ) (n : ℕ), (read f n).data ++ remaining (read f n).next = remaining f
  read_of_le : ∀ (f : φ) (n : ℕ), n ≤ (remaining f).length →
    (read f n).data.length = n ∧ (read f n).err = none
  read_of_lt : ∀ (f : φ) (n : ℕ), remaining f ≠ [] → (remaining f).length < n →
    (read f n).err = none
  read_nil : ∀ (f : φ) (n : ℕ), remaining f = [] → 0 < n → (read f n).err = some .eof

namespace ByteFile

/-- The file that returns all there is, up to what is asked for. -/
instance : ByteFile Bytes where
  remaining f := f
  read f n := ⟨f.take n, if f = [] ∧ 0 < n then some .eof else none, f.drop n⟩
  read_append f n := List.take_append_drop n f
  read_of_le := by
    intro f n hn
    refine ⟨List.length_take_of_le hn, if_neg ?_⟩
    rintro ⟨rfl, hpos⟩
    simp at hn
    omega
  read_of_lt := by
    intro f n hf _
    simp [hf]
  read_nil := by
    intro f n hf hn
    simp [hf, hn]

variable {φ : Type} [ByteFile φ]

theorem length_read_le (f : φ) (n : ℕ) : (read f n).data.length ≤ (remaining f).length := by
  rw [← read_append f n, List.length_append]
  omega

/-- What a read of `n` bytes returns when they start the file. -/
theorem read_of_append {f : φ} {a b : Bytes} (h : remaining f = a ++ b) :
    (read f a.length).data = a ∧ (read f a.length).err = none ∧
      remaining (read f a.length).next = b := by
  obtain ⟨hlen, herr⟩ := read_of_le f a.length (by rw [h, List.length_append]; omega)
  have happ := read_append f a.length
  rw [h] at happ
  obtain ⟨hdata, hrest⟩ := List.append_inj happ hlen
  exact ⟨hdata, herr, hrest⟩

/-- A read of more than there is fails, or returns less. -/
theorem read_short {f : φ} {n : ℕ} (h : (remaining f).length < n) :
    (read f n).err = some .eof ∨ ((read f n).err = none ∧ (read f n).data.length < n) := by
  by_cases hf : remaining f = []
  · exact .inl (read_nil f n hf (by omega))
  · exact .inr ⟨read_of_lt f n hf h, (length_read_le f n).trans_lt h⟩

end ByteFile

end ByteStream
