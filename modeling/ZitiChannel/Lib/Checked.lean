import Mathlib.Tactic.Common
import ZitiChannel.Lib.LittleEndian

/-!
# Byte strings with checked access

Reading outside a byte string, or writing outside a buffer, stops a program.  The functions here
make that visible: they stop with `panic` exactly when the access is out of range, and the bounds
may be any integers, also negative ones.

A buffer is written from its start to its end.  `putUint32At` and `copyAt` say what writing does at
any place; `putUint32At_of_append` and `copyAt_of_append` say what it does behind what was written
before, which is all that a program writing in order needs.

## Main definitions

* `Stop` — why a function stops: out of range, or with an error of its own.
* `sliceAt`, `uint32At` — reading.
* `putUint32At`, `copyAt` — writing.
* `Writes` — a step of a loop that writes an encoding, and goes on behind it.

## Main results

* `sliceAt_of_le`, `uint32At_of_le` — reading in range.
* `sliceAt_word`, `uint32At_word`, `sliceAt_behind_word` — reading a word, and what follows it.
* `putUint32At_of_append`, `copyAt_of_append` — writing in order.
* `Writes.foldlM` — a loop of such steps writes all the encodings.
-/

namespace ByteStream

/-- Why a function stops without a result. -/
inductive Stop (ε : Type)
  /-- An access was out of range. -/
  | panic
  /-- It returns an error. -/
  | error (err : ε)
  deriving DecidableEq, Repr

section

variable {ε : Type}

/-! ### Reading -/

/-- The bytes from `lo` to `hi`. -/
def sliceAt (b : Bytes) (lo hi : ℤ) : Except (Stop ε) Bytes :=
  if 0 ≤ lo ∧ lo ≤ hi ∧ hi ≤ b.length then .ok ((b.take hi.toNat).drop lo.toNat)
  else .error .panic

/-- The 32-bit word in the first four bytes. -/
def uint32At (b : Bytes) : Except (Stop ε) UInt32 :=
  if 4 ≤ b.length then .ok (uint32 b) else .error .panic

/-- What is known of a slice that was taken. -/
theorem sliceAt_ok {b b' : Bytes} {lo hi : ℤ} (h : sliceAt (ε := ε) b lo hi = .ok b') :
    0 ≤ lo ∧ lo ≤ hi ∧ hi ≤ b.length ∧ (b'.length : ℤ) = hi - lo := by
  rw [sliceAt] at h
  split at h
  · next hin =>
    cases h
    rw [List.length_drop, List.length_take]
    omega
  · cases h

theorem uint32At_ok {b : Bytes} {v : UInt32} (h : uint32At (ε := ε) b = .ok v) : 4 ≤ b.length := by
  rw [uint32At] at h
  split at h
  · next hlen => exact hlen
  · cases h

theorem sliceAt_of_lt {b : Bytes} {lo hi : ℤ} (h : hi < lo) :
    sliceAt (ε := ε) b lo hi = .error .panic :=
  if_neg fun hin => by omega

theorem sliceAt_of_le {b : Bytes} {lo hi : ℕ} (hle : lo ≤ hi) (hlen : hi ≤ b.length) :
    sliceAt (ε := ε) b lo hi = .ok ((b.take hi).drop lo) := by
  rw [sliceAt, if_pos ⟨by omega, by omega, by omega⟩, Int.toNat_natCast, Int.toNat_natCast]

theorem sliceAt_take {b : Bytes} {n : ℕ} (h : n ≤ b.length) :
    sliceAt (ε := ε) b 0 n = .ok (b.take n) :=
  sliceAt_of_le (Nat.zero_le n) h

theorem sliceAt_drop {b : Bytes} {n : ℕ} (h : n ≤ b.length) :
    sliceAt (ε := ε) b n b.length = .ok (b.drop n) := by
  rw [sliceAt_of_le h le_rfl, List.take_length]

theorem uint32At_of_le {b : Bytes} (h : 4 ≤ b.length) : uint32At (ε := ε) b = .ok (uint32 b) :=
  if_pos h

/-! A word is read from the first four bytes, and reading goes on behind them. -/

theorem sliceAt_word {b : Bytes} (h : 4 ≤ b.length) : sliceAt (ε := ε) b 0 4 = .ok (b.take 4) :=
  sliceAt_take h

theorem sliceAt_behind_word {b : Bytes} (h : 4 ≤ b.length) :
    sliceAt (ε := ε) b 4 b.length = .ok (b.drop 4) :=
  sliceAt_drop h

theorem uint32At_word {b : Bytes} (h : 4 ≤ b.length) :
    uint32At (ε := ε) (b.take 4) = .ok (uint32 b) := by
  rw [uint32At_of_le (by rw [List.length_take]; omega), uint32_take]

/-! ### Writing -/

/-- Write a 32-bit word at `i`. -/
def putUint32At (b : Bytes) (i : ℕ) (v : UInt32) : Except (Stop ε) Bytes :=
  if i + 4 ≤ b.length then .ok (b.take i ++ putUint32 v ++ b.drop (i + 4)) else .error .panic

/-- Copy `src` to `i`, as much of it as there is room for. -/
def copyAt (b : Bytes) (i : ℕ) (src : Bytes) : Except (Stop ε) Bytes :=
  if i ≤ b.length then
    .ok (b.take i ++ src.take (b.length - i) ++ b.drop (i + src.length))
  else .error .panic

/-- A word written behind `done`. -/
theorem putUint32At_of_append {done : Bytes} {i free : ℕ} (hi : i = done.length) (h : 4 ≤ free)
    (v : UInt32) : putUint32At (ε := ε) (done ++ List.replicate free 0) i v =
      .ok ((done ++ putUint32 v) ++ List.replicate (free - 4) 0) := by
  have hlen : (done ++ List.replicate free (0 : UInt8)).length = done.length + free := by simp
  rw [hi, putUint32At, if_pos (by rw [hlen]; omega), List.take_left, List.drop_append,
    Nat.add_sub_cancel_left, List.drop_replicate, List.drop_of_length_le (by omega),
    List.nil_append]

/-- Bytes copied behind `done`. -/
theorem copyAt_of_append {done src : Bytes} {i free : ℕ} (hi : i = done.length)
    (h : src.length ≤ free) : copyAt (ε := ε) (done ++ List.replicate free 0) i src =
      .ok ((done ++ src) ++ List.replicate (free - src.length) 0) := by
  have hlen : (done ++ List.replicate free (0 : UInt8)).length = done.length + free := by simp
  rw [hi, copyAt, if_pos (by rw [hlen]; omega), List.take_left, hlen, Nat.add_sub_cancel_left,
    List.take_of_length_le h, List.drop_append, Nat.add_sub_cancel_left, List.drop_replicate,
    List.drop_of_length_le (by omega), List.nil_append]

/-- Where there is room behind what is written, `write` puts the encoding of `a` there, and the
place to go on is behind it. -/
def Writes {α : Type} (write : Bytes × ℕ → α → Except (Stop ε) (Bytes × ℕ)) (enc : α → Bytes) :
    Prop :=
  ∀ (a : α) (done : Bytes) (free : ℕ), (enc a).length ≤ free →
    write (done ++ List.replicate free 0, done.length) a =
      .ok ((done ++ enc a) ++ List.replicate (free - (enc a).length) 0, (done ++ enc a).length)

/-- **A loop of writes** leaves the encodings one after the other. -/
theorem Writes.foldlM {α : Type} {write : Bytes × ℕ → α → Except (Stop ε) (Bytes × ℕ)}
    {enc : α → Bytes} (hwrite : Writes write enc) : ∀ (as : List α) (done : Bytes) (free : ℕ),
    (as.flatMap enc).length ≤ free →
    as.foldlM write (done ++ List.replicate free 0, done.length) =
      .ok ((done ++ as.flatMap enc) ++ List.replicate (free - (as.flatMap enc).length) 0,
        (done ++ as.flatMap enc).length) := by
  intro as
  induction as with
  | nil => intro done free _; simp [pure, Except.pure]
  | cons a as ih =>
    intro done free hfree
    rw [List.flatMap_cons, List.length_append] at hfree
    rw [List.foldlM_cons, hwrite a done free (by omega)]
    refine (ih (done ++ enc a) (free - (enc a).length) (by omega)).trans ?_
    have hlen : (enc a ++ as.flatMap enc).length = (enc a).length + (as.flatMap enc).length :=
      List.length_append
    rw [List.flatMap_cons, ← List.append_assoc, hlen, Nat.sub_add_eq]

end

end ByteStream
