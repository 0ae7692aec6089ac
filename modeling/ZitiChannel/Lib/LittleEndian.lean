import Mathlib.Data.Nat.Notation
import Mathlib.Tactic.Positivity
import Mathlib.Tactic.Ring

/-!
# Little-endian byte strings

`leBytes n v` is the little-endian encoding of `v` in `n` bytes, truncating what
does not fit; `leNat` reads a byte string back.  The fixed-width forms that
binary formats use are instances, on the machine integers of that width.

## Main results

* `leNat_leBytes`, `leBytes_leNat` — the two round trips, at any width.
* `uint32_putUint32`, `int32_putInt32` — at 32 bits; `uint16_putUint16`, `uint64_putUint64` — at
  16 and 64.
-/

namespace ByteStream

/-- A byte string. -/
abbrev Bytes := List UInt8

/-- The `n` low bytes of `v`, least significant first. -/
def leBytes : ℕ → ℕ → Bytes
  | 0, _ => []
  | n + 1, v => UInt8.ofNat v :: leBytes n (v / 256)

/-- The number a byte string denotes, least significant byte first. -/
def leNat : Bytes → ℕ
  | [] => 0
  | b :: bs => b.toNat + 256 * leNat bs

@[simp] theorem length_leBytes (n v : ℕ) : (leBytes n v).length = n := by
  induction n generalizing v with
  | zero => rfl
  | succ n ih => simp [leBytes, ih]

/-- Reading back what `leBytes` wrote loses only what did not fit. -/
theorem leNat_leBytes (n v : ℕ) : leNat (leBytes n v) = v % 256 ^ n := by
  induction n generalizing v with
  | zero => simp [leBytes, leNat, Nat.mod_one]
  | succ n ih =>
    have hpow : 256 ^ (n + 1) = 256 * 256 ^ n := by ring
    rw [leBytes, leNat, ih, hpow, Nat.mod_mul]
    rfl

/-- Writing back what `leNat` read. -/
theorem leBytes_leNat (b : Bytes) : leBytes b.length (leNat b) = b := by
  induction b with
  | nil => rfl
  | cons x b ih =>
    have hdiv : (x.toNat + 256 * leNat b) / 256 = leNat b := by
      have := x.toNat_lt
      omega
    have hmod : UInt8.ofNat (x.toNat + 256 * leNat b) = x := by
      apply UInt8.toNat_inj.mp
      have := x.toNat_lt
      rw [UInt8.toNat_ofNat']
      omega
    rw [List.length_cons, leNat, leBytes, hdiv, hmod, ih]

theorem leNat_lt (b : Bytes) : leNat b < 256 ^ b.length := by
  have h := leNat_leBytes b.length (leNat b)
  rw [leBytes_leNat] at h
  rw [h]
  exact Nat.mod_lt _ (by positivity)

/-! ### 32 bits -/

/-- The four bytes of a 32-bit word. -/
def putUint32 (v : UInt32) : Bytes := leBytes 4 v.toNat

/-- The 32-bit word in the first four bytes. -/
def uint32 (b : Bytes) : UInt32 := UInt32.ofNat (leNat (b.take 4))

@[simp] theorem length_putUint32 (v : UInt32) : (putUint32 v).length = 4 := length_leBytes 4 _

@[simp] theorem uint32_putUint32_append (v : UInt32) (b : Bytes) :
    uint32 (putUint32 v ++ b) = v := by
  have htake : (putUint32 v ++ b).take 4 = putUint32 v := by
    rw [List.take_append_of_le_length (by simp), List.take_of_length_le (by simp)]
  rw [uint32, htake, putUint32, leNat_leBytes]
  apply UInt32.toNat_inj.mp
  have hv : v.toNat < 2 ^ 32 := v.toNat_lt
  rw [UInt32.toNat_ofNat']
  omega

@[simp] theorem uint32_putUint32 (v : UInt32) : uint32 (putUint32 v) = v := by
  simpa using uint32_putUint32_append v []

/-- Four bytes are those of the word they denote. -/
theorem putUint32_uint32 {b : Bytes} (h : b.length = 4) : putUint32 (uint32 b) = b := by
  have hlt := leNat_lt b
  rw [h] at hlt
  rw [uint32, List.take_of_length_le h.le, putUint32, UInt32.toNat_ofNat_of_lt' hlt]
  conv_rhs => rw [← leBytes_leNat b, h]

theorem uint32_take (b : Bytes) : uint32 (b.take 4) = uint32 b := by
  rw [uint32, uint32, List.take_take, Nat.min_self]

theorem uint32_append {b : Bytes} (h : b.length = 4) (b' : Bytes) : uint32 (b ++ b') = uint32 b := by
  rw [uint32, uint32, List.take_append_of_le_length (by omega)]

/-- The four bytes of a signed 32-bit word. -/
def putInt32 (v : Int32) : Bytes := putUint32 v.toUInt32

/-- The signed 32-bit word in the first four bytes. -/
def int32 (b : Bytes) : Int32 := (uint32 b).toInt32

@[simp] theorem length_putInt32 (v : Int32) : (putInt32 v).length = 4 := length_putUint32 _

@[simp] theorem int32_putInt32 (v : Int32) : int32 (putInt32 v) = v := by
  rw [int32, putInt32, uint32_putUint32, Int32.toInt32_toUInt32]

theorem putInt32_int32 {b : Bytes} (h : b.length = 4) : putInt32 (int32 b) = b := by
  rw [putInt32, int32, UInt32.toUInt32_toInt32, putUint32_uint32 h]

/-! ### 16 and 64 bits -/

/-- The two bytes of a 16-bit word. -/
def putUint16 (v : UInt16) : Bytes := leBytes 2 v.toNat

/-- The 16-bit word in the first two bytes. -/
def uint16 (b : Bytes) : UInt16 := UInt16.ofNat (leNat (b.take 2))

@[simp] theorem length_putUint16 (v : UInt16) : (putUint16 v).length = 2 := length_leBytes 2 _

@[simp] theorem uint16_putUint16 (v : UInt16) : uint16 (putUint16 v) = v := by
  rw [uint16, List.take_of_length_le (by simp), putUint16, leNat_leBytes]
  apply UInt16.toNat_inj.mp
  have hv : v.toNat < 2 ^ 16 := v.toNat_lt
  rw [UInt16.toNat_ofNat']
  omega

/-- Two bytes are those of the word they denote. -/
theorem putUint16_uint16 {b : Bytes} (h : b.length = 2) : putUint16 (uint16 b) = b := by
  have hlt := leNat_lt b
  rw [h] at hlt
  rw [uint16, List.take_of_length_le h.le, putUint16, UInt16.toNat_ofNat_of_lt' hlt]
  conv_rhs => rw [← leBytes_leNat b, h]

/-- The eight bytes of a 64-bit word. -/
def putUint64 (v : UInt64) : Bytes := leBytes 8 v.toNat

/-- The 64-bit word in the first eight bytes. -/
def uint64 (b : Bytes) : UInt64 := UInt64.ofNat (leNat (b.take 8))

@[simp] theorem length_putUint64 (v : UInt64) : (putUint64 v).length = 8 := length_leBytes 8 _

@[simp] theorem uint64_putUint64 (v : UInt64) : uint64 (putUint64 v) = v := by
  rw [uint64, List.take_of_length_le (by simp), putUint64, leNat_leBytes]
  apply UInt64.toNat_inj.mp
  have hv : v.toNat < 2 ^ 64 := v.toNat_lt
  rw [UInt64.toNat_ofNat']
  omega

/-- Eight bytes are those of the word they denote. -/
theorem putUint64_uint64 {b : Bytes} (h : b.length = 8) : putUint64 (uint64 b) = b := by
  have hlt := leNat_lt b
  rw [h] at hlt
  rw [uint64, List.take_of_length_le h.le, putUint64, UInt64.toNat_ofNat_of_lt' hlt]
  conv_rhs => rw [← leBytes_leNat b, h]

end ByteStream
