import Mathlib.Data.Nat.Log
import Mathlib.Data.Rat.Floor
import Mathlib.Tactic.Common

/-!
# Backing off between dials

A dial policy counts failures, and waits before a dial the longer the more of them there were.  The
wait doubles with every failure, thirty times at most, and is then cut down to a maximum.  It is
computed as a 64-bit number of nanoseconds: the product is taken before it is cut, and may wrap.

## Main definitions

* `BackoffConfig`, `BackoffDialPolicy` — the configuration and the state of a policy.
* `underlayClosed`, `resetStaleFailures`, `recordSuccess`, `recordFailure` — what the policy is told,
  and what it makes of it.
* `getBackoffDelay` — the wait.

## Main results

* `toInt_product` — the product, when it does not wrap.
* `getBackoffDelay_pos` — with a failure counted there is a wait.
* `backsOff_iff` — **the wait is between base and maximum, and does not shrink as failures add up,
  exactly if the base is less than `2 ^ 33` nanoseconds.**

The source is `dial_policy.go`.
-/

namespace ZitiChannel

/-! ### Policies -/

/-- A number of nanoseconds. -/
abbrev Duration := Int64

/-- An instant, in nanoseconds since the zero time. -/
abbrev Time := ℤ

/-- The time from `t` to `now`, as far as a duration can express it. -/
def since (now t : Time) : Duration := Int64.ofInt (max (-2 ^ 63) (min (2 ^ 63 - 1) (now - t)))

structure BackoffConfig where
  /-- The wait after the first failure. -/
  baseDelay : Duration
  maxDelay : Duration
  /-- How long a connection must live to be stable. -/
  minStableDuration : Duration
  /-- The least time between dials. -/
  minDialInterval : Duration
  /-- The greatest part of a wait that is taken off at random. -/
  jitter : ℚ

def defaultBackoffConfig : BackoffConfig where
  baseDelay := 2000000000
  maxDelay := 60000000000
  minStableDuration := 30000000000
  minDialInterval := 0
  jitter := 0

structure BackoffDialPolicy where
  backoff : BackoffConfig
  consecutiveFailures : UInt32
  lastDialSuccess : Time
  lastNegativeEvent : Time
  lastDialTime : Time
  /-- How often the group was established anew. -/
  iteration : UInt32

namespace BackoffDialPolicy

def newBackoffDialPolicy (config : BackoffConfig) : BackoffDialPolicy where
  backoff := config
  consecutiveFailures := 0
  lastDialSuccess := 0
  lastNegativeEvent := 0
  lastDialTime := 0
  iteration := 0

/-- An underlay was closed: one that did not live long is a failure, any other ends the row of
failures. -/
def underlayClosed (p : BackoffDialPolicy) (lifetime : Duration) (now : Time) :
    BackoffDialPolicy :=
  if lifetime < p.backoff.minStableDuration then
    { p with
      consecutiveFailures := p.consecutiveFailures + 1
      lastNegativeEvent := now }
  else { p with consecutiveFailures := 0 }

/-- Forget the failures if the last connection has outlived them. -/
def resetStaleFailures (p : BackoffDialPolicy) (now : Time) : BackoffDialPolicy :=
  if p.consecutiveFailures = 0 ∨ p.lastDialSuccess = 0 then p
  else if p.lastNegativeEvent < p.lastDialSuccess ∧
      p.backoff.minStableDuration ≤ since now p.lastDialSuccess then
    { p with consecutiveFailures := 0 }
  else p

def recordSuccess (p : BackoffDialPolicy) (now : Time) : BackoffDialPolicy :=
  { p with lastDialSuccess := now }

def recordFailure (p : BackoffDialPolicy) (now : Time) : BackoffDialPolicy :=
  { p with
    consecutiveFailures := p.consecutiveFailures + 1
    lastNegativeEvent := now }

/-- By how much the base is multiplied: the shift is at most thirty. -/
def factor (failures : UInt32) : Duration := Int64.ofNat (1 <<< (min (failures - 1) 30).toNat)

/-- The wait before the next dial.  `draw` is the random number.  The source computes the jitter in
`float64` and truncates it; here it is computed in the rationals and its floor is taken, so the
roundings of `float64` are not modelled. -/
def getBackoffDelay (p : BackoffDialPolicy) (draw : ℚ) : Duration :=
  if p.consecutiveFailures = 0 then 0
  else
    let delay := min (p.backoff.baseDelay * factor p.consecutiveFailures) p.backoff.maxDelay
    if 0 < p.backoff.jitter ∧ 0 < delay then
      let jitter := if 1 < p.backoff.jitter then 1 else p.backoff.jitter
      delay - Int64.ofInt ⌊draw * jitter * delay.toInt⌋
    else delay

/-! ### The wait -/

theorem toInt_min (a b : Int64) : (min a b).toInt = min a.toInt b.toInt := by
  rw [show min a b = if a ≤ b then a else b from rfl]
  split
  · next h => rw [min_eq_left (Int64.le_iff_toInt_le.mp h)]
  · next h => rw [min_eq_right (le_of_not_ge (mt Int64.le_iff_toInt_le.mpr h))]

/-- The exponent of the factor. -/
def doublings (failures : UInt32) : ℕ := min (failures.toNat - 1) 30

theorem doublings_le (failures : UInt32) : doublings failures ≤ 30 := Nat.min_le_right _ _

theorem doublings_mono {f f' : UInt32} (h : f ≤ f') : doublings f ≤ doublings f' := by
  have := UInt32.le_iff_toNat_le.mp h
  unfold doublings
  omega

/-- Every exponent up to thirty is that of some number of failures. -/
theorem exists_doublings {e : ℕ} (he : e ≤ 30) : ∃ f : UInt32, f ≠ 0 ∧ doublings f = e := by
  have hnat : (UInt32.ofNat (e + 1)).toNat = e + 1 := by
    rw [UInt32.toNat_ofNat']
    omega
  refine ⟨UInt32.ofNat (e + 1), ?_, ?_⟩
  · intro h
    rw [h] at hnat
    exact absurd hnat (by simp)
  · rw [doublings, hnat]
    omega

theorem toInt_factor {failures : UInt32} (h : failures ≠ 0) :
    (factor failures).toInt = 2 ^ doublings failures := by
  have hpos : 1 ≤ failures.toNat := by
    have : failures.toNat ≠ 0 := fun h0 => h (UInt32.toNat_inj.mp h0)
    omega
  have hsub : (failures - 1).toNat = failures.toNat - 1 :=
    UInt32.toNat_sub_of_le _ _ (UInt32.le_iff_toNat_le.mpr hpos)
  have hexp : (min (failures - 1) 30).toNat = doublings failures := by
    rw [doublings, ← hsub, show min (failures - 1) 30 = if failures - 1 ≤ 30 then failures - 1
      else 30 from rfl]
    split
    · next hle =>
      have : (failures - 1).toNat ≤ 30 := UInt32.le_iff_toNat_le.mp hle
      omega
    · next hle =>
      have : ¬ (failures - 1).toNat ≤ 30 := fun h => hle (UInt32.le_iff_toNat_le.mpr h)
      rw [show (30 : UInt32).toNat = 30 from rfl]
      omega
  have hlt : 2 ^ doublings failures < 2 ^ 63 :=
    Nat.pow_lt_pow_right (by decide) (by have := doublings_le failures; omega)
  rw [factor, hexp, Nat.one_shiftLeft, Int64.toInt_ofNat_of_lt hlt]
  norm_cast

section

variable {p : BackoffDialPolicy} {draw : ℚ}

/-- Without jitter, the wait is the product, as it wraps, up to the maximum. -/
theorem toInt_getBackoffDelay (hjitter : p.backoff.jitter ≤ 0) (hf : p.consecutiveFailures ≠ 0) :
    (p.getBackoffDelay draw).toInt =
      min ((p.backoff.baseDelay.toInt * 2 ^ doublings p.consecutiveFailures).bmod (2 ^ 64))
        p.backoff.maxDelay.toInt := by
  simp only [getBackoffDelay, hf, if_false, not_lt.mpr hjitter, false_and]
  rw [toInt_min, Int64.toInt_mul, toInt_factor hf]

end

/-- A product that a duration can express does not wrap. -/
theorem toInt_product {b : ℤ} {e : ℕ} (hb : 0 < b) (hlt : b < 2 ^ 33) (he : e ≤ 30) :
    (b * 2 ^ e).bmod (2 ^ 64) = b * 2 ^ e := by
  have hpow : (2 : ℤ) ^ e ≤ 2 ^ 30 := pow_le_pow_right₀ (by decide) he
  have hpos : (0 : ℤ) < 2 ^ e := by positivity
  have hprod : b * 2 ^ e < 2 ^ 33 * 2 ^ 30 := by nlinarith
  have hprod0 : 0 < b * 2 ^ e := by positivity
  exact Int.bmod_eq_of_le (by omega) (by omega)

/-- What jitter takes off is less than the whole. -/
theorem toInt_sub_jitter {delay : Duration} {x : ℚ} (hpos : 0 < delay.toInt) (h0 : 0 ≤ x) (h1 : x < 1) :
    0 < (delay - Int64.ofInt ⌊x * delay.toInt⌋).toInt := by
  have hq : (0 : ℚ) < delay.toInt := by exact_mod_cast hpos
  have hlow : 0 ≤ ⌊x * delay.toInt⌋ := Int.floor_nonneg.mpr (by positivity)
  have hhigh : ⌊x * delay.toInt⌋ < delay.toInt := by
    rw [Int.floor_lt]
    nlinarith
  have hle := delay.toInt_lt
  have hpart : (Int64.ofInt ⌊x * delay.toInt⌋).toInt = ⌊x * delay.toInt⌋ :=
    Int64.toInt_ofInt_of_le (by omega) (by omega)
  rw [Int64.toInt_sub, hpart, Int.bmod_eq_of_le (by omega) (by omega)]
  omega

/-- With a failure counted there is a wait, whatever the jitter. -/
theorem getBackoffDelay_pos {p : BackoffDialPolicy} {draw : ℚ} (hbase : 0 < p.backoff.baseDelay)
    (hlt : p.backoff.baseDelay < 8589934592) (hmax : 0 < p.backoff.maxDelay)
    (hf : p.consecutiveFailures ≠ 0) (h0 : 0 ≤ draw) (h1 : draw < 1) :
    0 < p.getBackoffDelay draw := by
  have hb : 0 < p.backoff.baseDelay.toInt := Int64.lt_iff_toInt_lt.mp hbase
  have hb' : p.backoff.baseDelay.toInt < 2 ^ 33 := Int64.lt_iff_toInt_lt.mp hlt
  have hm : 0 < p.backoff.maxDelay.toInt := Int64.lt_iff_toInt_lt.mp hmax
  have hdelay : 0 < (min (p.backoff.baseDelay * factor p.consecutiveFailures)
      p.backoff.maxDelay).toInt := by
    have hprod := toInt_product hb hb' (doublings_le p.consecutiveFailures)
    rw [toInt_min, Int64.toInt_mul, toInt_factor hf, hprod]
    exact lt_min (by positivity) hm
  rw [Int64.lt_iff_toInt_lt]
  simp only [getBackoffDelay, hf, if_false]
  split
  · next h =>
    refine toInt_sub_jitter hdelay ?_ ?_
    · split
      · linarith
      · exact mul_nonneg h0 h.1.le
    · split
      · linarith
      · nlinarith [h.1]
  · exact hdelay

/-- A base of `2 ^ 33` or more has a multiple that wraps to less than nothing. -/
theorem exists_product_neg {b : ℤ} (hb : 2 ^ 33 ≤ b) (hlt : b < 2 ^ 63) :
    ∃ e ≤ 30, (b * 2 ^ e).bmod (2 ^ 64) < 0 := by
  obtain ⟨n, rfl⟩ := Int.eq_ofNat_of_zero_le (show 0 ≤ b by omega)
  have hn : 2 ^ 33 ≤ n := by exact_mod_cast hb
  have hn' : n < 2 ^ 63 := by exact_mod_cast hlt
  have hlow : 33 ≤ Nat.log 2 n := Nat.le_log_of_pow_le (by decide) hn
  have hhigh : Nat.log 2 n < 63 := Nat.log_lt_of_lt_pow (by omega) hn'
  -- doubling until the sign bit is reached, and no further
  have hfrom : 2 ^ 63 ≤ n * 2 ^ (63 - Nat.log 2 n) := by
    calc 2 ^ 63 = 2 ^ Nat.log 2 n * 2 ^ (63 - Nat.log 2 n) := by rw [← Nat.pow_add]; congr 1; omega
      _ ≤ n * 2 ^ (63 - Nat.log 2 n) :=
        Nat.mul_le_mul_right _ (Nat.pow_log_le_self 2 (by omega))
  have hto : n * 2 ^ (63 - Nat.log 2 n) < 2 ^ 64 := by
    calc n * 2 ^ (63 - Nat.log 2 n) < 2 ^ (Nat.log 2 n + 1) * 2 ^ (63 - Nat.log 2 n) :=
        Nat.mul_lt_mul_of_pos_right (Nat.lt_pow_succ_log_self (by decide) n) (by positivity)
      _ = 2 ^ 64 := by rw [← Nat.pow_add]; congr 1; omega
  refine ⟨63 - Nat.log 2 n, by omega, ?_⟩
  have hcast : (n : ℤ) * 2 ^ (63 - Nat.log 2 n) = ((n * 2 ^ (63 - Nat.log 2 n) : ℕ) : ℤ) := by
    push_cast; rfl
  rw [hcast]
  generalize n * 2 ^ (63 - Nat.log 2 n) = m at hfrom hto
  rw [Int.bmod]
  omega

/-- What a backoff is to be: after any number of failures the wait is at least the base, or the
maximum if that is less, and at most the maximum; and more failures do not make it shorter. -/
def BacksOff (config : BackoffConfig) : Prop :=
  ∀ (p : BackoffDialPolicy) (draw : ℚ), p.backoff = config → 1 ≤ p.consecutiveFailures →
    min config.baseDelay config.maxDelay ≤ p.getBackoffDelay draw ∧
      p.getBackoffDelay draw ≤ config.maxDelay ∧
      ∀ (p' : BackoffDialPolicy) (draw' : ℚ), p'.backoff = config →
        p.consecutiveFailures ≤ p'.consecutiveFailures →
        p.getBackoffDelay draw ≤ p'.getBackoffDelay draw'

/-- **The backoff is one** if and only if the base is less than `2 ^ 33` nanoseconds, about eight
and a half seconds: thirty doublings of anything greater wrap. -/
theorem backsOff_iff (config : BackoffConfig) (hbase : 0 < config.baseDelay)
    (hmax : 0 < config.maxDelay) (hjitter : config.jitter ≤ 0) :
    BacksOff config ↔ config.baseDelay < 8589934592 := by
  have hb : 0 < config.baseDelay.toInt := Int64.lt_iff_toInt_lt.mp hbase
  have hm : 0 < config.maxDelay.toInt := Int64.lt_iff_toInt_lt.mp hmax
  have hdelay : ∀ (p : BackoffDialPolicy) (draw : ℚ), p.backoff = config →
      p.consecutiveFailures ≠ 0 → (p.getBackoffDelay draw).toInt =
        min ((config.baseDelay.toInt * 2 ^ doublings p.consecutiveFailures).bmod (2 ^ 64))
          config.maxDelay.toInt := by
    rintro p draw rfl hf
    exact toInt_getBackoffDelay hjitter hf
  rw [Int64.lt_iff_toInt_lt, show (8589934592 : Int64).toInt = 2 ^ 33 from rfl]
  constructor
  · -- a base that is too great has a negative wait
    intro h
    by_contra hbig
    obtain ⟨e, he, hneg⟩ := exists_product_neg (not_lt.mp hbig) config.baseDelay.toInt_lt
    obtain ⟨f, hf, hfe⟩ := exists_doublings he
    have hf1 : 1 ≤ f := by
      have : f.toNat ≠ 0 := fun h0 => hf (UInt32.toNat_inj.mp h0)
      exact UInt32.le_iff_toNat_le.mpr (Nat.one_le_iff_ne_zero.mpr this)
    have hlow := (h { newBackoffDialPolicy config with consecutiveFailures := f } 0 rfl hf1).1
    rw [Int64.le_iff_toInt_le, hdelay _ 0 rfl hf, toInt_min, hfe] at hlow
    omega
  · intro hlt p draw hp hf
    have hne : ∀ {f : UInt32}, 1 ≤ f → f ≠ 0 := by
      rintro f hf rfl
      exact absurd hf (by decide)
    have hprod := fun f => toInt_product hb hlt (doublings_le f)
    simp only [Int64.le_iff_toInt_le, toInt_min]
    rw [hdelay p draw hp (hne hf), hprod]
    have hpow : (1 : ℤ) ≤ 2 ^ doublings p.consecutiveFailures := one_le_pow₀ (by decide)
    refine ⟨min_le_min_right _ (le_mul_of_one_le_right hb.le hpow), min_le_right _ _, ?_⟩
    intro p' draw' hp' hle
    rw [hdelay p' draw' hp' (hne (UInt32.le_trans hf hle)), hprod]
    exact min_le_min_right _ (mul_le_mul_of_nonneg_left
      (pow_le_pow_right₀ (by decide) (doublings_mono hle)) hb.le)

/-- The default configuration backs off. -/
theorem backsOff_default :
    0 < defaultBackoffConfig.baseDelay ∧ 0 < defaultBackoffConfig.maxDelay ∧
      defaultBackoffConfig.jitter ≤ 0 ∧ BacksOff defaultBackoffConfig :=
  ⟨by decide, by decide, le_refl _,
    (backsOff_iff defaultBackoffConfig (by decide) (by decide) (le_refl _)).mpr (by decide)⟩

/-- A base of ten seconds and a maximum of one minute: after thirty-one failures the wait is
negative, so that there is none. -/
theorem backsOff_ten_seconds :
    let config : BackoffConfig := ⟨10000000000, 60000000000, 30000000000, 0, 0⟩
    let p : BackoffDialPolicy := { newBackoffDialPolicy config with consecutiveFailures := 31 }
    0 < config.baseDelay ∧ 0 < config.maxDelay ∧ p.getBackoffDelay 0 < 0 ∧
      ¬ min config.baseDelay config.maxDelay ≤ p.getBackoffDelay 0 := by
  decide

end BackoffDialPolicy

end ZitiChannel
