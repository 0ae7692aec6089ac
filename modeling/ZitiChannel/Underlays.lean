import ZitiChannel.ChannelImpl
import ZitiChannel.Lib.Tally

/-!
# Underlay types and constraints

An underlay says in its headers of which type it is.  A channel looks at the type in two
places.  To serve an underlay it validates the type: an unrecognised one is served as
the default type.  To check its constraints it counts underlays by type, and there the
type is taken as it stands.

## Main definitions

* `getUnderlayType`, `getValidatedUnderlayType` — the two readings of the type.
* `countsByType` — the counts that constraint checking uses.
* `areConstraintDesiresSatisfied`, `countsShowValidState` — the checks.

## Main results

* `counts_agree_iff` — **the two readings agree on the counts exactly when the type of
  every underlay is recognised.**

The sources are `impl.go` and `underlays.go`.
-/

namespace ZitiChannel

open ByteStream

/-- The type of an underlay without a recognised type: "default". -/
def defaultUnderlayType : GoString := str "default"

/-- The type that the headers name, if they name one. -/
def getUnderlayType (u : Underlay) : GoString :=
  let t := u.headers.index typeHeader
  if t ≠ [] then t else defaultUnderlayType

/-- The type under which a channel serves an underlay. -/
def getValidatedUnderlayType (validUnderlayTypes : List GoString) (u : Underlay) : GoString :=
  let t := getUnderlayType u
  if validUnderlayTypes.length = 0 then t
  else if t ∈ validUnderlayTypes then t
  else defaultUnderlayType

/-- The number of underlays of each type. -/
def countsByType (entries : List Underlay) : Tally GoString := Tally.ofList getUnderlayType entries

/-- A channel's constraints, by underlay type. -/
abbrev Constraints := Finmap fun _ : GoString => UnderlayConstraint

/-- Whether every type has the number of underlays that is desired. -/
def areConstraintDesiresSatisfied (constraints : Constraints) (counts : Tally GoString) : Bool :=
  decide (∀ e ∈ constraints.entries, ¬ e.2.desired > counts.count e.1)

/-- Whether no type and not the total is below its minimum. -/
def countsShowValidState (constraints : Constraints) (minTotalUnderlays : Int)
    (counts : Tally GoString) : Bool :=
  if ∀ e ∈ constraints.entries, ¬ e.2.min > counts.count e.1 then
    !decide ((counts.total : Int) < minTotalUnderlays)
  else false

theorem countsShowValidState_iff {constraints : Constraints} {minTotal : Int}
    {counts : Tally GoString} : countsShowValidState constraints minTotal counts = true ↔
      (∀ e ∈ constraints.entries, e.2.min ≤ counts.count e.1) ∧ minTotal ≤ counts.total := by
  unfold countsShowValidState
  split
  · next h => simpa using fun _ => h
  · next h =>
    refine iff_of_false Bool.false_ne_true fun hall => h fun e he => ?_
    exact not_lt.mpr (hall.1 e he)

theorem areConstraintDesiresSatisfied_iff {constraints : Constraints} {counts : Tally GoString} :
    areConstraintDesiresSatisfied constraints counts = true ↔
      ∀ e ∈ constraints.entries, e.2.desired ≤ counts.count e.1 := by
  simp [areConstraintDesiresSatisfied]

theorem count_countsByType (entries : List Underlay) (t : GoString) :
    (countsByType entries).count t = entries.countP fun u => decide (getUnderlayType u = t) :=
  Tally.count_ofList _ _ _

theorem total_countsByType (entries : List Underlay) :
    (countsByType entries).total = entries.length :=
  Tally.total_ofList _ _

/-! ### The two readings -/

/-- Whether a channel serves an underlay under the type it has. -/
def Recognised (validUnderlayTypes : List GoString) (u : Underlay) : Prop :=
  validUnderlayTypes = [] ∨ getUnderlayType u ∈ validUnderlayTypes ∨
    getUnderlayType u = defaultUnderlayType

theorem getValidatedUnderlayType_of_recognised {valid : List GoString} {u : Underlay}
    (h : Recognised valid u) : getValidatedUnderlayType valid u = getUnderlayType u := by
  unfold getValidatedUnderlayType
  rcases h with rfl | h | h
  · simp
  · simp [h]
  · simp [h]

/-- No underlay is served under a type that is not recognised. -/
theorem getValidatedUnderlayType_ne {valid : List GoString} {u v : Underlay}
    (h : ¬ Recognised valid u) : getValidatedUnderlayType valid v ≠ getUnderlayType u := by
  unfold Recognised at h
  push Not at h
  obtain ⟨hnil, hmem, hdef⟩ := h
  unfold getValidatedUnderlayType
  rw [if_neg (by simpa using hnil)]
  split
  · next hv => exact fun heq => hmem (heq ▸ hv)
  · exact hdef.symm

/-- **Counts and validated types.**  For any list of valid types and any underlays: for
every type the count that constraint checking uses is the number of underlays served under
that type, if and only if the type of every underlay is recognised. -/
theorem counts_agree_iff (validUnderlayTypes : List GoString) (entries : List Underlay) :
    (∀ t, (countsByType entries).count t =
      entries.countP fun u => decide (getValidatedUnderlayType validUnderlayTypes u = t)) ↔
      ∀ u ∈ entries, Recognised validUnderlayTypes u := by
  constructor
  · intro h u hu
    by_contra hnot
    -- the type of `u` has a count, and nothing is served under it
    have hpos : 0 < entries.countP fun v => decide (getUnderlayType v = getUnderlayType u) :=
      List.countP_pos_iff.mpr ⟨u, hu, by simp⟩
    have hzero : (entries.countP fun v => decide
        (getValidatedUnderlayType validUnderlayTypes v = getUnderlayType u)) = 0 :=
      List.countP_eq_zero.mpr fun v _ => by simp [getValidatedUnderlayType_ne hnot]
    rw [← count_countsByType, h, hzero] at hpos
    exact absurd hpos (lt_irrefl 0)
  · intro h t
    rw [count_countsByType]
    refine List.countP_congr fun u hu => ?_
    rw [getValidatedUnderlayType_of_recognised (h u hu)]

/-- One underlay of a type that is not listed: it is served as the default type, the count
of the default type is zero, and a channel that needs one underlay of the default type takes
itself to be below its minimum. -/
theorem counts_agree_unlisted :
    let valid := [str "default", str "control"]
    let u : Underlay := ⟨0, [], [], Finmap.singleton typeHeader (str "data")⟩
    let constraints : Constraints := Finmap.singleton (str "default") ⟨1, 1⟩
    getValidatedUnderlayType valid u = str "default" ∧
      (countsByType [u]).count (str "default") = 0 ∧
      ([u].countP fun v => decide (getValidatedUnderlayType valid v = str "default")) = 1 ∧
      countsShowValidState constraints 0 (countsByType [u]) = false := by
  decide

end ZitiChannel
