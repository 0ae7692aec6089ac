import Mathlib.Data.Nat.Notation
import Mathlib.Tactic.Common

/-!
# Entries one after the other

Many formats are entries in a row: as many as a count says, or as many as there is room for.  A
relation `R b a rest` says that `b` starts with the entry `a` and goes on with `rest`.  `Entries R`
is the same for a list of entries.

## Main definitions

* `Entries` — `b` starts with these entries, and goes on with `rest`.
* `Reads` — a reader of one entry that takes exactly what the relation says.
* `readTimes` — the loop that reads a number of entries, and stores each.

## Main results

* `Entries.flatMap_iff` — the entries in a row of encodings.
* `readTimes_ok_iff` — the loop ends exactly if the entries are there.
* `readTimes_error` — an error of the loop is one of the reader.
-/

namespace Repetition

variable {α β γ ε : Type}

/-- `b` starts with the entries `as`, and goes on with `rest`. -/
inductive Entries (R : β → α → β → Prop) : β → List α → β → Prop
  | nil (b : β) : Entries R b [] b
  | cons {b b' rest : β} {a : α} {as : List α} (head : R b a b') (tail : Entries R b' as rest) :
      Entries R b (a :: as) rest

namespace Entries

variable {R R' : β → α → β → Prop} {b b' rest : β} {as as' : List α}

/-- Another relation may hold only of what is met on the way: `P` holds at the start, and goes on
to hold. -/
theorem mono {P : β → Prop} (hR : ∀ b a b', P b → R b a b' → R' b a b' ∧ P b') (hb : P b)
    (h : Entries R b as rest) : Entries R' b as rest := by
  induction h with
  | nil b => exact .nil b
  | cons head _ ih =>
    obtain ⟨head', hb'⟩ := hR _ _ _ hb head
    exact .cons head' (ih hb')

/-- If `b` decides its first entry, it decides as many as are asked for. -/
theorem unique (hR : ∀ b a b' a' b'', R b a b' → R b a' b'' → a = a' ∧ b' = b'')
    (h : Entries R b as rest) (h' : Entries R b as' b') (hlen : as.length = as'.length) :
    as = as' := by
  induction h generalizing as' with
  | nil b => exact (List.length_eq_zero_iff.mp hlen.symm).symm
  | cons head _ ih =>
    cases h' with
    | nil => cases hlen
    | cons head' tail' =>
      obtain ⟨rfl, rfl⟩ := hR _ _ _ _ _ head head'
      rw [ih tail' (Nat.succ.inj hlen)]

/-- **The entries in a row of encodings** are the encoded ones, if each of them is one: `P` is what
makes it one, and `f` how it comes back. -/
theorem flatMap_iff {δ α' : Type} {R : List δ → α' → List δ → Prop} {enc : α → List δ} {f : α → α'}
    {P : α → Prop} (rest : List δ) : ∀ (as : List α),
    (∀ a ∈ as, ∀ rest a' rest', R (enc a ++ rest) a' rest' ↔ P a ∧ a' = f a ∧ rest' = rest) →
    ∀ (as' : List α') (rest' : List δ),
      (as'.length = as.length ∧ Entries R (as.flatMap enc ++ rest) as' rest') ↔
        (∀ a ∈ as, P a) ∧ as' = as.map f ∧ rest' = rest := by
  intro as
  induction as with
  | nil =>
    intro _ as' rest'
    constructor
    · rintro ⟨hlen, h⟩
      cases List.length_eq_zero_iff.mp hlen
      cases h
      exact ⟨by simp, rfl, rfl⟩
    · rintro ⟨-, rfl, rfl⟩
      exact ⟨rfl, .nil _⟩
  | cons a as ih =>
    intro henc as' rest'
    have hhead := henc a List.mem_cons_self
    have htail := ih fun a' ha' => henc a' (List.mem_cons_of_mem a ha')
    rw [List.flatMap_cons, List.append_assoc]
    constructor
    · rintro ⟨hlen, h⟩
      cases h with
      | nil => cases hlen
      | cons head tail =>
        obtain ⟨ha, rfl, rfl⟩ := (hhead _ _ _).mp head
        obtain ⟨has, rfl, rfl⟩ := (htail _ _).mp ⟨Nat.succ.inj hlen, tail⟩
        exact ⟨List.forall_mem_cons.mpr ⟨ha, has⟩, rfl, rfl⟩
    · rintro ⟨hP, rfl, rfl⟩
      obtain ⟨ha, has⟩ := List.forall_mem_cons.mp hP
      obtain ⟨hlen, tail⟩ := (htail _ _).mpr ⟨has, rfl, rfl⟩
      exact ⟨by rw [List.length_map], .cons ((hhead _ _ _).mpr ⟨ha, rfl, rfl⟩) tail⟩

end Entries

/-- `read` takes an entry exactly where there is one. -/
def Reads (read : β → Except ε (α × β)) (R : β → α → β → Prop) : Prop :=
  ∀ b a b', read b = .ok (a, b') ↔ R b a b'

/-- Read `n` entries, storing each into `acc`. -/
def readTimes (read : β → Except ε (α × β)) (store : γ → α → γ) : ℕ → β → γ → Except ε γ
  | 0, _, acc => .ok acc
  | n + 1, b, acc =>
      match read b with
      | .error err => .error err
      | .ok (a, b) => readTimes read store n b (store acc a)

section

variable {read : β → Except ε (α × β)} {store : γ → α → γ}

/-- **The loop ends exactly if the entries are there**, and then has stored them. -/
theorem readTimes_ok_iff {R : β → α → β → Prop} (hread : Reads read R) :
    ∀ (n : ℕ) (b : β) (acc result : γ), readTimes read store n b acc = .ok result ↔
      ∃ as rest, as.length = n ∧ Entries R b as rest ∧ result = as.foldl store acc := by
  intro n
  induction n with
  | zero =>
    intro b acc result
    rw [readTimes]
    constructor
    · intro h
      cases h
      exact ⟨[], b, rfl, .nil b, rfl⟩
    · rintro ⟨as, rest, hlen, -, rfl⟩
      rw [List.length_eq_zero_iff.mp hlen]
      rfl
  | succ n ih =>
    intro b acc result
    rw [readTimes]
    constructor
    · intro h
      split at h
      · cases h
      · next a b' ha =>
        obtain ⟨as, rest, hlen, htail, rfl⟩ := (ih _ _ _).mp h
        exact ⟨a :: as, rest, by rw [List.length_cons, hlen], .cons ((hread _ _ _).mp ha) htail, rfl⟩
    · rintro ⟨as, rest, hlen, h, rfl⟩
      cases h with
      | nil => cases hlen
      | @cons _ _ _ a as head tail =>
        rw [(hread _ _ _).mpr head]
        exact (ih _ _ _).mpr ⟨as, rest, Nat.succ.inj hlen, tail, rfl⟩

/-- What is true of the reader's errors is true of the loop's. -/
theorem readTimes_error {P : ε → Prop} (hread : ∀ b err, read b = .error err → P err) :
    ∀ (n : ℕ) (b : β) (acc : γ) (err : ε), readTimes read store n b acc = .error err → P err := by
  intro n
  induction n with
  | zero => intro b acc err h; cases h
  | succ n ih =>
    intro b acc err h
    rw [readTimes] at h
    split at h
    · next err' herr =>
      cases h
      exact hread _ _ herr
    · exact ih _ _ _ h

end

end Repetition
