import ZitiChannel.Lib.Entries
import ZitiChannel.WireRoundTrip

/-!
# The grammar of a header block

A header block is headers in a row: each is a key, the length of a value, and the value.  Nothing
separates them and nothing ends them, so a block is well formed exactly if headers tile it.  A key
may come again; then the last value counts.

`unmarshalHeaders` moves a cursor over the block and checks three bounds: that a block is not shorter
than the fixed part of one header, that the fixed part of the next one is there, and that its value
is there.

## Main definitions

* `HeaderField` — a header at the start of a byte string, and what follows it.
* `HeaderBlock` — headers that tile a byte string.

## Main results

* `unmarshalHeadersLoop_append` — one turn of the loop, in terms of what is behind the cursor.
* `unmarshalHeadersLoop_ok_iff` — the loop ends exactly if headers tile what is behind the cursor.
* `unmarshalHeaders_grammar` — **the accepted blocks are the tilings**, and the map has the last
  value of each key.

The source is `message.go`.
-/

namespace ZitiChannel

open ByteStream Repetition

/-- `b` starts with the header `e`, and goes on with `rest`. -/
def HeaderField (b : Bytes) (e : HeaderEntry) (rest : Bytes) : Prop :=
  ∃ key length : Bytes, key.length = 4 ∧ length.length = 4 ∧ e.1 = int32 key ∧
    (uint32 length).toNat = e.2.length ∧ b = key ++ (length ++ (e.2 ++ rest))

/-- The headers `entries` in a row, and nothing else. -/
def HeaderBlock (b : Bytes) (entries : List HeaderEntry) : Prop := Entries HeaderField b entries []

/-- The length field decides the value, and what follows it. -/
theorem headerField_iff {b rest : Bytes} {e : HeaderEntry} :
    HeaderField b e rest ↔ 8 ≤ b.length ∧ (uint32 (b.drop 4)).toNat ≤ b.length - 8 ∧
      e = ⟨int32 b, (b.drop 8).take (uint32 (b.drop 4)).toNat⟩ ∧
      rest = (b.drop 8).drop (uint32 (b.drop 4)).toNat := by
  constructor
  · rintro ⟨key, length, hkey, hlength, hk, hv, rfl⟩
    obtain ⟨k, v⟩ := e
    have hdrop : (key ++ (length ++ (v ++ rest))).drop 4 = length ++ (v ++ rest) :=
      List.drop_left' hkey
    have hdrop' : (key ++ (length ++ (v ++ rest))).drop 8 = v ++ rest := by
      rw [show 8 = 4 + 4 from rfl, ← List.drop_drop, hdrop, List.drop_left' hlength]
    have hint : int32 (key ++ (length ++ (v ++ rest))) = int32 key := by
      rw [int32, int32, uint32_append hkey]
    dsimp only at hk hv
    rw [hdrop, hdrop', hint, uint32_append hlength, hv, hk, List.take_left, List.drop_left]
    refine ⟨?_, ?_, rfl, rfl⟩
    · simp only [List.length_append, hkey, hlength]; omega
    · simp only [List.length_append, hkey, hlength]; omega
  · rintro ⟨hlen, hvalue, rfl, rfl⟩
    refine ⟨b.take 4, (b.drop 4).take 4, ?_, ?_, ?_, ?_, ?_⟩
    · rw [List.length_take]; omega
    · rw [List.length_take, List.length_drop]; omega
    · rw [int32, int32, uint32_take]
    · rw [uint32_take, List.length_take, List.length_drop]; omega
    · rw [List.take_append_drop, show b.drop 8 = (b.drop 4).drop 4 by rw [List.drop_drop],
        List.take_append_drop, List.take_append_drop]

theorem HeaderField.length_eq {b rest : Bytes} {e : HeaderEntry} (h : HeaderField b e rest) :
    b.length = 8 + e.2.length + rest.length := by
  obtain ⟨key, length, hkey, hlength, -, -, rfl⟩ := h
  simp only [List.length_append, hkey, hlength]
  omega

theorem slice_append_add (before b : Bytes) (lo hi : ℕ) :
    slice (before ++ b) (before.length + lo) (before.length + hi) = slice b lo hi := by
  rw [slice_append_right (by omega), Nat.add_sub_cancel_left, Nat.add_sub_cancel_left]

/-- **One turn of the loop**: it takes the header behind the cursor, if there is one. -/
theorem unmarshalHeadersLoop_append (before b : Bytes) (out : Headers) :
    unmarshalHeadersLoop (before ++ b) before.length out =
      if b = [] then .ok out
      else if b.length < 8 then
        .error (.text s!"short header meta-data ({before.length + 8} >= {(before ++ b).length})")
      else if b.length - 8 < (uint32 (b.drop 4)).toNat then
        .error (.text
          s!"short header data ({before.length + 8 + (uint32 (b.drop 4)).toNat} >= {(before ++ b).length})")
      else
        unmarshalHeadersLoop (before ++ b) (before.length + 8 + (uint32 (b.drop 4)).toNat)
          (Finmap.insert (int32 b) ((b.drop 8).take (uint32 (b.drop 4)).toNat) out) := by
  have hslice := slice_append_add before b
  have hkey : int32 (slice (before ++ b) before.length (before.length + 4)) = int32 b := by
    rw [int32, int32, show slice (before ++ b) before.length (before.length + 4) = b.take 4 from
      hslice 0 4, uint32_take]
  have hlength : uint32 (slice (before ++ b) (before.length + 4) (before.length + 8)) =
      uint32 (b.drop 4) := by
    rw [hslice, slice, List.drop_take, uint32_take]
  have hdata : ∀ n, slice (before ++ b) (before.length + 8) (before.length + 8 + n) =
      (b.drop 8).take n := by
    intro n
    rw [Nat.add_assoc, hslice, slice, List.drop_take, Nat.add_sub_cancel_left]
  rw [unmarshalHeadersLoop]
  simp only [hkey, hlength, hdata]
  by_cases hnil : b = []
  · subst hnil
    simp
  · have hpos : 0 < b.length := List.length_pos_iff.mpr hnil
    have hlen : (before ++ b).length = before.length + b.length := List.length_append
    rw [if_pos (by omega), if_neg hnil]
    refine ite_congr (propext (by omega)) (fun _ => rfl) fun hmeta => ?_
    exact if_congr (by omega) rfl rfl

/-- No bytes hold no headers. -/
theorem entries_headerField_nil {entries : List HeaderEntry} {rest : Bytes}
    (h : Entries HeaderField [] entries rest) : entries = [] ∧ rest = [] := by
  cases h with
  | nil => exact ⟨rfl, rfl⟩
  | cons head tail =>
    have hlen := (headerField_iff.mp head).1
    rw [List.length_nil] at hlen
    omega

theorem headerBlock_nil_iff {entries : List HeaderEntry} : HeaderBlock [] entries ↔ entries = [] := by
  constructor
  · exact fun h => (entries_headerField_nil h).1
  · rintro rfl
    exact .nil []

theorem headerBlock_iff {b : Bytes} {entries : List HeaderEntry} (hnil : b ≠ []) :
    HeaderBlock b entries ↔
      ∃ e rest tail, HeaderField b e rest ∧ HeaderBlock rest tail ∧ entries = e :: tail := by
  constructor
  · intro h
    cases h with
    | nil => exact absurd rfl hnil
    | cons head tail => exact ⟨_, _, _, head, tail, rfl⟩
  · rintro ⟨e, rest, tail, head, htail, rfl⟩
    exact .cons head htail

/-- **The loop ends exactly if headers tile what is behind the cursor**, and has stored them. -/
theorem unmarshalHeadersLoop_ok_iff (before b : Bytes) (out h : Headers) :
    unmarshalHeadersLoop (before ++ b) before.length out = .ok h ↔
      ∃ entries, HeaderBlock b entries ∧ h = Ranging.storeAll out entries := by
  -- the induction is on how many bytes are behind the cursor
  induction hn : b.length using Nat.strong_induction_on generalizing before b out with
  | _ n ih =>
  rw [unmarshalHeadersLoop_append]
  by_cases hnil : b = []
  · subst hnil
    simp [headerBlock_nil_iff, Ranging.storeAll, eq_comm]
  rw [if_neg hnil]
  simp only [headerBlock_iff hnil, headerField_iff]
  by_cases hshort : b.length < 8
  · simp [hshort, Nat.not_le.mpr hshort]
  rw [if_neg hshort]
  by_cases hvalue : b.length - 8 < (uint32 (b.drop 4)).toNat
  · simp [hvalue, Nat.not_le.mpr hvalue]
  rw [if_neg hvalue]
  -- the rest of the loop runs with this header behind the cursor
  obtain ⟨hlen, hfit⟩ := And.intro (Nat.not_lt.mp hshort) (Nat.not_lt.mp hvalue)
  set len := (uint32 (b.drop 4)).toNat
  have hcursor : (before ++ b.take (8 + len)).length = before.length + 8 + len := by
    rw [List.length_append, List.length_take]
    omega
  have hrest : before ++ b = (before ++ b.take (8 + len)) ++ (b.drop 8).drop len := by
    rw [List.drop_drop, List.append_assoc, List.take_append_drop]
  have hless : ((b.drop 8).drop len).length < n := by
    rw [List.length_drop, List.length_drop]
    omega
  rw [hrest, ← hcursor, ih _ hless _ _ _ rfl]
  constructor
  · rintro ⟨entries, hentries, rfl⟩
    exact ⟨_, ⟨_, _, entries, ⟨hlen, hfit, rfl, rfl⟩, hentries, rfl⟩, rfl⟩
  · rintro ⟨-, ⟨_, _, entries, ⟨-, -, rfl, rfl⟩, hentries, rfl⟩, rfl⟩
    exact ⟨entries, hentries, rfl⟩

theorem HeaderBlock.length_ge {b : Bytes} {entries : List HeaderEntry} (h : HeaderBlock b entries)
    (hnil : b ≠ []) : 8 ≤ b.length := by
  obtain ⟨e, rest, tail, head, -, -⟩ := (headerBlock_iff hnil).mp h
  exact (headerField_iff.mp head).1

/-- The check of the whole block refuses nothing that the loop would take. -/
theorem unmarshalHeaders_ok_iff (b : Bytes) (h : Headers) :
    unmarshalHeaders b = .ok h ↔
      ∃ entries, HeaderBlock b entries ∧ h = Ranging.storeAll ∅ entries := by
  rw [unmarshalHeaders]
  split
  · next hshort =>
    simp only [reduceCtorEq, false_iff, not_exists, not_and]
    intro entries hentries
    have := hentries.length_ge (List.length_pos_iff.mp hshort.1)
    omega
  · exact unmarshalHeadersLoop_ok_iff [] b ∅ h

theorem eq_storeAll_iff {h : Headers} {entries : List HeaderEntry} :
    h = Ranging.storeAll ∅ entries ↔ ∀ key, h.lookup key = entries.reverse.dlookup key := by
  have hlookup : ∀ key, (Ranging.storeAll ∅ entries).lookup key = entries.reverse.dlookup key := by
    intro key
    rw [Ranging.lookup_storeAll, Finmap.lookup_empty, Option.or_none]
  constructor
  · rintro rfl
    exact hlookup
  · intro h
    exact Finmap.ext_lookup fun key => (h key).trans (hlookup key).symm

/-- **The grammar of a header block.**  A block is accepted exactly if headers tile it, and the map
sends each key to the value of its last header; any other block gives an error. -/
theorem unmarshalHeaders_grammar (b : Bytes) :
    (∀ h, unmarshalHeaders b = .ok h ↔
      ∃ entries, HeaderBlock b entries ∧ ∀ key, h.lookup key = entries.reverse.dlookup key) ∧
    ((∃ err, unmarshalHeaders b = .error err) ↔ ¬ ∃ entries, HeaderBlock b entries) := by
  constructor
  · intro h
    rw [unmarshalHeaders_ok_iff]
    exact exists_congr fun entries => and_congr_right fun _ => eq_storeAll_iff
  · cases hb : unmarshalHeaders b with
    | error err =>
      refine ⟨fun _ => ?_, fun _ => ⟨err, rfl⟩⟩
      rintro ⟨entries, hentries⟩
      have hok := (unmarshalHeaders_ok_iff b _).mpr ⟨entries, hentries, rfl⟩
      rw [hb] at hok
      cases hok
    | ok h =>
      obtain ⟨entries, hentries, -⟩ := (unmarshalHeaders_ok_iff b h).mp hb
      simp only [reduceCtorEq, exists_false, false_iff, not_not]
      exact ⟨entries, hentries⟩

end ZitiChannel
