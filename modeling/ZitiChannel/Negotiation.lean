import ZitiChannel.Fragmentation
import ZitiChannel.Refusal

/-!
# Negotiating the version

A listener that does not know the version of a hello answers with the versions that it supports: a
magic of its own, how many there are, and the versions.  The dialer reads the answer where it
expects a message, and goes through the versions that it speaks itself, the one it likes best first,
for one that the listener supports too.  An answer that is cut off or lists too many versions is no
answer.

## Main definitions

* `versionResponse`, `writeUnknownVersionResponse` — the answer.
* `GoError.getRetryVersionFor` — the dialer's choice.
* `Negotiated` — what the choice is to be.

## Main results

* `readV2_versionResponse`, `readV2_cut_versionResponse` — what is read.
* `negotiated_getRetryVersionFor` — what is chosen.
* `negotiation` — **the dialer picks the first of its versions that the listener lists, and none if
  the answer is no good.**

The source is `message.go`.
-/

namespace ZitiChannel

open ByteStream ByteSource

/-! ### The answer -/

/-- The answer that lists the given versions. -/
def versionResponse (versions : List UInt32) : Bytes :=
  magicUnknownVersion ++ (putUint32 (UInt32.ofNat versions.length) ++ versions.flatMap putUint32)

/-- What `WriteUnknownVersionResponse` writes: two versions, the first and the second. -/
def writeUnknownVersionResponse : Bytes :=
  magicUnknownVersion ++ [2, 1, 2].flatMap putUint32

theorem writeUnknownVersionResponse_eq : writeUnknownVersionResponse = versionResponse [1, 2] := by
  decide

theorem length_flatMap_putUint32 (versions : List UInt32) :
    (versions.flatMap putUint32).length = versions.length * versionLen := by
  induction versions with
  | nil => rfl
  | cons v versions ih =>
    rw [List.flatMap_cons, List.length_append, ih, length_putUint32, List.length_cons, Nat.succ_mul,
      Nat.add_comm]
    rfl

/-- The versions are read back as they were written. -/
theorem decodeVersions_flatMap (versions : List UInt32) :
    decodeVersions (versions.flatMap putUint32) = versions := by
  induction versions with
  | nil => rfl
  | cons v versions ih =>
    have hword : uint32 (putUint32 v) = v := uint32_putUint32 v
    rw [List.flatMap_cons]
    simp only [putUint32, leBytes, List.cons_append, List.nil_append] at hword ih ⊢
    rw [decodeVersions, hword, ih]

/-! ### Reading it -/

/-- Behind the magic, the whole answer decodes to its versions, whatever follows. -/
theorem decodeVersionResponse_encoded {versions : List UInt32}
    (hcount : versions.length ≤ maxSupportedVersionCount) (rest : Bytes) :
    decodeVersionResponse
        (putUint32 (UInt32.ofNat versions.length) ++ versions.flatMap putUint32 ++ rest) =
      .unsupportedVersion versions := by
  have hnat : (UInt32.ofNat versions.length).toNat = versions.length := by
    rw [UInt32.toNat_ofNat_of_lt']
    unfold maxSupportedVersionCount at hcount
    exact hcount.trans_lt (by decide)
  have htake : (putUint32 (UInt32.ofNat versions.length) ++ versions.flatMap putUint32 ++ rest).take
      versionLen = putUint32 (UInt32.ofNat versions.length) := by
    rw [List.append_assoc]
    exact List.take_left' (length_putUint32 _)
  have hdrop : (putUint32 (UInt32.ofNat versions.length) ++ versions.flatMap putUint32 ++ rest).drop
      versionLen = versions.flatMap putUint32 ++ rest := by
    rw [List.append_assoc]
    exact List.drop_left' (length_putUint32 _)
  have hlen := length_flatMap_putUint32 versions
  have hversions : (versions.flatMap putUint32 ++ rest).take (versions.length * versionLen) =
      versions.flatMap putUint32 := List.take_left' hlen
  have hlong : ¬ (putUint32 (UInt32.ofNat versions.length) ++ versions.flatMap putUint32 ++
      rest).length < versionLen + versions.length * versionLen := by
    rw [List.length_append, List.length_append, length_putUint32, hlen, show versionLen = 4 from rfl]
    omega
  simp only [decodeVersionResponse, htake, hdrop, uint32_putUint32, hnat, hversions,
    decodeVersions_flatMap]
  rw [if_neg]
  rw [not_or, not_or]
  exact ⟨by omega, by omega, hlong⟩

/-- An answer that announces too many versions is no answer. -/
theorem decodeVersionResponse_many {count : UInt32} (hcount : maxSupportedVersionCount < count.toNat)
    (rest : Bytes) :
    decodeVersionResponse (putUint32 count ++ rest) = .text "channel synchronization" := by
  have htake : (putUint32 count ++ rest).take versionLen = putUint32 count :=
    List.take_left' (length_putUint32 _)
  simp only [decodeVersionResponse, htake, uint32_putUint32]
  exact if_pos (.inr (.inl hcount))

/-- Nor is one that is cut off behind the magic. -/
theorem decodeVersionResponse_cut {versions : List UInt32} (hcount : versions.length < 2 ^ 32)
    {b : Bytes}
    (hpre : b <+: putUint32 (UInt32.ofNat versions.length) ++ versions.flatMap putUint32)
    (hlt : b.length < versionLen + versions.length * versionLen) :
    decodeVersionResponse b = .text "channel synchronization" := by
  by_cases hshort : b.length < versionLen
  · exact if_pos (.inl hshort)
  · have htake : b.take versionLen = putUint32 (UInt32.ofNat versions.length) := by
      have hb : putUint32 (UInt32.ofNat versions.length) <+: b :=
        List.prefix_of_prefix_length_le (List.prefix_append _ _) hpre
          (by rw [length_putUint32]; exact Nat.not_lt.mp hshort)
      exact (List.prefix_iff_eq_take.mp hb).symm
    have hnat : (UInt32.ofNat versions.length).toNat = versions.length :=
      UInt32.toNat_ofNat_of_lt' hcount
    simp only [decodeVersionResponse, htake, uint32_putUint32, hnat]
    exact if_pos (.inr (.inr hlt))

section

variable {σ : Type} [ByteSource σ] {s : σ}

/-- Behind the magic of an answer, `readV2` decodes the answer. -/
theorem readV2_of_magicUnknownVersion {b : Bytes} (hs : remaining s = magicUnknownVersion ++ b) :
    (readV2 s).1 = .error (decodeVersionResponse b) := by
  have htake : (remaining s).take magicLength = magicUnknownVersion := by
    rw [hs]
    exact List.take_left' rfl
  have hdrop : (remaining s).drop magicLength = b := by
    rw [hs]
    exact List.drop_left' rfl
  have hmin : magicLength ≤ (remaining s).length := by
    rw [hs, List.length_append]
    exact Nat.le_add_right 4 _
  rw [readV2_other_magic hmin (by rw [htake]; decide), if_pos htake, hdrop]

/-- The versions that are listed are read. -/
theorem readV2_versionResponse {versions : List UInt32}
    (hcount : versions.length ≤ maxSupportedVersionCount) {rest : Bytes}
    (hs : remaining s = versionResponse versions ++ rest) :
    (readV2 s).1 = .error (.unsupportedVersion versions) := by
  rw [versionResponse, List.append_assoc] at hs
  rw [readV2_of_magicUnknownVersion hs, decodeVersionResponse_encoded hcount]

/-- Of an answer that is cut off, no versions are read. -/
theorem readV2_cut_versionResponse {versions : List UInt32} (hcount : versions.length < 2 ^ 32)
    (hpre : remaining s <+: versionResponse versions) (hne : remaining s ≠ versionResponse versions) :
    ∃ err, (readV2 s).1 = .error err ∧ ∀ vs, err ≠ .unsupportedVersion vs := by
  by_cases hmin : (remaining s).length < magicLength
  · obtain ⟨next, -, hread⟩ :=
      readAtLeast_of_lt s (show magicLength ≤ dataSectionV2 by decide) hmin
    refine ⟨.read (if remaining s = [] then .eof else .unexpectedEOF), ?_, fun vs h => ?_⟩
    · simp only [readV2, hread]
    · cases h
  · -- the magic is there, and the rest of the answer is not
    have hmagic : magicUnknownVersion <+: remaining s :=
      List.prefix_of_prefix_length_le (List.prefix_append _ _) hpre (Nat.not_lt.mp hmin)
    obtain ⟨b, hb⟩ := hmagic
    rw [← hb, versionResponse] at hpre hne
    have hpre' := (List.prefix_append_right_inj magicUnknownVersion).mp hpre
    have hlt : b.length < versionLen + versions.length * versionLen := by
      have hfull : (putUint32 (UInt32.ofNat versions.length) ++ versions.flatMap putUint32).length =
          versionLen + versions.length * versionLen := by
        rw [List.length_append, length_putUint32, length_flatMap_putUint32]
        rfl
      refine lt_of_le_of_ne (hfull ▸ hpre'.length_le) fun heq => hne ?_
      rw [hpre'.eq_of_length (heq.trans hfull.symm)]
    refine ⟨_, readV2_of_magicUnknownVersion hb.symm, fun vs h => ?_⟩
    rw [decodeVersionResponse_cut hcount hpre' hlt] at h
    cases h

end

/-! ### Choosing -/

namespace GoError

/-- The first of the local versions that the peer names, or the default. -/
def getRetryVersionFor (err : GoError) (defaultVersion : UInt32) (localVersions : List UInt32) :
    UInt32 × Bool :=
  match err with
  | .wire (.unsupportedVersion supportedVersions) =>
      if supportedVersions.length > 0 then
        match localVersions.find? fun version =>
            supportedVersions.any fun remoteVersion => remoteVersion == version with
        | some version => (version, true)
        | none => (defaultVersion, false)
      else (defaultVersion, false)
  | _ => (defaultVersion, false)

/-- An error of another kind names no version. -/
theorem getRetryVersionFor_other {err : WireError} (h : ∀ vs, err ≠ .unsupportedVersion vs)
    (d : UInt32) (ls : List UInt32) : (wire err).getRetryVersionFor d ls = (d, false) := by
  cases err with
  | unsupportedVersion vs => exact absurd rfl (h vs)
  | _ => rfl

/-- The dial loop speaks the second version only. -/
theorem getRetryVersion_eq (err : GoError) : err.getRetryVersion = err.getRetryVersionFor 2 [2] := by
  cases err with
  | wire err =>
    cases err with
    | unsupportedVersion versions =>
      have hany : (versions.any fun v => v == 2) = versions.contains 2 := by
        rw [List.contains_eq_any_beq]
        exact congrArg versions.any (funext fun v => BEq.comm)
      rw [getRetryVersion, getRetryVersionFor, List.find?_cons, hany]
      cases versions with
      | nil => rfl
      | cons v versions =>
        rw [if_pos (List.length_pos_of_mem List.mem_cons_self)]
        cases (v :: versions).contains 2 with
        | true => rfl
        | false => rfl
    | _ => rfl
  | _ => rfl

end GoError

/-- What is to be chosen from the local versions `ls`, with the default `d`, if the peer supports
`vs`. -/
structure Negotiated (d : UInt32) (ls vs : List UInt32) (choice : UInt32 × Bool) : Prop where
  /-- The first local version that is supported. -/
  first : ∀ pre v post, ls = pre ++ v :: post → (∀ w ∈ pre, w ∉ vs) → v ∈ vs → choice = (v, true)
  /-- That is the greatest if the local versions are descending. -/
  greatest : ls.Pairwise (fun v w => w ≤ v) → (∃ w ∈ ls, w ∈ vs) →
    choice.1 ∈ ls ∧ choice.1 ∈ vs ∧ ∀ w ∈ ls, w ∈ vs → w ≤ choice.1
  none : (∀ w ∈ ls, w ∉ vs) → choice = (d, false)

/-- The choice, as a search through the local versions. -/
theorem getRetryVersionFor_unsupportedVersion (d : UInt32) (ls vs : List UInt32) :
    (GoError.wire (.unsupportedVersion vs)).getRetryVersionFor d ls =
      match ls.find? fun v => decide (v ∈ vs) with
      | some v => (v, true)
      | .none => (d, false) := by
  have hmem : (fun version => vs.any fun remoteVersion => remoteVersion == version) =
      fun v => decide (v ∈ vs) := by
    funext v
    rw [Bool.eq_iff_iff, List.any_eq_true, decide_eq_true_iff]
    simp
  rw [GoError.getRetryVersionFor, hmem]
  cases vs with
  | nil =>
    have hfind : (ls.find? fun v => decide (v ∈ ([] : List UInt32))) = .none := by simp
    rw [hfind]
    rfl
  | cons v vs => rw [if_pos (List.length_pos_of_mem List.mem_cons_self)]

theorem negotiated_getRetryVersionFor (d : UInt32) (ls vs : List UInt32) :
    Negotiated d ls vs ((GoError.wire (.unsupportedVersion vs)).getRetryVersionFor d ls) := by
  rw [getRetryVersionFor_unsupportedVersion]
  refine ⟨?_, ?_, ?_⟩
  · intro pre v post hls hpre hv
    have hfind : ls.find? (fun v => decide (v ∈ vs)) = some v := by
      rw [List.find?_eq_some_iff_append]
      exact ⟨decide_eq_true hv, pre, post, hls, fun w hw => by simp [hpre w hw]⟩
    rw [hfind]
  · intro hdesc ⟨w, hw, hwvs⟩
    cases hfind : ls.find? fun v => decide (v ∈ vs) with
    | none => exact absurd (decide_eq_true hwvs) (List.find?_eq_none.mp hfind w hw)
    | some v =>
      obtain ⟨hv, pre, post, hls, hpre⟩ := List.find?_eq_some_iff_append.mp hfind
      refine ⟨by rw [hls]; simp, of_decide_eq_true hv, ?_⟩
      intro w hw hwvs
      rw [hls] at hdesc hw
      rcases List.mem_append.mp hw with hbefore | hafter
      · exact absurd (hpre w hbefore) (by simp [hwvs])
      · rcases List.mem_cons.mp hafter with heq | hpost
        · exact heq ▸ UInt32.le_refl v
        · exact List.rel_of_pairwise_cons (List.pairwise_append.mp hdesc).2.1 hpost
  · intro hnone
    have hfind : ls.find? (fun v => decide (v ∈ vs)) = .none := by
      rw [List.find?_eq_none]
      intro w hw
      simp [hnone w hw]
    rw [hfind]

/-! ### Negotiation -/

/-- **Negotiation.**  Let a peer answer with any versions, 64 at most, and anything behind them,
from any source.  Then the versions are read as they are, and of the local versions the first is
chosen that is among them, which is the greatest common version if the local ones are descending; or
the default, without a match, if there is none.  An answer that is cut off anywhere, or that
announces more than 64 versions, fails with an error that makes the choice the default without a
match. -/
theorem negotiation {σ : Type} [ByteSource σ] (s : σ) (d : UInt32) (ls : List UInt32) :
    (∀ vs rest, vs.length ≤ 64 → remaining s = versionResponse vs ++ rest →
      (readV2 s).1 = .error (.unsupportedVersion vs) ∧
        Negotiated d ls vs ((GoError.wire (.unsupportedVersion vs)).getRetryVersionFor d ls)) ∧
    (∀ vs, vs.length < 2 ^ 32 → remaining s <+: versionResponse vs → remaining s ≠ versionResponse vs →
      ∃ err, (readV2 s).1 = .error err ∧ (GoError.wire err).getRetryVersionFor d ls = (d, false)) ∧
    (∀ count rest, 64 < UInt32.toNat count →
      remaining s = magicUnknownVersion ++ (putUint32 count ++ rest) →
      ∃ err, (readV2 s).1 = .error err ∧ (GoError.wire err).getRetryVersionFor d ls = (d, false)) := by
  refine ⟨?_, ?_, ?_⟩
  · intro vs rest hcount hs
    exact ⟨readV2_versionResponse hcount hs, negotiated_getRetryVersionFor d ls vs⟩
  · intro vs hcount hpre hne
    obtain ⟨err, hread, hother⟩ := readV2_cut_versionResponse hcount hpre hne
    exact ⟨err, hread, GoError.getRetryVersionFor_other hother d ls⟩
  · intro count rest hcount hs
    refine ⟨_, readV2_of_magicUnknownVersion hs, ?_⟩
    rw [decodeVersionResponse_many hcount]
    rfl

/-- A dialer that speaks the versions three to one meets the answer of
`WriteUnknownVersionResponse`, byte by byte and whole, cut off, and with another count. -/
theorem negotiation_two :
    let source (b : Bytes) : Chopped := ⟨b, fun _ => (1, false)⟩
    let choice (b : Bytes) (err : WireError) := (readV2 (source b)).1 = .error err ∧
      (GoError.wire err).getRetryVersionFor 9 [3, 2, 1] = (9, false)
    ((readV2 (source (writeUnknownVersionResponse ++ [0]))).1 = .error (.unsupportedVersion [1, 2]) ∧
      (GoError.wire (.unsupportedVersion [1, 2])).getRetryVersionFor 9 [3, 2, 1] = (2, true)) ∧
      (∃ err, choice (writeUnknownVersionResponse.take 15) err) ∧
      ∃ err, choice (magicUnknownVersion ++ putUint32 65) err := by
  intro source choice
  refine ⟨?_, ?_, ?_⟩
  · obtain ⟨hread, hchoice⟩ := (negotiation (source (writeUnknownVersionResponse ++ [0])) 9
      [3, 2, 1]).1 [1, 2] [0] (by decide) (by rw [← writeUnknownVersionResponse_eq]; rfl)
    exact ⟨hread, hchoice.first [3] 2 [1] rfl (by simp) (by decide)⟩
  · refine (negotiation (source (writeUnknownVersionResponse.take 15)) 9 [3, 2, 1]).2.1 [1, 2]
      (by decide) ?_ ?_
    · rw [← writeUnknownVersionResponse_eq]
      exact List.take_prefix _ _
    · rw [← writeUnknownVersionResponse_eq]
      exact fun h => absurd (congrArg List.length h) (by decide)
  · exact (negotiation (source (magicUnknownVersion ++ putUint32 65)) 9 [3, 2, 1]).2.2 65 []
      (by decide) rfl

end ZitiChannel
